import TuyaAdapter.TklBt.AdvStructures

/-!
Contract: what the parser of advertising data reads, and what it applies.

The loop makes one turn for each AD structure of the longest prefix, so that what
it reads is compared with the payload of the structure of the turn, and the state
it leaves with all the structures. Only the loop over a list of UUIDs leaves its
payload, by one byte, when the payload has an odd length.
-/

namespace TuyaAdapter.TklBt

open Foundation Foundation.Decimal Foundation.KeyedFold

/-! ## The property and the condition -/

/-- The AD structure that a turn of the loop is about. -/
def Visit.ad (memory : Nat → UInt8) (visit : Visit) : AdStructure :=
  ⟨memory (visit.cursor + 1), window memory (visit.cursor + 2) (visit.adLen.toNat - 1)⟩

/-- All reads are below the length, those of a turn in the payload of its
structure, and `remaining_len` does not wrap. -/
structure StaysInside (length : Nat) (outcome : AdvOutcome) : Prop where
  lengthBytes : ∀ index ∈ outcome.lengthReads, index < length
  typeBytes : ∀ visit ∈ outcome.visits, visit.cursor + 1 < length
  payloads : ∀ visit ∈ outcome.visits, ∀ index ∈ visit.payloadReads,
    visit.cursor + 2 ≤ index ∧ index < visit.cursor + 1 + visit.adLen.toNat ∧ index < length
  noWrap : ∀ visit ∈ outcome.visits, visit.adLen.toNat + 1 ≤ visit.remainingLen.toNat

/-- The parser ends, stays inside its input, and applies the structures of the
longest prefix, one a turn. -/
def ParsesExactly (iter : HashTableIter) (memory : Nat → UInt8) (length : UInt16)
    (before : Advertisement) : Prop :=
  ∃ fuel outcome, parseAndUpdateAdvData iter fuel before (some ⟨length, some memory⟩) =
      some outcome ∧
    StaysInside length.toNat outcome ∧
    (∃ rest, adCode.LongestPrefix (outcome.visits.map (Visit.ad memory)) rest
      (window memory 0 length.toNat)) ∧
    AppliesExactly (outcome.visits.map (Visit.ad memory)) before outcome.advertisement

/-- A list of 16-bit UUIDs has no byte left over. -/
def AdStructure.PairsUp (ad : AdStructure) : Prop :=
  ad.adType = 0x02 ∨ ad.adType = 0x03 → ad.payload.length % 2 = 0

instance (ad : AdStructure) : Decidable ad.PairsUp := inferInstanceAs (Decidable (_ → _))

/-! ## Windows -/

section Windows

variable (memory : Nat → UInt8)

@[simp]
theorem window_length (start count : Nat) : (window memory start count).length = count := by
  rw [window, List.length_map, List.length_range']

@[simp]
theorem window_zero (start : Nat) : window memory start 0 = [] := rfl

theorem window_succ (start count : Nat) :
    window memory start (count + 1) = memory start :: window memory (start + 1) count := rfl

theorem window_add (start first second : Nat) :
    window memory start (first + second) =
      window memory start first ++ window memory (start + first) second := by
  unfold window
  rw [← List.map_append, List.range'_append_1]

/-! ## Lists of UUIDs -/

theorem uuidLoop_even {index count : Nat} (even : count % 2 = 0) :
    uuidLoop memory index count =
      ((pairs (window memory index count)).map uuid16Text, List.range' index count) := by
  induction count using Nat.strongRecOn generalizing index with
  | ind count inductionHypothesis =>
      match count with
      | 0 => rfl
      | 1 => exact absurd even (by decide)
      | left + 2 =>
          rw [uuidLoop, inductionHypothesis left (by omega) (by omega), window_succ, window_succ,
            pairs, List.map_cons]
          rfl

/-- The last word of an odd list is half outside. -/
theorem uuidLoop_odd {index count : Nat} (odd : count % 2 ≠ 0) :
    index + count ∈ (uuidLoop memory index count).2 := by
  induction count using Nat.strongRecOn generalizing index with
  | ind count inductionHypothesis =>
      match count with
      | 0 => exact absurd rfl odd
      | 1 => exact List.mem_cons_of_mem _ List.mem_cons_self
      | left + 2 =>
          have later : index + 2 + left ∈ (uuidLoop memory (index + 2) left).2 :=
            inductionHypothesis left (by omega) (by omega)
          rw [show index + 2 + left = index + (left + 2) by omega] at later
          exact List.mem_cons_of_mem _ (List.mem_cons_of_mem _ later)

/-! ## One turn -/

theorem wordAndData_window (adPayload payloadLen : Nat) :
    wordAndData (window memory adPayload payloadLen) =
      if 2 ≤ payloadLen then
        some (word (memory adPayload) (memory (adPayload + 1)),
          window memory (adPayload + 2) (payloadLen - 2))
      else none := by
  match payloadLen with
  | 0 => rfl
  | 1 => rfl
  | rest + 2 =>
      rw [if_pos (Nat.le_add_left 2 rest), window_succ, window_succ, wordAndData]
      rfl

/-- The switch absorbs the structure. -/
theorem adSwitch_absorbs {adType : UInt8} {adPayload payloadLen : Nat} (state : AdState)
    (pairsUp : AdStructure.PairsUp ⟨adType, window memory adPayload payloadLen⟩) :
    (adSwitch memory adType adPayload payloadLen state).1 =
      absorb state ⟨adType, window memory adPayload payloadLen⟩ := by
  unfold adSwitch absorb AdStructure.discoverable AdStructure.uuids AdStructure.name
    AdStructure.manufacturer AdStructure.service AdStructure.appearance
  by_cases flags : adType = 0x01
  · cases payloadLen with
    | zero => simp [flags]
    | succ rest => simp [flags, window_succ, setGeneralDiscoverable]
  by_cases uuids : adType = 0x02 ∨ adType = 0x03
  · have even : payloadLen % 2 = 0 := by
      rw [← window_length memory adPayload payloadLen]
      exact pairsUp uuids
    rw [uuidLoop_even memory even]
    rcases uuids with incomplete | complete
    · simp [incomplete]
    · simp [complete]
  by_cases names : adType = 0x08 ∨ adType = 0x09
  · obtain ⟨advertisement, serviceUuidsList, localName, tempServiceData⟩ := state
    cases localName with
    | none =>
        rcases names with shortened | complete
        · simp [shortened, gStrndup]
        · simp [complete, gStrndup]
    | some localName =>
        rcases names with shortened | complete
        · simp [shortened]
        · simp [complete]
  by_cases manufacturer : adType = 0xFF
  · by_cases long : 2 ≤ payloadLen
    · simp [manufacturer, wordAndData_window, long, setManufacturerData]
    · simp [manufacturer, wordAndData_window, long]
  by_cases service : adType = 0x16
  · by_cases long : 2 ≤ payloadLen
    · simp [service, wordAndData_window, long]
    · simp [service, wordAndData_window, long]
  by_cases appearance : adType = 0x19
  · by_cases two : payloadLen = 2
    · simp [appearance, two, window_succ, pairs, setAppearance]
    · simp [appearance, two]
  · simp [flags, uuids, names, manufacturer, service, appearance]

/-- The switch reads the payload, from its start on. -/
theorem adSwitch_reads {adType : UInt8} {adPayload payloadLen : Nat} (state : AdState)
    (pairsUp : AdStructure.PairsUp ⟨adType, window memory adPayload payloadLen⟩) :
    ∃ count, count ≤ payloadLen ∧
      (adSwitch memory adType adPayload payloadLen state).2 = List.range' adPayload count := by
  unfold adSwitch
  split_ifs with flags one uuids names unnamed manufacturer long service alsoLong appearance two
  · exact ⟨1, one, rfl⟩
  · exact ⟨0, Nat.zero_le _, rfl⟩
  · have even : payloadLen % 2 = 0 := by
      rw [← window_length memory adPayload payloadLen]
      exact pairsUp uuids
    rw [uuidLoop_even memory even]
    exact ⟨payloadLen, Nat.le_refl _, rfl⟩
  · exact ⟨_, Nat.min_le_right _ _, rfl⟩
  · exact ⟨0, Nat.zero_le _, rfl⟩
  · exact ⟨payloadLen, Nat.le_refl _, rfl⟩
  · exact ⟨0, Nat.zero_le _, rfl⟩
  · exact ⟨payloadLen, Nat.le_refl _, rfl⟩
  · exact ⟨0, Nat.zero_le _, rfl⟩
  · exact ⟨2, Nat.le_of_eq two.symm, rfl⟩
  · exact ⟨0, Nat.zero_le _, rfl⟩
  · exact ⟨0, Nat.zero_le _, rfl⟩

theorem adSwitch_reads_payload {adType : UInt8} {adPayload payloadLen : Nat} (state : AdState)
    (pairsUp : AdStructure.PairsUp ⟨adType, window memory adPayload payloadLen⟩) {index : Nat}
    (read : index ∈ (adSwitch memory adType adPayload payloadLen state).2) :
    adPayload ≤ index ∧ index < adPayload + payloadLen := by
  obtain ⟨count, within, isRange⟩ := adSwitch_reads memory state pairsUp
  rw [isRange] at read
  have bounds := List.mem_range'_1.mp read
  omega

/-- The switch reads the byte behind an odd list of UUIDs. -/
theorem adSwitch_reads_behind {adType : UInt8} {adPayload payloadLen : Nat} (state : AdState)
    (odd : ¬ AdStructure.PairsUp ⟨adType, window memory adPayload payloadLen⟩) :
    adPayload + payloadLen ∈ (adSwitch memory adType adPayload payloadLen state).2 := by
  obtain ⟨uuids, isOdd⟩ := Classical.not_imp.mp odd
  have noFlags : adType ≠ 0x01 := by
    intro isFlags
    rcases uuids with incomplete | complete
    · exact absurd (isFlags.symm.trans incomplete) (by decide)
    · exact absurd (isFlags.symm.trans complete) (by decide)
  rw [window_length] at isOdd
  unfold adSwitch
  rw [if_neg noFlags, if_pos uuids]
  exact uuidLoop_odd memory isOdd

/-! ## The loop -/

/-- A turn of a loop over bytes that end at `stop`. -/
structure Visit.Fits (stop : Nat) (visit : Visit) : Prop where
  positive : 0 < visit.adLen.toNat
  fits : visit.adLen.toNat < visit.remainingLen.toNat
  stops : visit.cursor + visit.remainingLen.toNat = stop
  switched : ∃ state, visit.payloadReads =
    (adSwitch memory (memory (visit.cursor + 1)) (visit.cursor + 2) (visit.adLen.toNat - 1)
      state).2

/-- What the loop has done over so many bytes from an index on. -/
structure Walks (cursor remaining : Nat) (state : AdState) (result : LoopResult) : Prop where
  lengthReads : ∀ index ∈ result.lengthReads, index < cursor + remaining
  turns : ∀ visit ∈ result.visits, visit.Fits memory (cursor + remaining)
  longest : ∃ rest, adCode.LongestPrefix (result.visits.map (Visit.ad memory)) rest
    (window memory cursor remaining)
  absorbs : (∀ visit ∈ result.visits, (visit.ad memory).PairsUp) →
    result.state = (result.visits.map (Visit.ad memory)).foldl absorb state

/-- A length byte and the bytes it counts are a structure. -/
theorem window_ad {cursor : Nat} (positive : 0 < (memory cursor).toNat) (rest : Nat) :
    window memory cursor ((memory cursor).toNat + 1 + rest) =
      AdStructure.bytes ⟨memory (cursor + 1), window memory (cursor + 2)
        ((memory cursor).toNat - 1)⟩ ++
        window memory (cursor + ((memory cursor).toNat + 1)) rest := by
  obtain ⟨count, isCount⟩ := Nat.exists_eq_succ_of_ne_zero (Nat.ne_of_gt positive)
  have lengthByte : UInt8.ofNat (count + 1) = memory cursor := by
    rw [← Nat.succ_eq_add_one, ← isCount, UInt8.ofNat_toNat]
  rw [window_add, isCount, Nat.succ_eq_add_one, window_succ, window_succ, Nat.add_sub_cancel]
  unfold AdStructure.bytes
  rw [window_length, lengthByte]

/-- Where the length byte is zero or counts too much, no structure starts. -/
theorem not_starts {cursor remaining : Nat}
    (stops : (memory cursor).toNat = 0 ∨ remaining ≤ (memory cursor).toNat) :
    ¬ adCode.Starts (window memory cursor remaining) := by
  rintro ⟨ad, rest, fits, isWord⟩
  have fits : ad.payload.length + 1 < 256 := fits
  have isWord : window memory cursor remaining = ad.bytes ++ rest := isWord
  have lengths := congrArg List.length isWord
  unfold AdStructure.bytes at isWord lengths
  rw [window_length, List.length_append, List.length_cons, List.length_cons] at lengths
  obtain ⟨count, isCount⟩ : ∃ count, remaining = count + 1 := ⟨remaining - 1, by omega⟩
  rw [isCount, window_succ, List.cons_append] at isWord
  have lengthByte := congrArg UInt8.toNat (List.cons.inj isWord).1
  rw [UInt8.toNat_ofNat', Nat.mod_eq_of_lt fits] at lengthByte
  omega

/-- `remaining_len` after a turn that it has room for. -/
theorem toNat_remaining {adLen : UInt8} {remainingLen : UInt16}
    (room : adLen.toNat < remainingLen.toNat) :
    (remainingLen - (adLen.toUInt16 + 1)).toNat = remainingLen.toNat - (adLen.toNat + 1) := by
  have small := adLen.toNat_lt
  have counted : (adLen.toUInt16 + 1).toNat = adLen.toNat + 1 := by
    rw [UInt16.toNat_add, UInt8.toNat_toUInt16, UInt16.toNat_one]
    omega
  rw [UInt16.toNat_sub_of_le _ _ (UInt16.le_iff_toNat_le.mpr (by omega)), counted]

theorem stops_iff (adLen : UInt8) (remainingLen : UInt16) :
    (adLen = 0 ∨ remainingLen ≤ adLen.toUInt16) ↔
      (adLen.toNat = 0 ∨ remainingLen.toNat ≤ adLen.toNat) := by
  rw [UInt16.le_iff_toNat_le, UInt8.toNat_toUInt16, ← UInt8.toNat_inj]
  rfl

theorem Walks.stop {cursor remaining : Nat} {state : AdState} {lengthReads : List Nat}
    (reads : ∀ index ∈ lengthReads, index < cursor + remaining)
    (stops : ¬ adCode.Starts (window memory cursor remaining)) :
    Walks memory cursor remaining state ⟨state, lengthReads, []⟩ :=
  ⟨reads, fun _ member => absurd member List.not_mem_nil,
    ⟨_, PrefixCode.LongestPrefix.nil stops⟩, fun _ => rfl⟩

theorem Walks.turn {cursor : Nat} {remainingLen : UInt16} {state : AdState}
    {later : LoopResult} (positive : 0 < (memory cursor).toNat)
    (room : (memory cursor).toNat < remainingLen.toNat)
    (walks : Walks memory (cursor + ((memory cursor).toNat + 1))
      (remainingLen.toNat - ((memory cursor).toNat + 1))
      (adSwitch memory (memory (cursor + 1)) (cursor + 2) ((memory cursor).toNat - 1) state).1
      later) :
    Walks memory cursor remainingLen.toNat state
      ⟨later.state, cursor :: later.lengthReads,
        ⟨cursor, remainingLen, memory cursor,
          (adSwitch memory (memory (cursor + 1)) (cursor + 2) ((memory cursor).toNat - 1)
            state).2⟩ :: later.visits⟩ := by
  have sameStop : cursor + ((memory cursor).toNat + 1) +
      (remainingLen.toNat - ((memory cursor).toNat + 1)) = cursor + remainingLen.toNat := by omega
  constructor
  · intro index member
    rcases List.mem_cons.mp member with isCursor | isLater
    · omega
    · exact sameStop ▸ walks.lengthReads index isLater
  · intro visit member
    rcases List.mem_cons.mp member with isVisit | isLater
    · rw [isVisit]
      exact ⟨positive, room, rfl, state, rfl⟩
    · exact sameStop ▸ walks.turns visit isLater
  · obtain ⟨rest, longest⟩ := walks.longest
    have valid : adCode.Valid ⟨memory (cursor + 1), window memory (cursor + 2)
        ((memory cursor).toNat - 1)⟩ := by
      have small := (memory cursor).toNat_lt
      show (window memory (cursor + 2) ((memory cursor).toNat - 1)).length + 1 < 256
      rw [window_length]
      omega
    refine ⟨rest, ?_⟩
    rw [show remainingLen.toNat = (memory cursor).toNat + 1 +
      (remainingLen.toNat - ((memory cursor).toNat + 1)) by omega, window_ad memory positive]
    exact longest.cons valid
  · intro pairsUp
    obtain ⟨own, others⟩ := List.forall_mem_cons.mp pairsUp
    rw [List.map_cons, List.foldl_cons]
    have absorbed := adSwitch_absorbs memory state own
    rw [walks.absorbs others]
    exact congrArg (fun start => (later.visits.map (Visit.ad memory)).foldl absorb start) absorbed

/-- A run of the loop walks over its bytes. -/
theorem parseLoop_walks {fuel cursor : Nat} {remainingLen : UInt16} {state : AdState}
    {result : LoopResult} (ended : parseLoop memory fuel cursor remainingLen state = some result) :
    Walks memory cursor remainingLen.toNat state result := by
  induction fuel generalizing cursor remainingLen state result with
  | zero => cases ended
  | succ fuel inductionHypothesis =>
      rw [parseLoop] at ended
      by_cases someLeft : 0 < remainingLen
      · have positive : 0 < remainingLen.toNat := UInt16.lt_iff_toNat_lt.mp someLeft
        rw [if_pos someLeft] at ended
        by_cases stops : memory cursor = 0 ∨ remainingLen ≤ (memory cursor).toUInt16
        · rw [if_pos stops] at ended
          rw [← Option.some.inj ended]
          apply Walks.stop
          · intro index member
            rw [List.mem_singleton.mp member]
            omega
          · exact not_starts memory ((stops_iff _ _).mp stops)
        · rw [if_neg stops] at ended
          rw [stops_iff] at stops
          obtain ⟨later, isLater, isResult⟩ := Option.map_eq_some_iff.mp ended
          have walks := inductionHypothesis isLater
          rw [toNat_remaining (by omega)] at walks
          rw [← isResult]
          exact Walks.turn memory (by omega) (by omega) walks
      · have nothing : remainingLen.toNat = 0 := by
          rw [UInt16.lt_iff_toNat_lt, UInt16.toNat_zero] at someLeft
          omega
        rw [if_neg someLeft] at ended
        rw [← Option.some.inj ended, nothing]
        exact Walks.stop memory (fun _ member => absurd member List.not_mem_nil)
          (not_starts memory (Or.inr (Nat.zero_le _)))

/-- With more fuel than there are bytes, the loop ends. -/
theorem parseLoop_ends {fuel cursor : Nat} {remainingLen : UInt16} (state : AdState)
    (enough : remainingLen.toNat < fuel) :
    ∃ result, parseLoop memory fuel cursor remainingLen state = some result := by
  induction fuel generalizing cursor remainingLen state with
  | zero => exact absurd enough (Nat.not_lt_zero _)
  | succ fuel inductionHypothesis =>
      rw [parseLoop]
      by_cases someLeft : 0 < remainingLen
      · rw [if_pos someLeft]
        by_cases stops : memory cursor = 0 ∨ remainingLen ≤ (memory cursor).toUInt16
        · rw [if_pos stops]
          exact ⟨_, rfl⟩
        · rw [if_neg stops]
          rw [stops_iff] at stops
          have fewer : (remainingLen - ((memory cursor).toUInt16 + 1)).toNat < fuel := by
            rw [toNat_remaining (by omega)]
            omega
          obtain ⟨later, isLater⟩ := inductionHypothesis _ fewer
          exact ⟨_, congrArg (Option.map _) isLater⟩
      · rw [if_neg someLeft]
        exact ⟨_, rfl⟩

end Windows

/-! ## The parser -/

theorem appliesExactly_nil (before : Advertisement) : AppliesExactly [] before before :=
  ⟨rfl, rfl, fun _ => rfl, fun _ => rfl, rfl, rfl⟩

/-- A run of the parser walks over its bytes, and applies the structures of its
turns when their lists of UUIDs pair up. -/
theorem parseAndUpdateAdvData_walks {iter : HashTableIter} {fuel : Nat}
    {memory : Nat → UInt8} {length : UInt16} {before : Advertisement} {outcome : AdvOutcome}
    (ended : parseAndUpdateAdvData iter fuel before (some ⟨length, some memory⟩) =
      some outcome) :
    ∃ state, Walks memory 0 length.toNat ⟨before, [], none, ∅⟩
        ⟨state, outcome.lengthReads, outcome.visits⟩ ∧
      ((∀ visit ∈ outcome.visits, (visit.ad memory).PairsUp) →
        AppliesExactly (outcome.visits.map (Visit.ad memory)) before outcome.advertisement) := by
  unfold parseAndUpdateAdvData at ended
  simp only at ended
  by_cases isEmpty : length = 0
  · rw [if_pos isEmpty] at ended
    rw [← Option.some.inj ended, isEmpty]
    exact ⟨_, Walks.stop memory (fun _ member => absurd member List.not_mem_nil)
      (not_starts memory (Or.inr (Nat.zero_le _))), fun _ => appliesExactly_nil before⟩
  · rw [if_neg isEmpty] at ended
    obtain ⟨result, isResult, isOutcome⟩ := Option.map_eq_some_iff.mp ended
    have walks := parseLoop_walks memory isResult
    rw [← isOutcome]
    refine ⟨result.state, walks, fun pairsUp => ?_⟩
    show AppliesExactly _ before (finishAdv iter result.state)
    rw [walks.absorbs pairsUp]
    exact absorbAll_applies iter _ before

theorem parseAndUpdateAdvData_ends (iter : HashTableIter) (memory : Nat → UInt8)
    (length : UInt16) (before : Advertisement) :
    ∃ fuel outcome, parseAndUpdateAdvData iter fuel before (some ⟨length, some memory⟩) =
      some outcome := by
  have ends : ∃ result, parseLoop memory (length.toNat + 1) 0 length ⟨before, [], none, ∅⟩ =
      some result := parseLoop_ends memory _ (Nat.lt_succ_self _)
  obtain ⟨result, ended⟩ := ends
  refine ⟨length.toNat + 1, ?_⟩
  unfold parseAndUpdateAdvData
  simp only
  by_cases isEmpty : length = 0
  · rw [if_pos isEmpty]
    exact ⟨_, rfl⟩
  · rw [if_neg isEmpty]
    exact ⟨_, congrArg (Option.map _) ended⟩

/-- A turn about an odd list of UUIDs leaves its payload. -/
theorem ParsesExactly.pairsUp {iter : HashTableIter} {memory : Nat → UInt8} {length : UInt16}
    {before : Advertisement} (exact_ : ParsesExactly iter memory length before)
    {structures : List AdStructure} {rest : List UInt8}
    (isLongest : adCode.LongestPrefix structures rest (window memory 0 length.toNat))
    {ad : AdStructure} (member : ad ∈ structures) : ad.PairsUp := by
  obtain ⟨fuel, outcome, ended, inside, ⟨otherRest, longest⟩, -⟩ := exact_
  obtain ⟨state, walks, -⟩ := parseAndUpdateAdvData_walks ended
  rw [isLongest.unique longest] at member
  obtain ⟨visit, isVisit, isAd⟩ := List.mem_map.mp member
  obtain ⟨positive, -, -, turnState, reads⟩ := walks.turns visit isVisit
  by_contra odd
  rw [← isAd] at odd
  have behind := adSwitch_reads_behind memory turnState odd
  rw [← reads] at behind
  have bounds := inside.payloads visit isVisit _ behind
  omega

/-- The parser ends, inside its input and having applied the structures of the
longest prefix, exactly when no list of UUIDs among them has a byte left over. -/
theorem parseAndUpdateAdvData_exact_iff (iter : HashTableIter) (memory : Nat → UInt8)
    (length : UInt16) (before : Advertisement) :
    ParsesExactly iter memory length before ↔
      ∀ structures rest, adCode.LongestPrefix structures rest (window memory 0 length.toNat) →
        ∀ ad ∈ structures, ad.PairsUp := by
  constructor
  · exact fun exact_ _ _ isLongest _ member => exact_.pairsUp isLongest member
  · intro pairsUp
    obtain ⟨fuel, outcome, ended⟩ := parseAndUpdateAdvData_ends iter memory length before
    obtain ⟨state, walks, applies⟩ := parseAndUpdateAdvData_walks ended
    obtain ⟨rest, longest⟩ := walks.longest
    have turnsPairUp : ∀ visit ∈ outcome.visits, (visit.ad memory).PairsUp := by
      intro visit member
      exact pairsUp _ rest longest _ (List.mem_map_of_mem member)
    refine ⟨fuel, outcome, ended, ⟨?_, ?_, ?_, ?_⟩, ⟨rest, longest⟩, applies turnsPairUp⟩
    · intro index member
      have below := walks.lengthReads index member
      omega
    · intro visit member
      have turn := walks.turns visit member
      have positive := turn.positive
      have fits := turn.fits
      have stops := turn.stops
      omega
    · intro visit member index read
      have turn := walks.turns visit member
      obtain ⟨positive, fits, stops, turnState, reads⟩ := turn
      rw [reads] at read
      have bounds := adSwitch_reads_payload memory turnState (turnsPairUp visit member) read
      omega
    · intro visit member
      exact (walks.turns visit member).fits

/-- An advertisement with nothing set. -/
def blankAdvertisement : Advertisement := ⟨none, none, ∅, ∅, false, 0⟩

/-- A list with one byte, at the end of its data, and what lies behind. -/
def oddList : Nat → UInt8 := fun index => [0x02, 0x03, 0x0F, 0x18].getD index 0

def insertionOrder : HashTableIter := ⟨AList.entries, fun _ => List.Perm.refl _⟩

/-- A list of UUIDs with one byte: the byte behind the data is read, and a UUID is
put together with it. -/
theorem parseAndUpdateAdvData_oddList :
    (parseAndUpdateAdvData insertionOrder 4 blankAdvertisement (some ⟨3, some oddList⟩)).map
        (fun outcome => (outcome.advertisement.services, outcome.visits)) =
      some (some ["0000180f-0000-1000-8000-00805f9b34fb".toList], [⟨0, 3, 2, [2, 3]⟩]) ∧
      ¬ ParsesExactly insertionOrder oddList 3 blankAdvertisement := by
  refine ⟨by decide +kernel, fun exact_ => ?_⟩
  have valid : adCode.Valid ⟨0x03, [0x0F]⟩ := show 2 < 256 by decide
  have nothing : ¬ adCode.Starts (window oddList 0 0) :=
    not_starts oddList (Or.inr (Nat.zero_le _))
  have longest := (PrefixCode.LongestPrefix.nil nothing).cons valid
  exact absurd (exact_.pairsUp longest List.mem_cons_self) (by decide)

end TuyaAdapter.TklBt
