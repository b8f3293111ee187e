import TuyaAdapter.WpaCommand.ScanResults

/-!
Contract: when the merged scan results are those of the reply.

The code merges the records under the names its scratch record shows. This is
the reply's own list exactly when everything fits and these names do no harm,
as they do not when no name starts with white space and the hidden networks
come first.
-/

namespace TuyaAdapter.WpaCommand

open Foundation.Decimal Foundation.Scanf Foundation.KeyedMerge

/-! ## The property -/

/-- One entry for each pair of name and key type, in the order in which the
pairs first occur, each the record of a strongest line of its pair. -/
structure Merged (lines : List ScanLine) (result : List ScanRecord) : Prop where
  pairs : result.map ScanRecord.pair = distinct (lines.map fun line => line.record.pair)
  strongest : ∀ entry ∈ result, entry ∈ lines.map ScanLine.record ∧
    ∀ line ∈ lines, line.record.pair = entry.pair → line.signal ≤ entry.sig

/-- The list of 128 entries holds the merged reply, and nothing is written
outside an array. -/
def MergesReply (header : Text) (lines : List ScanLine) (ended : Bool) : Prop :=
  ∃ result, wpaGetScanR 128 (scanReply header lines ended) = some result ∧ Merged lines result

/-! ## The condition -/

/-- The texts of every line and the distinct pairs fit their arrays. -/
structure ScanFits (lines : List ScanLine) : Prop where
  texts : ∀ line ∈ lines, line.Fits
  pairs : (distinct (lines.map fun line => line.record.pair)).length ≤ 128

/-- Under the names shown there are the same pairs in the same order, the first
strongest record of a pair is that of a line, and no line is stronger than the
records shown with its pair. -/
structure NamesHarmless (lines : List ScanLine) : Prop where
  pairs : distinct ((shownRecords [] lines).map ScanRecord.pair) =
    distinct (lines.map fun line => line.record.pair)
  strongest : ∀ pair entry,
    best ScanRecord.pair ScanRecord.sig (shownRecords [] lines) pair = some entry →
      entry ∈ lines.map ScanLine.record
  covered : ∀ line ∈ lines, ∃ entry ∈ shownRecords [] lines,
    entry.pair = line.record.pair ∧ line.signal ≤ entry.sig

/-- Lines without a name come before those with one. -/
def HiddenFirst (lines : List ScanLine) : Prop :=
  lines.Pairwise fun first later => first.ssid ≠ [] → later.ssid ≠ []

instance (lines : List ScanLine) : Decidable (HiddenFirst lines) :=
  inferInstanceAs (Decidable (List.Pairwise _ _))

/-- The lines before the first one with a name. -/
def hiddenFront (lines : List ScanLine) : List ScanLine :=
  lines.takeWhile fun line => line.ssid = []

/-! ## Merging -/

theorem merged_iff_namesHarmless (lines : List ScanLine) :
    Merged lines (merge ScanRecord.pair ScanRecord.sig (shownRecords [] lines)) ↔
      NamesHarmless lines := by
  have keys := keys_merge ScanRecord.pair ScanRecord.sig (shownRecords [] lines)
  constructor
  · intro merged
    constructor
    · rw [← keys]
      exact merged.pairs
    · intro pair entry isBest
      have isPair := (best_spec ScanRecord.pair ScanRecord.sig isBest).2.1
      rw [← isPair] at isBest
      exact (merged.strongest entry ((mem_merge _ _).mpr isBest)).1
    · intro line member
      have isPair : line.record.pair ∈
          (merge ScanRecord.pair ScanRecord.sig (shownRecords [] lines)).map ScanRecord.pair := by
        rw [merged.pairs]
        exact mem_distinct.mpr (List.mem_map.mpr ⟨line, member, rfl⟩)
      obtain ⟨entry, isEntry, samePair⟩ := List.mem_map.mp isPair
      have shown := (best_spec ScanRecord.pair ScanRecord.sig ((mem_merge _ _).mp isEntry)).1
      exact ⟨entry, shown, samePair, (merged.strongest entry isEntry).2 line member samePair.symm⟩
  · intro harmless
    constructor
    · rw [keys]
      exact harmless.pairs
    · intro entry isEntry
      have isBest := (mem_merge ScanRecord.pair ScanRecord.sig).mp isEntry
      refine ⟨harmless.strongest entry.pair entry isBest, fun line member samePair => ?_⟩
      obtain ⟨other, shown, otherPair, atLeast⟩ := harmless.covered line member
      have below := (best_spec ScanRecord.pair ScanRecord.sig isBest).2.2 other shown
        (otherPair.trans samePair)
      exact Int.le_trans atLeast below

theorem mergesReply_iff {header : Text} (isHeader : IsLine header) {lines : List ScanLine}
    (wellFormed : ∀ line ∈ lines, line.WellFormed) (ended : Bool) :
    MergesReply header lines ended ↔ ScanFits lines ∧ NamesHarmless lines := by
  have length := congrArg List.length
    (keys_merge ScanRecord.pair ScanRecord.sig (shownRecords [] lines))
  rw [List.length_map] at length
  unfold MergesReply
  rw [wpaGetScanR_eq isHeader wellFormed ended 128]
  constructor
  · rintro ⟨result, isResult, merged⟩
    by_cases fits : (∀ line ∈ lines, line.Fits) ∧
        (merge ScanRecord.pair ScanRecord.sig (shownRecords [] lines)).length ≤ 128
    · rw [if_pos fits] at isResult
      rw [← Option.some.inj isResult] at merged
      have harmless := (merged_iff_namesHarmless lines).mp merged
      refine ⟨⟨fits.1, ?_⟩, harmless⟩
      rw [← harmless.pairs, ← length]
      exact fits.2
    · rw [if_neg fits] at isResult
      cases isResult
  · rintro ⟨fits, harmless⟩
    have short : (merge ScanRecord.pair ScanRecord.sig (shownRecords [] lines)).length ≤ 128 := by
      rw [length, harmless.pairs]
      exact fits.pairs
    exact ⟨_, if_pos ⟨fits.texts, short⟩, (merged_iff_namesHarmless lines).mpr harmless⟩

/-! ## Names that do no harm -/

theorem shownName_startsPlain {name : Text} (plain : StartsPlain name) (ssid : Text) :
    StartsPlain (shownName name ssid) := by
  unfold shownName
  split
  · exact plain
  · exact skipSpace_startsPlain ssid

theorem shownRecords_startsPlain {lines : List ScanLine} {name : Text} (plain : StartsPlain name) :
    ∀ entry ∈ shownRecords name lines, StartsPlain entry.ssid := by
  induction lines generalizing name with
  | nil => exact fun entry member => absurd member List.not_mem_nil
  | cons line rest inductionHypothesis =>
      intro entry member
      have here := shownName_startsPlain plain line.ssid
      rcases List.mem_cons.mp member with isHere | later
      · rw [isHere]
        exact here
      · exact inductionHypothesis here entry later

theorem shown_eq_record {line : ScanLine} (plain : StartsPlain line.ssid) {name : Text}
    (namedOrFirst : name = [] ∨ line.ssid ≠ []) :
    shownName name line.ssid = line.ssid ∧ line.shown name = line.record := by
  have same : shownName name line.ssid = line.ssid := by
    unfold shownName
    rw [skipSpace_of_startsPlain plain]
    rcases namedOrFirst with isFirst | named
    · by_cases isEmpty : line.ssid = []
      · rw [if_pos isEmpty, isFirst, isEmpty]
      · rw [if_neg isEmpty]
    · rw [if_neg named]
  refine ⟨same, ?_⟩
  unfold ScanLine.shown ScanLine.record
  rw [same]

theorem shownRecords_named {lines : List ScanLine} (plain : ∀ line ∈ lines, StartsPlain line.ssid)
    (named : ∀ line ∈ lines, line.ssid ≠ []) (name : Text) :
    shownRecords name lines = lines.map ScanLine.record := by
  induction lines generalizing name with
  | nil => rfl
  | cons line rest inductionHypothesis =>
      have here := shown_eq_record (plain line List.mem_cons_self)
        (Or.inr (a := name = []) (named line List.mem_cons_self))
      rw [shownRecords, here.2, inductionHypothesis
        (fun other member => plain other (List.mem_cons_of_mem _ member))
        (fun other member => named other (List.mem_cons_of_mem _ member))]
      rfl

/-- Without leading white space, and with the hidden networks first, every line
is shown as it is. -/
theorem shownRecords_eq {lines : List ScanLine} (plain : ∀ line ∈ lines, StartsPlain line.ssid)
    (hiddenFirst : HiddenFirst lines) : shownRecords [] lines = lines.map ScanLine.record := by
  induction lines with
  | nil => rfl
  | cons line rest inductionHypothesis =>
      obtain ⟨behind, restHidden⟩ := List.pairwise_cons.mp hiddenFirst
      have restPlain : ∀ other ∈ rest, StartsPlain other.ssid :=
        fun other member => plain other (List.mem_cons_of_mem _ member)
      have here := shown_eq_record (plain line List.mem_cons_self) (Or.inl rfl)
      rw [shownRecords, here.2, here.1, List.map_cons]
      by_cases isEmpty : line.ssid = []
      · rw [isEmpty, inductionHypothesis restPlain restHidden]
      · rw [shownRecords_named restPlain fun other member => behind other member isEmpty]

theorem namesHarmless_of_hiddenFirst {lines : List ScanLine}
    (plain : ∀ line ∈ lines, StartsPlain line.ssid) (hiddenFirst : HiddenFirst lines) :
    NamesHarmless lines := by
  have shown := shownRecords_eq plain hiddenFirst
  constructor
  · rw [shown, List.map_map]
    rfl
  · intro pair entry isBest
    rw [shown] at isBest
    exact (best_spec ScanRecord.pair ScanRecord.sig isBest).1
  · intro line member
    rw [shown]
    exact ⟨line.record, List.mem_map.mpr ⟨line, member, rfl⟩, rfl, Int.le_refl _⟩

/-! ## Names that do harm -/

theorem NamesHarmless.plain {lines : List ScanLine} (harmless : NamesHarmless lines) :
    ∀ line ∈ lines, StartsPlain line.ssid := by
  intro line member
  obtain ⟨entry, shown, samePair, -⟩ := harmless.covered line member
  have sameName : entry.ssid = line.ssid := congrArg Prod.fst samePair
  rw [← sameName]
  exact shownRecords_startsPlain (fun char isHead => absurd isHead (by simp)) entry shown

/-- Behind a name every record is shown with one. -/
theorem shownRecords_ne_nil {lines : List ScanLine} {name : Text} (named : name ≠ []) :
    ∀ entry ∈ shownRecords name lines, entry.ssid ≠ [] := by
  induction lines generalizing name with
  | nil => exact fun entry member => absurd member List.not_mem_nil
  | cons line rest inductionHypothesis =>
      intro entry member
      have next : shownName name line.ssid ≠ [] := by
        unfold shownName
        split
        · exact named
        · assumption
      rcases List.mem_cons.mp member with isHere | later
      · rw [isHere]
        exact next
      · exact inductionHypothesis next entry later

/-- A record that is shown without a name is that of a hidden line in front. -/
theorem mem_hiddenFront {lines : List ScanLine} (plain : ∀ line ∈ lines, StartsPlain line.ssid)
    {name : Text} {entry : ScanRecord} (shown : entry ∈ shownRecords name lines)
    (noName : entry.ssid = []) : ∃ line ∈ hiddenFront lines, line.record = entry := by
  induction lines generalizing name with
  | nil => exact absurd shown List.not_mem_nil
  | cons line rest inductionHypothesis =>
      have skipped := skipSpace_of_startsPlain (plain line List.mem_cons_self)
      by_cases isEmpty : line.ssid = []
      · have front : hiddenFront (line :: rest) = line :: hiddenFront rest :=
          List.takeWhile_cons_of_pos (by simpa using isEmpty)
        rw [front]
        rcases List.mem_cons.mp shown with isHere | later
        · refine ⟨line, List.mem_cons_self, ?_⟩
          have nameEmpty : shownName name line.ssid = [] := by
            rw [isHere] at noName
            exact noName
          rw [isHere]
          unfold ScanLine.record ScanLine.shown
          rw [nameEmpty, isEmpty]
        · obtain ⟨found, isFound, isRecord⟩ := inductionHypothesis
            (fun other member => plain other (List.mem_cons_of_mem _ member)) later
          exact ⟨found, List.mem_cons_of_mem _ isFound, isRecord⟩
      · exfalso
        have here : shownName name line.ssid ≠ [] := by
          unfold shownName
          rw [skipped, if_neg isEmpty]
          exact isEmpty
        rcases List.mem_cons.mp shown with isHere | later
        · rw [isHere] at noName
          exact here noName
        · exact shownRecords_ne_nil here entry later noName

/-- Every hidden line is covered by a hidden line in front. -/
theorem NamesHarmless.hidden {lines : List ScanLine} (harmless : NamesHarmless lines) :
    ∀ line ∈ lines, line.ssid = [] → ∃ front ∈ hiddenFront lines,
      keyMgmtOf front.flags = keyMgmtOf line.flags ∧ line.signal ≤ front.signal := by
  intro line member noName
  obtain ⟨entry, shown, samePair, atLeast⟩ := harmless.covered line member
  have entryNoName : entry.ssid = [] := (congrArg Prod.fst samePair).trans noName
  obtain ⟨front, isFront, isRecord⟩ := mem_hiddenFront harmless.plain shown entryNoName
  refine ⟨front, isFront, ?_, ?_⟩
  · have frontPair : front.record.pair = line.record.pair := by
      rw [isRecord]
      exact samePair
    exact congrArg Prod.snd frontPair
  · rw [← isRecord] at atLeast
    exact atLeast

/-! ## Replies -/

def scanHeader : Text := "bssid / frequency / signal level / flags / ssid".toList

/-- A network with a name and, behind it, a stronger one without. -/
def hiddenBehind : List ScanLine :=
  [⟨"02:00:00:00:00:01".toList, 2412, -60, "[WPA2-PSK-CCMP][ESS]".toList, "home".toList⟩,
    ⟨"02:00:00:00:00:02".toList, 2437, -40, "[WPA2-PSK-CCMP][ESS]".toList, []⟩]

theorem hiddenBehind_wellFormed : ∀ line ∈ hiddenBehind, line.WellFormed := by
  intro line member
  simp only [hiddenBehind, List.mem_cons, List.not_mem_nil, or_false] at member
  rcases member with rfl | rfl
  · exact ⟨by decide, by decide, by simp⟩
  · exact ⟨by decide, by decide, by simp⟩

end TuyaAdapter.WpaCommand
