import TuyaAdapter.WpaCommand.ApInfo

/-!
Contract: when the record of the connected access point holds the value of
every key of the reply.

Anything behind the first line with another key is lost, and so is the channel,
which the scratch record holds as a frequency; a text ends at its first white
space. `ReadWhole` says that nothing of this matters.
-/

namespace TuyaAdapter.WpaCommand

open Foundation.Decimal Foundation.MacAddress Foundation.Scanf Foundation.KeyedFold

/-! ## The property and the condition -/

def Is24GHz (freq : Int) : Prop := 2412 ≤ freq ∧ freq ≤ 2484

/-- Every field holds the value of its key, or zeros; `current` is the name the
other command gives. -/
structure Faithful (lines : List StatusLine) (info : ApInfo) (current : Text) : Prop where
  texts : ∀ key ∈ textKeys, info.textField key = (valueOf lines key).getD []
  current : current = (valueOf lines ssidKey).getD []
  bssid : ∀ pairs, AreMacPairs pairs → valueOf lines bssidKey = some (macText pairs) →
    info.bssid = pairs.map octet
  noBssid : valueOf lines bssidKey = none → info.bssid = List.replicate 6 0
  chan : ∀ freq : Int, Is24GHz freq → valueOf lines freqKey = some (decimal freq) →
    info.chan = (freq - 2412) / 5 + 1
  noChan : valueOf lines freqKey = none → info.chan = 0
  security : info.security = 0

/-- A text is read whole: it comes before any other key, unless it is empty, and
has no white space. -/
def TextRead (lines : List StatusLine) (key : Text) : Prop :=
  ∀ value, valueOf lines key = some value →
    (value ≠ [] → valueOf (leading lines) key = some value) ∧
      ∀ char ∈ value, isSpace char = false

/-- Texts are read whole, an address that is not zero comes before any other
key, and next to a 2.4 GHz frequency there is no other key. -/
structure ReadWhole (lines : List StatusLine) : Prop where
  texts : ∀ key ∈ textKeys, TextRead lines key
  bssid : ∀ pairs, AreMacPairs pairs → valueOf lines bssidKey = some (macText pairs) →
    pairs.map octet ≠ List.replicate 6 0 →
      valueOf (leading lines) bssidKey = some (macText pairs)
  freq : ∀ freq : Int, Is24GHz freq → valueOf lines freqKey = some (decimal freq) →
    leading lines = lines

/-! ## Texts -/

/-- `%s` stores a text whole exactly when it has no white space. -/
theorem scanText_eq_iff (value : Text) :
    scanText [] value = value ↔ ∀ char ∈ value, isSpace char = false := by
  unfold scanText
  constructor
  · intro same
    cases read : readWord value with
    | none =>
        rw [read] at same
        rw [← show [] = value from same]
        exact fun _ member => absurd member List.not_mem_nil
    | some word =>
        rw [read] at same
        have isWord : IsWord word.1 :=
          isWord_of_readWord (show readWord value = some (word.1, word.2) from read)
        rw [← show word.1 = value from same]
        exact isWord.2
  · intro plain
    by_cases isEmpty : value = []
    · rw [isEmpty]
      rfl
    · rw [readWord_word ⟨isEmpty, plain⟩]
      rfl

theorem textField_reply {lines : List StatusLine} (wellFormed : WellFormed lines) (ended : Bool)
    {key : Text} (member : key ∈ textKeys) :
    (wifiInfoReply (statusReply lines ended) ApInfo.zeroed).textField key =
      ((valueOf (leading lines) key).map (scanText [])).getD [] := by
  have both := leadingReader_texts wellFormed member
  have asPair : ((valueOf (leading lines) key).map (changeTexts ([], []))).getD ([], []) =
      (((valueOf (leading lines) key).map (scanText [])).getD [],
        ((valueOf (leading lines) key).map (scanText [])).getD []) := by
    cases valueOf (leading lines) key <;> rfl
  rw [asPair] at both
  rw [wifiInfoReply_eq wellFormed ended]
  split
  · exact congrArg Prod.snd both
  · exact congrArg Prod.fst both

theorem textField_iff {lines : List StatusLine} (wellFormed : WellFormed lines) (ended : Bool)
    {key : Text} (member : key ∈ textKeys) :
    (wifiInfoReply (statusReply lines ended) ApInfo.zeroed).textField key =
        (valueOf lines key).getD [] ↔
      TextRead lines key := by
  rw [textField_reply wellFormed ended member]
  unfold TextRead
  cases found : valueOf lines key with
  | none =>
      rw [valueOf_leading_none found]
      exact ⟨fun _ value isValue => absurd isValue (by simp), fun _ => rfl⟩
  | some value =>
      have only : ∀ other, some value = some other → value = other :=
        fun other same => Option.some.inj same
      cases led : valueOf (leading lines) key with
      | none =>
          constructor
          · intro isEmpty other isOther
            have nothing : other = [] := (only other isOther).symm.trans isEmpty.symm
            rw [nothing]
            exact ⟨fun notEmpty => absurd rfl notEmpty, fun _ isIn => absurd isIn (by simp)⟩
          · intro read
            by_contra notEmpty
            have first := (read value rfl).1 fun isEmpty => notEmpty isEmpty.symm
            exact absurd first (by simp)
      | some front =>
          have isValue : front = value :=
            Option.some.inj ((valueOf_leading led).symm.trans found)
          rw [isValue]
          show scanText [] value = value ↔ _
          rw [scanText_eq_iff]
          constructor
          · intro plain other isOther
            rw [← only other isOther]
            exact ⟨fun _ => rfl, plain⟩
          · exact fun read => (read value rfl).2

/-! ## The name of the other command -/

def takeCurrentSsid (old : Text) (line : StatusLine) : Text :=
  if line.is ssidKey then overwrite old line.value else old

theorem currentSsidLoop_eq {lines : List StatusLine} (plain : ∀ line ∈ lines, '=' ∉ line.key)
    (res : Text) :
    currentSsidLoop (lines.map StatusLine.text) res = lines.foldl takeCurrentSsid res := by
  induction lines generalizing res with
  | nil => rfl
  | cons line rest inductionHypothesis =>
      have later := inductionHypothesis
        fun other member => plain other (List.mem_cons_of_mem _ member)
      rw [List.map_cons, currentSsidLoop, hasKey_text (by decide) (plain line List.mem_cons_self),
        List.foldl_cons, takeCurrentSsid]
      by_cases isSsid : line.is ssidKey = true
      · rw [if_pos isSsid, if_pos isSsid, afterKey_text isSsid]
        exact later _
      · rw [if_neg isSsid, if_neg isSsid]
        exact later _

theorem currentSsid_reply {lines : List StatusLine} (wellFormed : WellFormed lines)
    (ended : Bool) :
    currentSsidReply (statusReply lines ended) [] = (valueOf lines ssidKey).getD [] := by
  by_cases isEmpty : lines = []
  · rw [isEmpty]
    cases ended <;> rfl
  · unfold currentSsidReply
    rw [linesOf_statusReply wellFormed isEmpty,
      currentSsidLoop_eq fun line member => (wellFormed.isLine line member).1]
    have own : ∀ (old : Text) (line : StatusLine), line.is ssidKey = true →
        takeCurrentSsid old line = overwrite old line.value := fun _ _ isSsid => if_pos isSsid
    have other : ∀ (old : Text) (line : StatusLine), line.is ssidKey = false →
        takeCurrentSsid old line = old := by
      intro old line isOther
      simp [takeCurrentSsid, isOther]
    have folded := field_foldl (fun res : Text => res) (StatusLine.is ssidKey)
      (fun old line => overwrite old line.value) own other (wellFormed.once ssidKey (by decide)) []
    rw [folded, getD_map_find?]
    cases valueOf lines ssidKey with
    | none => rfl
    | some value => simp [overwrite]

/-! ## The address -/

theorem changeAddresses_macText {pairs : List (Char × Char)} (arePairs : AreMacPairs pairs) :
    changeAddresses (ApReader.start ApInfo.zeroed).addresses (macText pairs) =
      (pairs.map octet, pairs.map octet, pairs.map octet) := by
  have scanned : scanOctets 6 (macText pairs) = pairs.map octet := by
    rw [← arePairs.1]
    exact scanOctets_macText arePairs.2
  have stored : overwrite (ApReader.start ApInfo.zeroed).addresses.1 (pairs.map octet) =
      pairs.map octet := by
    unfold overwrite
    rw [List.length_map, arePairs.1]
    exact List.append_nil _
  have bytes : (pairs.map octet).map (· % 256) = pairs.map octet := by
    rw [List.map_map]
    apply List.map_congr_left
    intro pair member
    exact Nat.mod_eq_of_lt (octet_lt (arePairs.2 pair member))
  simp only [changeAddresses, scanned, stored, bytes]

theorem bssid_reply {lines : List StatusLine} (wellFormed : WellFormed lines) (ended : Bool) :
    (wifiInfoReply (statusReply lines ended) ApInfo.zeroed).bssid =
      ((valueOf (leading lines) bssidKey).map fun value =>
        (changeAddresses (ApReader.start ApInfo.zeroed).addresses value).2.1).getD
        (List.replicate 6 0) := by
  have both := leadingReader_addresses wellFormed
  have asTriple : (leadingReader lines).addresses.2 =
      (((valueOf (leading lines) bssidKey).map fun value =>
        (changeAddresses (ApReader.start ApInfo.zeroed).addresses value).2.1).getD
        (List.replicate 6 0),
      ((valueOf (leading lines) bssidKey).map fun value =>
        (changeAddresses (ApReader.start ApInfo.zeroed).addresses value).2.1).getD
        (List.replicate 6 0)) := by
    rw [both]
    cases valueOf (leading lines) bssidKey <;> rfl
  rw [wifiInfoReply_eq wellFormed ended]
  split
  · exact congrArg Prod.snd asTriple
  · exact congrArg Prod.fst asTriple

theorem bssid_iff {lines : List StatusLine} (wellFormed : WellFormed lines) (ended : Bool)
    {pairs : List (Char × Char)} (arePairs : AreMacPairs pairs)
    (found : valueOf lines bssidKey = some (macText pairs)) :
    (wifiInfoReply (statusReply lines ended) ApInfo.zeroed).bssid = pairs.map octet ↔
      (pairs.map octet ≠ List.replicate 6 0 →
        valueOf (leading lines) bssidKey = some (macText pairs)) := by
  rw [bssid_reply wellFormed ended]
  cases led : valueOf (leading lines) bssidKey with
  | none =>
      constructor
      · exact fun isZero notZero => absurd isZero.symm notZero
      · intro first
        by_contra notZero
        exact absurd (first fun isZero => notZero isZero.symm) (by simp)
  | some front =>
      have isValue : front = macText pairs := Option.some.inj ((valueOf_leading led).symm.trans found)
      rw [isValue]
      refine ⟨fun _ _ => rfl, fun _ => ?_⟩
      show (changeAddresses _ (macText pairs)).2.1 = _
      rw [changeAddresses_macText arePairs]

/-! ## The channel -/

theorem chan_reply {lines : List StatusLine} (wellFormed : WellFormed lines) (ended : Bool) :
    (wifiInfoReply (statusReply lines ended) ApInfo.zeroed).chan =
      if leading lines = lines then
        (((valueOf (leading lines) freqKey).map (changeChannels (0, 0))).getD (0, 0)).2
      else (((valueOf (leading lines) freqKey).map (changeChannels (0, 0))).getD (0, 0)).1 := by
  rw [wifiInfoReply_eq wellFormed ended, ← leadingReader_channels wellFormed]
  split <;> rfl

theorem changeChannels_decimal (freq : Int) :
    changeChannels (0, 0) (decimal freq) = (freq, (freq - 2412).tdiv 5 + 1) := by
  have read : readInt (decimal freq) = some (freq, []) := by
    have whole := readInt_decimal freq (show EndsNumber [] from rfl)
    rwa [List.append_nil] at whole
  simp only [changeChannels, read, Option.map_some, Option.getD_some]

theorem chan_iff {lines : List StatusLine} (wellFormed : WellFormed lines) (ended : Bool)
    {freq : Int} (is24GHz : Is24GHz freq)
    (found : valueOf lines freqKey = some (decimal freq)) :
    (wifiInfoReply (statusReply lines ended) ApInfo.zeroed).chan = (freq - 2412) / 5 + 1 ↔
      leading lines = lines := by
  obtain ⟨low, high⟩ := is24GHz
  rw [chan_reply wellFormed ended]
  by_cases all : leading lines = lines
  · rw [if_pos all, all, found]
    refine ⟨fun _ => rfl, fun _ => ?_⟩
    show (changeChannels (0, 0) (decimal freq)).2 = _
    rw [changeChannels_decimal, Int.tdiv_eq_ediv_of_nonneg (by omega)]
  · rw [if_neg all]
    refine ⟨fun isChannel => ?_, fun isAll => absurd isAll all⟩
    exfalso
    cases led : valueOf (leading lines) freqKey with
    | none =>
        rw [led] at isChannel
        have isZero : (0 : Int) = (freq - 2412) / 5 + 1 := isChannel
        omega
    | some front =>
        have isValue : front = decimal freq :=
          Option.some.inj ((valueOf_leading led).symm.trans found)
        rw [led, isValue] at isChannel
        have isFreq : (changeChannels (0, 0) (decimal freq)).1 = (freq - 2412) / 5 + 1 := isChannel
        rw [changeChannels_decimal] at isFreq
        have same : freq = (freq - 2412) / 5 + 1 := isFreq
        omega

theorem noChan_reply {lines : List StatusLine} (wellFormed : WellFormed lines) (ended : Bool)
    (absent : valueOf lines freqKey = none) :
    (wifiInfoReply (statusReply lines ended) ApInfo.zeroed).chan = 0 := by
  rw [chan_reply wellFormed ended, valueOf_leading_none absent]
  split <;> rfl

theorem security_reply {lines : List StatusLine} (wellFormed : WellFormed lines) (ended : Bool) :
    (wifiInfoReply (statusReply lines ended) ApInfo.zeroed).security = 0 := by
  have both := leadingReader_security lines
  rw [wifiInfoReply_eq wellFormed ended]
  split
  · exact congrArg Prod.snd both
  · exact congrArg Prod.fst both

/-! ## The record -/

/-- The record and the name of a reply hold the values of its keys exactly when
these are read whole. -/
theorem wifiInfo_faithful_iff {lines : List StatusLine} (wellFormed : WellFormed lines)
    (ended : Bool) :
    Faithful lines (wifiInfoReply (statusReply lines ended) ApInfo.zeroed)
        (currentSsidReply (statusReply lines ended) []) ↔
      ReadWhole lines := by
  constructor
  · intro faithful
    constructor
    · exact fun key member => (textField_iff wellFormed ended member).mp (faithful.texts key member)
    · intro pairs arePairs found
      exact (bssid_iff wellFormed ended arePairs found).mp (faithful.bssid pairs arePairs found)
    · intro freq is24GHz found
      exact (chan_iff wellFormed ended is24GHz found).mp (faithful.chan freq is24GHz found)
  · intro whole
    constructor
    · exact fun key member => (textField_iff wellFormed ended member).mpr (whole.texts key member)
    · exact currentSsid_reply wellFormed ended
    · intro pairs arePairs found
      exact (bssid_iff wellFormed ended arePairs found).mpr (whole.bssid pairs arePairs found)
    · intro absent
      rw [bssid_reply wellFormed ended, valueOf_leading_none absent]
      rfl
    · intro freq is24GHz found
      exact (chan_iff wellFormed ended is24GHz found).mpr (whole.freq freq is24GHz found)
    · exact noChan_reply wellFormed ended
    · exact security_reply wellFormed ended

/-- `freq=2437`, then `ssid=my home`, then `id=0`, then `key_mgmt=NONE`. -/
def commonStatus : List StatusLine :=
  [⟨freqKey, "2437".toList⟩, ⟨ssidKey, "my home".toList⟩, ⟨"id".toList, "0".toList⟩,
    ⟨keyMgmtKey, "NONE".toList⟩]

theorem commonStatus_wellFormed : WellFormed commonStatus := by
  constructor
  · decide +kernel
  · decide +kernel
  · intro line member
    have isFreq : ∃ freq : Int, "2437".toList = decimal freq ∧ freq.natAbs < 2147483648 :=
      ⟨2437, by decide, by decide⟩
    simp only [commonStatus, List.mem_cons, List.not_mem_nil, or_false] at member
    rcases member with rfl | rfl | rfl | rfl
    · exact ⟨by decide, by decide, by decide, fun isKey => absurd isKey (by decide),
        fun _ => isFreq⟩
    · exact ⟨by decide, by decide, by decide, fun isKey => absurd isKey (by decide),
        fun isKey => absurd isKey (by decide)⟩
    · exact ⟨by decide, by decide, by decide, fun isKey => absurd isKey (by decide),
        fun isKey => absurd isKey (by decide)⟩
    · exact ⟨by decide, by decide, by decide, fun isKey => absurd isKey (by decide),
        fun isKey => absurd isKey (by decide)⟩

/-- The frequency is left as the channel, the name ends at its blank and the key
management is lost. -/
theorem wifiInfo_commonStatus :
    WellFormed commonStatus ∧
      wifiInfoReply (statusReply commonStatus true) ApInfo.zeroed =
        ⟨"my".toList, [], List.replicate 6 0, 0, [], 2437⟩ ∧
      currentSsidReply (statusReply commonStatus true) [] = "my home".toList ∧
      ¬ Faithful commonStatus (wifiInfoReply (statusReply commonStatus true) ApInfo.zeroed)
        (currentSsidReply (statusReply commonStatus true) []) := by
  have isRead : wifiInfoReply (statusReply commonStatus true) ApInfo.zeroed =
      ⟨"my".toList, [], List.replicate 6 0, 0, [], 2437⟩ := by decide +kernel
  refine ⟨commonStatus_wellFormed, isRead, by decide +kernel, ?_⟩
  intro faithful
  have isChan := faithful.chan 2437 ⟨by decide, by decide⟩ (by decide +kernel)
  rw [isRead] at isChan
  exact absurd isChan (by decide)

/-- A reply that is read whole. -/
theorem wifiInfo_plainStatus :
    WellFormed [⟨ssidKey, "home".toList⟩] ∧
      (Faithful [⟨ssidKey, "home".toList⟩]
        (wifiInfoReply (statusReply [⟨ssidKey, "home".toList⟩] true) ApInfo.zeroed)
        (currentSsidReply (statusReply [⟨ssidKey, "home".toList⟩] true) []) ↔
      ReadWhole [⟨ssidKey, "home".toList⟩]) := by
  have wellFormed : WellFormed [⟨ssidKey, "home".toList⟩] := by
    constructor
    · decide +kernel
    · decide +kernel
    · intro line member
      rw [List.mem_singleton.mp member]
      exact ⟨by decide, by decide, by decide, fun isKey => absurd isKey (by decide),
        fun isKey => absurd isKey (by decide)⟩
  exact ⟨wellFormed, wifiInfo_faithful_iff wellFormed true⟩

end TuyaAdapter.WpaCommand
