import TuyaAdapter.Foundation.KeyedMerge
import TuyaAdapter.Foundation.Scanf
import TuyaAdapter.WpaCommand.Lines

/-!
Contract: `wpa_get_scan_r` on a `SCAN_RESULTS` reply.

One scratch record serves all lines. The name is scanned with `\t%[^\n]`, which
skips leading white space and stores nothing when nothing is left, so that the
record keeps the name of an earlier line. A text or an entry that does not fit
its array makes the result missing.
-/

namespace TuyaAdapter.WpaCommand

open Foundation.Decimal Foundation.Scanf Foundation.KeyedMerge

/-! ## The code -/

/-- `struct wifi_scan_res`. -/
structure ScanRecord where
  macAddr : Text
  freq : Int
  sig : Int
  keyMgmt : KeyMgmt
  ssid : Text
deriving DecidableEq, Repr

/-- `ap` and `key_type`. -/
structure ScanScratch where
  ap : ScanRecord
  keyType : Text
deriving DecidableEq, Repr

def ScanScratch.zeroed : ScanScratch := ⟨⟨[], 0, 0, .wpa2psk, []⟩, []⟩

/-- `sscanf` with `%s\t%d\t%d\t%s\t%[^\n]`. -/
def scanInto (scratch : ScanScratch) (line : Text) : ScanScratch :=
  match readWord line with
  | none => scratch
  | some mac =>
      let scratch := { scratch with ap := { scratch.ap with macAddr := mac.1 } }
      match readInt (skipSpace mac.2) with
      | none => scratch
      | some freq =>
          let scratch := { scratch with ap := { scratch.ap with freq := freq.1 } }
          match readInt (skipSpace freq.2) with
          | none => scratch
          | some sig =>
              let scratch := { scratch with ap := { scratch.ap with sig := sig.1 } }
              match readWord (skipSpace sig.2) with
              | none => scratch
              | some keyType =>
                  let scratch := { scratch with keyType := keyType.1 }
                  match readLine (skipSpace keyType.2) with
                  | none => scratch
                  | some ssid => { scratch with ap := { scratch.ap with ssid := ssid.1 } }

/-- The key type of the flags. -/
def keyMgmtOf (keyType : Text) : KeyMgmt :=
  if "WPA2".toList <:+: keyType then .wpa2psk
  else if "WPA".toList <:+: keyType then .wpapsk
  else if "WEP".toList <:+: keyType then .wep
  else if keyType.take "[ESS]".toList.length = "[ESS]".toList then .none
  else .other

/-- The texts fit `mac_addr`, `key_type` and `ssid`. -/
def ScanScratch.Fits (scratch : ScanScratch) : Prop :=
  scratch.ap.macAddr.length < 18 ∧ scratch.keyType.length < 64 ∧ scratch.ap.ssid.length < 128

instance (scratch : ScanScratch) : Decidable scratch.Fits :=
  inferInstanceAs (Decidable (_ ∧ _))

/-- What `wpa_reduce_repeat_ssid` compares. -/
def ScanRecord.pair (record : ScanRecord) : Text × KeyMgmt := (record.ssid, record.keyMgmt)

/-- `wpa_reduce_repeat_ssid`, in a list of `capacity` entries. -/
def wpaReduceRepeatSsid (capacity : Nat) (list : List ScanRecord) (res : ScanRecord) :
    Option (List ScanRecord) :=
  let reduced := insertBest ScanRecord.pair ScanRecord.sig list res
  if reduced.length ≤ capacity then some reduced else none

/-- The loop of `wpa_get_scan_r`. -/
def scanLoop (capacity : Nat) :
    List Text → ScanScratch → List ScanRecord → Option (List ScanRecord)
  | [], _, list => some list
  | line :: rest, scratch, list =>
      let scratch := scanInto scratch line
      if line.length < 512 ∧ scratch.Fits then
        let scratch :=
          { scratch with ap := { scratch.ap with keyMgmt := keyMgmtOf scratch.keyType } }
        match wpaReduceRepeatSsid capacity list scratch.ap with
        | none => none
        | some list => scanLoop capacity rest scratch list
      else none

/-- `wpa_get_scan_r` into a list that is empty at first. -/
def wpaGetScanR (capacity : Nat) (reply : Text) : Option (List ScanRecord) :=
  scanLoop capacity ((linesOf reply).drop 1) ScanScratch.zeroed []

/-! ## Replies -/

/-- A line of `SCAN_RESULTS`; a hidden network has no name. -/
structure ScanLine where
  bssid : Text
  freq : Int
  signal : Int
  flags : Text
  ssid : Text
deriving DecidableEq, Repr

def ScanLine.text (line : ScanLine) : Text :=
  line.bssid ++ '\t' :: (decimal line.freq ++ '\t' :: (decimal line.signal ++
    '\t' :: (line.flags ++ '\t' :: line.ssid)))

/-- The record of the line alone. -/
def ScanLine.record (line : ScanLine) : ScanRecord :=
  ⟨line.bssid, line.freq, line.signal, keyMgmtOf line.flags, line.ssid⟩

/-- Address and flags are words of printable characters, and the name is
anything on one line. -/
structure ScanLine.WellFormed (line : ScanLine) : Prop where
  bssid : IsWord line.bssid
  flags : IsWord line.flags
  ssid : ∀ char ∈ line.ssid, char ≠ '\n' ∧ char ≠ '\r'

/-- The header line and the others. -/
def scanReply (header : Text) (lines : List ScanLine) (ended : Bool) : Text :=
  replyOf (header :: lines.map ScanLine.text) ended

theorem decimal_plain (value : Int) : ∀ char ∈ decimal value, isSpace char = false := by
  have digits : ∀ value, ∀ char ∈ Nat.toDigits 10 value, isSpace char = false := by
    intro value char member
    exact isSpace_of_isDigit (Nat.isDigit_of_mem_toDigits (by decide) (by decide) member)
  cases value with
  | ofNat value => exact digits value
  | negSucc value =>
      intro char member
      rcases List.mem_cons.mp member with isMinus | later
      · rw [isMinus]
        decide
      · exact digits _ char later

theorem notSeparator_of_plain {char : Char} (plain : isSpace char = false) :
    char ≠ '\n' ∧ char ≠ '\r' := by
  constructor
  · rintro rfl
    exact absurd plain (by decide)
  · rintro rfl
    exact absurd plain (by decide)

theorem ScanLine.isLine {line : ScanLine} (wellFormed : line.WellFormed) : IsLine line.text := by
  constructor
  · unfold ScanLine.text
    simp
  · intro char member
    have plainTab : ('\t' : Char) ≠ '\n' ∧ ('\t' : Char) ≠ '\r' := by decide
    simp only [ScanLine.text, List.mem_append, List.mem_cons] at member
    rcases member with bssid | rfl | freq | rfl | signal | rfl | flags | rfl | ssid
    · exact notSeparator_of_plain (wellFormed.bssid.2 char bssid)
    · exact plainTab
    · exact notSeparator_of_plain (decimal_plain _ char freq)
    · exact plainTab
    · exact notSeparator_of_plain (decimal_plain _ char signal)
    · exact plainTab
    · exact notSeparator_of_plain (wellFormed.flags.2 char flags)
    · exact plainTab
    · exact wellFormed.ssid char ssid

/-! ## One line -/

/-- The name the scratch record has after a line, when it had this name before. -/
def shownName (name ssid : Text) : Text := if skipSpace ssid = [] then name else skipSpace ssid

theorem skipSpace_tab (rest : Text) : skipSpace ('\t' :: rest) = skipSpace rest := by
  unfold skipSpace
  rw [List.dropWhile_cons_of_pos (by decide)]

theorem skipSpace_word {word : Text} (isWord : IsWord word) (rest : Text) :
    skipSpace (word ++ rest) = word ++ rest :=
  skipSpace_of_startsPlain (isWord.startsPlain rest)

theorem decimal_isWord (value : Int) : IsWord (decimal value) := by
  obtain ⟨char, chars, written, -⟩ := decimal_head value
  refine ⟨?_, decimal_plain value⟩
  rw [written]
  exact List.cons_ne_nil _ _

theorem tab_ends (rest : Text) : ∀ char ∈ ('\t' :: rest).head?, isSpace char = true := by
  intro char isHead
  have isTab : '\t' = char := by simpa using isHead
  rw [← isTab]
  decide

/-- A line sets every field but the name, and the name when it has one. -/
theorem scanInto_text {line : ScanLine} (wellFormed : line.WellFormed) (scratch : ScanScratch) :
    scanInto scratch line.text =
      ⟨⟨line.bssid, line.freq, line.signal, scratch.ap.keyMgmt,
        shownName scratch.ap.ssid line.ssid⟩, line.flags⟩ := by
  have endsTab : ∀ rest : Text, EndsNumber ('\t' :: rest) := fun _ => rfl
  unfold scanInto ScanLine.text
  rw [readWord_append _ wellFormed.bssid (tab_ends _)]
  simp only [skipSpace_tab]
  rw [skipSpace_word (decimal_isWord line.freq), readInt_decimal line.freq (endsTab _)]
  simp only [skipSpace_tab]
  rw [skipSpace_word (decimal_isWord line.signal), readInt_decimal line.signal (endsTab _)]
  simp only [skipSpace_tab]
  rw [skipSpace_word wellFormed.flags, readWord_append _ wellFormed.flags (tab_ends _)]
  simp only [skipSpace_tab]
  by_cases isEmpty : skipSpace line.ssid = []
  · rw [isEmpty, shownName, if_pos isEmpty]
    rfl
  · have noNewline : ∀ char ∈ skipSpace line.ssid, char ≠ '\n' := by
      intro char member
      exact (wellFormed.ssid char (List.dropWhile_subset _ member)).1
    rw [readLine_of_noNewline isEmpty noNewline, shownName, if_neg isEmpty]

/-! ## All lines -/

/-- The record of the line as the scratch record shows it. -/
def ScanLine.shown (line : ScanLine) (name : Text) : ScanRecord :=
  ⟨line.bssid, line.freq, line.signal, keyMgmtOf line.flags, shownName name line.ssid⟩

/-- The records the scratch record shows, when it has this name at first. -/
def shownRecords : Text → List ScanLine → List ScanRecord
  | _, [] => []
  | name, line :: rest =>
      line.shown name :: shownRecords (shownName name line.ssid) rest

/-- The texts of the line fit their arrays. -/
def ScanLine.Fits (line : ScanLine) : Prop :=
  line.text.length < 512 ∧ line.bssid.length < 18 ∧ line.flags.length < 64 ∧
    (skipSpace line.ssid).length < 128

instance (line : ScanLine) : Decidable line.Fits := inferInstanceAs (Decidable (_ ∧ _))

theorem shownName_fits_iff {name : Text} (nameFits : name.length < 128) (ssid : Text) :
    (shownName name ssid).length < 128 ↔ (skipSpace ssid).length < 128 := by
  unfold shownName
  by_cases isEmpty : skipSpace ssid = []
  · rw [if_pos isEmpty, isEmpty]
    exact ⟨fun _ => by decide, fun _ => nameFits⟩
  · rw [if_neg isEmpty]

/-- The loop merges the shown records, as long as everything fits. -/
theorem scanLoop_eq {capacity : Nat} {lines : List ScanLine}
    (wellFormed : ∀ line ∈ lines, line.WellFormed) {scratch : ScanScratch}
    (nameFits : scratch.ap.ssid.length < 128) {list : List ScanRecord}
    (listFits : list.length ≤ capacity) :
    scanLoop capacity (lines.map ScanLine.text) scratch list =
      if (∀ line ∈ lines, line.Fits) ∧
          ((shownRecords scratch.ap.ssid lines).foldl
            (insertBest ScanRecord.pair ScanRecord.sig) list).length ≤ capacity then
        some ((shownRecords scratch.ap.ssid lines).foldl
          (insertBest ScanRecord.pair ScanRecord.sig) list)
      else none := by
  induction lines generalizing scratch list with
  | nil =>
      rw [if_pos ⟨fun line member => absurd member List.not_mem_nil, listFits⟩]
      rfl
  | cons line rest inductionHypothesis =>
      have fitsHere : (line.text.length < 512 ∧
          (scanInto scratch line.text).Fits) ↔ line.Fits := by
        rw [scanInto_text (wellFormed line List.mem_cons_self)]
        unfold ScanScratch.Fits ScanLine.Fits
        dsimp only
        rw [shownName_fits_iff nameFits]
      rw [List.map_cons, scanLoop, shownRecords, List.foldl_cons]
      dsimp only
      by_cases lineFits : line.Fits
      · have nextFits : (shownName scratch.ap.ssid line.ssid).length < 128 :=
          (shownName_fits_iff nameFits line.ssid).mpr lineFits.2.2.2
        rw [if_pos (fitsHere.mpr lineFits), scanInto_text (wellFormed line List.mem_cons_self)]
        change (match wpaReduceRepeatSsid capacity list (line.shown scratch.ap.ssid) with
          | none => none
          | some list => scanLoop capacity (rest.map ScanLine.text)
              ⟨line.shown scratch.ap.ssid, line.flags⟩ list) = _
        unfold wpaReduceRepeatSsid
        dsimp only
        by_cases reducedFits : (insertBest ScanRecord.pair ScanRecord.sig list
            (line.shown scratch.ap.ssid)).length ≤ capacity
        · rw [if_pos reducedFits]
          have later := inductionHypothesis
            (fun other member => wellFormed other (List.mem_cons_of_mem _ member))
            (show (ScanScratch.mk (line.shown scratch.ap.ssid) line.flags).ap.ssid.length < 128
              from nextFits) reducedFits
          simp only [List.forall_mem_cons, lineFits, true_and]
          exact later
        · have tooLong := length_le_foldl_insertBest ScanRecord.pair ScanRecord.sig
            (shownRecords (shownName scratch.ap.ssid line.ssid) rest)
            (insertBest ScanRecord.pair ScanRecord.sig list (line.shown scratch.ap.ssid))
          rw [if_neg reducedFits,
            if_neg (fun fits => reducedFits (Nat.le_trans tooLong fits.2))]
      · rw [if_neg (fun fits => lineFits (fitsHere.mp fits)),
          if_neg (fun fits => lineFits (fits.1 line List.mem_cons_self))]

theorem wpaGetScanR_eq {header : Text} (isHeader : IsLine header) {lines : List ScanLine}
    (wellFormed : ∀ line ∈ lines, line.WellFormed) (ended : Bool) (capacity : Nat) :
    wpaGetScanR capacity (scanReply header lines ended) =
      if (∀ line ∈ lines, line.Fits) ∧
          (merge ScanRecord.pair ScanRecord.sig (shownRecords [] lines)).length ≤ capacity then
        some (merge ScanRecord.pair ScanRecord.sig (shownRecords [] lines))
      else none := by
  have areLines : ∀ text ∈ header :: lines.map ScanLine.text, IsLine text := by
    intro text member
    rcases List.mem_cons.mp member with isText | later
    · rw [isText]
      exact isHeader
    · obtain ⟨line, isMember, isText⟩ := List.mem_map.mp later
      rw [← isText]
      exact ScanLine.isLine (wellFormed line isMember)
  unfold wpaGetScanR scanReply
  rw [linesOf_replyOf (List.cons_ne_nil _ _) areLines, List.drop_one, List.tail_cons]
  exact scanLoop_eq wellFormed (by decide) (Nat.zero_le _)

end TuyaAdapter.WpaCommand
