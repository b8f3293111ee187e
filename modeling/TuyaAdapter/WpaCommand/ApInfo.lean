import TuyaAdapter.Foundation.KeyedFold
import TuyaAdapter.Foundation.MacAddress
import TuyaAdapter.WpaCommand.Lines

/-!
Contract: what `wifi_reply_analyse` takes from a `STATUS` reply about the
connected access point (`WIFI_COMMAND_GET_WIFI_INFO`), and the name
`WIFI_COMMAND_GET_CURRENT_SSID` takes from it.

The loop fills a scratch record and copies field by field; at the first line
with another key it copies the whole scratch record and returns. Lines fit
`line` and values fit their fields. A field of characters is its text in a
cleared array.
-/

namespace TuyaAdapter.WpaCommand

open Foundation.Decimal Foundation.MacAddress Foundation.Scanf Foundation.KeyedFold

/-! ## The record -/

/-- `WF_CONNECTED_AP_INFO_S`. -/
structure ApInfo where
  ssid : Text
  passwd : Text
  bssid : List Nat
  security : Nat
  keyMgmt : Text
  chan : Int
deriving DecidableEq, Repr

def ApInfo.zeroed : ApInfo := ⟨[], [], List.replicate 6 0, 0, [], 0⟩

/-- `a1` to `a6` and `ap_info_s`. -/
structure ApScratch where
  octets : List Nat
  info : ApInfo
deriving DecidableEq, Repr

def ApScratch.zeroed : ApScratch := ⟨List.replicate 6 0, ApInfo.zeroed⟩

/-! ## The loop -/

def bssidKey : Text := "bssid".toList

def ssidKey : Text := "ssid".toList

def passphraseKey : Text := "passphrase".toList

def keyMgmtKey : Text := "key_mgmt".toList

def freqKey : Text := "freq".toList

/-- `strncmp(line, "key=", strlen("key=")) == 0`. -/
def hasKey (key line : Text) : Bool := (key ++ ['=']).isPrefixOf line

/-- `line + strlen("key=")`. -/
def afterKey (key line : Text) : Text := line.drop (key.length + 1)

/-- `sscanf` with `%s` into a field. -/
def scanText (old value : Text) : Text := ((readWord value).map Prod.fst).getD old

def ApScratch.readBssid (scratch : ApScratch) (value : Text) : ApScratch :=
  let octets := overwrite scratch.octets (scanOctets 6 value)
  ⟨octets, { scratch.info with bssid := octets.map (· % 256) }⟩

def ApScratch.readSsid (scratch : ApScratch) (value : Text) : ApScratch :=
  { scratch with info := { scratch.info with ssid := scanText scratch.info.ssid value } }

def ApScratch.readPassphrase (scratch : ApScratch) (value : Text) : ApScratch :=
  { scratch with info := { scratch.info with passwd := scanText scratch.info.passwd value } }

def ApScratch.readKeyMgmt (scratch : ApScratch) (value : Text) : ApScratch :=
  { scratch with info := { scratch.info with keyMgmt := scanText scratch.info.keyMgmt value } }

def ApScratch.readFreq (scratch : ApScratch) (value : Text) : ApScratch :=
  { scratch with
    info := { scratch.info with chan := ((readInt value).map Prod.fst).getD scratch.info.chan } }

/-- The loop of `WIFI_COMMAND_GET_WIFI_INFO`. -/
def wifiInfoLoop : List Text → ApScratch → ApInfo → ApInfo
  | [], _, res => res
  | line :: rest, scratch, res =>
      if hasKey bssidKey line then
        let scratch := scratch.readBssid (afterKey bssidKey line)
        wifiInfoLoop rest scratch { res with bssid := scratch.info.bssid }
      else if hasKey ssidKey line then
        let scratch := scratch.readSsid (afterKey ssidKey line)
        wifiInfoLoop rest scratch { res with ssid := scratch.info.ssid }
      else if hasKey passphraseKey line then
        let scratch := scratch.readPassphrase (afterKey passphraseKey line)
        wifiInfoLoop rest scratch { res with passwd := scratch.info.passwd }
      else if hasKey keyMgmtKey line then
        let scratch := scratch.readKeyMgmt (afterKey keyMgmtKey line)
        wifiInfoLoop rest scratch { res with keyMgmt := scratch.info.keyMgmt }
      else if hasKey freqKey line then
        let scratch := scratch.readFreq (afterKey freqKey line)
        wifiInfoLoop rest scratch { res with chan := (scratch.info.chan - 2412).tdiv 5 + 1 }
      -- Another key: the scratch record is copied whole and the loop is left.
      else scratch.info

/-- `wifi_reply_analyse` for `WIFI_COMMAND_GET_WIFI_INFO`. -/
def wifiInfoReply (reply : Text) (res : ApInfo) : ApInfo :=
  wifiInfoLoop (linesOf reply) ApScratch.zeroed res

/-- The loop of `WIFI_COMMAND_GET_CURRENT_SSID`; `strncpy` writes no terminator. -/
def currentSsidLoop : List Text → Text → Text
  | [], res => res
  | line :: rest, res =>
      if hasKey ssidKey line then currentSsidLoop rest (overwrite res (afterKey ssidKey line))
      else currentSsidLoop rest res

/-- `wifi_reply_analyse` for `WIFI_COMMAND_GET_CURRENT_SSID`. -/
def currentSsidReply (reply : Text) (res : Text) : Text := currentSsidLoop (linesOf reply) res

/-! ## Lines with keys -/

structure StatusLine where
  key : Text
  value : Text
deriving DecidableEq, Repr

def StatusLine.text (line : StatusLine) : Text := line.key ++ '=' :: line.value

def StatusLine.is (key : Text) (line : StatusLine) : Bool := line.key = key

/-- The value of the first line with the key. -/
def valueOf (lines : List StatusLine) (key : Text) : Option Text :=
  (lines.find? (StatusLine.is key)).map StatusLine.value

/-- The keys of the text fields. -/
def textKeys : List Text := [ssidKey, passphraseKey, keyMgmtKey]

/-- The text field of such a key. -/
def ApInfo.textField (info : ApInfo) (key : Text) : Text :=
  if key = ssidKey then info.ssid else if key = passphraseKey then info.passwd else info.keyMgmt

def fieldKeys : List Text := bssidKey :: freqKey :: textKeys

def StatusLine.isField (line : StatusLine) : Bool := fieldKeys.contains line.key

/-- The lines before the first one with another key. -/
def leading (lines : List StatusLine) : List StatusLine := lines.takeWhile StatusLine.isField

/-- The value fits the field of its key. -/
structure StatusLine.Fits (line : StatusLine) : Prop where
  ssid : line.key = ssidKey → line.value.length < 36
  passphrase : line.key = passphraseKey → line.value.length < 65
  keyMgmt : line.key = keyMgmtKey → line.value.length < 12
  bssid : line.key = bssidKey → ∃ pairs, AreMacPairs pairs ∧ line.value = macText pairs
  freq : line.key = freqKey → ∃ freq : Int, line.value = decimal freq ∧ freq.natAbs < 2147483648

/-- Lines `key=value` of less than 256 bytes, no field key twice. -/
structure WellFormed (lines : List StatusLine) : Prop where
  isLine : ∀ line ∈ lines, '=' ∉ line.key ∧ IsLine line.text ∧ line.text.length < 256
  once : ∀ key ∈ fieldKeys, AtMostOnce (StatusLine.is key) lines
  fits : ∀ line ∈ lines, line.Fits

/-- The reply with these lines, perhaps with a newline at the end. -/
def statusReply (lines : List StatusLine) (ended : Bool) : Text :=
  replyOf (lines.map StatusLine.text) ended

/-! ## The loop over lines with keys -/

theorem append_cons_inj {key other rest later : Text} (plain : '=' ∉ key) (otherPlain : '=' ∉ other)
    (same : key ++ '=' :: rest = other ++ '=' :: later) : key = other := by
  have cut : ∀ {word : Text}, '=' ∉ word → ∀ tail : Text,
      (word ++ '=' :: tail).takeWhile (fun char => char ≠ '=') = word := by
    intro word wordPlain tail
    have all : ∀ char ∈ word, decide (char ≠ '=') = true := by
      intro char member
      refine decide_eq_true fun isEquals => ?_
      rw [isEquals] at member
      exact wordPlain member
    rw [List.takeWhile_append_of_pos all]
    simp
  rw [← cut plain rest, same, cut otherPlain]

theorem hasKey_text {key : Text} (plain : '=' ∉ key) {line : StatusLine}
    (linePlain : '=' ∉ line.key) : hasKey key line.text = line.is key := by
  unfold hasKey StatusLine.text StatusLine.is
  rw [Bool.eq_iff_iff, List.isPrefixOf_iff_prefix, decide_eq_true_iff]
  constructor
  · intro isPrefix
    obtain ⟨rest, same⟩ := isPrefix
    rw [List.append_assoc] at same
    exact (append_cons_inj plain linePlain same).symm
  · intro isKey
    rw [isKey]
    exact ⟨line.value, by simp⟩

theorem afterKey_text {key : Text} {line : StatusLine} (isKey : line.is key = true) :
    afterKey key line.text = line.value := by
  have same : line.key = key := of_decide_eq_true isKey
  unfold afterKey StatusLine.text
  rw [same]
  simp

/-- The scratch record and the result in one pass over a line of a field. -/
structure ApReader where
  scratch : ApScratch
  res : ApInfo

def ApReader.start (res : ApInfo) : ApReader := ⟨ApScratch.zeroed, res⟩

def ApReader.take (reader : ApReader) (line : StatusLine) : ApReader :=
  if line.is bssidKey then
    let scratch := reader.scratch.readBssid line.value
    ⟨scratch, { reader.res with bssid := scratch.info.bssid }⟩
  else if line.is ssidKey then
    let scratch := reader.scratch.readSsid line.value
    ⟨scratch, { reader.res with ssid := scratch.info.ssid }⟩
  else if line.is passphraseKey then
    let scratch := reader.scratch.readPassphrase line.value
    ⟨scratch, { reader.res with passwd := scratch.info.passwd }⟩
  else if line.is keyMgmtKey then
    let scratch := reader.scratch.readKeyMgmt line.value
    ⟨scratch, { reader.res with keyMgmt := scratch.info.keyMgmt }⟩
  else if line.is freqKey then
    let scratch := reader.scratch.readFreq line.value
    ⟨scratch, { reader.res with chan := (scratch.info.chan - 2412).tdiv 5 + 1 }⟩
  else reader

theorem isField_of_is {line : StatusLine} {key : Text} (isKey : line.is key = true)
    (member : key ∈ fieldKeys) : line.isField = true := by
  have same : line.key = key := of_decide_eq_true isKey
  rw [StatusLine.isField, same]
  exact List.contains_iff_mem.mpr member

/-- One step of the loop. -/
theorem wifiInfoLoop_cons {line : StatusLine} (plain : '=' ∉ line.key) (rest : List Text)
    (reader : ApReader) :
    wifiInfoLoop (line.text :: rest) reader.scratch reader.res =
      if line.isField then
        wifiInfoLoop rest (reader.take line).scratch (reader.take line).res
      else reader.scratch.info := by
  have keyed : ∀ key : Text, '=' ∉ key → hasKey key line.text = line.is key :=
    fun _ keyPlain => hasKey_text keyPlain plain
  rw [wifiInfoLoop, ApReader.take, keyed bssidKey (by decide),
    keyed ssidKey (by decide), keyed passphraseKey (by decide),
    keyed keyMgmtKey (by decide), keyed freqKey (by decide)]
  by_cases isBssid : line.is bssidKey = true
  · simp only [if_pos isBssid, if_pos (isField_of_is isBssid (by decide)), afterKey_text isBssid]
  by_cases isSsid : line.is ssidKey = true
  · simp only [if_neg isBssid, if_pos isSsid, if_pos (isField_of_is isSsid (by decide)),
      afterKey_text isSsid]
  by_cases isPassphrase : line.is passphraseKey = true
  · simp only [if_neg isBssid, if_neg isSsid, if_pos isPassphrase,
      if_pos (isField_of_is isPassphrase (by decide)), afterKey_text isPassphrase]
  by_cases isKeyMgmt : line.is keyMgmtKey = true
  · simp only [if_neg isBssid, if_neg isSsid, if_neg isPassphrase, if_pos isKeyMgmt,
      if_pos (isField_of_is isKeyMgmt (by decide)), afterKey_text isKeyMgmt]
  by_cases isFreq : line.is freqKey = true
  · simp only [if_neg isBssid, if_neg isSsid, if_neg isPassphrase, if_neg isKeyMgmt, if_pos isFreq,
      if_pos (isField_of_is isFreq (by decide)), afterKey_text isFreq]
  have notField : ¬ line.isField = true := by
    intro isField
    have member : line.key ∈ fieldKeys := List.contains_iff_mem.mp isField
    simp only [StatusLine.is, decide_eq_true_eq] at isBssid isSsid isPassphrase isKeyMgmt isFreq
    simp [fieldKeys, textKeys, isBssid, isSsid, isPassphrase, isKeyMgmt, isFreq] at member
  simp only [if_neg isBssid, if_neg isSsid, if_neg isPassphrase, if_neg isKeyMgmt, if_neg isFreq,
    if_neg notField]

/-- The loop reads the leading lines, and gives the result when these are all
and the scratch record otherwise. -/
theorem wifiInfoLoop_eq {lines : List StatusLine} (plain : ∀ line ∈ lines, '=' ∉ line.key)
    (reader : ApReader) :
    wifiInfoLoop (lines.map StatusLine.text) reader.scratch reader.res =
      if leading lines = lines then ((leading lines).foldl ApReader.take reader).res
      else ((leading lines).foldl ApReader.take reader).scratch.info := by
  induction lines generalizing reader with
  | nil => rfl
  | cons line rest inductionHypothesis =>
      rw [List.map_cons, wifiInfoLoop_cons (plain line List.mem_cons_self)]
      cases isField : line.isField with
      | true =>
          have heads : leading (line :: rest) = line :: leading rest :=
            List.takeWhile_cons_of_pos isField
          rw [if_pos rfl, inductionHypothesis
            (fun other member => plain other (List.mem_cons_of_mem _ member)), heads,
            List.foldl_cons]
          simp
      | false =>
          have heads : leading (line :: rest) = [] :=
            List.takeWhile_cons_of_neg (by rw [isField]; decide)
          rw [if_neg (by decide), heads, if_neg (fun isNil => by cases isNil)]
          rfl

/-! ## One line, seen through one field -/

theorem StatusLine.key_of_is {line : StatusLine} {key : Text} (isKey : line.is key = true) :
    line.key = key :=
  of_decide_eq_true isKey

theorem StatusLine.is_other {line : StatusLine} {key other : Text} (isKey : line.is key = true)
    (differ : key ≠ other) : ¬ line.is other = true :=
  fun isOther => differ ((key_of_is isKey).symm.trans (key_of_is isOther))

/-- A text field in the scratch record and in the result. -/
def ApReader.texts (key : Text) (reader : ApReader) : Text × Text :=
  (reader.scratch.info.textField key, reader.res.textField key)

def changeTexts (old : Text × Text) (value : Text) : Text × Text :=
  (scanText old.1 value, scanText old.1 value)

/-- The numbers scanned, and the address in the scratch record and in the result. -/
def ApReader.addresses (reader : ApReader) : List Nat × List Nat × List Nat :=
  (reader.scratch.octets, reader.scratch.info.bssid, reader.res.bssid)

def changeAddresses (old : List Nat × List Nat × List Nat) (value : Text) :
    List Nat × List Nat × List Nat :=
  let octets := overwrite old.1 (scanOctets 6 value)
  (octets, octets.map (· % 256), octets.map (· % 256))

def ApReader.channels (reader : ApReader) : Int × Int :=
  (reader.scratch.info.chan, reader.res.chan)

def changeChannels (old : Int × Int) (value : Text) : Int × Int :=
  let freq := ((readInt value).map Prod.fst).getD old.1
  (freq, (freq - 2412).tdiv 5 + 1)

theorem take_texts_own {key : Text} (member : key ∈ textKeys) (reader : ApReader)
    (line : StatusLine) (isKey : line.is key = true) :
    (reader.take line).texts key = changeTexts (reader.texts key) line.value := by
  have notBssid : ¬ line.is bssidKey = true := by
    refine StatusLine.is_other isKey fun isBssid => ?_
    rw [isBssid] at member
    exact absurd member (by decide)
  have cases_ : key = ssidKey ∨ key = passphraseKey ∨ key = keyMgmtKey := by
    simpa [textKeys] using member
  unfold ApReader.take
  rw [if_neg notBssid]
  rcases cases_ with rfl | rfl | rfl
  · rw [if_pos isKey]
    rfl
  · rw [if_neg (StatusLine.is_other isKey (by decide)), if_pos isKey]
    rfl
  · rw [if_neg (StatusLine.is_other isKey (by decide)),
      if_neg (StatusLine.is_other isKey (by decide)), if_pos isKey]
    rfl

theorem take_texts_other {key : Text} (member : key ∈ textKeys) (reader : ApReader)
    (line : StatusLine) (isOther : line.is key = false) :
    (reader.take line).texts key = reader.texts key := by
  have cases_ : key = ssidKey ∨ key = passphraseKey ∨ key = keyMgmtKey := by
    simpa [textKeys] using member
  have absent : ∀ {found : Text}, line.is found = true → key ≠ found := by
    intro found isFound same
    rw [same, isFound] at isOther
    exact absurd isOther (by decide)
  unfold ApReader.take
  split
  · rfl
  · split
    · rename_i isSsid
      rcases cases_ with rfl | rfl | rfl
      · exact absurd rfl (absent isSsid)
      · rfl
      · rfl
    · split
      · rename_i isPassphrase
        rcases cases_ with rfl | rfl | rfl
        · rfl
        · exact absurd rfl (absent isPassphrase)
        · rfl
      · split
        · rename_i isKeyMgmt
          rcases cases_ with rfl | rfl | rfl
          · rfl
          · rfl
          · exact absurd rfl (absent isKeyMgmt)
        · split
          · rfl
          · rfl

theorem take_addresses_own (reader : ApReader) (line : StatusLine)
    (isKey : line.is bssidKey = true) :
    (reader.take line).addresses = changeAddresses reader.addresses line.value := by
  unfold ApReader.take
  rw [if_pos isKey]
  rfl

theorem take_addresses_other (reader : ApReader) (line : StatusLine)
    (isOther : line.is bssidKey = false) : (reader.take line).addresses = reader.addresses := by
  unfold ApReader.take
  rw [if_neg (by rw [isOther]; decide)]
  split
  · rfl
  · split
    · rfl
    · split
      · rfl
      · split <;> rfl

theorem take_channels_own (reader : ApReader) (line : StatusLine)
    (isKey : line.is freqKey = true) :
    (reader.take line).channels = changeChannels reader.channels line.value := by
  have not_ : ∀ {other : Text}, freqKey ≠ other → ¬ line.is other = true :=
    fun differ => StatusLine.is_other isKey differ
  unfold ApReader.take
  rw [if_neg (not_ (by decide)), if_neg (not_ (by decide)), if_neg (not_ (by decide)),
    if_neg (not_ (by decide)), if_pos isKey]
  rfl

theorem take_channels_other (reader : ApReader) (line : StatusLine)
    (isOther : line.is freqKey = false) : (reader.take line).channels = reader.channels := by
  have notFreq : ¬ line.is freqKey = true := by
    rw [isOther]
    decide
  unfold ApReader.take
  rw [if_neg notFreq]
  split
  · rfl
  · split
    · rfl
    · split
      · rfl
      · split <;> rfl

theorem take_security (reader : ApReader) (line : StatusLine) :
    ((reader.take line).scratch.info.security, (reader.take line).res.security) =
      (reader.scratch.info.security, reader.res.security) := by
  unfold ApReader.take
  split
  · rfl
  · split
    · rfl
    · split
      · rfl
      · split
        · rfl
        · split <;> rfl

/-! ## The values of the leading lines -/

theorem valueOf_leading {lines : List StatusLine} {key value : Text}
    (found : valueOf (leading lines) key = some value) : valueOf lines key = some value := by
  obtain ⟨line, isFound, isValue⟩ := Option.map_eq_some_iff.mp found
  unfold valueOf
  rw [List.IsPrefix.find?_eq_some (List.takeWhile_prefix StatusLine.isField) isFound]
  exact congrArg some isValue

theorem valueOf_leading_none {lines : List StatusLine} {key : Text}
    (absent : valueOf lines key = none) : valueOf (leading lines) key = none := by
  cases found : valueOf (leading lines) key with
  | none => rfl
  | some value =>
      rw [valueOf_leading found] at absent
      exact absurd absent (by simp)

theorem leading_once {lines : List StatusLine} (wellFormed : WellFormed lines) {key : Text}
    (member : key ∈ fieldKeys) : AtMostOnce (StatusLine.is key) (leading lines) :=
  (wellFormed.once key member).sublist (List.takeWhile_sublist StatusLine.isField)

/-- What the reader holds after the leading lines. -/
def leadingReader (lines : List StatusLine) : ApReader :=
  (leading lines).foldl ApReader.take (ApReader.start ApInfo.zeroed)

theorem getD_map_find? {Field : Type*} (lines : List StatusLine) (key : Text)
    (change : Text → Field) (start : Field) :
    ((lines.find? (StatusLine.is key)).map fun line => change line.value).getD start =
      ((valueOf lines key).map change).getD start := by
  unfold valueOf
  cases lines.find? (StatusLine.is key) <;> rfl

theorem leadingReader_texts {lines : List StatusLine} (wellFormed : WellFormed lines) {key : Text}
    (member : key ∈ textKeys) :
    (leadingReader lines).texts key =
      ((valueOf (leading lines) key).map (changeTexts ([], []))).getD ([], []) := by
  have isFieldKey : key ∈ fieldKeys := List.mem_cons_of_mem _ (List.mem_cons_of_mem _ member)
  have startEmpty : (ApReader.start ApInfo.zeroed).texts key = ([], []) := by
    unfold ApReader.texts ApReader.start ApInfo.textField
    split
    · rfl
    · split <;> rfl
  rw [← getD_map_find?, ← startEmpty]
  exact field_foldl (ApReader.texts key) (StatusLine.is key)
    (fun old line => changeTexts old line.value) (take_texts_own member)
    (take_texts_other member) (leading_once wellFormed isFieldKey) _

theorem leadingReader_addresses {lines : List StatusLine} (wellFormed : WellFormed lines) :
    (leadingReader lines).addresses =
      ((valueOf (leading lines) bssidKey).map
        (changeAddresses (ApReader.start ApInfo.zeroed).addresses)).getD
        (ApReader.start ApInfo.zeroed).addresses := by
  rw [← getD_map_find?]
  exact field_foldl ApReader.addresses (StatusLine.is bssidKey)
    (fun old line => changeAddresses old line.value) take_addresses_own take_addresses_other
    (leading_once wellFormed (by decide)) _

theorem leadingReader_channels {lines : List StatusLine} (wellFormed : WellFormed lines) :
    (leadingReader lines).channels =
      ((valueOf (leading lines) freqKey).map (changeChannels (0, 0))).getD (0, 0) := by
  rw [← getD_map_find?]
  exact field_foldl ApReader.channels (StatusLine.is freqKey)
    (fun old line => changeChannels old line.value) take_channels_own take_channels_other
    (leading_once wellFormed (by decide)) (ApReader.start ApInfo.zeroed)

theorem leadingReader_security (lines : List StatusLine) :
    ((leadingReader lines).scratch.info.security, (leadingReader lines).res.security) = (0, 0) :=
  field_foldl_of_none
    (fun reader : ApReader => (reader.scratch.info.security, reader.res.security))
    (fun _ => false) (fun reader line _ => take_security reader line) (fun _ _ => rfl)
    (ApReader.start ApInfo.zeroed)

theorem linesOf_statusReply {lines : List StatusLine} (wellFormed : WellFormed lines)
    (notEmpty : lines ≠ []) {ended : Bool} :
    linesOf (statusReply lines ended) = lines.map StatusLine.text := by
  apply linesOf_replyOf (by simpa using notEmpty)
  intro text member
  obtain ⟨line, isMember, isText⟩ := List.mem_map.mp member
  rw [← isText]
  exact (wellFormed.isLine line isMember).2.1

/-- The record of a reply: the result of the reader when no other key follows,
its scratch record otherwise. -/
theorem wifiInfoReply_eq {lines : List StatusLine} (wellFormed : WellFormed lines) (ended : Bool) :
    wifiInfoReply (statusReply lines ended) ApInfo.zeroed =
      if leading lines = lines then (leadingReader lines).res
      else (leadingReader lines).scratch.info := by
  by_cases isEmpty : lines = []
  · rw [isEmpty]
    cases ended <;> rfl
  · unfold wifiInfoReply
    rw [linesOf_statusReply wellFormed isEmpty]
    exact wifiInfoLoop_eq (fun line member => (wellFormed.isLine line member).1)
      (ApReader.start ApInfo.zeroed)

end TuyaAdapter.WpaCommand
