import TuyaAdapter.Foundation.Decimal

/-!
Contract: the station configuration file, written by `wpa_config_prepare` and
read by `get_passwd_and_ssid_from_wpa_file` of `linux_wifi.c`.

A file is its text, missing when it cannot be opened for reading. The old file
is unlinked before the new one is created, and a write that is not refused
writes everything. The temporaries of the reader are texts of any length; how
many bytes `sscanf` stores in them is part of the result.
-/

namespace TuyaAdapter.LinuxWifi

open Foundation.Decimal

/-! ## Writing -/

/-- `WPA_CTRL_INTERFACE`. -/
def wpaCtrlInterface : Text := "/var/run/wpa_supplicant".toList

/-- Whether the file can be created and the text written. -/
structure Disk where
  opened : Bool
  written : Bool
deriving DecidableEq, Repr

/-- The first lines of both forms of the file. -/
def confHeader : Text :=
  "ctrl_interface=".toList ++ wpaCtrlInterface ++
    "\nupdate_config=1\nnetwork=\x7b\n".toList

/-- What `sprintf` puts in `buf`; `psk` is missing when it is `NULL`. -/
def confText (ssid : Text) (psk : Option Text) : Text :=
  match psk with
  | none | some [] =>
      confHeader ++ "ssid=\"".toList ++ ssid ++ "\"\nkey_mgmt=NONE\n\x7d\n".toList
  | some psk =>
      confHeader ++ "key_mgmt=WPA-PSK\nssid=\"".toList ++ ssid ++ "\"\npsk=\"".toList ++ psk ++
        "\"\n\x7d\n".toList

/-- `wpa_config_prepare`: its result and the file afterwards. -/
def wpaConfigPrepare (disk : Disk) (ssid : Text) (psk : Option Text) : Int × Option Text :=
  if disk.opened = false then (-1, none)
  else if disk.written = false then (-1, some [])
  else (0, some (confText ssid psk))

/-! ## Reading -/

/-- `fgets` into `count + 1` bytes: the characters read and those left. -/
def fgets : Nat → Text → Text × Text
  | 0, text => ([], text)
  | _ + 1, [] => ([], [])
  | count + 1, char :: rest =>
      if char = '\n' then ([char], rest)
      else
        let later := fgets count rest
        (char :: later.1, later.2)

theorem fgets_append (count : Nat) (text : Text) :
    (fgets count text).1 ++ (fgets count text).2 = text := by
  induction count, text using fgets.induct with
  | case1 text => rfl
  | case2 count => rfl
  | case3 count rest => simp [fgets]
  | case4 count char rest notNewline inductionHypothesis =>
      simp only [fgets, notNewline, if_false, List.cons_append]
      rw [inductionHypothesis]

theorem fgets_progress (count : Nat) (char : Char) (rest : Text) :
    (fgets (count + 1) (char :: rest)).2.length < (char :: rest).length := by
  have parts := congrArg List.length (fgets_append (count + 1) (char :: rest))
  have read : 0 < (fgets (count + 1) (char :: rest)).1.length := by
    simp only [fgets]
    split <;> simp
  rw [List.length_append] at parts
  omega

/-- The loop that appends every line of the file to `str`. -/
def readLines (str : Text) (file : Text) : Text :=
  match file with
  | [] => str
  | char :: rest =>
      readLines (str ++ (fgets 1023 (char :: rest)).1) (fgets 1023 (char :: rest)).2
termination_by file.length
decreasing_by exact fgets_progress 1022 char rest

/-- `strstr`: the text from the first occurrence on. -/
def strstr (text key : Text) : Option Text :=
  if key.isPrefixOf text then some text
  else
    match text with
    | [] => none
    | _ :: rest => strstr rest key

/-- `sscanf` with `%s`, missing when there is no word. -/
def scanWord (text : Text) : Option Text :=
  match text.dropWhile isSpace with
  | [] => none
  | char :: rest => some ((char :: rest).takeWhile fun other => ¬ isSpace other)

/-- The text in an array that was cleared before `strncpy`. -/
def strncpy (count : Nat) (source : Text) : Text := source.take count

/-- What `get_passwd_and_ssid_from_wpa_file` does: its result, the texts it
gives to its caller, and how many bytes `sscanf` stored in `tmp_ssid` and
`tmp_pwd`. -/
structure ReadBack where
  result : Int
  ssid : Text
  passwd : Text
  ssidBytes : Nat
  passwdBytes : Nat
deriving DecidableEq, Repr

/-- The bytes a scanned word takes with its terminator. -/
def storedBytes (word : Option Text) : Nat := (word.map fun text => text.length + 1).getD 0

/-- `get_passwd_and_ssid_from_wpa_file`. -/
def getPasswdAndSsidFromWpaFile (file : Option Text) : ReadBack :=
  match file with
  | none => ⟨-1, [], [], 0, 0⟩
  | some file =>
      let str := readLines [] file
      match strstr str "ssid=".toList with
      | none => ⟨-1, [], [], 0, 0⟩
      | some opstr =>
          let tmpSsid := scanWord (opstr.drop 5)
          match strstr str "psk=".toList with
          | none => ⟨-1, [], [], storedBytes tmpSsid, 0⟩
          | some opstr =>
              let tmpPwd := scanWord (opstr.drop 4)
              ⟨0, strncpy 32 (tmpSsid.getD []), strncpy 64 (tmpPwd.getD []), storedBytes tmpSsid,
                storedBytes tmpPwd⟩

/-! ## What the file should give back -/

/-- A name and a passphrase as the station accepts them; neither has a
terminator, a line end or a quote. -/
structure Storable (ssid psk : Text) : Prop where
  ssidNotEmpty : 1 ≤ ssid.length
  ssidFits : ssid.length ≤ 32
  pskLong : 8 ≤ psk.length
  pskFits : psk.length ≤ 63
  ssidPlain : ∀ char ∈ ssid, char ≠ '\x00' ∧ char ≠ '\n' ∧ char ≠ '"'
  pskPlain : ∀ char ∈ psk, char ≠ '\x00' ∧ char ≠ '\n' ∧ char ≠ '"'

theorem Storable.psk_ne_nil {ssid psk : Text} (storable : Storable ssid psk) : psk ≠ [] := by
  intro isEmpty
  have long := storable.pskLong
  rw [isEmpty] at long
  exact absurd long (by decide)

/-- The file reads back as written, inside the temporaries. -/
structure ReadsBack (ssid psk : Text) (file : Option Text) : Prop where
  result : (getPasswdAndSsidFromWpaFile file).result = 0
  ssid : (getPasswdAndSsidFromWpaFile file).ssid = ssid
  passwd : (getPasswdAndSsidFromWpaFile file).passwd = psk
  ssidInside : (getPasswdAndSsidFromWpaFile file).ssidBytes ≤ 33
  passwdInside : (getPasswdAndSsidFromWpaFile file).passwdBytes ≤ 65

/-! ## The lines and the keys -/

/-- The text fits `buf` of the writer and `str` of the reader. -/
theorem confText_fits {ssid psk : Text} (storable : Storable ssid psk) :
    (confText ssid (some psk)).length < 1024 := by
  have ssidFits := storable.ssidFits
  have pskFits := storable.pskFits
  have headerLength : confHeader.length = 65 := by decide
  have notEmpty := storable.psk_ne_nil
  unfold confText
  split
  · contradiction
  · rename_i isNil
    exact absurd (Option.some.inj isNil) notEmpty
  · rename_i other isSome
    cases isSome
    simp only [List.length_append, headerLength]
    simp
    omega

/-- Reading line by line gives the whole file. -/
theorem readLines_eq (str file : Text) : readLines str file = str ++ file := by
  induction str, file using readLines.induct with
  | case1 str => simp [readLines]
  | case2 str char rest inductionHypothesis =>
      rw [readLines, inductionHypothesis, List.append_assoc, fgets_append]

/-- No occurrence of `first` in the text has `second` behind it or ends it. -/
def lacksPair (first second : Char) : Text → Bool
  | [] => true
  | [char] => char ≠ first
  | char :: next :: rest =>
      (char ≠ first || next ≠ second) && lacksPair first second (next :: rest)

/-- A key is not found where its first two characters do not stand. -/
theorem strstr_skip {first second : Char} (key : Text) {before : Text}
    (lacks : lacksPair first second before = true) (after : Text) :
    strstr (before ++ after) (first :: second :: key) = strstr after (first :: second :: key) := by
  induction before using lacksPair.induct with
  | case1 => rfl
  | case2 char =>
      have differs : char ≠ first := by simpa [lacksPair] using lacks
      simp [strstr, List.isPrefixOf, differs.symm]
  | case3 char next rest inductionHypothesis =>
      simp only [lacksPair, Bool.and_eq_true] at lacks
      have absent : (first :: second :: key).isPrefixOf (char :: next :: (rest ++ after)) = false := by
        have differs : char ≠ first ∨ next ≠ second := by simpa using lacks.1
        rcases differs with atFirst | atSecond
        · simp [List.isPrefixOf, atFirst.symm]
        · simp [List.isPrefixOf, atSecond.symm]
      rw [List.cons_append, List.cons_append, strstr, absent]
      exact inductionHypothesis lacks.2

/-- The first `ssid=` of a file with a passphrase is the key. -/
theorem strstr_ssid (rest : Text) :
    strstr (confHeader ++ ("key_mgmt=WPA-PSK\nssid=\"".toList ++ rest)) "ssid=".toList =
      some ("ssid=\"".toList ++ rest) := by
  have lines : confHeader ++ ("key_mgmt=WPA-PSK\nssid=\"".toList ++ rest) =
      (confHeader ++ "key_mgmt=WPA-PSK\n".toList) ++ ("ssid=\"".toList ++ rest) := by
    simp
  have key : "ssid=".toList = ['s', 's', 'i', 'd', '='] := by simp
  rw [lines, key, strstr_skip ['i', 'd', '='] (by decide)]
  simp [strstr, List.isPrefixOf]

/-- A scan ends at the first character it stops at. -/
theorem takeWhile_stop {accepts : Char → Bool} {stop : Char} (stops : accepts stop = false)
    (text rest : Text) : (text ++ stop :: rest).takeWhile accepts = text.takeWhile accepts := by
  rw [List.takeWhile_append, List.takeWhile_cons_of_neg (by simp [stops]), List.append_nil]
  split
  · rename_i whole
    exact ((List.takeWhile_prefix accepts).eq_of_length whole).symm
  · rfl

/-- What is scanned behind the key starts with the quote and ends at the first
blank of the name or at the closing quote. -/
theorem scanWord_quoted (text rest : Text) :
    scanWord ('"' :: (text ++ '"' :: '\n' :: rest)) =
      some ('"' :: (text ++ ['"']).takeWhile fun char => ¬ isSpace char) := by
  have quoteNoSpace : isSpace '"' = false := by decide
  have newlineSpace : isSpace '\n' = true := by decide
  have split : text ++ '"' :: '\n' :: rest = (text ++ ['"']) ++ '\n' :: rest := by simp
  unfold scanWord
  rw [List.dropWhile_cons_of_neg (by simp [quoteNoSpace])]
  simp only
  rw [List.takeWhile_cons_of_pos (by simp [quoteNoSpace]), split,
    takeWhile_stop (by simp [newlineSpace])]

/-! ## Reading what was written -/

/-- The word that ends up in `tmp_ssid`. -/
def ssidWord (ssid : Text) : Text :=
  '"' :: (ssid ++ ['"']).takeWhile fun char => ¬ isSpace char

/-- Reading a file with a passphrase finds the name behind its quote. -/
theorem read_ssid (ssid psk : Text) (pskNotEmpty : psk ≠ []) :
    let readBack := getPasswdAndSsidFromWpaFile (some (confText ssid (some psk)))
    readBack.ssidBytes = (ssidWord ssid).length + 1 ∧
      (readBack.result = 0 → readBack.ssid = (ssidWord ssid).take 32) := by
  obtain ⟨rest, isText⟩ : ∃ rest, confText ssid (some psk) =
      confHeader ++ ("key_mgmt=WPA-PSK\nssid=\"".toList ++ (ssid ++ '"' :: '\n' :: rest)) := by
    refine ⟨"psk=\"".toList ++ psk ++ "\"\n\x7d\n".toList, ?_⟩
    cases psk with
    | nil => exact absurd rfl pskNotEmpty
    | cons char chars => simp [confText]
  have behind : ("ssid=\"".toList ++ (ssid ++ '"' :: '\n' :: rest)).drop 5 =
      '"' :: (ssid ++ '"' :: '\n' :: rest) := by simp
  simp only [getPasswdAndSsidFromWpaFile, isText, readLines_eq, List.nil_append, strstr_ssid, behind,
    scanWord_quoted]
  split
  · exact ⟨rfl, fun zero => absurd zero (by simp)⟩
  · exact ⟨rfl, fun _ => rfl⟩

/-- A name without blanks is stored inside `tmp_ssid` only when it has at most
thirty characters. -/
theorem tmp_ssid_fits_iff {ssid psk : Text} (storable : Storable ssid psk)
    (noBlank : ∀ char ∈ ssid, isSpace char = false) :
    (getPasswdAndSsidFromWpaFile (some (confText ssid (some psk)))).ssidBytes ≤ 33 ↔
      ssid.length ≤ 30 := by
  have word : (ssidWord ssid).length = ssid.length + 2 := by
    unfold ssidWord
    rw [List.takeWhile_append_of_pos (by simpa using noBlank)]
    simp [isSpace]
  rw [(read_ssid ssid psk storable.psk_ne_nil).1, word]
  omega

/-- No name and no passphrase read back as they were written: the name is read
with the quote in front of it. -/
theorem station_conf_never_reads_back {ssid psk : Text} (storable : Storable ssid psk)
    {disk : Disk} {file : Option Text}
    (prepared : wpaConfigPrepare disk ssid (some psk) = (0, file)) :
    ¬ ReadsBack ssid psk file := by
  intro readsBack
  have isFile : file = some (confText ssid (some psk)) := by
    unfold wpaConfigPrepare at prepared
    split at prepared
    · exact absurd (congrArg Prod.fst prepared) (by simp)
    · split at prepared
      · exact absurd (congrArg Prod.fst prepared) (by simp)
      · exact (congrArg Prod.snd prepared).symm
  subst isFile
  obtain ⟨-, reads⟩ := read_ssid ssid psk storable.psk_ne_nil
  have isSsid : (ssidWord ssid).take 32 = ssid := (reads readsBack.result).symm.trans readsBack.ssid
  have quoted : '"' ∈ ssid := by
    rw [← isSsid]
    simp [ssidWord]
  exact (storable.ssidPlain '"' quoted).2.2 rfl

/-- The name `home` with the passphrase `12345678`. -/
theorem station_conf_home_not_read_back :
    Storable "home".toList "12345678".toList ∧
      ¬ ReadsBack "home".toList "12345678".toList
        (some (confText "home".toList (some "12345678".toList))) := by
  have storable : Storable "home".toList "12345678".toList :=
    ⟨by decide, by decide, by decide, by decide, by simp, by simp⟩
  have prepared : wpaConfigPrepare ⟨true, true⟩ "home".toList (some "12345678".toList) =
      (0, some (confText "home".toList (some "12345678".toList))) := rfl
  exact ⟨storable, station_conf_never_reads_back storable prepared⟩

/-- The name `home` and the passphrase `12345678` are stored and read back as
`"home"` and `"12345678"`, with the quotes. -/
theorem station_conf_reads_quotes :
    let prepared := wpaConfigPrepare ⟨true, true⟩ "home".toList (some "12345678".toList)
    Storable "home".toList "12345678".toList ∧ prepared.1 = 0 ∧
      getPasswdAndSsidFromWpaFile prepared.2 =
        ⟨0, "\"home\"".toList, "\"12345678\"".toList, 7, 11⟩ ∧
      ¬ ReadsBack "home".toList "12345678".toList prepared.2 := by
  have reads : getPasswdAndSsidFromWpaFile
      (wpaConfigPrepare ⟨true, true⟩ "home".toList (some "12345678".toList)).2 =
        ⟨0, "\"home\"".toList, "\"12345678\"".toList, 7, 11⟩ := by
    simp only [getPasswdAndSsidFromWpaFile, wpaConfigPrepare, readLines_eq]
    decide +kernel
  refine ⟨⟨by decide, by decide, by decide, by decide, by simp, by simp⟩, rfl, reads, ?_⟩
  intro readsBack
  have isHome := readsBack.ssid
  rw [reads] at isHome
  exact absurd isHome (by decide)

end TuyaAdapter.LinuxWifi
