import Mathlib.Algebra.Order.Group.Nat
import TuyaAdapter.Foundation.Hexadecimal

/-!
Owns the conversions of `sscanf` one at a time: each takes the text and gives
the value it stores and the text that is left, or nothing when it does not
match. Numbers are unbounded, as in `Decimal`.
-/

namespace TuyaAdapter.Foundation.Scanf

open Foundation.Decimal Foundation.Hexadecimal

/-- White space in a format. -/
def skipSpace (text : Text) : Text := text.dropWhile isSpace

/-- `%s`. -/
def readWord (text : Text) : Option (Text × Text) :=
  match skipSpace text with
  | [] => none
  | char :: rest =>
      some ((char :: rest).takeWhile (fun other => !isSpace other),
        (char :: rest).dropWhile (fun other => !isSpace other))

/-- The text after a sign. -/
def dropSign : Text → Text
  | '-' :: rest => rest
  | '+' :: rest => rest
  | text => text

/-- `%d`. -/
def readInt (text : Text) : Option (Int × Text) :=
  (leadingInt (skipSpace text)).map fun value =>
    (value, (dropSign (skipSpace text)).dropWhile Char.isDigit)

/-- `%[^\n]`. -/
def readLine (text : Text) : Option (Text × Text) :=
  match text.takeWhile (fun char => char ≠ '\n') with
  | [] => none
  | line => some (line, text.dropWhile fun char => char ≠ '\n')

/-- `%02x`: at most two characters, of which one may be a sign and both the
prefix of a hexadecimal number. The value is that of an `unsigned int`. -/
def readHex2 (text : Text) : Option (Nat × Text) :=
  match skipSpace text with
  | [] => none
  | [first] => if isHexDigit first then some (hexValue first, []) else none
  | first :: second :: rest =>
      if first = '+' ∨ first = '-' then
        if isHexDigit second then
          some (if first = '-' then (2 ^ 32 - hexValue second) % 2 ^ 32 else hexValue second, rest)
        else none
      else if first = '0' ∧ (second = 'x' ∨ second = 'X') then some (0, rest)
      else if isHexDigit first then
        if isHexDigit second then some (16 * hexValue first + hexValue second, rest)
        else some (hexValue first, second :: rest)
      else none

/-! ## Reading what was written -/

/-- The text starts with no white space. -/
def StartsPlain (text : Text) : Prop := ∀ char ∈ text.head?, isSpace char = false

theorem skipSpace_of_startsPlain {text : Text} (plain : StartsPlain text) :
    skipSpace text = text := by
  unfold skipSpace
  cases text with
  | nil => rfl
  | cons char rest =>
      rw [List.dropWhile_cons_of_neg]
      rw [plain char rfl]
      decide

theorem skipSpace_startsPlain (text : Text) : StartsPlain (skipSpace text) := by
  intro char isHead
  have first := List.head?_dropWhile_not isSpace text
  unfold skipSpace at isHead
  rw [Option.mem_def.mp isHead] at first
  simpa using first

/-- A word with no white space, followed by the end or by white space. -/
def IsWord (word : Text) : Prop := word ≠ [] ∧ ∀ char ∈ word, isSpace char = false

instance (word : Text) : Decidable (IsWord word) :=
  @instDecidableAnd _ _ _ (List.decidableBAll _ word)

theorem IsWord.startsPlain {word : Text} (isWord : IsWord word) (rest : Text) :
    StartsPlain (word ++ rest) := by
  intro char isHead
  cases word with
  | nil => exact absurd rfl isWord.1
  | cons first others =>
      have isFirst : first = char := by simpa using isHead
      rw [← isFirst]
      exact isWord.2 first List.mem_cons_self

theorem readWord_append {word : Text} (rest : Text) (isWord : IsWord word)
    (ends : ∀ char ∈ rest.head?, isSpace char = true) :
    readWord (word ++ rest) = some (word, rest) := by
  have wordPlain : ∀ char ∈ word, (!isSpace char) = true := by
    intro char member
    rw [isWord.2 char member]
    rfl
  have restEnds : rest.takeWhile (fun char => !isSpace char) = [] ∧
      rest.dropWhile (fun char => !isSpace char) = rest := by
    cases rest with
    | nil => exact ⟨rfl, rfl⟩
    | cons char others =>
        have space := ends char rfl
        exact ⟨by simp [space], by simp [space]⟩
  unfold readWord
  rw [skipSpace_of_startsPlain (isWord.startsPlain rest)]
  split
  · rename_i isEmpty
    exact absurd (List.append_eq_nil_iff.mp isEmpty).1 isWord.1
  · rename_i isCons
    rw [← isCons, List.takeWhile_append_of_pos wordPlain, List.dropWhile_append_of_pos wordPlain,
      restEnds.1, restEnds.2, List.append_nil]

/-- The word of a text that is nothing else. -/
theorem readWord_word {word : Text} (isWord : IsWord word) : readWord word = some (word, []) := by
  have read := readWord_append [] isWord (fun char isHead => absurd isHead (by simp))
  rwa [List.append_nil] at read

/-- A scanned word has no white space. -/
theorem isWord_of_readWord {text word rest : Text} (read : readWord text = some (word, rest)) :
    IsWord word := by
  have plain := skipSpace_startsPlain text
  unfold readWord at read
  split at read
  · cases read
  · rename_i char others isCons
    have isRead : ((char :: others).takeWhile fun other => !isSpace other) = word :=
      congrArg Prod.fst (Option.some.inj read)
    rw [← isRead]
    constructor
    · rw [isCons] at plain
      rw [List.takeWhile_cons_of_pos (by simp [plain char rfl])]
      exact List.cons_ne_nil _ _
    · intro other member
      simpa using List.mem_takeWhile_imp member

theorem dropSign_of_isDigit {char : Char} {rest : Text} (isDigit : char.isDigit = true) :
    dropSign (char :: rest) = char :: rest := by
  unfold dropSign
  split
  · rename_i isMinus
    exact absurd (List.cons.inj isMinus).1 (not_sign_of_isDigit isDigit).1
  · rename_i isPlus
    exact absurd (List.cons.inj isPlus).1 (not_sign_of_isDigit isDigit).2
  · rfl

theorem dropSign_decimal (value : Int) {rest : Text} (ends : EndsNumber rest) :
    (dropSign (decimal value ++ rest)).dropWhile Char.isDigit = rest := by
  have after : ∀ digits : Nat, (Nat.toDigits 10 digits ++ rest).dropWhile Char.isDigit = rest := by
    intro digits
    have parts := List.takeWhile_append_dropWhile (p := Char.isDigit)
      (l := Nat.toDigits 10 digits ++ rest)
    rw [takeWhile_digits digits ends] at parts
    exact List.append_cancel_left parts
  cases value with
  | ofNat value =>
      obtain ⟨digit, digits, written, isDigit⟩ := digits_head value
      have unsigned : dropSign (Nat.toDigits 10 value ++ rest) = Nat.toDigits 10 value ++ rest := by
        rw [written]
        exact dropSign_of_isDigit isDigit
      show (dropSign (Nat.toDigits 10 value ++ rest)).dropWhile Char.isDigit = rest
      rw [unsigned]
      exact after value
  | negSucc value => exact after (value + 1)

theorem readInt_decimal (value : Int) {rest : Text} (ends : EndsNumber rest) :
    readInt (decimal value ++ rest) = some (value, rest) := by
  unfold readInt skipSpace
  rw [dropWhile_decimal, leadingInt_decimal value ends, dropSign_decimal value ends]
  rfl

theorem readLine_of_noNewline {text : Text} (notEmpty : text ≠ [])
    (noNewline : ∀ char ∈ text, char ≠ '\n') : readLine text = some (text, []) := by
  have all : ∀ char ∈ text, decide (char ≠ '\n') = true :=
    fun char member => decide_eq_true (noNewline char member)
  unfold readLine
  rw [List.takeWhile_eq_self_iff.mpr all, List.dropWhile_eq_nil_iff.mpr all]
  split
  · exact absurd rfl notEmpty
  · rfl

theorem isHexDigit_imp {char : Char} (isHex : isHexDigit char = true) :
    isSpace char = false ∧ char ≠ '+' ∧ char ≠ '-' ∧ char ≠ 'x' ∧ char ≠ 'X' := by
  have differs : ∀ other : Char, isHexDigit other = false → char ≠ other := by
    intro other notHex isOther
    rw [isOther, notHex] at isHex
    exact absurd isHex (by decide)
  refine ⟨?_, differs '+' (by decide), differs '-' (by decide), differs 'x' (by decide),
    differs 'X' (by decide)⟩
  by_contra space
  have member : char ∈ [' ', '\t', '\n', '\x0b', '\x0c', '\r'] :=
    List.contains_iff_mem.mp (Bool.not_eq_false _ ▸ space)
  have noHex : ∀ other ∈ [' ', '\t', '\n', '\x0b', '\x0c', '\r'], isHexDigit other = false := by
    intro other isOther
    simp only [List.mem_cons, List.not_mem_nil, or_false] at isOther
    rcases isOther with rfl | rfl | rfl | rfl | rfl | rfl <;> rfl
  exact differs char (noHex char member) rfl

/-- Two digits are read as one byte. -/
theorem readHex2_digits {high low : Char} (highHex : isHexDigit high = true)
    (lowHex : isHexDigit low = true) (rest : Text) :
    readHex2 (high :: low :: rest) = some (16 * hexValue high + hexValue low, rest) := by
  obtain ⟨highPlain, notPlus, notMinus, -, -⟩ := isHexDigit_imp highHex
  obtain ⟨-, -, -, notX, notBigX⟩ := isHexDigit_imp lowHex
  have plain : StartsPlain (high :: low :: rest) := by
    intro char isHead
    have isHigh : high = char := by simpa using isHead
    rw [← isHigh]
    exact highPlain
  unfold readHex2
  rw [skipSpace_of_startsPlain plain]
  simp only [notPlus, notMinus, or_self, if_false, notX, notBigX, and_false, highHex, lowHex,
    if_true]

end TuyaAdapter.Foundation.Scanf
