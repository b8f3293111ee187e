import Mathlib.Data.List.TakeWhile
import Mathlib.Data.Int.Basic

/-!
Owns decimal integers in C texts: what `%d` writes, and what `sscanf` with `%d`
and `atoi` read. A text is the list of its characters before the terminator.
Numbers are unbounded; a number outside `int` is outside these definitions.
-/

namespace TuyaAdapter.Foundation.Decimal

/-- The text before the terminator. -/
abbrev Text := List Char

/-- What `%d` writes. -/
def decimal : Int → Text
  | .ofNat value => Nat.toDigits 10 value
  | .negSucc value => '-' :: Nat.toDigits 10 (value + 1)

/-- `isspace` in the C locale. -/
def isSpace (char : Char) : Bool := [' ', '\t', '\n', '\x0b', '\x0c', '\r'].contains char

/-- The digits at the start of a text, as a number when there is one. -/
def leadingNat (text : Text) : Option Nat :=
  match text.takeWhile Char.isDigit with
  | [] => none
  | digits => some (Nat.ofDigitChars 10 digits 0)

/-- A sign and digits at the start of a text. -/
def leadingInt : Text → Option Int
  | '-' :: rest => (leadingNat rest).map fun value => -(value : Int)
  | '+' :: rest => (leadingNat rest).map fun value => (value : Int)
  | text => (leadingNat text).map fun value => (value : Int)

/-- The outcome of `sscanf` with one `%d`. -/
inductive Scan where
  /-- The text ends before anything but space: the result is `EOF`. -/
  | eof
  /-- The result is 0. -/
  | mismatch
  | value (value : Int)
deriving DecidableEq, Repr

def sscanfInt (text : Text) : Scan :=
  match text.dropWhile isSpace with
  | [] => .eof
  | rest =>
      match leadingInt rest with
      | none => .mismatch
      | some value => .value value

def atoi (text : Text) : Int := (leadingInt (text.dropWhile isSpace)).getD 0

/-! ## Reading back -/

/-- The text does not start with a digit. -/
def EndsNumber (rest : Text) : Prop := rest.takeWhile Char.isDigit = []

theorem takeWhile_digits (value : Nat) {rest : Text} (ends : EndsNumber rest) :
    (Nat.toDigits 10 value ++ rest).takeWhile Char.isDigit = Nat.toDigits 10 value := by
  have digits : ∀ char ∈ Nat.toDigits 10 value, char.isDigit = true :=
    fun char member => Nat.isDigit_of_mem_toDigits (by decide) (by decide) member
  rw [List.takeWhile_append_of_pos digits, ends, List.append_nil]

theorem leadingNat_digits (value : Nat) {rest : Text} (ends : EndsNumber rest) :
    leadingNat (Nat.toDigits 10 value ++ rest) = some value := by
  unfold leadingNat
  rw [takeWhile_digits value ends]
  split
  · rename_i noDigit
    exact absurd noDigit Nat.toDigits_ne_nil
  · rw [Nat.ofDigitChars_ten_toDigits]

theorem isSpace_of_isDigit {char : Char} (isDigit : char.isDigit = true) : isSpace char = false := by
  by_contra space
  have member : char ∈ [' ', '\t', '\n', '\x0b', '\x0c', '\r'] :=
    List.contains_iff_mem.mp (Bool.not_eq_false _ ▸ space)
  have noDigit : ∀ other ∈ [' ', '\t', '\n', '\x0b', '\x0c', '\r'],
      Char.isDigit other = false := by
    intro other isOther
    simp only [List.mem_cons, List.not_mem_nil, or_false] at isOther
    rcases isOther with rfl | rfl | rfl | rfl | rfl | rfl <;> rfl
  rw [noDigit char member] at isDigit
  exact absurd isDigit (by decide)

theorem digits_head (value : Nat) :
    ∃ digit digits, Nat.toDigits 10 value = digit :: digits ∧ digit.isDigit = true := by
  cases written : Nat.toDigits 10 value with
  | nil => exact absurd written Nat.toDigits_ne_nil
  | cons digit digits =>
      refine ⟨digit, digits, rfl, ?_⟩
      have member : digit ∈ Nat.toDigits 10 value := by
        rw [written]
        exact List.mem_cons_self
      exact Nat.isDigit_of_mem_toDigits (by decide) (by decide) member

theorem not_sign_of_isDigit {char : Char} (isDigit : char.isDigit = true) :
    char ≠ '-' ∧ char ≠ '+' := by
  constructor
  · intro isMinus
    rw [isMinus] at isDigit
    exact absurd isDigit (by decide)
  · intro isPlus
    rw [isPlus] at isDigit
    exact absurd isDigit (by decide)

theorem leadingInt_decimal (value : Int) {rest : Text} (ends : EndsNumber rest) :
    leadingInt (decimal value ++ rest) = some value := by
  cases value with
  | ofNat value =>
      obtain ⟨digit, digits, written, isDigit⟩ := digits_head value
      have plain : leadingInt (Nat.toDigits 10 value ++ rest) =
          (leadingNat (Nat.toDigits 10 value ++ rest)).map fun value => (value : Int) := by
        rw [written]
        unfold leadingInt
        split
        · rename_i isMinus
          exact absurd (List.cons.inj isMinus).1 (not_sign_of_isDigit isDigit).1
        · rename_i isPlus
          exact absurd (List.cons.inj isPlus).1 (not_sign_of_isDigit isDigit).2
        · rfl
      rw [decimal, plain, leadingNat_digits value ends]
      rfl
  | negSucc value =>
      simp only [decimal, List.cons_append, leadingInt]
      rw [leadingNat_digits _ ends]
      rfl

theorem decimal_head (value : Int) :
    ∃ char chars, decimal value = char :: chars ∧ isSpace char = false := by
  cases value with
  | ofNat value =>
      obtain ⟨digit, digits, written, isDigit⟩ := digits_head value
      exact ⟨digit, digits, written, isSpace_of_isDigit isDigit⟩
  | negSucc value => exact ⟨'-', _, rfl, by decide⟩

theorem dropWhile_decimal (value : Int) (rest : Text) :
    (decimal value ++ rest).dropWhile isSpace = decimal value ++ rest := by
  obtain ⟨char, chars, written, isChar⟩ := decimal_head value
  rw [written, List.cons_append, List.dropWhile_cons_of_neg (by rw [isChar]; decide)]

/-- `atoi` reads back what `%d` wrote. -/
theorem atoi_decimal (value : Int) {rest : Text} (ends : EndsNumber rest) :
    atoi (decimal value ++ rest) = value := by
  rw [atoi, dropWhile_decimal, leadingInt_decimal value ends]
  rfl

/-- So does `sscanf`. -/
theorem sscanfInt_decimal (value : Int) {rest : Text} (ends : EndsNumber rest) :
    sscanfInt (decimal value ++ rest) = .value value := by
  unfold sscanfInt
  rw [dropWhile_decimal]
  split
  · rename_i isEmpty
    obtain ⟨char, chars, written, -⟩ := decimal_head value
    rw [written] at isEmpty
    exact absurd isEmpty (by simp)
  · rw [leadingInt_decimal value ends]

theorem decimal_ne_plus (value : Int) : ∀ char ∈ decimal value, char ≠ '+' := by
  have digits : ∀ value, ∀ char ∈ Nat.toDigits 10 value, char ≠ '+' := by
    intro value char member isPlus
    have isDigit := Nat.isDigit_of_mem_toDigits (by decide) (by decide) member
    rw [isPlus] at isDigit
    exact absurd isDigit (by decide)
  cases value with
  | ofNat value => exact digits value
  | negSucc value =>
      intro char member
      rcases List.mem_cons.mp member with isMinus | later
      · rw [isMinus]
        decide
      · exact digits _ char later

end TuyaAdapter.Foundation.Decimal
