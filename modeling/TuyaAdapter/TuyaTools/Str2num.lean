import TuyaAdapter.Foundation.Numeral

/-!
Contract: `tuya_str2num` of `tuya_tools.c`. A string is a memory and its length.
-/

namespace TuyaAdapter.TuyaTools

open Foundation.Numeral

/-! ## The function -/

/-- Between the characters `0` and `9`. -/
def IsDigit (char : UInt8) : Prop := 48 ≤ char ∧ char ≤ 57

instance (char : UInt8) : Decidable (IsDigit char) := inferInstanceAs (Decidable (_ ∧ _))

/-- The loop over the characters; missing when it returns `FALSE`. -/
def str2numLoop : List UInt8 → UInt32 → Option UInt32
  | [], value => some value
  | char :: rest, value =>
      if IsDigit char then str2numLoop rest (value * 10 + (char - 48).toUInt32) else none

def charsOf (str : Nat → UInt8) (strlen : UInt8) : List UInt8 := (List.range strlen.toNat).map str

/-- What `tuya_str2num` returns, and what `number` is behind it. -/
def tuyaStr2num (number : UInt32) (str : Nat → UInt8) (strlen : UInt8) : Bool × UInt32 :=
  match str2numLoop (charsOf str strlen) 0 with
  | some value => (true, value)
  | none => (false, number)

/-! ## The property -/

/-- What the digits of a string are worth. -/
def worth (chars : List UInt8) : Nat := value 10 (chars.map fun char => char.toNat - 48)

/-- A string that is a number of 32 bits. -/
def IsNumber (chars : List UInt8) : Prop :=
  (∀ char ∈ chars, IsDigit char) ∧ worth chars < 2 ^ 32

/-- Numbers are parsed, and nothing else is. -/
structure Parses (number : UInt32) (str : Nat → UInt8) (strlen : UInt8) : Prop where
  isNumber : IsNumber (charsOf str strlen) →
    (tuyaStr2num number str strlen).1 = true ∧
      (tuyaStr2num number str strlen).2.toNat = worth (charsOf str strlen)
  notNumber : ¬ IsNumber (charsOf str strlen) → tuyaStr2num number str strlen = (false, number)

/-! ## The loop -/

theorem worth_concat (chars : List UInt8) (char : UInt8) :
    worth (chars ++ [char]) = worth chars * 10 + (char.toNat - 48) := by
  unfold worth
  rw [List.map_append, List.map_singleton, value_concat]

theorem digit_toNat {char : UInt8} (isDigit : IsDigit char) :
    (char - 48).toUInt32.toNat = char.toNat - 48 := by
  rw [UInt8.toNat_toUInt32, UInt8.toNat_sub_of_le _ _ isDigit.1]
  rfl

/-- The digits so far are added up modulo 2^32. -/
theorem str2numLoop_digits {before rest : List UInt8} {sum : UInt32}
    (isSum : sum.toNat = worth before % 2 ^ 32) (digits : ∀ char ∈ rest, IsDigit char) :
    ∃ result, str2numLoop rest sum = some result ∧
      result.toNat = worth (before ++ rest) % 2 ^ 32 := by
  induction rest generalizing before sum with
  | nil => exact ⟨sum, rfl, by rw [isSum, List.append_nil]⟩
  | cons char rest inductionHypothesis =>
      obtain ⟨isDigit, later⟩ := List.forall_mem_cons.mp digits
      have stepped : (sum * 10 + (char - 48).toUInt32).toNat =
          worth (before ++ [char]) % 2 ^ 32 := by
        rw [worth_concat, UInt32.toNat_add, UInt32.toNat_mul, digit_toNat isDigit, isSum]
        change (worth before % 2 ^ 32 * 10 % 2 ^ 32 + (char.toNat - 48)) % 2 ^ 32 = _
        omega
      obtain ⟨result, found, isResult⟩ := inductionHypothesis stepped later
      refine ⟨result, ?_, ?_⟩
      · rw [str2numLoop, if_pos isDigit, found]
      · rw [isResult, List.append_assoc, List.singleton_append]

theorem str2numLoop_other {chars : List UInt8} (sum : UInt32)
    (other : ∃ char ∈ chars, ¬ IsDigit char) : str2numLoop chars sum = none := by
  induction chars generalizing sum with
  | nil =>
      obtain ⟨char, member, -⟩ := other
      exact absurd member List.not_mem_nil
  | cons first rest inductionHypothesis =>
      by_cases isDigit : IsDigit first
      · rw [str2numLoop, if_pos isDigit]
        apply inductionHypothesis
        obtain ⟨char, member, notDigit⟩ := other
        rcases List.mem_cons.mp member with rfl | later
        · exact absurd isDigit notDigit
        · exact ⟨char, later, notDigit⟩
      · rw [str2numLoop, if_neg isDigit]

/-- Digits are always taken, whatever they are worth. -/
theorem tuyaStr2num_digits (number : UInt32) {str : Nat → UInt8} {strlen : UInt8}
    (digits : ∀ char ∈ charsOf str strlen, IsDigit char) :
    (tuyaStr2num number str strlen).1 = true ∧
      (tuyaStr2num number str strlen).2.toNat = worth (charsOf str strlen) % 2 ^ 32 := by
  obtain ⟨result, found, isResult⟩ :=
    str2numLoop_digits (show (0 : UInt32).toNat = worth [] % 2 ^ 32 from rfl) digits
  rw [List.nil_append] at isResult
  rw [tuyaStr2num, found]
  exact ⟨rfl, isResult⟩

theorem tuyaStr2num_other (number : UInt32) {str : Nat → UInt8} {strlen : UInt8}
    (other : ∃ char ∈ charsOf str strlen, ¬ IsDigit char) :
    tuyaStr2num number str strlen = (false, number) := by
  rw [tuyaStr2num, str2numLoop_other 0 other]

/-- A string is parsed right unless it is a number of more than 32 bits. -/
theorem tuyaStr2num_parses_iff (number : UInt32) (str : Nat → UInt8) (strlen : UInt8) :
    Parses number str strlen ↔
      ¬ ((∀ char ∈ charsOf str strlen, IsDigit char) ∧ 2 ^ 32 ≤ worth (charsOf str strlen)) := by
  constructor
  · rintro parses ⟨digits, large⟩
    have refused := parses.notNumber fun isNumber => Nat.not_lt_of_le large isNumber.2
    have taken := (tuyaStr2num_digits number digits).1
    rw [refused] at taken
    exact absurd taken Bool.false_ne_true
  · intro small
    constructor
    · intro isNumber
      have taken := tuyaStr2num_digits number isNumber.1
      rw [Nat.mod_eq_of_lt isNumber.2] at taken
      exact taken
    · intro notNumber
      apply tuyaStr2num_other
      by_contra none
      have digits : ∀ char ∈ charsOf str strlen, IsDigit char := by
        intro char member
        by_contra notDigit
        exact none ⟨char, member, notDigit⟩
      exact small ⟨digits, Nat.le_of_not_lt fun fits => notNumber ⟨digits, fits⟩⟩

/-- The string `4294967296` is parsed as 0. -/
theorem tuyaStr2num_two_pow_32 :
    tuyaStr2num 7 (fun i => [52, 50, 57, 52, 57, 54, 55, 50, 57, 54].getD i 0) 10 = (true, 0) ∧
      ¬ Parses 7 (fun i => [52, 50, 57, 52, 57, 54, 55, 50, 57, 54].getD i 0) 10 := by
  have taken : tuyaStr2num 7 (fun i => [52, 50, 57, 52, 57, 54, 55, 50, 57, 54].getD i 0) 10 =
      (true, 0) := by decide +kernel
  refine ⟨taken, ?_⟩
  intro parses
  have large : ¬ worth (charsOf (fun i => [52, 50, 57, 52, 57, 54, 55, 50, 57, 54].getD i 0) 10) <
      2 ^ 32 := by decide +kernel
  have refused := parses.notNumber fun isNumber => large isNumber.2
  rw [taken] at refused
  exact absurd (Prod.mk.inj refused).1 (by decide)

end TuyaAdapter.TuyaTools
