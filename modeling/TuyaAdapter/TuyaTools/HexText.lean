import Mathlib.Algebra.Order.Group.Nat
import Mathlib.Logic.Function.Basic

/-!
Contract: `tuya_asc2hex`, `tuya_ascs2hex` and `tuya_hex2str` of `tuya_tools.c`,
between bytes and their hexadecimal digits.

An array is a memory that goes on behind it; what is written and what is read are
different arrays. A text has fewer than 2^31 characters, so that the positions,
of type `int`, do not overflow.
-/

namespace TuyaAdapter.TuyaTools

/-! ## The functions -/

def tuyaAsc2hex (asccode : UInt8) : UInt8 :=
  if 48 ≤ asccode ∧ asccode ≤ 57 then asccode - 48
  else if 97 ≤ asccode ∧ asccode ≤ 102 then asccode - 97 + 10
  else if 65 ≤ asccode ∧ asccode ≤ 70 then asccode - 65 + 10
  else 0

/-- The body of the loop of `tuya_ascs2hex`. -/
def ascs2hexTurn (ascs : Nat → UInt8) (hex : Nat → UInt8) (i : Nat) : Nat → UInt8 :=
  let h4 := tuyaAsc2hex (ascs i)
  let l4 := tuyaAsc2hex (ascs (i + 1))
  Function.update hex (i / 2) ((h4 <<< 4) + l4)

/-- `tuya_ascs2hex`: what is in `hex` behind it. The counter runs in steps of 2. -/
def tuyaAscs2hex (hex ascs : Nat → UInt8) (srclen : Nat) : Nat → UInt8 :=
  let lenstr := if srclen % 2 ≠ 0 then srclen - srclen % 2 else srclen
  if lenstr = 0 then hex
  else (List.range' 0 (lenstr / 2) 2).foldl (ascs2hexTurn ascs) hex

/-- `ddh` and `ddl` of `tuya_hex2str`. -/
def hexChar (half : UInt8) : UInt8 :=
  let dd := 48 + half
  if dd > 57 then dd + 7 else dd

/-- The body of the loop of `tuya_hex2str`. -/
def hex2strTurn (hex : Nat → UInt8) (str : Nat → UInt8) (i : Nat) : Nat → UInt8 :=
  let str := Function.update str (i * 2) (hexChar (hex i / 16))
  Function.update str (i * 2 + 1) (hexChar (hex i % 16))

/-- `tuya_hex2str`: what is in `str` behind it. -/
def tuyaHex2str (str hex : Nat → UInt8) (hexlen : Nat) : Nat → UInt8 :=
  let str := (List.range hexlen).foldl (hex2strTurn hex) str
  Function.update str (hexlen * 2) 0

/-! ## Digits -/

def IsUpperHexDigit (char : UInt8) : Prop := (48 ≤ char ∧ char ≤ 57) ∨ (65 ≤ char ∧ char ≤ 70)

def IsHexDigit (char : UInt8) : Prop := IsUpperHexDigit char ∨ (97 ≤ char ∧ char ≤ 102)

instance (char : UInt8) : Decidable (IsUpperHexDigit char) := inferInstanceAs (Decidable (_ ∨ _))

instance (char : UInt8) : Decidable (IsHexDigit char) := inferInstanceAs (Decidable (_ ∨ _))

/-- A letter in upper case. -/
def toUpper (char : UInt8) : UInt8 := if 97 ≤ char ∧ char ≤ 122 then char - 32 else char

/-- A byte is one of the first 256 numbers. -/
theorem forall_byte {P : UInt8 → Prop} (all : ∀ k < 256, P (UInt8.ofNat k)) (byte : UInt8) :
    P byte := by
  have here := all byte.toNat byte.toNat_lt
  rw [UInt8.ofNat_toNat] at here
  exact here

theorem hexChar_upper (byte : UInt8) :
    IsUpperHexDigit (hexChar (byte / 16)) ∧ IsUpperHexDigit (hexChar (byte % 16)) := by
  revert byte
  apply forall_byte
  decide +kernel

/-- The two digits of a byte give the byte back. -/
theorem hexChar_back (byte : UInt8) :
    (tuyaAsc2hex (hexChar (byte / 16)) <<< 4) + tuyaAsc2hex (hexChar (byte % 16)) = byte := by
  revert byte
  apply forall_byte
  decide +kernel

theorem asc2hex_lt (char : UInt8) : (tuyaAsc2hex char).toNat < 16 := by
  revert char
  apply forall_byte
  decide +kernel

/-- A digit comes back in upper case. -/
theorem asc2hex_back {char : UInt8} (isHex : IsHexDigit char) :
    hexChar (tuyaAsc2hex char) = toUpper char := by
  revert char
  apply forall_byte
  decide +kernel

/-- Two halves put together come apart again. -/
theorem halves_apart {high low : UInt8} (isHigh : high.toNat < 16) (isLow : low.toNat < 16) :
    ((high <<< 4) + low) / 16 = high ∧ ((high <<< 4) + low) % 16 = low := by
  have all : ∀ h < 16, ∀ l < 16,
      ((UInt8.ofNat h <<< 4) + UInt8.ofNat l) / 16 = UInt8.ofNat h ∧
        ((UInt8.ofNat h <<< 4) + UInt8.ofNat l) % 16 = UInt8.ofNat l := by decide +kernel
  have here := all high.toNat isHigh low.toNat isLow
  rw [UInt8.ofNat_toNat, UInt8.ofNat_toNat] at here
  exact here

/-! ## The loops -/

/-- So many turns write so many pairs of digits. -/
theorem hex2strTurn_turns (hex str : Nat → UInt8) (turns : Nat) :
    (∀ i < turns, (List.range turns).foldl (hex2strTurn hex) str (i * 2) = hexChar (hex i / 16) ∧
      (List.range turns).foldl (hex2strTurn hex) str (i * 2 + 1) = hexChar (hex i % 16)) ∧
    ∀ k, turns * 2 ≤ k → (List.range turns).foldl (hex2strTurn hex) str k = str k := by
  induction turns with
  | zero => exact ⟨fun i inside => absurd inside (Nat.not_lt_zero i), fun _ _ => rfl⟩
  | succ turns inductionHypothesis =>
      obtain ⟨inside, outside⟩ := inductionHypothesis
      rw [List.range_succ, List.foldl_append, List.foldl_cons, List.foldl_nil, hex2strTurn]
      refine ⟨?_, ?_⟩
      · intro i below
        by_cases isLast : i = turns
        · rw [isLast]
          constructor
          · rw [Function.update_of_ne (by omega), Function.update_self]
          · rw [Function.update_self]
        · obtain ⟨isHigh, isLow⟩ := inside i (by omega)
          constructor
          · rw [Function.update_of_ne (by omega), Function.update_of_ne (by omega), isHigh]
          · rw [Function.update_of_ne (by omega), Function.update_of_ne (by omega), isLow]
      · intro k behind
        rw [Function.update_of_ne (by omega), Function.update_of_ne (by omega),
          outside k (by omega)]

/-- So many turns write so many bytes. -/
theorem ascs2hexTurn_turns (ascs hex : Nat → UInt8) (turns k : Nat) :
    (List.range' 0 turns 2).foldl (ascs2hexTurn ascs) hex k =
      if k < turns then (tuyaAsc2hex (ascs (k * 2)) <<< 4) + tuyaAsc2hex (ascs (k * 2 + 1))
      else hex k := by
  induction turns with
  | zero => rfl
  | succ turns inductionHypothesis =>
      rw [List.range'_concat, List.foldl_append, List.foldl_cons, List.foldl_nil, ascs2hexTurn,
        Nat.zero_add, Nat.mul_div_cancel_left _ (by decide), Nat.mul_comm 2 turns]
      by_cases isLast : k = turns
      · rw [isLast, Function.update_self, if_pos (Nat.lt_succ_self turns)]
      · rw [Function.update_of_ne isLast, inductionHypothesis]
        congr 1
        rw [eq_iff_iff]
        omega

theorem tuyaAscs2hex_even (hex ascs : Nat → UInt8) (count k : Nat) :
    tuyaAscs2hex hex ascs (2 * count) k =
      if k < count then (tuyaAsc2hex (ascs (k * 2)) <<< 4) + tuyaAsc2hex (ascs (k * 2 + 1))
      else hex k := by
  have even : 2 * count % 2 = 0 := Nat.mul_mod_right 2 count
  have half : 2 * count / 2 = count := Nat.mul_div_cancel_left count (by decide)
  rw [← ascs2hexTurn_turns]
  unfold tuyaAscs2hex
  simp only [even, ne_eq, not_true_eq_false, if_false, half]
  split
  · rename_i isZero
    have none : count = 0 := by omega
    rw [none]
    rfl
  · rfl

/-- The last character of an odd number is ignored. -/
theorem tuyaAscs2hex_odd (hex ascs : Nat → UInt8) (count : Nat) :
    tuyaAscs2hex hex ascs (2 * count + 1) = tuyaAscs2hex hex ascs (2 * count) := by
  have odd : (2 * count + 1) % 2 = 1 := by omega
  have even : 2 * count % 2 = 0 := Nat.mul_mod_right 2 count
  unfold tuyaAscs2hex
  simp only [odd, even, ne_eq, Nat.one_ne_zero, not_true_eq_false, not_false_eq_true, if_true,
    if_false, Nat.add_sub_cancel]

/-! ## The round trips -/

/-- Digits in upper case and a terminator are written, and nothing else. -/
structure Encodes (before after : Nat → UInt8) (hexlen : Nat) : Prop where
  digits : ∀ k < 2 * hexlen, IsUpperHexDigit (after k)
  terminator : after (2 * hexlen) = 0
  others : ∀ k, 2 * hexlen < k → after k = before k

/-- The characters of a text are hexadecimal digits. -/
def HexDigits (ascs : Nat → UInt8) (srclen : Nat) : Prop := ∀ k < srclen, IsHexDigit (ascs k)

/-- The digits of a text, by pairs. -/
theorem tuyaHex2str_pair (str hex : Nat → UInt8) {hexlen i : Nat} (inside : i < hexlen) :
    tuyaHex2str str hex hexlen (i * 2) = hexChar (hex i / 16) ∧
      tuyaHex2str str hex hexlen (i * 2 + 1) = hexChar (hex i % 16) := by
  obtain ⟨isHigh, isLow⟩ := (hex2strTurn_turns hex str hexlen).1 i inside
  constructor
  · rw [tuyaHex2str, Function.update_of_ne (by omega), isHigh]
  · rw [tuyaHex2str, Function.update_of_ne (by omega), isLow]

/-- What holds of the characters by pairs holds of all. -/
theorem forall_pairs {P : Nat → Prop} {count : Nat}
    (pairs : ∀ i < count, P (i * 2) ∧ P (i * 2 + 1)) : ∀ k < 2 * count, P k := by
  intro k inside
  obtain ⟨isHigh, isLow⟩ := pairs (k / 2) (by omega)
  rcases Nat.mod_two_eq_zero_or_one k with even | odd
  · have isPosition : k / 2 * 2 = k := by omega
    rw [isPosition] at isHigh
    exact isHigh
  · have isPosition : k / 2 * 2 + 1 = k := by omega
    rw [isPosition] at isLow
    exact isLow

theorem tuyaHex2str_encodes (str hex : Nat → UInt8) (hexlen : Nat) :
    Encodes str (tuyaHex2str str hex hexlen) hexlen := by
  refine ⟨?_, ?_, ?_⟩
  · apply forall_pairs
    intro i inside
    obtain ⟨isHigh, isLow⟩ := tuyaHex2str_pair str hex inside
    rw [isHigh, isLow]
    exact hexChar_upper (hex i)
  · rw [tuyaHex2str, Nat.mul_comm, Function.update_self]
  · intro k behind
    rw [tuyaHex2str, Function.update_of_ne (by omega),
      (hex2strTurn_turns hex str hexlen).2 k (by omega)]

/-- The bytes come back from their digits. -/
theorem tuyaAscs2hex_hex2str (str hex other : Nat → UInt8) (hexlen k : Nat) :
    tuyaAscs2hex other (tuyaHex2str str hex hexlen) (2 * hexlen) k =
      if k < hexlen then hex k else other k := by
  rw [tuyaAscs2hex_even]
  by_cases inside : k < hexlen
  · obtain ⟨isHigh, isLow⟩ := tuyaHex2str_pair str hex inside
    rw [if_pos inside, if_pos inside, isHigh, isLow, hexChar_back]
  · rw [if_neg inside, if_neg inside]

/-- The digits come back from their bytes, in upper case. -/
theorem tuyaHex2str_ascs2hex (str ascs hex : Nat → UInt8) {count : Nat}
    (digits : HexDigits ascs (2 * count)) :
    ∀ k < 2 * count,
      tuyaHex2str str (tuyaAscs2hex hex ascs (2 * count)) count k = toUpper (ascs k) := by
  apply forall_pairs
  intro i inside
  obtain ⟨isHigh, isLow⟩ :=
    tuyaHex2str_pair str (tuyaAscs2hex hex ascs (2 * count)) inside
  rw [isHigh, isLow, tuyaAscs2hex_even, if_pos inside]
  obtain ⟨high, low⟩ := halves_apart (asc2hex_lt (ascs (i * 2))) (asc2hex_lt (ascs (i * 2 + 1)))
  rw [high, low]
  exact ⟨asc2hex_back (digits _ (by omega)), asc2hex_back (digits _ (by omega))⟩

/-- Encoding and decoding are inverse. -/
theorem hexText_inverse (str hex other ascs : Nat → UInt8) (hexlen count : Nat) :
    Encodes str (tuyaHex2str str hex hexlen) hexlen ∧
      (∀ k < hexlen,
        tuyaAscs2hex other (tuyaHex2str str hex hexlen) (2 * hexlen) k = hex k) ∧
      (HexDigits ascs (2 * count) →
        (∀ k < 2 * count,
          tuyaHex2str str (tuyaAscs2hex hex ascs (2 * count)) count k = toUpper (ascs k)) ∧
        tuyaHex2str str (tuyaAscs2hex hex ascs (2 * count)) count (2 * count) = 0) ∧
      tuyaAscs2hex hex ascs (2 * count + 1) = tuyaAscs2hex hex ascs (2 * count) := by
  refine ⟨tuyaHex2str_encodes str hex hexlen, ?_, ?_, tuyaAscs2hex_odd hex ascs count⟩
  · intro k inside
    rw [tuyaAscs2hex_hex2str, if_pos inside]
  · intro digits
    exact ⟨tuyaHex2str_ascs2hex str ascs hex digits, (tuyaHex2str_encodes str _ count).terminator⟩

end TuyaAdapter.TuyaTools
