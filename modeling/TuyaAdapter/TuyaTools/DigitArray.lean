import TuyaAdapter.Foundation.Numeral
import Mathlib.Logic.Function.Basic

/-!
Contract: `tuya_int2intArray`, `tuya_intArray2int` and `tuya_buff_reverse` of
`tuya_tools.c`, between a number and an array of its decimal digits.

An array is a memory that goes on behind it. The entries that the sum reads are
noted; its loop runs on fuel, and is missing when it needs more turns.
-/

namespace TuyaAdapter.TuyaTools

open Foundation.Numeral

/-! ## The functions -/

/-- The body of the loop of `tuya_buff_reverse`. -/
def swapEnds (len : Nat) (buf : Nat → UInt8) (i : Nat) : Nat → UInt8 :=
  let tmp := buf i
  let buf := Function.update buf i (buf (len - 1 - i))
  Function.update buf (len - 1 - i) tmp

def tuyaBuffReverse (buf : Nat → UInt8) (len : UInt16) : Nat → UInt8 :=
  (List.range (len.toNat / 2)).foldl (swapEnds len.toNat) buf

theorem quotient_lt {tmp : UInt32} (more : tmp ≠ 0) : (tmp / 10).toNat < tmp.toNat := by
  have positive : tmp.toNat ≠ 0 := fun isZero => more (UInt32.toNat_inj.mp isZero)
  rw [UInt32.toNat_div]
  exact Nat.div_lt_self (Nat.pos_of_ne_zero positive) (by decide)

/-- The loop that counts the digits. -/
def countLoop (tmp : UInt32) (i : UInt8) : UInt8 :=
  if tmp / 10 ≠ 0 then countLoop (tmp / 10) (i + 1) else i + 1
termination_by tmp.toNat
decreasing_by
  apply quotient_lt
  rintro rfl
  contradiction

/-- The loop that writes the digits, the last one first; what `i` and the array
are behind it. -/
def digitLoop (tmp : UInt32) (i : UInt8) (intArray : Nat → UInt8) : UInt8 × (Nat → UInt8) :=
  if tmp ≠ 0 then
    digitLoop (tmp / 10) (i + 1) (Function.update intArray i.toNat (tmp % 10).toUInt8)
  else (i, intArray)
termination_by tmp.toNat
decreasing_by
  apply quotient_lt
  assumption

/-- What `tuya_int2intArray` returns and leaves in the array. -/
def tuyaInt2intArray (num : UInt32) (intArray : Nat → UInt8) (len : UInt8) :
    UInt32 × (Nat → UInt8) :=
  if len < countLoop num 0 then (0, intArray)
  else
    let written := digitLoop num 0 intArray
    (written.1.toUInt32, tuyaBuffReverse written.2 written.1.toUInt16)

/-- The result, and the entries read. -/
structure Summed where
  num : UInt32
  reads : List Nat
deriving DecidableEq, Repr

def sumLoop (intArray : Nat → UInt8) (stop : UInt32) : Nat → UInt8 → UInt32 → Option Summed
  | 0, _, _ => none
  | fuel + 1, i, num =>
      if i.toUInt32 < stop then
        (sumLoop intArray stop fuel (i + 1) (num * 10 + (intArray i.toNat).toUInt32)).map
          fun later => ⟨later.num, i.toNat :: later.reads⟩
      else some ⟨num, []⟩

def tuyaIntArray2int (fuel : Nat) (intArray : Nat → UInt8) (index : UInt32) (len : UInt8) :
    Option Summed :=
  if len.toUInt32 ≤ index then some ⟨UInt32.ofNat (2 ^ 32 - 1), []⟩
  else sumLoop intArray (index + len.toUInt32) fuel index.toUInt8 0

/-! ## The properties -/

/-- So many entries of an array, from an index on. -/
def entries (intArray : Nat → UInt8) (index count : Nat) : List Nat :=
  (List.range' index count).map fun i => (intArray i).toNat

/-- The sum ends, and is the value of exactly the entries asked for. -/
def Sums (intArray : Nat → UInt8) (index : UInt32) (len : UInt8) : Prop :=
  ∃ fuel summed, tuyaIntArray2int fuel intArray index len = some summed ∧
    summed.reads = List.range' index.toNat len.toNat ∧
    summed.num.toNat = value 10 (entries intArray index.toNat len.toNat) % 2 ^ 32

/-- The digits are written to an array that is long enough, and the sum reads the
number back; nothing is written to one that is not. -/
structure WritesDigits (num : UInt32) (intArray : Nat → UInt8) (len : UInt8) (result : UInt32)
    (after : Nat → UInt8) : Prop where
  short : len.toNat < (numeral num.toNat).length → result = 0 ∧ after = intArray
  count : (numeral num.toNat).length ≤ len.toNat → result.toNat = (numeral num.toNat).length
  digits : (numeral num.toNat).length ≤ len.toNat →
    entries after 0 (numeral num.toNat).length = numeral num.toNat
  rest : (numeral num.toNat).length ≤ len.toNat →
    ∀ i, (numeral num.toNat).length ≤ i → after i = intArray i
  back : (numeral num.toNat).length ≤ len.toNat →
    ∃ fuel summed, tuyaIntArray2int fuel after 0 result.toUInt8 = some summed ∧ summed.num = num

/-! ## Reversal -/

/-- After so many turns the outer entries are exchanged. -/
theorem swapEnds_turns (buf : Nat → UInt8) (len turns : Nat) (half : turns ≤ len / 2) (i : Nat) :
    (List.range turns).foldl (swapEnds len) buf i =
      if i < turns ∨ (len - turns ≤ i ∧ i < len) then buf (len - 1 - i) else buf i := by
  induction turns generalizing i with
  | zero =>
      rw [if_neg (by omega)]
      rfl
  | succ turns inductionHypothesis =>
      have earlier := inductionHypothesis (by omega)
      rw [List.range_succ, List.foldl_append, List.foldl_cons, List.foldl_nil, swapEnds]
      by_cases isRight : i = len - 1 - turns
      · rw [isRight, Function.update_self, earlier, if_neg (by omega), if_pos (by omega)]
        congr 1
        omega
      · rw [Function.update_of_ne isRight]
        by_cases isLeft : i = turns
        · rw [isLeft, Function.update_self, earlier, if_neg (by omega), if_pos (by omega)]
        · rw [Function.update_of_ne isLeft, earlier]
          congr 1
          rw [eq_iff_iff]
          omega

theorem tuyaBuffReverse_apply (buf : Nat → UInt8) (len : UInt16) (i : Nat) :
    tuyaBuffReverse buf len i = if i < len.toNat then buf (len.toNat - 1 - i) else buf i := by
  rw [tuyaBuffReverse, swapEnds_turns buf len.toNat _ (Nat.le_refl _)]
  by_cases inside : i < len.toNat
  · rw [if_pos inside]
    split
    · rfl
    · congr 1
      omega
  · rw [if_neg inside, if_neg (by omega)]

/-! ## Counting and writing the digits -/

theorem quotient_toNat (tmp : UInt32) : (tmp / 10).toNat = tmp.toNat / 10 := UInt32.toNat_div tmp 10

theorem quotient_eq_zero_iff (tmp : UInt32) : tmp / 10 = 0 ↔ tmp.toNat < 10 := by
  rw [← UInt32.toNat_inj, quotient_toNat]
  exact Nat.div_eq_zero_iff_lt (by decide)

theorem countLoop_toNat (tmp : UInt32) (i : UInt8) :
    (countLoop tmp i).toNat = (i.toNat + (numeral tmp.toNat).length) % 256 := by
  induction tmp, i using countLoop.induct with
  | case1 tmp i more inductionHypothesis =>
      have large : 10 ≤ tmp.toNat := Nat.le_of_not_lt fun single =>
        more ((quotient_eq_zero_iff tmp).mpr single)
      rw [countLoop, if_pos more, inductionHypothesis, UInt8.toNat_add, UInt8.toNat_one,
        quotient_toNat, numeral_of_le large, List.length_append, List.length_singleton]
      omega
  | case2 tmp i last =>
      have single : tmp.toNat < 10 := (quotient_eq_zero_iff tmp).mp (Decidable.not_not.mp last)
      rw [countLoop, if_neg last, UInt8.toNat_add, UInt8.toNat_one, numeral_of_lt single,
        List.length_singleton]

theorem numeral_length_le_ten (num : UInt32) : (numeral num.toNat).length ≤ 10 := by
  apply numeral_length_le
  exact Nat.lt_trans num.toNat_lt (by decide)

/-- The digits are counted. -/
theorem countLoop_zero (num : UInt32) : (countLoop num 0).toNat = (numeral num.toNat).length := by
  have few := numeral_length_le_ten num
  rw [countLoop_toNat, UInt8.toNat_zero, Nat.zero_add, Nat.mod_eq_of_lt (by omega)]

/-- What the writing loop leaves: the digits from the position on, the last one
first. -/
structure Written (tmp : UInt32) (start : Nat) (before : Nat → UInt8)
    (written : UInt8 × (Nat → UInt8)) : Prop where
  stop : written.1.toNat = start + (Nat.digits 10 tmp.toNat).length
  digits : ∀ k (inside : k < (Nat.digits 10 tmp.toNat).length),
    (written.2 (start + k)).toNat = (Nat.digits 10 tmp.toNat)[k]
  others : ∀ k, k < start ∨ start + (Nat.digits 10 tmp.toNat).length ≤ k →
    written.2 k = before k

theorem digitLoop_written (tmp : UInt32) (i : UInt8) (intArray : Nat → UInt8)
    (fits : i.toNat + (Nat.digits 10 tmp.toNat).length < 256) :
    Written tmp i.toNat intArray (digitLoop tmp i intArray) := by
  induction tmp, i, intArray using digitLoop.induct with
  | case1 tmp i intArray more inductionHypothesis =>
      have positive : 0 < tmp.toNat :=
        Nat.pos_of_ne_zero fun isZero => more (UInt32.toNat_inj.mp isZero)
      have unfolded : Nat.digits 10 tmp.toNat =
          tmp.toNat % 10 :: Nat.digits 10 (tmp / 10).toNat := by
        rw [quotient_toNat]
        exact Nat.digits_def' (by decide) positive
      have longer : (Nat.digits 10 tmp.toNat).length =
          (Nat.digits 10 (tmp / 10).toNat).length + 1 := by
        rw [unfolded, List.length_cons]
      have next : (i + 1).toNat = i.toNat + 1 := by
        rw [UInt8.toNat_add, UInt8.toNat_one, Nat.mod_eq_of_lt (by omega)]
      have later := inductionHypothesis (by omega)
      rw [next] at later
      rw [digitLoop, if_pos more]
      refine ⟨?_, ?_, ?_⟩
      · rw [later.stop]
        omega
      · intro k inside
        cases k with
        | zero =>
            rw [Nat.add_zero, later.others i.toNat (by omega), Function.update_self]
            simp only [unfolded, List.getElem_cons_zero]
            have digit : tmp.toNat % 10 < 256 := by omega
            simp [Nat.mod_eq_of_lt digit]
        | succ k =>
            have shifted : i.toNat + (k + 1) = i.toNat + 1 + k := by omega
            rw [shifted, later.digits k (by omega)]
            simp only [unfolded, List.getElem_cons_succ]
      · intro k outside
        rw [later.others k (by omega), Function.update_of_ne (by omega)]
  | case2 tmp i intArray last =>
      have isZero : tmp = 0 := Decidable.not_not.mp last
      rw [digitLoop, if_neg last, isZero]
      exact ⟨rfl, fun k inside => absurd inside (Nat.not_lt_zero k), fun _ _ => rfl⟩

/-! ## The sum -/

variable (intArray : Nat → UInt8)

theorem sumLoop_step (stop : UInt32) (fuel : Nat) {i : UInt8} (num : UInt32)
    (more : i.toNat < stop.toNat) :
    sumLoop intArray stop (fuel + 1) i num =
      (sumLoop intArray stop fuel (i + 1) (num * 10 + (intArray i.toNat).toUInt32)).map
        fun later => ⟨later.num, i.toNat :: later.reads⟩ := by
  have below : i.toUInt32 < stop := by
    rw [UInt32.lt_iff_toNat_lt, UInt8.toNat_toUInt32]
    exact more
  rw [sumLoop, if_pos below]

theorem entries_succ (index count : Nat) :
    entries intArray index (count + 1) =
      (intArray index).toNat :: entries intArray (index + 1) count := by
  rw [entries, List.range'_succ, List.map_cons, entries]

theorem sumLoop_ends {stop : UInt32} (left : Nat) {i : UInt8} {num : UInt32} {before : List Nat}
    (isStop : i.toNat + left = stop.toNat) (bounded : stop.toNat ≤ 255)
    (isNum : num.toNat = value 10 before % 2 ^ 32) :
    ∃ summed, sumLoop intArray stop (left + 1) i num = some summed ∧
      summed.reads = List.range' i.toNat left ∧
      summed.num.toNat = value 10 (before ++ entries intArray i.toNat left) % 2 ^ 32 := by
  induction left generalizing i num before with
  | zero =>
      have last : ¬ i.toUInt32 < stop := by
        rw [UInt32.lt_iff_toNat_lt, UInt8.toNat_toUInt32]
        omega
      refine ⟨⟨num, []⟩, ?_, rfl, ?_⟩
      · rw [sumLoop, if_neg last]
      · rw [isNum, entries, List.range'_zero, List.map_nil, List.append_nil]
  | succ left inductionHypothesis =>
      have next : (i + 1).toNat = i.toNat + 1 := by
        rw [UInt8.toNat_add, UInt8.toNat_one, Nat.mod_eq_of_lt (by omega)]
      have stepped : (num * 10 + (intArray i.toNat).toUInt32).toNat =
          value 10 (before ++ [(intArray i.toNat).toNat]) % 2 ^ 32 := by
        rw [← value_concat_mod, ← isNum, UInt32.toNat_add, UInt32.toNat_mul, UInt8.toNat_toUInt32]
        exact Nat.mod_add_mod _ _ _
      obtain ⟨later, found, reads, isSum⟩ :=
        inductionHypothesis (i := i + 1) (by omega) stepped
      refine ⟨⟨later.num, i.toNat :: later.reads⟩, ?_, ?_, ?_⟩
      · rw [sumLoop_step intArray stop _ num (by omega), found]
        rfl
      · rw [reads, next, List.range'_succ]
      · rw [isSum, next, entries_succ, List.append_assoc, List.singleton_append]

/-- A counter of eight bits does not get to a stop that needs nine. -/
theorem sumLoop_endless {stop : UInt32} (wide : 256 ≤ stop.toNat) (fuel : Nat) (i : UInt8)
    (num : UInt32) : sumLoop intArray stop fuel i num = none := by
  induction fuel generalizing i num with
  | zero => rfl
  | succ fuel inductionHypothesis =>
      have more : i.toNat < stop.toNat := Nat.lt_of_lt_of_le i.toNat_lt wide
      rw [sumLoop_step intArray stop fuel num more, inductionHypothesis]
      rfl

/-- Within a range that is asked for, the stop does not wrap. -/
theorem tuyaIntArray2int_eq (fuel : Nat) {index : UInt32} {len : UInt8}
    (inside : index.toNat < len.toNat) :
    tuyaIntArray2int fuel intArray index len =
        sumLoop intArray (index + len.toUInt32) fuel index.toUInt8 0 ∧
      (index + len.toUInt32).toNat = index.toNat + len.toNat ∧
      index.toUInt8.toNat = index.toNat := by
  have few := len.toNat_lt
  refine ⟨?_, ?_, ?_⟩
  · have within : ¬ len.toUInt32 ≤ index := by
      rw [UInt32.le_iff_toNat_le, UInt8.toNat_toUInt32]
      omega
    rw [tuyaIntArray2int, if_neg within]
  · rw [UInt32.toNat_add, UInt8.toNat_toUInt32, Nat.mod_eq_of_lt (by omega)]
  · rw [UInt32.toNat_toUInt8, Nat.mod_eq_of_lt (by omega)]

theorem sums_of_le {index : UInt32} {len : UInt8} (inside : index.toNat < len.toNat)
    (bounded : index.toNat + len.toNat ≤ 255) : Sums intArray index len := by
  obtain ⟨-, isStop, isStart⟩ := tuyaIntArray2int_eq intArray 0 inside
  obtain ⟨summed, found, reads, isSum⟩ := sumLoop_ends intArray len.toNat
    (show index.toUInt8.toNat + len.toNat = (index + len.toUInt32).toNat by omega)
    (by omega) (show (0 : UInt32).toNat = value 10 [] % 2 ^ 32 from rfl)
  rw [isStart] at reads isSum
  refine ⟨len.toNat + 1, summed, ?_, reads, isSum⟩
  rw [(tuyaIntArray2int_eq intArray _ inside).1, found]

theorem sums_iff {index : UInt32} {len : UInt8} (inside : index.toNat < len.toNat) :
    Sums intArray index len ↔ index.toNat + len.toNat ≤ 255 := by
  constructor
  · rintro ⟨fuel, summed, found, -⟩
    by_contra wide
    obtain ⟨isLoop, isStop, -⟩ := tuyaIntArray2int_eq intArray fuel inside
    rw [isLoop, sumLoop_endless intArray (by omega)] at found
    exact absurd found (by simp)
  · exact sums_of_le intArray inside

/-! ## The conversion -/

theorem countLoop_lt_iff (num : UInt32) (len : UInt8) :
    len < countLoop num 0 ↔ len.toNat < (numeral num.toNat).length := by
  rw [UInt8.lt_iff_toNat_lt, countLoop_zero]

/-- What the conversion leaves in an array that is long enough. -/
theorem tuyaInt2intArray_long {num : UInt32} {len : UInt8} (nonzero : num ≠ 0)
    (long : (numeral num.toNat).length ≤ len.toNat) :
    (tuyaInt2intArray num intArray len).1.toNat = (numeral num.toNat).length ∧
      entries (tuyaInt2intArray num intArray len).2 0 (numeral num.toNat).length =
        numeral num.toNat ∧
      ∀ i, (numeral num.toNat).length ≤ i →
        (tuyaInt2intArray num intArray len).2 i = intArray i := by
  have isDigits : numeral num.toNat = (Nat.digits 10 num.toNat).reverse :=
    numeral_of_ne_zero fun isZero => nonzero (UInt32.toNat_inj.mp isZero)
  have sameLength : (numeral num.toNat).length = (Nat.digits 10 num.toNat).length := by
    rw [isDigits, List.length_reverse]
  have few := numeral_length_le_ten num
  have written := digitLoop_written num 0 intArray (by rw [UInt8.toNat_zero]; omega)
  have stop : (digitLoop num 0 intArray).1.toNat = (numeral num.toNat).length := by
    rw [written.stop, UInt8.toNat_zero, Nat.zero_add, sameLength]
  have fits : ¬ len < countLoop num 0 := fun small =>
    Nat.not_lt_of_le long ((countLoop_lt_iff num len).mp small)
  have isLong : tuyaInt2intArray num intArray len = ((digitLoop num 0 intArray).1.toUInt32,
      tuyaBuffReverse (digitLoop num 0 intArray).2 (digitLoop num 0 intArray).1.toUInt16) :=
    if_neg fits
  rw [isLong]
  refine ⟨?_, ?_, ?_⟩
  · rw [UInt8.toNat_toUInt32, stop]
  · apply List.ext_getElem
    · rw [entries, List.length_map, List.length_range']
    · intro k inside _
      rw [entries, List.length_map, List.length_range'] at inside
      have mirrored := written.digits ((numeral num.toNat).length - 1 - k) (by omega)
      rw [UInt8.toNat_zero, Nat.zero_add] at mirrored
      simp only [entries, List.getElem_map, List.getElem_range', Nat.zero_add, Nat.one_mul]
      rw [tuyaBuffReverse_apply, UInt8.toNat_toUInt16, stop, if_pos inside, mirrored]
      simp only [isDigits, List.getElem_reverse, List.length_reverse]
  · intro i outside
    change tuyaBuffReverse _ _ i = _
    rw [tuyaBuffReverse_apply, UInt8.toNat_toUInt16, stop, if_neg (Nat.not_lt_of_le outside),
      written.others i (by rw [UInt8.toNat_zero]; omega)]

theorem tuyaInt2intArray_short {num : UInt32} {len : UInt8}
    (short : len.toNat < (numeral num.toNat).length) :
    tuyaInt2intArray num intArray len = (0, intArray) := by
  rw [tuyaInt2intArray, if_pos ((countLoop_lt_iff num len).mpr short)]

/-- The digits of zero are counted but not written. -/
theorem tuyaInt2intArray_zero (len : UInt8) : (tuyaInt2intArray 0 intArray len).1 = 0 := by
  rw [tuyaInt2intArray, digitLoop]
  split <;> rfl

/-- The numbers and arrays that are converted right. -/
theorem tuyaInt2intArray_writes_iff (num : UInt32) (len : UInt8) :
    WritesDigits num intArray len (tuyaInt2intArray num intArray len).1
        (tuyaInt2intArray num intArray len).2 ↔ ¬ (num = 0 ∧ 0 < len.toNat) := by
  constructor
  · rintro writes ⟨rfl, positive⟩
    have count := writes.count positive
    rw [tuyaInt2intArray_zero intArray] at count
    exact absurd count (by decide)
  · intro holds
    by_cases short : len.toNat < (numeral num.toNat).length
    · refine ⟨fun _ => ?_, ?_, ?_, ?_, ?_⟩
      · rw [tuyaInt2intArray_short intArray short]
        exact ⟨rfl, rfl⟩
      all_goals exact fun long => absurd short (Nat.not_lt_of_le long)
    · have nonzero : num ≠ 0 := by
        rintro rfl
        exact holds ⟨rfl, Nat.lt_of_lt_of_le (numeral_length_pos _) (Nat.le_of_not_lt short)⟩
      obtain ⟨count, digits, rest⟩ :=
        tuyaInt2intArray_long intArray nonzero (Nat.le_of_not_lt short)
      refine ⟨fun isShort => absurd isShort short, fun _ => count, fun _ => digits,
        fun _ => rest, fun _ => ?_⟩
      have few := numeral_length_le_ten num
      have some := numeral_length_pos num.toNat
      have isCount : (tuyaInt2intArray num intArray len).1.toUInt8.toNat =
          (numeral num.toNat).length := by
        rw [UInt32.toNat_toUInt8, count, Nat.mod_eq_of_lt (by omega)]
      have sums : Sums (tuyaInt2intArray num intArray len).2 0
          (tuyaInt2intArray num intArray len).1.toUInt8 := by
        apply sums_of_le
        · rw [isCount, UInt32.toNat_zero]
          exact some
        · rw [isCount, UInt32.toNat_zero]
          omega
      obtain ⟨fuel, summed, found, -, isSum⟩ := sums
      refine ⟨fuel, summed, found, UInt32.toNat_inj.mp ?_⟩
      rw [isSum, UInt32.toNat_zero, isCount, digits, value_numeral,
        Nat.mod_eq_of_lt num.toNat_lt]

/-- Both conversions are right but for the number zero and for a range that goes
behind the entry 255. -/
theorem digitArray_right_iff (num : UInt32) (len : UInt8) (other : Nat → UInt8) (index : UInt32)
    (count : UInt8) :
    (WritesDigits num intArray len (tuyaInt2intArray num intArray len).1
        (tuyaInt2intArray num intArray len).2 ∧
      (index.toNat < count.toNat → Sums other index count)) ↔
      ¬ (num = 0 ∧ 0 < len.toNat) ∧
        (index.toNat < count.toNat → index.toNat + count.toNat ≤ 255) := by
  rw [tuyaInt2intArray_writes_iff]
  refine and_congr_right fun _ => ?_
  constructor
  · exact fun sums inside => (sums_iff other inside).mp (sums inside)
  · exact fun bounded inside => (sums_iff other inside).mpr (bounded inside)

/-- Zero is not written, and the sum of the entries from 100 to 299 does not end. -/
theorem digitArray_zero_and_wide :
    ¬ WritesDigits 0 (fun _ => 7) 1 (tuyaInt2intArray 0 (fun _ => 7) 1).1
        (tuyaInt2intArray 0 (fun _ => 7) 1).2 ∧
      ¬ Sums (fun _ => 7) 100 200 := by
  constructor
  · rw [tuyaInt2intArray_writes_iff]
    decide
  · rw [sums_iff _ (by decide)]
    decide

end TuyaAdapter.TuyaTools
