import Mathlib.Algebra.Order.Group.Nat
import Mathlib.Data.List.Forall2
import Mathlib.Data.Int.Basic

/-!
Contract: `tuya_strncasecmp` of `tuya_tools.c`, on strings in memory.

Memory goes on behind the strings, so that a read there has a result; the
addresses that are read are noted. The limit is below 2^31, so that the counter,
an `int`, gets to it. The loop runs on fuel: it is missing when it needs more
turns.
-/

namespace TuyaAdapter.TuyaTools

/-! ## The function -/

/-- `__TOLOWER`. -/
def toLower (char : UInt8) : UInt8 := if 65 ≤ char ∧ char ≤ 90 then char - 65 + 97 else char

/-- The result, and the addresses read through `p1` and through `p2`. -/
structure Compared where
  result : Int
  reads1 : List Nat
  reads2 : List Nat
deriving DecidableEq, Repr

def compareLoop (memory : Nat → UInt8) (n : Nat) : Nat → Nat → Nat → Nat → Option Compared
  | 0, _, _, _ => none
  | fuel + 1, p1, p2, cnt =>
      if ((toLower (memory p1)).toNat : Int) - (toLower (memory p2)).toNat ≠ 0 then
        some ⟨(toLower (memory p1)).toNat - (toLower (memory p2)).toNat, [p1], [p2]⟩
      else if n ≤ cnt + 1 then some ⟨0, [p1], [p2]⟩
      else if memory p1 = 0 then some ⟨-1, [p1], [p2]⟩
      else if memory p2 = 0 then some ⟨1, [p1], [p2]⟩
      else
        (compareLoop memory n fuel (p1 + 1) (p2 + 1) (cnt + 1)).map fun later =>
          ⟨later.result, p1 :: later.reads1, p2 :: later.reads2⟩

def tuyaStrncasecmp (memory : Nat → UInt8) (fuel s1 s2 n : Nat) : Option Compared :=
  if s1 = s2 then some ⟨0, [], []⟩ else compareLoop memory n fuel s1 s2 0

/-! ## The property and the condition -/

/-- The characters of a string, which a NUL ends. -/
inductive StringAt (memory : Nat → UInt8) : Nat → List UInt8 → Prop
  | nil {address : Nat} (terminator : memory address = 0) : StringAt memory address []
  | cons {address : Nat} {rest : List UInt8} (more : memory address ≠ 0)
      (later : StringAt memory (address + 1) rest) :
      StringAt memory address (memory address :: rest)

def IsUpper (char : UInt8) : Prop := 65 ≤ char.toNat ∧ char.toNat ≤ 90

/-- Equal up to ASCII case. -/
def SameLetter (left right : UInt8) : Prop :=
  left = right ∨ (IsUpper left ∧ right.toNat = left.toNat + 32) ∨
    (IsUpper right ∧ left.toNat = right.toNat + 32)

/-- The strings are equal up to ASCII case. -/
abbrev Alike (chars1 chars2 : List UInt8) : Prop := List.Forall₂ SameLetter chars1 chars2

/-- The result is 0 exactly for strings whose first characters are alike, has the
opposite sign for the strings the other way round, and nothing is read behind a
terminator or from the limit on. -/
structure ComparesRight (s1 s2 n : Nat) (chars1 chars2 : List UInt8) (there back : Compared) :
    Prop where
  zero : there.result = 0 ↔ Alike (chars1.take n) (chars2.take n)
  sign : there.result.sign = -back.result.sign
  reads1 : ∀ address ∈ there.reads1,
    s1 ≤ address ∧ address ≤ s1 + chars1.length ∧ address < s1 + n
  reads2 : ∀ address ∈ there.reads2,
    s2 ≤ address ∧ address ≤ s2 + chars2.length ∧ address < s2 + n

/-- Both comparisons end, with results as they should be. -/
def Compares (memory : Nat → UInt8) (s1 s2 n : Nat) (chars1 chars2 : List UInt8) : Prop :=
  ∃ fuel there back, tuyaStrncasecmp memory fuel s1 s2 n = some there ∧
    tuyaStrncasecmp memory fuel s2 s1 n = some back ∧
    ComparesRight s1 s2 n chars1 chars2 there back

/-- The loop gets behind the terminators of strings that are alike. -/
def RunsOut (n : Nat) (chars1 chars2 : List UInt8) : Prop :=
  Alike chars1 chars2 ∧ chars1.length + 1 < n

/-! ## Letters -/

theorem toLower_toNat (char : UInt8) :
    (toLower char).toNat =
      if 65 ≤ char.toNat ∧ char.toNat ≤ 90 then char.toNat + 32 else char.toNat := by
  unfold toLower
  simp only [UInt8.le_iff_toNat_le, UInt8.reduceToNat]
  by_cases upper : 65 ≤ char.toNat ∧ char.toNat ≤ 90
  · rw [if_pos upper, if_pos upper, UInt8.toNat_add, UInt8.toNat_sub_of_le]
    · simp only [UInt8.reduceToNat]
      omega
    · exact UInt8.le_iff_toNat_le.mpr upper.1
  · rw [if_neg upper, if_neg upper]

theorem toLower_eq_iff {left right : UInt8} :
    toLower left = toLower right ↔ SameLetter left right := by
  unfold SameLetter IsUpper
  rw [← UInt8.toNat_inj, ← UInt8.toNat_inj, toLower_toNat, toLower_toNat]
  split <;> split <;> omega

theorem toLower_pos {char : UInt8} (more : char ≠ 0) : 0 < (toLower char).toNat := by
  have positive : char.toNat ≠ 0 := fun isZero => more (UInt8.toNat_inj.mp isZero)
  rw [toLower_toNat]
  split <;> omega

/-! ## The comparison of two lists of characters -/

/-- What the loop finds with so many turns left. -/
def comparison : Nat → List UInt8 → List UInt8 → Int
  | left, [], [] => if left ≤ 1 then 0 else -1
  | _, [], char :: _ => -(toLower char).toNat
  | _, char :: _, [] => (toLower char).toNat
  | left, char1 :: rest1, char2 :: rest2 =>
      if toLower char1 = toLower char2 then
        if left ≤ 1 then 0 else comparison (left - 1) rest1 rest2
      else (toLower char1).toNat - (toLower char2).toNat

/-- Strings that are alike and end early compare as if the second were longer. -/
theorem comparison_runsOut {left : Nat} {chars1 chars2 : List UInt8}
    (runsOut : RunsOut left chars1 chars2) : comparison left chars1 chars2 = -1 := by
  obtain ⟨alike, short⟩ := runsOut
  induction alike generalizing left with
  | nil => exact if_neg (Nat.not_le_of_lt short)
  | cons same later inductionHypothesis =>
      rw [List.length_cons] at short
      rw [comparison, if_pos (toLower_eq_iff.mpr same), if_neg (by omega)]
      exact inductionHypothesis (by omega)

theorem RunsOut.cons {left : Nat} {char1 char2 : UInt8} {rest1 rest2 : List UInt8}
    (same : SameLetter char1 char2) (runsOut : RunsOut left rest1 rest2) :
    RunsOut (left + 1) (char1 :: rest1) (char2 :: rest2) :=
  ⟨List.Forall₂.cons same runsOut.1, Nat.succ_lt_succ runsOut.2⟩

theorem comparison_succ_eq_zero_iff {left : Nat} {chars1 chars2 : List UInt8}
    (more1 : ∀ char ∈ chars1, char ≠ 0) (more2 : ∀ char ∈ chars2, char ≠ 0)
    (inTime : ¬ RunsOut (left + 1) chars1 chars2) :
    comparison (left + 1) chars1 chars2 = 0 ↔
      Alike (chars1.take (left + 1)) (chars2.take (left + 1)) := by
  induction chars1 generalizing left chars2 with
  | nil =>
      cases chars2 with
      | nil =>
          have short : left + 1 ≤ 1 := by
            by_contra long
            exact inTime ⟨List.Forall₂.nil, Nat.lt_of_not_le long⟩
          rw [comparison, if_pos short, List.take_nil]
          exact ⟨fun _ => List.Forall₂.nil, fun _ => rfl⟩
      | cons char2 rest2 =>
          have letter := toLower_pos (more2 char2 List.mem_cons_self)
          rw [comparison, List.take_nil, List.take_succ_cons, Alike, List.forall₂_nil_left_iff]
          simp only [List.cons_ne_nil, iff_false]
          omega
  | cons char1 rest1 inductionHypothesis =>
      cases chars2 with
      | nil =>
          have letter := toLower_pos (more1 char1 List.mem_cons_self)
          rw [comparison, List.take_nil, List.take_succ_cons, Alike, List.forall₂_nil_right_iff]
          simp only [List.cons_ne_nil, iff_false]
          omega
      | cons char2 rest2 =>
          rw [comparison, List.take_succ_cons, List.take_succ_cons, Alike, List.forall₂_cons,
            ← toLower_eq_iff]
          by_cases same : toLower char1 = toLower char2
          · rw [if_pos same, Nat.add_sub_cancel]
            cases left with
            | zero => simp [same]
            | succ left =>
                rw [if_neg (by omega), inductionHypothesis
                  (fun char member => more1 char (List.mem_cons_of_mem _ member))
                  (fun char member => more2 char (List.mem_cons_of_mem _ member))
                  (fun runsOut => inTime (runsOut.cons (toLower_eq_iff.mp same)))]
                exact ⟨fun alike => ⟨same, alike⟩, fun both => both.2⟩
          · have different : (toLower char1).toNat ≠ (toLower char2).toNat :=
              fun sameNat => same (UInt8.toNat_inj.mp sameNat)
            rw [if_neg same]
            constructor
            · intro isZero
              omega
            · exact fun both => absurd both.1 same

/-- In time, the comparison is zero exactly when the first characters are alike. -/
theorem comparison_eq_zero_iff {left : Nat} (positive : 0 < left) {chars1 chars2 : List UInt8}
    (more1 : ∀ char ∈ chars1, char ≠ 0) (more2 : ∀ char ∈ chars2, char ≠ 0)
    (inTime : ¬ RunsOut left chars1 chars2) :
    comparison left chars1 chars2 = 0 ↔ Alike (chars1.take left) (chars2.take left) := by
  cases left with
  | zero => exact absurd positive (Nat.lt_irrefl 0)
  | succ left => exact comparison_succ_eq_zero_iff more1 more2 inTime

/-- The other way round, the comparison has the opposite sign. -/
theorem comparison_swap {left : Nat} {chars1 chars2 : List UInt8}
    (inTime : ¬ RunsOut left chars1 chars2) :
    comparison left chars2 chars1 = -comparison left chars1 chars2 := by
  induction chars1 generalizing left chars2 with
  | nil =>
      cases chars2 with
      | nil =>
          have short : left ≤ 1 := by
            by_contra long
            exact inTime ⟨List.Forall₂.nil, Nat.lt_of_not_le long⟩
          rw [comparison, if_pos short]
          rfl
      | cons char2 rest2 => rw [comparison, comparison, Int.neg_neg]
  | cons char1 rest1 inductionHypothesis =>
      cases chars2 with
      | nil => rw [comparison, comparison]
      | cons char2 rest2 =>
          rw [comparison, comparison]
          by_cases same : toLower char1 = toLower char2
          · rw [if_pos same, if_pos same.symm]
            by_cases last : left ≤ 1
            · rw [if_pos last, if_pos last, Int.neg_zero]
            · rw [if_neg last, if_neg last]
              apply inductionHypothesis
              intro runsOut
              have later := runsOut.cons (toLower_eq_iff.mp same)
              rw [Nat.sub_add_cancel (by omega)] at later
              exact inTime later
          · rw [if_neg same, if_neg (Ne.symm same)]
            omega

/-! ## The loop -/

variable {memory : Nat → UInt8}

theorem StringAt.nonzero {address : Nat} {chars : List UInt8} (string : StringAt memory address chars) :
    ∀ char ∈ chars, char ≠ 0 := by
  induction string with
  | nil terminator => exact fun _ member => absurd member List.not_mem_nil
  | cons more later inductionHypothesis => exact List.forall_mem_cons.mpr ⟨more, inductionHypothesis⟩

/-- A result of the loop, with so many turns left. -/
structure LoopFound (left p1 p2 : Nat) (chars1 chars2 : List UInt8) (compared : Compared) :
    Prop where
  result : compared.result = comparison left chars1 chars2
  reads1 : ∀ address ∈ compared.reads1,
    p1 ≤ address ∧ address ≤ p1 + chars1.length ∧ address < p1 + max 1 left
  reads2 : ∀ address ∈ compared.reads2,
    p2 ≤ address ∧ address ≤ p2 + chars2.length ∧ address < p2 + max 1 left
  first : p1 ∈ compared.reads1

/-- A turn that is the last one. -/
theorem LoopFound.last {left p1 p2 : Nat} {chars1 chars2 : List UInt8} {result : Int}
    (isResult : result = comparison left chars1 chars2) :
    LoopFound left p1 p2 chars1 chars2 ⟨result, [p1], [p2]⟩ := by
  refine ⟨isResult, ?_, ?_, List.mem_cons_self⟩
  · intro address member
    rw [List.mem_singleton.mp member]
    omega
  · intro address member
    rw [List.mem_singleton.mp member]
    omega

/-- A turn that goes on to the next characters. -/
theorem LoopFound.turn {left p1 p2 : Nat} {char1 char2 : UInt8} {rest1 rest2 : List UInt8}
    {later : Compared} (same : toLower char1 = toLower char2) (more : 1 < left)
    (found : LoopFound (left - 1) (p1 + 1) (p2 + 1) rest1 rest2 later) :
    LoopFound left p1 p2 (char1 :: rest1) (char2 :: rest2)
      ⟨later.result, p1 :: later.reads1, p2 :: later.reads2⟩ := by
  refine ⟨?_, ?_, ?_, List.mem_cons_self⟩
  · rw [comparison, if_pos same, if_neg (by omega)]
    exact found.result
  · intro address member
    rw [List.length_cons]
    rcases List.mem_cons.mp member with isFirst | isLater
    · omega
    · have bounds := found.reads1 address isLater
      omega
  · intro address member
    rw [List.length_cons]
    rcases List.mem_cons.mp member with isFirst | isLater
    · omega
    · have bounds := found.reads2 address isLater
      omega

/-- A turn that goes on, between strings whose next characters are alike. -/
structure GoesOn (memory : Nat → UInt8) (n fuel p1 p2 cnt : Nat) (char1 char2 : UInt8)
    (rest1 rest2 : List UInt8) : Prop where
  same : toLower char1 = toLower char2
  more : 1 < n - cnt
  string1 : StringAt memory (p1 + 1) rest1
  string2 : StringAt memory (p2 + 1) rest2
  next : compareLoop memory n (fuel + 1) p1 p2 cnt =
    (compareLoop memory n fuel (p1 + 1) (p2 + 1) (cnt + 1)).map fun later =>
      ⟨later.result, p1 :: later.reads1, p2 :: later.reads2⟩

/-- A turn is the last one or goes on. -/
theorem compareLoop_cases {n p1 p2 : Nat} {chars1 chars2 : List UInt8}
    (string1 : StringAt memory p1 chars1) (string2 : StringAt memory p2 chars2) (fuel cnt : Nat) :
    (∃ compared, compareLoop memory n (fuel + 1) p1 p2 cnt = some compared ∧
      LoopFound (n - cnt) p1 p2 chars1 chars2 compared) ∨
    ∃ char1 rest1 char2 rest2, chars1 = char1 :: rest1 ∧ chars2 = char2 :: rest2 ∧
      GoesOn memory n fuel p1 p2 cnt char1 char2 rest1 rest2 := by
  have lowerZero : (toLower 0).toNat = 0 := rfl
  cases string1 with
  | nil terminator1 =>
      left
      cases string2 with
      | nil terminator2 =>
          rw [compareLoop, terminator1, terminator2, if_neg (by omega)]
          by_cases last : n ≤ cnt + 1
          · rw [if_pos last]
            refine ⟨_, rfl, LoopFound.last ?_⟩
            rw [comparison, if_pos (by omega)]
          · rw [if_neg last, if_pos rfl]
            refine ⟨_, rfl, LoopFound.last ?_⟩
            rw [comparison, if_neg (by omega)]
      | cons more2 later2 =>
          have letter := toLower_pos more2
          rw [compareLoop, terminator1, if_pos (by omega)]
          refine ⟨_, rfl, LoopFound.last ?_⟩
          rw [comparison, lowerZero]
          omega
  | cons more1 later1 =>
      have letter1 := toLower_pos more1
      cases string2 with
      | nil terminator2 =>
          left
          rw [compareLoop, terminator2, if_pos (by omega)]
          refine ⟨_, rfl, LoopFound.last ?_⟩
          rw [comparison, lowerZero]
          omega
      | cons more2 later2 =>
          by_cases same : toLower (memory p1) = toLower (memory p2)
          · have noDifference : ¬ ((toLower (memory p1)).toNat : Int) -
                (toLower (memory p2)).toNat ≠ 0 := by
              rw [same]
              omega
            by_cases last : n ≤ cnt + 1
            · left
              rw [compareLoop, if_neg noDifference, if_pos last]
              refine ⟨_, rfl, LoopFound.last ?_⟩
              rw [comparison, if_pos same, if_pos (by omega)]
            · right
              refine ⟨_, _, _, _, rfl, rfl, same, by omega, later1, later2, ?_⟩
              rw [compareLoop, if_neg noDifference, if_neg last, if_neg more1, if_neg more2]
          · left
            have different : (toLower (memory p1)).toNat ≠ (toLower (memory p2)).toNat :=
              fun sameNat => same (UInt8.toNat_inj.mp sameNat)
            rw [compareLoop, if_pos (by omega)]
            refine ⟨_, rfl, LoopFound.last ?_⟩
            rw [comparison, if_neg same]

theorem compareLoop_found {n fuel p1 p2 cnt : Nat} {chars1 chars2 : List UInt8}
    {compared : Compared} (string1 : StringAt memory p1 chars1)
    (string2 : StringAt memory p2 chars2)
    (ended : compareLoop memory n fuel p1 p2 cnt = some compared) :
    LoopFound (n - cnt) p1 p2 chars1 chars2 compared := by
  induction fuel generalizing p1 p2 cnt chars1 chars2 compared with
  | zero => cases ended
  | succ fuel inductionHypothesis =>
      rcases compareLoop_cases (n := n) string1 string2 fuel cnt with
        ⟨last, isLast, found⟩ | ⟨char1, rest1, char2, rest2, is1, is2, turn⟩
      · rw [ended] at isLast
        exact Option.some.inj isLast ▸ found
      · rw [turn.next] at ended
        obtain ⟨later, isLater, isCompared⟩ := Option.map_eq_some_iff.mp ended
        have found := inductionHypothesis turn.string1 turn.string2 isLater
        rw [Nat.sub_add_eq] at found
        rw [is1, is2, ← isCompared]
        exact found.turn turn.same turn.more

theorem compareLoop_ends {n fuel p1 p2 : Nat} {chars1 chars2 : List UInt8}
    (string1 : StringAt memory p1 chars1) (string2 : StringAt memory p2 chars2)
    (enough : chars1.length < fuel) (cnt : Nat) :
    ∃ compared, compareLoop memory n fuel p1 p2 cnt = some compared := by
  induction fuel generalizing p1 p2 cnt chars1 chars2 with
  | zero => exact absurd enough (Nat.not_lt_zero _)
  | succ fuel inductionHypothesis =>
      rcases compareLoop_cases (n := n) string1 string2 fuel cnt with
        ⟨last, isLast, -⟩ | ⟨char1, rest1, char2, rest2, is1, -, turn⟩
      · exact ⟨last, isLast⟩
      · rw [is1, List.length_cons] at enough
        obtain ⟨later, isLater⟩ := inductionHypothesis turn.string1 turn.string2
          (Nat.lt_of_succ_lt_succ enough) (cnt + 1)
        rw [turn.next, isLater]
        exact ⟨_, rfl⟩

/-! ## Both ways -/

theorem tuyaStrncasecmp_eq {s1 s2 : Nat} (distinct : s1 ≠ s2) (fuel n : Nat) :
    tuyaStrncasecmp memory fuel s1 s2 n = compareLoop memory n fuel s1 s2 0 :=
  if_neg distinct

/-- Strings that are alike and run out are not found equal. -/
theorem not_compares_of_runsOut {s1 s2 n : Nat} {chars1 chars2 : List UInt8} (distinct : s1 ≠ s2)
    (string1 : StringAt memory s1 chars1) (string2 : StringAt memory s2 chars2)
    (runsOut : RunsOut n chars1 chars2) : ¬ Compares memory s1 s2 n chars1 chars2 := by
  rintro ⟨fuel, there, back, isThere, -, right⟩
  rw [tuyaStrncasecmp_eq distinct] at isThere
  have found := compareLoop_found string1 string2 isThere
  have isZero := right.zero.mpr (List.forall₂_take n runsOut.1)
  rw [found.result, Nat.sub_zero, comparison_runsOut runsOut] at isZero
  exact absurd isZero (by decide)

/-- The first characters are read, whatever the limit is. -/
theorem Compares.pos {s1 s2 n : Nat} {chars1 chars2 : List UInt8} (distinct : s1 ≠ s2)
    (string1 : StringAt memory s1 chars1) (string2 : StringAt memory s2 chars2)
    (compares : Compares memory s1 s2 n chars1 chars2) : 0 < n := by
  obtain ⟨fuel, there, back, isThere, -, right⟩ := compares
  rw [tuyaStrncasecmp_eq distinct] at isThere
  have bounds := right.reads1 s1 (compareLoop_found string1 string2 isThere).first
  omega

/-- The function compares two strings as it should exactly when there is a limit
above zero that it reaches before it runs out of two strings that are alike. -/
theorem tuyaStrncasecmp_compares_iff {s1 s2 : Nat} (n : Nat) {chars1 chars2 : List UInt8}
    (distinct : s1 ≠ s2) (string1 : StringAt memory s1 chars1)
    (string2 : StringAt memory s2 chars2) :
    Compares memory s1 s2 n chars1 chars2 ↔ 0 < n ∧ ¬ RunsOut n chars1 chars2 := by
  constructor
  · intro compares
    exact ⟨compares.pos distinct string1 string2,
      fun runsOut => not_compares_of_runsOut distinct string1 string2 runsOut compares⟩
  · rintro ⟨positive, inTime⟩
    have enough1 : chars1.length < chars1.length + chars2.length + 1 := by omega
    have enough2 : chars2.length < chars1.length + chars2.length + 1 := by omega
    obtain ⟨there, isThere⟩ := compareLoop_ends (n := n) string1 string2 enough1 0
    obtain ⟨back, isBack⟩ := compareLoop_ends (n := n) string2 string1 enough2 0
    have found := compareLoop_found string1 string2 isThere
    have foundBack := compareLoop_found string2 string1 isBack
    have atLeastOne : max 1 n = n := Nat.max_eq_right positive
    refine ⟨_, there, back, (tuyaStrncasecmp_eq distinct _ n).trans isThere,
      (tuyaStrncasecmp_eq (Ne.symm distinct) _ n).trans isBack, ?_, ?_, ?_, ?_⟩
    · rw [found.result, Nat.sub_zero]
      exact comparison_eq_zero_iff positive string1.nonzero string2.nonzero inTime
    · rw [found.result, foundBack.result, Nat.sub_zero, comparison_swap inTime, Int.sign_neg,
        Int.neg_neg]
    · have bounds := found.reads1
      rw [Nat.sub_zero, atLeastOne] at bounds
      exact bounds
    · have bounds := found.reads2
      rw [Nat.sub_zero, atLeastOne] at bounds
      exact bounds

/-! ## Two equal strings -/

/-- The string "ab" at 0 and at 3. -/
def twice : Nat → UInt8 := fun address => [97, 98, 0, 97, 98, 0].getD address 0

theorem twice_first : StringAt twice 0 [97, 98] :=
  .cons (by decide) (.cons (by decide) (.nil rfl))

theorem twice_second : StringAt twice 3 [97, 98] :=
  .cons (by decide) (.cons (by decide) (.nil rfl))

/-- With a limit of 3, which the terminators are within. -/
theorem tuyaStrncasecmp_twice : Compares twice 0 3 3 [97, 98] [97, 98] :=
  have inTime : ¬ RunsOut 3 [97, 98] [97, 98] := fun runsOut => absurd runsOut.2 (by decide)
  (tuyaStrncasecmp_compares_iff 3 (by decide) twice_first twice_second).mpr ⟨by decide, inTime⟩

/-- With a limit of 4 the strings are not equal, and each is the shorter one. -/
theorem tuyaStrncasecmp_runsOut :
    (tuyaStrncasecmp twice 4 0 3 4).map Compared.result = some (-1) ∧
      (tuyaStrncasecmp twice 4 3 0 4).map Compared.result = some (-1) ∧
      ¬ Compares twice 0 3 4 [97, 98] [97, 98] := by
  have runsOut : RunsOut 4 [97, 98] [97, 98] :=
    ⟨.cons (.inl rfl) (.cons (.inl rfl) .nil), by decide⟩
  exact ⟨by decide, by decide,
    not_compares_of_runsOut (by decide) twice_first twice_second runsOut⟩

end TuyaAdapter.TuyaTools
