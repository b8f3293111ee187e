import Mathlib.Algebra.Order.Group.Nat
import Mathlib.Data.List.Nodup
import Mathlib.Logic.Equiv.Basic

/-!
Owns the bubble sort of an array, for any test of whether two neighbours are out
of order. A pass carries the greatest of the first values to the end of them;
what lies behind is left alone. The invariant of the passes is `Settled`: the
last values are in order, and nothing before them belongs behind one of them.
-/

namespace TuyaAdapter.Foundation.BubbleSort

variable {Value : Type*}

/-! ## Rearranging values -/

/-- The values are the same ones, and only those below the bound may be
elsewhere. -/
def Rearranges (bound : Nat) (before after : Nat → Value) : Prop :=
  ∃ places : Equiv.Perm Nat, (∀ k, after k = before (places k)) ∧ ∀ k, bound ≤ k → places k = k

variable {bound : Nat} {before middle after : Nat → Value}

theorem Rearranges.refl (bound : Nat) (values : Nat → Value) : Rearranges bound values values :=
  ⟨Equiv.refl Nat, fun _ => rfl, fun _ _ => rfl⟩

theorem Rearranges.trans (first : Rearranges bound before middle)
    (second : Rearranges bound middle after) : Rearranges bound before after := by
  obtain ⟨places1, moved1, fixed1⟩ := first
  obtain ⟨places2, moved2, fixed2⟩ := second
  refine ⟨places2.trans places1, ?_, ?_⟩
  · intro k
    rw [moved2, moved1, Equiv.trans_apply]
  · intro k behind
    rw [Equiv.trans_apply, fixed2 k behind, fixed1 k behind]

theorem Rearranges.mono {wider : Nat} (le : bound ≤ wider)
    (rearranges : Rearranges bound before after) : Rearranges wider before after := by
  obtain ⟨places, moved, fixed⟩ := rearranges
  exact ⟨places, moved, fun k behind => fixed k (Nat.le_trans le behind)⟩

theorem Rearranges.behind (rearranges : Rearranges bound before after) {k : Nat}
    (behind : bound ≤ k) : after k = before k := by
  obtain ⟨places, moved, fixed⟩ := rearranges
  rw [moved, fixed k behind]

/-- A value below the bound was below the bound. -/
theorem Rearranges.below (rearranges : Rearranges bound before after) {k : Nat}
    (below : k < bound) : ∃ source < bound, after k = before source := by
  obtain ⟨places, moved, fixed⟩ := rearranges
  refine ⟨places k, ?_, moved k⟩
  by_contra behind
  have isFixed := places.injective (fixed (places k) (Nat.le_of_not_lt behind))
  rw [isFixed] at behind
  exact behind below

/-- The first values are a permutation. -/
theorem Rearranges.perm {len : Nat} (rearranges : Rearranges bound before after)
    (le : bound ≤ len) : ((List.range len).map after).Perm ((List.range len).map before) := by
  obtain ⟨places, moved, fixed⟩ := rearranges.mono le
  have positions : ((List.range len).map places).Perm (List.range len) := by
    rw [List.perm_ext_iff_of_nodup (List.nodup_range.map places.injective) List.nodup_range]
    intro k
    rw [List.mem_map, List.mem_range]
    constructor
    · rintro ⟨source, isSource, rfl⟩
      by_contra behind
      have isFixed := places.injective (fixed (places source) (Nat.le_of_not_lt behind))
      rw [isFixed] at behind
      exact behind (List.mem_range.mp isSource)
    · intro below
      refine ⟨places.symm k, ?_, places.apply_symm_apply k⟩
      rw [List.mem_range]
      by_contra behind
      have isFixed := fixed (places.symm k) (Nat.le_of_not_lt behind)
      rw [places.apply_symm_apply] at isFixed
      rw [← isFixed] at behind
      exact behind below
  have isComposed : (List.range len).map after = ((List.range len).map places).map before := by
    rw [List.map_map]
    exact List.map_congr_left fun k _ => moved k
  rw [isComposed]
  exact positions.map before

/-! ## The algorithm -/

/-- Exchange two values. -/
def exchange (values : Nat → Value) (i j : Nat) : Nat → Value :=
  Function.update (Function.update values i (values j)) j (values i)

theorem exchange_apply (values : Nat → Value) (i j k : Nat) :
    exchange values i j k = values (Equiv.swap i j k) := by
  unfold exchange
  rw [Equiv.swap_apply_def]
  by_cases isSecond : k = j
  · rw [isSecond, Function.update_self]
    by_cases same : j = i
    · rw [if_pos same, same]
    · rw [if_neg same, if_pos rfl]
  · rw [Function.update_of_ne isSecond, if_neg isSecond]
    by_cases isFirst : k = i
    · rw [if_pos isFirst, isFirst, Function.update_self]
    · rw [if_neg isFirst, Function.update_of_ne isFirst]

theorem exchange_rearranges (values : Nat → Value) {i j : Nat} (below : i < bound ∧ j < bound) :
    Rearranges bound values (exchange values i j) := by
  refine ⟨Equiv.swap i j, exchange_apply values i j, ?_⟩
  intro k behind
  exact Equiv.swap_apply_of_ne_of_ne (by omega) (by omega)

/-- From a place on, no value belongs before an earlier one. -/
def Settled (out : Value → Value → Prop) (values : Nat → Value) (len place : Nat) : Prop :=
  ∀ early late, early < late → late < len → place ≤ late → ¬ out (values early) (values late)

section Algorithm

variable (out : Value → Value → Prop) [DecidableRel out]

/-- Exchange two neighbours that are out of order. -/
def turn (values : Nat → Value) (i : Nat) : Nat → Value :=
  if out (values i) (values (i + 1)) then exchange values i (i + 1) else values

def pass (values : Nat → Value) (turns : Nat) : Nat → Value :=
  (List.range turns).foldl (turn out) values

def sort (values : Nat → Value) (len : Nat) : Nat → Value :=
  (List.range' 1 (len - 1)).foldl (fun values j => pass out values (len - j)) values

theorem pass_succ (values : Nat → Value) (turns : Nat) :
    pass out values (turns + 1) = turn out (pass out values turns) turns := by
  rw [pass, List.range_succ, List.foldl_append, List.foldl_cons, List.foldl_nil, pass]

theorem pass_rearranges (values : Nat → Value) (turns : Nat) :
    Rearranges (turns + 1) values (pass out values turns) := by
  induction turns with
  | zero => exact Rearranges.refl _ values
  | succ turns inductionHypothesis =>
      apply (inductionHypothesis.mono (Nat.le_succ _)).trans
      rw [pass_succ, turn]
      split
      · exact exchange_rearranges _ (by omega)
      · exact Rearranges.refl _ _

variable {out}
variable (asymm : ∀ a b, out a b → ¬ out b a) (trans : ∀ a b c, ¬ out a b → ¬ out b c → ¬ out a c)

include asymm trans

/-- A pass carries a greatest value to its end. -/
theorem pass_last (values : Nat → Value) (turns : Nat) :
    ∀ k ≤ turns, ¬ out (pass out values turns k) (pass out values turns turns) := by
  have irrefl : ∀ a, ¬ out a a := fun a isOut => asymm a a isOut isOut
  induction turns with
  | zero =>
      intro k first
      rw [Nat.le_zero.mp first]
      exact irrefl _
  | succ turns inductionHypothesis =>
      intro k inside
      rw [pass_succ, turn]
      split
      · rename_i isOut
        -- The greatest value so far moves on by one place.
        rw [exchange_apply, exchange_apply, Equiv.swap_apply_right]
        by_cases isLast : k = turns + 1
        · rw [isLast, Equiv.swap_apply_right]
          exact irrefl _
        · by_cases isPlace : k = turns
          · rw [isPlace, Equiv.swap_apply_left]
            exact asymm _ _ isOut
          · rw [Equiv.swap_apply_of_ne_of_ne isPlace isLast]
            exact inductionHypothesis k (by omega)
      · rename_i inOrder
        by_cases isLast : k = turns + 1
        · rw [isLast]
          exact irrefl _
        · exact trans _ _ _ (inductionHypothesis k (by omega)) inOrder

/-- A pass settles one more value. -/
theorem Settled.pass {values : Nat → Value} {len turns : Nat}
    (settled : Settled out values len (turns + 1)) :
    Settled out (pass out values turns) len turns := by
  intro early late before inside settledFrom
  have rearranges := pass_rearranges out values turns
  by_cases isLast : late = turns
  · rw [isLast]
    exact pass_last asymm trans values turns early (by omega)
  · rw [rearranges.behind (show turns + 1 ≤ late by omega)]
    by_cases moved : early < turns + 1
    · obtain ⟨source, below, isSource⟩ := rearranges.below moved
      rw [isSource]
      exact settled source late (by omega) inside (by omega)
    · rw [rearranges.behind (Nat.le_of_not_lt moved)]
      exact settled early late before inside (by omega)

theorem passes_settled (values : Nat → Value) {len passes : Nat} (few : passes ≤ len - 1) :
    Settled out ((List.range' 1 passes).foldl (fun values j => BubbleSort.pass out values (len - j))
      values) len (len - passes) := by
  induction passes with
  | zero =>
      intro early late _ inside settledFrom
      exact absurd inside (Nat.not_lt_of_le settledFrom)
  | succ passes inductionHypothesis =>
      have earlier := inductionHypothesis (by omega)
      have oneLess : len - passes = len - (1 + 1 * passes) + 1 := by omega
      rw [oneLess] at earlier
      have later := earlier.pass asymm trans
      rw [List.range'_concat, List.foldl_append, List.foldl_cons, List.foldl_nil]
      have isBound : len - (passes + 1) = len - (1 + 1 * passes) := by omega
      rw [isBound]
      exact later

/-- The sorted values are in order. -/
theorem sort_ordered (values : Nat → Value) (len : Nat) :
    ((List.range len).map (sort out values len)).Pairwise fun a b => ¬ out a b := by
  rw [List.pairwise_map]
  have settled := passes_settled asymm trans values (Nat.le_refl (len - 1))
  refine List.Pairwise.imp_of_mem ?_ List.pairwise_lt_range
  intro early late _ isLate before
  have inside := List.mem_range.mp isLate
  exact settled early late before inside (by omega)

omit asymm trans

theorem sort_rearranges (values : Nat → Value) (len : Nat) :
    Rearranges len values (sort out values len) := by
  have passes : ∀ (list : List Nat) (start : Nat → Value), (∀ j ∈ list, 1 ≤ j ∧ j < len) →
      Rearranges len start
        (list.foldl (fun values j => BubbleSort.pass out values (len - j)) start) := by
    intro list
    induction list with
    | nil => exact fun start _ => Rearranges.refl len start
    | cons j rest inductionHypothesis =>
        intro start bounds
        obtain ⟨here, later⟩ := List.forall_mem_cons.mp bounds
        exact ((pass_rearranges out start (len - j)).mono (by omega)).trans
          (inductionHypothesis _ later)
  apply passes
  intro j member
  rw [List.mem_range'_1] at member
  omega

end Algorithm

end TuyaAdapter.Foundation.BubbleSort
