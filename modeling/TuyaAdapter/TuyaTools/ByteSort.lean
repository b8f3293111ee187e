import TuyaAdapter.Foundation.BubbleSort

/-!
Contract: `tuya_byte_sort` of `tuya_tools.c`. A buffer is a memory that goes on
behind it.
-/

namespace TuyaAdapter.TuyaTools

open Foundation

/-! ## The function -/

/-- The body of the inner loop. -/
def byteSortTurn (isAscend : UInt8) (buf : Nat → UInt8) (i : Nat) : Nat → UInt8 :=
  if isAscend ≠ 0 then
    if buf i > buf (i + 1) then
      let tmp := buf i
      let buf := Function.update buf i (buf (i + 1))
      Function.update buf (i + 1) tmp
    else buf
  else
    if buf i < buf (i + 1) then
      let tmp := buf i
      let buf := Function.update buf i (buf (i + 1))
      Function.update buf (i + 1) tmp
    else buf

/-- `tuya_byte_sort`: the buffer behind it. -/
def tuyaByteSort (isAscend : UInt8) (buf : Nat → UInt8) (len : Nat) : Nat → UInt8 :=
  (List.range' 1 (len - 1)).foldl
    (fun buf j => (List.range (len - j)).foldl (byteSortTurn isAscend) buf) buf

/-! ## The property -/

/-- The bytes of a buffer. -/
def content (buf : Nat → UInt8) (len : Nat) : List UInt8 := (List.range len).map buf

structure Sorts (isAscend : UInt8) (before after : Nat → UInt8) (len : Nat) : Prop where
  permutation : (content after len).Perm (content before len)
  ascending : isAscend ≠ 0 → (content after len).Pairwise (· ≤ ·)
  descending : isAscend = 0 → (content after len).Pairwise (· ≥ ·)
  others : ∀ i, len ≤ i → after i = before i

/-! ## The order -/

/-- Two neighbours that are exchanged. -/
def OutOfOrder (isAscend : UInt8) (left right : UInt8) : Prop :=
  if isAscend ≠ 0 then left > right else left < right

instance (isAscend : UInt8) : DecidableRel (OutOfOrder isAscend) := fun left right =>
  inferInstanceAs (Decidable (if isAscend ≠ 0 then left > right else left < right))

theorem outOfOrder_asymm (isAscend left right : UInt8) (out : OutOfOrder isAscend left right) :
    ¬ OutOfOrder isAscend right left := by
  unfold OutOfOrder at out ⊢
  by_cases up : isAscend ≠ 0
  · rw [if_pos up] at out ⊢
    exact UInt8.lt_asymm out
  · rw [if_neg up] at out ⊢
    exact UInt8.lt_asymm out

theorem outOfOrder_trans (isAscend left middle right : UInt8)
    (first : ¬ OutOfOrder isAscend left middle) (second : ¬ OutOfOrder isAscend middle right) :
    ¬ OutOfOrder isAscend left right := by
  unfold OutOfOrder at first second ⊢
  by_cases up : isAscend ≠ 0
  · rw [if_pos up] at first second ⊢
    exact UInt8.not_lt.mpr (UInt8.le_trans (UInt8.not_lt.mp first) (UInt8.not_lt.mp second))
  · rw [if_neg up] at first second ⊢
    exact UInt8.not_lt.mpr (UInt8.le_trans (UInt8.not_lt.mp second) (UInt8.not_lt.mp first))

theorem byteSortTurn_eq (isAscend : UInt8) :
    byteSortTurn isAscend = BubbleSort.turn (OutOfOrder isAscend) := by
  funext buf i
  unfold byteSortTurn BubbleSort.turn OutOfOrder
  split <;> rfl

/-- The function is a bubble sort. -/
theorem tuyaByteSort_eq (isAscend : UInt8) (buf : Nat → UInt8) (len : Nat) :
    tuyaByteSort isAscend buf len = BubbleSort.sort (OutOfOrder isAscend) buf len := by
  unfold tuyaByteSort BubbleSort.sort BubbleSort.pass
  rw [byteSortTurn_eq]

/-- The buffer is sorted. -/
theorem tuyaByteSort_sorts (isAscend : UInt8) (buf : Nat → UInt8) (len : Nat) :
    Sorts isAscend buf (tuyaByteSort isAscend buf len) len := by
  have ordered := BubbleSort.sort_ordered (outOfOrder_asymm isAscend) (outOfOrder_trans isAscend)
    buf len
  have rearranges : BubbleSort.Rearranges len buf
      (BubbleSort.sort (OutOfOrder isAscend) buf len) := BubbleSort.sort_rearranges buf len
  rw [← tuyaByteSort_eq] at ordered rearranges
  refine ⟨rearranges.perm (Nat.le_refl len), ?_, ?_, fun i behind => rearranges.behind behind⟩
  · intro up
    refine ordered.imp ?_
    intro left right inOrder
    rw [OutOfOrder, if_pos up] at inOrder
    exact UInt8.not_lt.mp inOrder
  · intro down
    refine ordered.imp ?_
    intro left right inOrder
    rw [OutOfOrder, if_neg (not_not.mpr down)] at inOrder
    exact UInt8.not_lt.mp inOrder

end TuyaAdapter.TuyaTools
