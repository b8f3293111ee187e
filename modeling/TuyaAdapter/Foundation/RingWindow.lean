import Mathlib.Data.List.Range
import Mathlib.Data.Nat.ModEq
import Mathlib.Tactic.Ring

/-!
Owns the contents of a circular array: `window cell bounds start count` reads
`count` cells from `start` on, wrapping at `bounds`. A window is cut at any
count, reads only its own cells, and is a plain block when it does not wrap.
-/

namespace TuyaAdapter.Foundation.RingWindow

variable {Value : Type*}

/-- The `count` cells from `start` on. -/
def window (cell : Nat → Value) (bounds start count : Nat) : List Value :=
  (List.range count).map fun offset => cell ((start + offset) % bounds)

variable {cell cell' : Nat → Value} {bounds start count : Nat}

@[simp] theorem window_zero : window cell bounds start 0 = [] := rfl

@[simp] theorem length_window : (window cell bounds start count).length = count := by
  simp [window]

/-- A window is cut at any count; the second part starts behind the first. -/
theorem window_add (first second : Nat) :
    window cell bounds start (first + second) =
      window cell bounds start first ++
        window cell bounds ((start + first) % bounds) second := by
  unfold window
  rw [List.range_add, List.map_append, List.map_map]
  congr 1
  apply List.map_congr_left
  intro offset _
  show cell ((start + (first + offset)) % bounds) = cell (((start + first) % bounds + offset) % bounds)
  rw [Nat.mod_add_mod, Nat.add_assoc]

theorem window_one : window cell bounds start 1 = [cell (start % bounds)] := rfl

/-- A window depends on its own cells only. -/
theorem window_congr
    (same : ∀ offset, offset < count →
      cell' ((start + offset) % bounds) = cell ((start + offset) % bounds)) :
    window cell' bounds start count = window cell bounds start count := by
  apply List.map_congr_left
  intro offset member
  exact same offset (List.mem_range.mp member)

/-- The cells of a window shorter than the array are different cells. -/
theorem offset_injective {one other : Nat} (oneBelow : one < bounds) (otherBelow : other < bounds)
    (same : (start + one) % bounds = (start + other) % bounds) : one = other := by
  have congruent : Nat.ModEq bounds one other := Nat.ModEq.add_left_cancel' start same
  exact Nat.ModEq.eq_of_lt_of_lt congruent oneBelow otherBelow

/-- The cell behind a window that is not full is free to be written: it extends
the window by one. -/
theorem window_push (room : count < bounds) (value : Value) :
    window (Function.update cell ((start + count) % bounds) value) bounds start (count + 1) =
      window cell bounds start count ++ [value] := by
  rw [window_add, window_one, Nat.mod_mod, Function.update_self]
  congr 1
  apply window_congr
  intro offset below
  apply Function.update_of_ne
  intro same
  have equal := offset_injective (by omega) room same
  omega

/-- New values in the cells behind a window extend it, as long as the window
keeps its own. -/
theorem window_extend {values : Nat → Value} {added : Nat}
    (kept : ∀ offset, offset < count →
      cell' ((start + offset) % bounds) = cell ((start + offset) % bounds))
    (written : ∀ offset, offset < added → cell' ((start + count + offset) % bounds) = values offset) :
    window cell' bounds start (count + added) =
      window cell bounds start count ++ (List.range added).map values := by
  rw [window_add, window_congr kept]
  congr 1
  apply List.map_congr_left
  intro offset member
  show cell' (((start + count) % bounds + offset) % bounds) = values offset
  rw [Nat.mod_add_mod]
  exact written offset (List.mem_range.mp member)

/-- The first cell of a window and the window behind it. -/
theorem window_pop (inside : start < bounds) :
    window cell bounds start (count + 1) =
      cell start :: window cell bounds ((start + 1) % bounds) count := by
  rw [Nat.add_comm count 1, window_add, window_one, Nat.mod_eq_of_lt inside]
  rfl

/-- A window that does not wrap is a block of the array. -/
theorem window_block (fits : start + count ≤ bounds) :
    window cell bounds start count = (List.range count).map fun offset => cell (start + offset) := by
  apply List.map_congr_left
  intro offset member
  have below := List.mem_range.mp member
  show cell ((start + offset) % bounds) = cell (start + offset)
  rw [Nat.mod_eq_of_lt (by omega)]

/-- The step of an index that wraps by subtraction. -/
theorem next_index (inside : start < bounds) :
    (if bounds ≤ start + 1 then start + 1 - bounds else start + 1) = (start + 1) % bounds := by
  split
  · have atEnd : start + 1 = bounds := by omega
    rw [atEnd, Nat.mod_self, Nat.sub_self]
  · rw [Nat.mod_eq_of_lt (by omega)]

end TuyaAdapter.Foundation.RingWindow
