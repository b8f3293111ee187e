import Mathlib.Algebra.Order.Group.Nat
import Mathlib.Data.List.Basic

/-!
Owns the cutting of a stream into blocks of one size while it arrives in chunks
of any size. `Blocked` relates the blocks that were taken, the stream so far and
what is left over; the rules say when it survives a chunk, with no block taken
and with one.
-/

namespace TuyaAdapter.Foundation.Blocking

variable {Item : Type*} {size : Nat} {blocks : List (List Item)} {stream rest chunk block : List Item}

/-- The blocks are the successive blocks of the stream; what is left over is
less than a block. -/
structure Blocked (size : Nat) (blocks : List (List Item)) (stream rest : List Item) : Prop where
  full : ∀ block ∈ blocks, block.length = size
  parts : stream = blocks.flatten ++ rest
  short : rest.length < size

theorem blocked_nil (positive : 0 < size) : Blocked size ([] : List (List Item)) [] [] :=
  ⟨by simp, rfl, positive⟩

/-- A chunk that does not complete a block is left over with the rest. -/
theorem Blocked.wait (blocked : Blocked size blocks stream rest)
    (short : (rest ++ chunk).length < size) :
    Blocked size blocks (stream ++ chunk) (rest ++ chunk) :=
  ⟨blocked.full, by rw [blocked.parts, List.append_assoc], short⟩

/-- A block is taken from the front of what is there. -/
theorem Blocked.take (blocked : Blocked size blocks stream rest)
    (enough : size ≤ (rest ++ chunk).length) (notTwo : (rest ++ chunk).length < 2 * size) :
    Blocked size (blocks ++ [(rest ++ chunk).take size]) (stream ++ chunk)
      ((rest ++ chunk).drop size) where
  full := by
    intro block member
    rcases List.mem_append.mp member with old | new
    · exact blocked.full block old
    · rw [List.mem_singleton.mp new, List.length_take]
      omega
  parts := by
    rw [blocked.parts, List.flatten_append, List.append_assoc, List.append_assoc]
    simp only [List.flatten_cons, List.flatten_nil, List.append_nil]
    rw [List.take_append_drop]
  short := by
    rw [List.length_drop]
    omega

/-- Without a new block the chunk has left less than a block. -/
theorem Blocked.short_of_wait {left : List Item} (blocked : Blocked size blocks stream rest)
    (next : Blocked size blocks (stream ++ chunk) left) : (rest ++ chunk).length < size := by
  have parts := next.parts
  rw [blocked.parts, List.append_assoc] at parts
  rw [List.append_cancel_left parts]
  exact next.short

/-- A new block is the first of what was there, and has left less than a
block. -/
theorem Blocked.eq_of_take {left : List Item} (blocked : Blocked size blocks stream rest)
    (next : Blocked size (blocks ++ [block]) (stream ++ chunk) left) :
    block = (rest ++ chunk).take size ∧ (rest ++ chunk).length < 2 * size := by
  have isFull : block.length = size := next.full block (by simp)
  have isRest : rest ++ chunk = block ++ left := by
    have parts := next.parts
    rw [blocked.parts, List.append_assoc, List.flatten_append, List.append_assoc] at parts
    simpa using List.append_cancel_left parts
  have short := next.short
  rw [isRest, ← isFull]
  refine ⟨by simp, ?_⟩
  rw [List.length_append]
  omega

end TuyaAdapter.Foundation.Blocking
