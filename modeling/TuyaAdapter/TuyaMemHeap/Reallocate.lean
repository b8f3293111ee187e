import TuyaAdapter.TuyaMemHeap.ManyCalls

/-!
Contract: `tuya_mem_heap_realloc` of a live pointer.

The call keeps the block when it is large enough. Else it takes a new block,
copies the whole old payload into it and frees the old block: two transfers.
The size test adds one in `unsigned int`, so the largest size always keeps the
block.
-/

namespace TuyaAdapter.TuyaMemHeap

open Foundation Foundation.ByteMemory Foundation.LinkedPath Foundation.Tiling Foundation.Run
open Foundation.MachineWord (add sub)

/-- The size the call goes on with. -/
def reallocSize (size : UInt32) : UInt32 := if size < 4 then 4 else size

/-- The block size the call compares the old block with. -/
def reallocBlock (size : UInt32) : Nat :=
  add 64 (alignUp (reallocSize size + 1).toNat) memBlockHeadSize

theorem reallocSize_toNat (size : UInt32) : (reallocSize size).toNat = max size.toNat 4 := by
  unfold reallocSize
  by_cases isSmall : size < 4
  · have below : size.toNat < 4 := UInt32.lt_iff_toNat_lt.mp isSmall
    rw [if_pos isSmall]
    show 4 = max size.toNat 4
    omega
  · have above : ¬ size.toNat < 4 := fun below => isSmall (UInt32.lt_iff_toNat_lt.mpr below)
    rw [if_neg isSmall]
    omega

theorem chunkSize_max (size : Nat) : chunkSize (max size 4) = chunkSize size := by
  unfold chunkSize
  rw [max_assoc, max_self]

theorem reallocBlock_eq {size : UInt32} (notLast : size.toNat ≠ 2 ^ 32 - 1) :
    reallocBlock size = chunkSize size.toNat := by
  have bound := size.toNat_lt
  have isSum : (reallocSize size + 1).toNat = max size.toNat 4 + 1 := by
    rw [UInt32.toNat_add, reallocSize_toNat]
    show (max size.toNat 4 + 1) % 2 ^ 32 = max size.toNat 4 + 1
    exact Nat.mod_eq_of_lt (by omega)
  unfold reallocBlock chunkSize allocationSize
  rw [isSum, MachineWord.add_of_lt (show max size.toNat 4 + 1 < 2 ^ 64 by omega)]

theorem reallocBlock_last {size : UInt32} (isLast : size.toNat = 2 ^ 32 - 1) :
    reallocBlock size = 8 := by
  have isSum : (reallocSize size + 1).toNat = 0 := by
    rw [UInt32.toNat_add, reallocSize_toNat, isLast]
    rfl
  unfold reallocBlock
  rw [isSum]
  rfl

/-- Entering a block into a ledger keeps the pointers that are live. -/
theorem LivePointer.entered {state : ClientState} {slot : Slot} {ptr : Nat}
    (live : LivePointer state slot ptr) (after : HeapSystem) (taker : Slot) (entry : Allocation) :
    LivePointer ⟨after, Function.update state.ledger taker (entry :: state.ledger taker)⟩ slot
      ptr := by
  obtain ⟨allocation, inLedger, isAllocation⟩ := live
  refine ⟨allocation, ?_, isAllocation⟩
  by_cases isTaker : slot = taker
  · subst isTaker
    simp [inLedger]
  · simp [isTaker, inLedger]

section Blocks

variable {state : ClientState} {slot taker : Slot} {ptr new size : Nat}
  {owner : Nat → Allocation} {after : HeapSystem}

theorem AllHold.block (allHold : AllHold state) (live : LivePointer state slot ptr) :
    ∃ layout block, block ∈ layout ∧ block.vacant = false ∧ ptr = block.address + 8 ∧
      HeapHolds state.system.memory (state.system.heapList slot) (state.ledger slot) layout := by
  obtain ⟨layout, holds⟩ := allHold.live slot (allHold.inRegion_of_live live).1
  obtain ⟨left, block, right, allocation, isLayout, owned, isPtr⟩ := holds.block_of_live live
  exact ⟨layout, block, by simp [isLayout], vacant_of_owner owned, isPtr, holds⟩

/-- A live block is at least as large as the smallest block and ends below the
end of its region. -/
theorem AllHold.blockSize_bounds (allHold : AllHold state) (live : LivePointer state slot ptr) :
    16 ≤ blockSize state.system.memory (ptr - 8) ∧
      blockSize state.system.memory (ptr - 8) < 2 ^ 32 := by
  obtain ⟨layout, block, member, -, rfl, holds⟩ := allHold.block live
  have bounds := holds.bytes.bounds member
  have inside := holds.inside
  have small := allHold.small slot
  rw [Nat.add_sub_cancel, holds.bytes.blockSize_eq member]
  exact ⟨holds.bytes.large block member, by omega⟩

/-- Taking a block leaves the headers of live blocks alone. -/
theorem Taken.blockSize_eq (taken : Taken state taker size owner new after)
    (allHold : AllHold state) (live : LivePointer state slot ptr) :
    blockSize after.memory (ptr - 8) = blockSize state.system.memory (ptr - 8) := by
  obtain ⟨layout, segment, layout', -, holds, granted⟩ := taken
  by_cases isSlot : slot = taker
  · subst isSlot
    obtain ⟨left, block, right, allocation, isLayout, owned, rfl⟩ := holds.block_of_live live
    have member : block ∈ layout := by simp [isLayout]
    have kept : block ∈ layout' := granted.carve.owned_mem member (vacant_of_owner owned)
    rw [Nat.add_sub_cancel, holds.bytes.blockSize_eq member, granted.holds.bytes.blockSize_eq kept]
  · obtain ⟨its, block, member, -, rfl, itsHolds⟩ := allHold.block live
    have later := allHold.elsewhere granted.confined holds.live isSlot itsHolds
    rw [Nat.add_sub_cancel, itsHolds.bytes.blockSize_eq member, later.bytes.blockSize_eq member]

/-- A taken block is not one of the live blocks. -/
theorem Taken.ne_live (taken : Taken state taker size owner new after) (allHold : AllHold state)
    (live : LivePointer state slot ptr) : new ≠ ptr := by
  obtain ⟨layout, segment, layout', rfl, holds, granted⟩ := taken
  have bounds := granted.holds.inRegion granted.carve.mem
  by_cases isSlot : slot = taker
  · subst isSlot
    obtain ⟨left, block, right, allocation, isLayout, owned, rfl⟩ := holds.block_of_live live
    have member : block ∈ layout := by simp [isLayout]
    have kept : block ∈ layout' := granted.carve.owned_mem member (vacant_of_owner owned)
    have blockLarge := granted.holds.bytes.large block kept
    have segmentLarge := granted.holds.bytes.large segment granted.carve.mem
    rcases granted.holds.bytes.apart granted.carve.mem kept with same | before | later
    · exact absurd (same ▸ member) granted.fresh
    · omega
    · omega
  · rintro rfl
    have here := allHold.inRegion_of_live live
    have there : InRegion (state.system.heapList taker) (segment.address + 8) := by
      unfold InRegion at bounds ⊢
      rw [← granted.confined.base, ← granted.confined.size]
      exact bounds
    exact isSlot (allHold.region_unique here there)

/-- A block taken and filled below its tag. -/
theorem Taken.filled (taken : Taken state taker size owner new after) (bytes : Nat → UInt8)
    {count : Nat} (short : count + 9 ≤ size) :
    Taken state taker size owner new
      { after with memory := writeBytes after.memory new count bytes } := by
  obtain ⟨layout, segment, layout', rfl, holds, granted⟩ := taken
  have enough := granted.carve.size_le
  refine ⟨layout, segment, layout', rfl, holds, granted.writeInside ?_⟩
  intro address outside
  exact writeBytes_outside (by omega)

theorem Taken.reached_iff (taken : Taken state taker size owner new after) (slot : Slot) :
    Reached after slot ↔ Reached state.system slot := by
  obtain ⟨layout, segment, layout', -, -, granted⟩ := taken
  have sameSize : ∀ other, (after.heapList other).size = (state.system.heapList other).size := by
    intro other
    by_cases isTaker : other = taker
    · rw [isTaker, granted.confined.size]
    · rw [granted.confined.elsewhere other isTaker]
  unfold Reached
  simp only [sameSize]

end Blocks

section Reallocate

variable {state : ClientState} {slot taker : Slot} {ptr new : Nat} {handle : Option Slot}

/-- Dropping a pointer does not depend on the old system. -/
theorem leave_ledger (before final : HeapSystem) (ledger : Slot → List Allocation)
    (target : Option Slot) :
    (ClientState.mk before ledger).leave target final ptr =
      (ClientState.mk final ledger).leave target final ptr := by
  cases target <;> rfl

/-- Entering a new pointer and dropping an old one commute. -/
theorem leave_enter (state : ClientState) (target : Option Slot) (final : HeapSystem)
    {entry : Allocation} (different : entry.pointer ≠ ptr) (nonzero : entry.pointer ≠ 0) :
    (ClientState.mk final (Function.update state.ledger taker
        (entry :: state.ledger taker))).leave target final ptr =
      (state.leave target final ptr).enter (some taker) final entry := by
  unfold ClientState.enter
  rw [if_neg nonzero]
  cases target with
  | none => rfl
  | some slot =>
      unfold ClientState.leave
      simp only [ClientState.mk.injEq, true_and]
      funext other
      by_cases isSlot : other = slot
      · subst isSlot
        by_cases isTaker : other = taker
        · subst isTaker
          simp [different]
        · simp [isTaker]
      · by_cases isTaker : other = taker
        · subst isTaker
          simp [isSlot]
        · simp [isSlot, isTaker]

/-- A live pointer is freed after another block was taken. -/
theorem AllHold.move_transfers (allHold : AllHold state) (through : Through handle slot)
    (takerThrough : Through handle taker) (live : LivePointer state slot ptr)
    {size requested : Nat} {after : HeapSystem}
    (taken : Taken state taker size (plainOwner requested) new after) :
    ∃ final, tuyaMemHeapFree after handle ptr = some final ∧
      ⟨new, requested, none⟩ ∈
        ((state.leave (freeTarget state.system handle ptr) final ptr).enter
          (home final handle new) final ⟨new, requested, none⟩).ledger taker ∧
      Transfers state
        ((state.leave (freeTarget state.system handle ptr) final ptr).enter
          (home final handle new) final ⟨new, requested, none⟩) := by
  obtain ⟨-, entered⟩ := allHold.enter_taken takerThrough (fun _ => rfl) taken
  have apart := taken.ne_live allHold live
  have isPtr : new - 8 + 8 = new := by
    obtain ⟨layout, segment, layout', rfl, -⟩ := taken
    omega
  have isOwner : plainOwner requested (new - 8) = ⟨new, requested, none⟩ := by
    rw [plainOwner, isPtr]
  rw [isOwner] at entered
  have afterHold := entered.allHold allHold
  have liveAfter := live.entered after taker ⟨new, requested, none⟩
  have sameTarget : freeTarget after handle ptr = freeTarget state.system handle ptr := by
    rw [allHold.freeTarget_eq through live]
    refine (afterHold.freeTarget_eq through liveAfter).trans ?_
    simp only [taken.reached_iff slot]
  obtain ⟨final, isFreed, freed⟩ := afterHold.free_transfers through liveAfter
  simp only [sameTarget] at freed
  rw [leave_ledger, leave_enter state _ final apart taken.ptr_ne_zero] at freed
  have transfers := Relation.ReflTransGen.head ⟨taker, entered⟩ freed
  have finalHold : AllHold _ := Transfers.allHold transfers allHold
  have inLedger : ⟨new, requested, none⟩ ∈
      ((state.leave (freeTarget state.system handle ptr) final ptr).enter (some taker) final
        ⟨new, requested, none⟩).ledger taker := by
    unfold ClientState.enter
    rw [if_neg taken.ptr_ne_zero]
    simp
  have isHome : home final handle new = some taker := by
    have inRegion := finalHold.inRegion_of_live ⟨_, inLedger, rfl⟩
    have isFinal : ((state.leave (freeTarget state.system handle ptr) final ptr).enter
        (some taker) final ⟨new, requested, none⟩).system = final := by
      unfold ClientState.enter
      rw [if_neg taken.ptr_ne_zero]
    have found := finalHold.home_eq takerThrough inRegion
    rw [isFinal] at found
    exact found
  refine ⟨final, isFreed, ?_, ?_⟩
  · rw [isHome]
    exact inLedger
  · rw [isHome]
    exact transfers

/-- The call on a live pointer whose block is found intact. -/
theorem AllHold.realloc_eq (allHold : AllHold state) (live : LivePointer state slot ptr)
    (handle : Option Slot) (size : UInt32) :
    tuyaMemHeapRealloc state.system handle ptr size =
      if reallocBlock size ≤ blockSize state.system.memory (ptr - 8) then some (ptr, state.system)
      else
        (tuyaMemHeapMalloc state.system handle (reallocSize size)).bind fun (tmp, after) =>
          if tmp = 0 then some (0, after)
          else
            let count := sub 64 (blockSize after.memory (ptr - 8)) memBlockHeadSize
            let memory := writeBytes after.memory tmp count fun i => after.memory (ptr + i)
            (tuyaMemHeapFree { after with memory := memory } handle ptr).map fun final =>
              (tmp, final) := by
  obtain ⟨layout, block, member, owned, rfl, holds⟩ := allHold.block live
  have fits := holds.bytes.highFits
  have bounds := holds.bytes.bounds member
  have large := holds.bytes.large block member
  have isBack : sub 64 (block.address + 8) memBlockHeadSize = block.address := by
    rw [MachineWord.sub_of_le (by omega) (by unfold memBlockHeadSize; omega)]
    rfl
  have tag : state.system.memory (memDogAddr state.system.memory block.address) =
      memBlockStatUse := by
    rw [holds.bytes.memDogAddr_eq member]
    exact (holds.bytes.segments block member).tag owned
  unfold tuyaMemHeapRealloc reallocBlock reallocSize
  rw [if_neg (by omega), isBack, Nat.add_sub_cancel]
  simp only [tag, ne_eq, not_true_eq_false, if_false]

/-- The state after the payload of the old block was copied to the new one. -/
def copied (before : HeapSystem) (ptr new : Nat) (after : HeapSystem) : HeapSystem :=
  { after with
    memory := writeBytes after.memory new (blockSize before.memory (ptr - 8) - 8)
      fun i => after.memory (ptr + i) }

/-- A block that is too small is copied to a new one, which has room for it, and
freed. -/
theorem AllHold.realloc_taken (allHold : AllHold state) (live : LivePointer state slot ptr)
    {size : UInt32} (short : blockSize state.system.memory (ptr - 8) < reallocBlock size)
    {owner : Nat → Allocation} {after : HeapSystem}
    (isBlock : tuyaMemHeapMalloc state.system handle (reallocSize size) = some (new, after))
    (taken : Taken state taker (chunkSize (reallocSize size).toNat) owner new after) :
    blockSize state.system.memory (ptr - 8) < chunkSize size.toNat ∧
      Taken state taker (chunkSize size.toNat) owner new (copied state.system ptr new after) ∧
      tuyaMemHeapRealloc state.system handle ptr size =
        (tuyaMemHeapFree (copied state.system ptr new after) handle ptr).map fun final =>
          (new, final) := by
  have sizes := allHold.blockSize_bounds live
  have notLast : size.toNat ≠ 2 ^ 32 - 1 := by
    intro isLast
    rw [reallocBlock_last isLast] at short
    omega
  have count : sub 64 (blockSize after.memory (ptr - 8)) memBlockHeadSize =
      blockSize state.system.memory (ptr - 8) - 8 := by
    rw [taken.blockSize_eq allHold live, MachineWord.sub_of_le (by omega)
      (by unfold memBlockHeadSize; omega)]
    rfl
  have isRealloc := allHold.realloc_eq live handle size
  rw [if_neg (Nat.not_le_of_lt short)] at isRealloc
  simp only [isBlock, Option.bind_some, if_neg taken.ptr_ne_zero, count] at isRealloc
  rw [reallocBlock_eq notLast] at short
  rw [reallocSize_toNat, chunkSize_max] at taken
  exact ⟨short, taken.filled _ (by omega), isRealloc⟩

/-- `tuya_mem_heap_realloc` of a live pointer keeps the block, fails without
effect, or moves the contents to a new block. -/
theorem AllHold.realloc_cases (allHold : AllHold state) (through : Through handle slot)
    (live : LivePointer state slot ptr) (size : UInt32) :
    (reallocBlock size ≤ blockSize state.system.memory (ptr - 8) ∧
        tuyaMemHeapRealloc state.system handle ptr size = some (ptr, state.system)) ∨
      (blockSize state.system.memory (ptr - 8) < reallocBlock size ∧
        ¬ Serves state.system handle (reallocSize size) ∧
        tuyaMemHeapRealloc state.system handle ptr size = some (0, state.system)) ∨
      (blockSize state.system.memory (ptr - 8) < reallocBlock size ∧
        Serves state.system handle (reallocSize size) ∧
        ∃ new final taker, new ≠ 0 ∧
          tuyaMemHeapRealloc state.system handle ptr size = some (new, final) ∧
          ⟨new, size.toNat, none⟩ ∈ (state.reallocated handle ptr size new final).ledger taker ∧
          Transfers state (state.reallocated handle ptr size new final)) := by
  have isRealloc := allHold.realloc_eq live handle size
  by_cases large : reallocBlock size ≤ blockSize state.system.memory (ptr - 8)
  · rw [if_pos large] at isRealloc
    exact Or.inl ⟨large, isRealloc⟩
  right
  rw [if_neg large] at isRealloc
  have short := Nat.lt_of_not_le large
  have enough : size.toNat ≤ (reallocSize size).toNat := by
    rw [reallocSize_toNat]
    omega
  rcases allHold.malloc_cases handle (reallocSize size) enough with
    ⟨refuses, isNull⟩ | ⟨serves, taker, new, after, takerThrough, isBlock, taken⟩
  · left
    simp only [isNull, Option.bind_some, if_true] at isRealloc
    exact ⟨short, refuses, isRealloc⟩
  · right
    have nonzero := taken.ptr_ne_zero
    have apart := taken.ne_live allHold live
    obtain ⟨-, filled, moves⟩ := allHold.realloc_taken live short isBlock taken
    obtain ⟨final, isFreed, inLedger, transfers⟩ :=
      allHold.move_transfers through takerThrough live filled
    rw [isFreed, Option.map_some] at moves
    have ptrNonzero : ptr ≠ 0 := by
      obtain ⟨-, block, -, -, rfl, -⟩ := allHold.block live
      omega
    have isMoved : state.reallocated handle ptr size new final =
        (state.leave (freeTarget state.system handle ptr) final ptr).enter (home final handle new)
          final ⟨new, size.toNat, none⟩ := by
      unfold ClientState.reallocated
      rw [if_neg nonzero, if_neg ptrNonzero, if_neg apart]
    refine ⟨short, serves, new, final, taker, nonzero, moves, ?_, ?_⟩
    · rw [isMoved]
      exact inLedger
    · rw [isMoved]
      exact transfers

end Reallocate

end TuyaAdapter.TuyaMemHeap
