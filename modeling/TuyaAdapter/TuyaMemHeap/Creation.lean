import TuyaAdapter.TuyaMemHeap.HeapOperations

/-!
Contract: `tuya_mem_heap_create` on any region of the address space.

`mem_heap_init` moves the start up to an aligned address and takes the pad off
the size in unsigned arithmetic. When the region ends before that address the
difference wraps, the size test passes, and the heap gets a block that spans
almost the whole address space. For every other region the block lies inside,
or the call fails and leaves nothing behind.
-/

namespace TuyaAdapter.TuyaMemHeap

open Foundation Foundation.ByteMemory
open Foundation.MachineWord (add sub)

/-- The distance from an address to the next aligned one. -/
def alignPad (ptr : Nat) : Nat := (memAlignNum - ptr % memAlignNum) % memAlignNum

/-! ## The contract -/

/-- The free list of a slot is one block inside a region, aligned and large
enough. -/
structure InitialBlock (after : HeapSystem) (slot : Slot) (startAddr size : Nat) : Prop where
  above : startAddr ≤ (after.heapList slot).freeList
  below : (after.heapList slot).freeList +
    blockSize after.memory (after.heapList slot).freeList ≤ startAddr + size
  aligned : (after.heapList slot).freeList % memAlignNum = 0
  large : 32 ≤ blockSize after.memory (after.heapList slot).freeList
  single : blockNext after.memory (after.heapList slot).freeList = 0

/-- A failed creation leaves the counters and the live heaps alone, and unused
slots unused. -/
structure LeftAlone (before after : HeapSystem) : Prop where
  total : after.heapFreeSize = before.heapFreeSize
  totalWatermark : after.heapFreeSizeWatermark = before.heapFreeSizeWatermark
  memory : after.memory = before.memory
  live : ∀ slot, 0 < (before.heapList slot).size → after.heapList slot = before.heapList slot
  unused : ∀ slot, (before.heapList slot).size = 0 → (after.heapList slot).size = 0

/-- What `tuya_mem_heap_create` should do with a region: return 0 with a first
block inside it, or return -1 and leave everything alone. -/
def CreateMeets (system : HeapSystem) (startAddr : Nat) (size : UInt32) : Prop :=
  match tuyaMemHeapCreate system startAddr size with
  | (some slot, after) => InitialBlock after slot startAddr size.toNat
  | (none, after) => LeftAlone system after

/-! ## The size of the block -/

section Sizes

variable {ptr size : Nat}

theorem alignPad_lt (ptr : Nat) : alignPad ptr < 8 := by
  unfold alignPad memAlignNum
  omega

/-- The region reaches its first aligned address, which does not wrap then. -/
theorem alignUp_of_pad (noWrap : ptr + size < 2 ^ 64) (padded : alignPad ptr ≤ size) :
    alignUp ptr = ptr + alignPad ptr := by
  unfold alignPad memAlignNum at *
  unfold alignUp memAlignNum
  rw [MachineWord.add_of_lt (by omega)]
  dsimp only
  omega

theorem initialSize_of_pad (noWrap : ptr + size < 2 ^ 64) (padded : alignPad ptr ≤ size) :
    initialSize ptr size = alignDown (size - alignPad ptr) := by
  have isUp := alignUp_of_pad noWrap padded
  have isPad : sub 64 (alignUp ptr) ptr = alignPad ptr := by
    rw [isUp, MachineWord.sub_of_le (by omega) (by omega), Nat.add_sub_cancel_left]
  unfold initialSize
  rw [isPad, MachineWord.sub_of_le (by omega) padded]

/-- The pad is the distance also where the next aligned address is beyond the
end of the address space and wraps to null. -/
theorem sub_alignUp (fits : ptr < 2 ^ 64) : sub 64 (alignUp ptr) ptr = alignPad ptr := by
  unfold alignUp alignPad sub add memAlignNum
  dsimp only
  omega

/-- The region ends before its first aligned address: the size wraps. -/
theorem initialSize_of_short (fits : ptr < 2 ^ 64) (short : size < alignPad ptr) :
    initialSize ptr size = 2 ^ 64 - 8 := by
  have small := alignPad_lt ptr
  unfold initialSize
  rw [sub_alignUp fits]
  unfold sub alignDown memAlignNum
  omega

theorem alignUp_aligned (ptr : Nat) : alignUp ptr % memAlignNum = 0 := by
  unfold alignUp memAlignNum
  dsimp only
  omega

theorem alignUp_lt (ptr : Nat) : alignUp ptr < 2 ^ 64 := by
  unfold alignUp add
  dsimp only
  omega

end Sizes

/-! ## The call -/

section Calls

variable {system after : HeapSystem} {slot : Slot} {ptr size : Nat}

/-- With an unused slot and a region that is not empty, only the size test
decides. -/
theorem memHeapCreate_found (nonNull : ptr ≠ 0) (nonempty : size ≠ 0)
    (found : firstUnused system = some slot) :
    (memHeapCreate system ptr size).1 =
      if initialSize ptr size < memHeapMinSize then none else some slot := by
  unfold memHeapCreate
  rw [if_neg (by simp [nonNull, nonempty]), found]
  simp only [memHeapInit]
  rw [show alignDown (sub 64 size (sub 64 (alignUp ptr) ptr)) = initialSize ptr size from rfl]
  by_cases tooSmall : initialSize ptr size < memHeapMinSize
  · simp [tooSmall]
  · simp [tooSmall]

/-- The block a successful call sets up. -/
theorem memHeapCreate_block (created : memHeapCreate system ptr size = (some slot, after)) :
    ptr ≠ 0 ∧ 32 ≤ initialSize ptr size ∧ (after.heapList slot).freeList = alignUp ptr ∧
      after.memory =
        writeByte (headedMemory system.memory (alignUp ptr) (initialSize ptr size))
          (memDogAddr (headedMemory system.memory (alignUp ptr) (initialSize ptr size))
            (alignUp ptr)) memBlockStatFree := by
  obtain ⟨⟨nonNull, -⟩, -, large, isAfter⟩ := memHeapCreate_created created
  rw [isAfter]
  refine ⟨nonNull, large, ?_, ?_⟩
  · simp [initialized, HeapSystem.setHeap]
  · simp only [initialized]

/-- The header of the first block survives its tag when the tag lies elsewhere. -/
theorem headed_blockSize {memory : Memory} {start usable dog : Nat} (fits : usable < 2 ^ 64)
    (apart : dog < start ∨ start + 8 ≤ dog) :
    blockSize (writeByte (headedMemory memory start usable) dog memBlockStatFree) start =
      usable := by
  unfold blockSize headedMemory
  rw [readWord_writeByte (by omega), readWord_writeWord fits]

theorem headed_blockNext {memory : Memory} {start usable dog : Nat}
    (apart : dog < start + 8 ∨ start + 16 ≤ dog) :
    blockNext (writeByte (headedMemory memory start usable) dog memBlockStatFree) start = 0 := by
  unfold blockNext headedMemory
  rw [readWord_writeByte (by omega), readWord_writeWord_other (by omega),
    readWord_writeWord (by omega)]

theorem headed_memDogAddr {memory : Memory} {start usable : Nat} (fits : usable < 2 ^ 64) :
    memDogAddr (headedMemory memory start usable) start = sub 64 (add 64 start usable) 1 := by
  unfold memDogAddr blockSize headedMemory
  rw [readWord_writeWord fits]

/-- On a region that reaches its first aligned address the block lies inside. -/
theorem initialBlock_of_pad (created : memHeapCreate system ptr size = (some slot, after))
    (noWrap : ptr + size < 2 ^ 64) (padded : alignPad ptr ≤ size) :
    InitialBlock after slot ptr size := by
  obtain ⟨-, large, isList, isMemory⟩ := memHeapCreate_block created
  have isUp := alignUp_of_pad noWrap padded
  have isSize := initialSize_of_pad noWrap padded
  have aligned := alignUp_aligned ptr
  generalize initialSize ptr size = usable at *
  have short : usable ≤ size - alignPad ptr := by
    rw [isSize]
    exact Nat.sub_le _ _
  have isDog : memDogAddr (headedMemory system.memory (alignUp ptr) usable) (alignUp ptr) =
      alignUp ptr + usable - 1 := by
    rw [headed_memDogAddr (by omega), MachineWord.add_of_lt (by omega),
      MachineWord.sub_of_le (by omega) (by omega)]
  rw [isDog] at isMemory
  have header : blockSize after.memory (alignUp ptr) = usable := by
    rw [isMemory]
    exact headed_blockSize (by omega) (by omega)
  have link : blockNext after.memory (alignUp ptr) = 0 := by
    rw [isMemory]
    exact headed_blockNext (by omega)
  constructor
  · rw [isList]
    omega
  · rw [isList, header]
    omega
  · rw [isList]
    exact aligned
  · rw [isList, header]
    exact large
  · rw [isList]
    exact link

/-- On a region that ends before its first aligned address the block does not
lie inside. -/
theorem not_initialBlock_of_short (created : memHeapCreate system ptr size = (some slot, after))
    (noWrap : ptr + size < 2 ^ 64) (short : size < alignPad ptr) :
    ¬ InitialBlock after slot ptr size := by
  intro block
  obtain ⟨nonNull, -, isList, isMemory⟩ := memHeapCreate_block created
  have fits := alignUp_lt ptr
  have aligned := alignUp_aligned ptr
  unfold memAlignNum at aligned
  rw [initialSize_of_short (by omega) short, headed_memDogAddr (by omega)] at isMemory
  have header : blockSize after.memory (alignUp ptr) = 2 ^ 64 - 8 := by
    rw [isMemory]
    apply headed_blockSize (by omega)
    unfold sub add
    omega
  have above := block.above
  have below := block.below
  rw [isList] at above below
  rw [header] at below
  omega

theorem Refused.leftAlone (refused : Refused system after) : LeftAlone system after where
  total := refused.total
  totalWatermark := refused.totalWatermark
  memory := refused.memory
  live := by
    intro slot isLive
    rcases refused.heaps slot with same | ⟨isUnused, -⟩
    · exact same
    · omega
  unused := by
    intro slot isUnused
    rcases refused.heaps slot with same | ⟨-, base, isSlot⟩
    · rw [same]
      exact isUnused
    · rw [isSlot]

end Calls

/-- No slot of `mem_heap_list` is unused. -/
theorem firstUnused_eq_none {system : HeapSystem} :
    firstUnused system = none ↔ ∀ slot, 0 < (system.heapList slot).size := by
  unfold firstUnused
  rw [List.find?_eq_none]
  simp only [List.mem_finRange, decide_eq_true_eq, true_imp_iff, Nat.pos_iff_ne_zero, ne_eq]

/-- With an unused slot, a region that ends before its first aligned address is
accepted all the same. -/
theorem not_createMeets_of_short {system : HeapSystem} {startAddr : Nat} {size : UInt32}
    (nonNull : startAddr ≠ 0) (noWrap : startAddr + size.toNat < 2 ^ 64)
    (nonempty : size.toNat ≠ 0) (someUnused : firstUnused system ≠ none)
    (short : size.toNat < alignPad startAddr) : ¬ CreateMeets system startAddr size := by
  obtain ⟨slot, found⟩ := Option.ne_none_iff_exists'.mp someUnused
  have passes := memHeapCreate_found nonNull nonempty found
  rw [initialSize_of_short (by omega) short, if_neg (by decide)] at passes
  unfold CreateMeets tuyaMemHeapCreate
  rcases created : memHeapCreate system startAddr size.toNat with ⟨_ | other, after⟩
  · rw [created] at passes
    exact absurd passes (by simp)
  · exact not_initialBlock_of_short created noWrap short

/-- For every region of the address space: the first block lies inside it, or
the call fails without effect, exactly when the region is empty, no slot is
unused, or the region reaches its first aligned address. -/
theorem create_stays_inside_iff (system : HeapSystem) (startAddr : Nat) (size : UInt32)
    (nonNull : startAddr ≠ 0) (noWrap : startAddr + size.toNat < 2 ^ 64) :
    CreateMeets system startAddr size ↔
      size.toNat = 0 ∨ (∀ slot, 0 < (system.heapList slot).size) ∨
        alignPad startAddr ≤ size.toNat := by
  rw [← firstUnused_eq_none]
  constructor
  · intro meets
    by_contra none_
    rw [not_or, not_or, not_le] at none_
    exact not_createMeets_of_short nonNull noWrap none_.1 none_.2.1 none_.2.2 meets
  · intro condition
    unfold CreateMeets tuyaMemHeapCreate
    rcases created : memHeapCreate system startAddr size.toNat with ⟨_ | slot, after⟩
    · exact (memHeapCreate_refused created).leftAlone
    · obtain ⟨⟨-, nonempty⟩, found, -⟩ := memHeapCreate_created created
      rcases condition with isEmpty | noneUnused | padded
      · exact absurd isEmpty nonempty
      · rw [noneUnused] at found
        exact absurd found (by simp)
      · exact initialBlock_of_pad created noWrap padded

/-- The theorem on an unaligned region of 64 bytes. -/
theorem create_stays_inside_unaligned :
    CreateMeets (HeapSystem.initial fun _ => 0) 4099 64 ↔
      (64 : UInt32).toNat = 0 ∨
        (∀ slot, 0 < ((HeapSystem.initial fun _ => 0).heapList slot).size) ∨
        alignPad 4099 ≤ (64 : UInt32).toNat :=
  create_stays_inside_iff (HeapSystem.initial fun _ => 0) 4099 64 (by decide) (by decide)

/-- A heap on the two bytes at 4097 is created, with a first block at 4104 that
spans the rest of the address space. -/
theorem create_wraps_short_region :
    let result := tuyaMemHeapCreate (HeapSystem.initial fun _ => 0) 4097 2
    result.1 = some 0 ∧ (result.2.heapList 0).freeList = 4104 ∧
      blockSize result.2.memory 4104 = 2 ^ 64 - 8 ∧
      ¬ CreateMeets (HeapSystem.initial fun _ => 0) 4097 2 := by
  refine ⟨by decide +kernel, by decide +kernel, by decide +kernel, ?_⟩
  exact not_createMeets_of_short (by decide) (by decide) (by decide) (by decide) (by decide)

end TuyaAdapter.TuyaMemHeap
