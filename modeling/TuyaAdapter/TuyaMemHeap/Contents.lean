import TuyaAdapter.TuyaMemHeap.ManyRuns

/-!
Contract: the bytes of live blocks through `tuya_mem_heap_realloc` and
`tuya_mem_heap_debug_realloc`.

Taking a block and giving one back leave every byte of the other live blocks
alone. A block that moves is copied in between, so `Resized`, the contract of a
realloc, is a statement about one taken and one returned block
(`AllHold.replace_resized`).

The plain call compares sizes after adding one in `unsigned int` and keeps a
block of any size for the largest request. The debug call copies by the new
size and reads beyond the old block when it grows.
-/

namespace TuyaAdapter.TuyaMemHeap

open Foundation Foundation.ByteMemory Foundation.LinkedPath Foundation.Tiling Foundation.Run
open Foundation.MachineWord (add sub)

/-- Every byte of the block of a pointer is the same, header and tag included. -/
def SameBlock (after before : Memory) (ptr : Nat) : Prop :=
  AgreeOn after before (ptr - 8) (ptr - 8 + blockSize before (ptr - 8))

theorem SameBlock.blockSize_eq {after before : Memory} {ptr : Nat}
    (same : SameBlock after before ptr) (large : 8 ≤ blockSize before (ptr - 8)) :
    blockSize after (ptr - 8) = blockSize before (ptr - 8) :=
  readWord_congr (same.mono (le_refl _) (by omega))

theorem SameBlock.trans {first second third : Memory} {ptr : Nat}
    (late : SameBlock third second ptr) (early : SameBlock second first ptr)
    (large : 8 ≤ blockSize first (ptr - 8)) : SameBlock third first ptr := by
  unfold SameBlock at late
  rw [early.blockSize_eq large] at late
  exact AgreeOn.trans late early

theorem Through.eq_of_some {slot taker : Slot} (through : Through (some slot) taker) :
    taker = slot := by
  rcases through with isNone | isSome
  · exact absurd isNone (by simp)
  · exact (Option.some.inj isSome).symm

section Blocks

variable {state : ClientState} {slot taker : Slot} {ptr new size : Nat}
  {owner : Nat → Allocation} {after : HeapSystem}

/-! ## What happens to the other blocks -/

/-- A change confined to one slot does not reach the blocks of the others. -/
theorem AllHold.sameBlock_elsewhere (allHold : AllHold state)
    (confined : Confined state.system after taker)
    (isLive : 0 < (state.system.heapList taker).size) (different : slot ≠ taker)
    (live : LivePointer state slot ptr) : SameBlock after.memory state.system.memory ptr := by
  obtain ⟨layout, block, member, -, rfl, holds⟩ := allHold.block live
  have bounds := holds.bytes.bounds member
  unfold SameBlock
  rw [Nat.add_sub_cancel, holds.bytes.blockSize_eq member]
  exact (allHold.agree_elsewhere confined isLive different holds).mono bounds.1 bounds.2

/-- Taking a block leaves every byte of the live blocks alone. -/
theorem Taken.sameBlock (taken : Taken state taker size owner new after) (allHold : AllHold state)
    (live : LivePointer state slot ptr) : SameBlock after.memory state.system.memory ptr := by
  obtain ⟨layout, segment, layout', -, holds, granted⟩ := taken
  by_cases isSlot : slot = taker
  · subst isSlot
    obtain ⟨left, block, right, allocation, isLayout, owned, rfl⟩ := holds.block_of_live live
    have member : block ∈ layout := by simp [isLayout]
    unfold SameBlock
    rw [Nat.add_sub_cancel, holds.bytes.blockSize_eq member]
    exact granted.agreeOn member (vacant_of_owner owned)
  · exact allHold.sameBlock_elsewhere granted.confined holds.live isSlot live

/-- Giving a block back leaves every byte of the other live blocks alone. -/
theorem AllHold.free_keeps (allHold : AllHold state) (live : LivePointer state slot ptr) :
    ∃ after, memDeallocate state.system slot ptr = some after ∧ GivenBack state slot ptr after ∧
      ∀ other kept, kept ≠ ptr → LivePointer state other kept →
        SameBlock after.memory state.system.memory kept := by
  obtain ⟨layout, holds⟩ := allHold.live slot (allHold.inRegion_of_live live).1
  obtain ⟨left, block, right, allocation, isLayout, owned, rfl⟩ := holds.block_of_live live
  subst isLayout
  obtain ⟨after, left', joined, right', isFreed, surrendered⟩ := memDeallocate_spec holds owned
  refine ⟨after, isFreed, ⟨left, block, right, left', joined, right', rfl,
    holds.bytes.positive block (by simp), surrendered⟩, ?_⟩
  intro other kept different otherLive
  by_cases isSlot : other = slot
  · subst isSlot
    obtain ⟨itsLeft, its, itsRight, itsAllocation, itsLayout, itsOwned, rfl⟩ :=
      holds.block_of_live otherLive
    have member : its ∈ left ++ block :: right := by simp [itsLayout]
    have isOther : its ≠ block := by
      intro same
      exact different (by rw [same])
    unfold SameBlock
    rw [Nat.add_sub_cancel, holds.bytes.blockSize_eq member]
    exact surrendered.released.agreeOn member (vacant_of_owner itsOwned) isOther
  · exact allHold.sameBlock_elsewhere surrendered.confined holds.live isSlot otherLive

theorem AllHold.tag_of_live (allHold : AllHold state) (live : LivePointer state slot ptr) :
    state.system.memory (memDogAddr state.system.memory (ptr - 8)) = memBlockStatUse := by
  obtain ⟨layout, block, member, owned, rfl, holds⟩ := allHold.block live
  rw [Nat.add_sub_cancel, holds.bytes.memDogAddr_eq member]
  exact (holds.bytes.segments block member).tag owned

/-- A taken block has the size that was asked for, at least. -/
theorem Taken.size_le (taken : Taken state taker size owner new after) :
    size ≤ blockSize after.memory (new - 8) := by
  obtain ⟨layout, segment, layout', rfl, holds, granted⟩ := taken
  rw [Nat.add_sub_cancel, granted.holds.bytes.blockSize_eq granted.carve.mem]
  exact granted.carve.size_le

end Blocks

/-! ## The contract -/

/-- What a realloc that returns `new` guarantees: `new` is live with room for the
request before its tag, it has the old contents, the old pointer is gone unless
it is the one returned, and the other blocks are as before. -/
structure Resized (before after : ClientState) (slot : Slot) (ptr size new : Nat) : Prop where
  live : LivePointer after slot new
  inUse : after.system.memory (memDogAddr after.system.memory (new - 8)) = memBlockStatUse
  usable : max size 1 + 9 ≤ blockSize after.system.memory (new - 8)
  contents : ∀ i, i < min size (blockSize before.system.memory (ptr - 8) - 9) →
    after.system.memory (new + i) = before.system.memory (ptr + i)
  released : new ≠ ptr → ∀ other, ¬ LivePointer after other ptr
  othersLive : ∀ other kept, kept ≠ ptr → kept ≠ new →
    (LivePointer after other kept ↔ LivePointer before other kept)
  othersKept : ∀ other kept, kept ≠ ptr → LivePointer before other kept →
    SameBlock after.system.memory before.system.memory kept

/-- The ledger after a live pointer of a slot was replaced by a new allocation. -/
def replaced (ledger : Slot → List Allocation) (slot : Slot) (ptr : Nat) (entry : Allocation) :
    Slot → List Allocation :=
  Function.update ledger slot
    (entry :: (ledger slot).filter fun allocation => allocation.pointer ≠ ptr)

section Replace

variable {state : ClientState} {slot : Slot} {ptr : Nat}

theorem replaced_live {final : HeapSystem} {entry : Allocation} {other : Slot} {kept : Nat}
    (different : kept ≠ ptr) (old : kept ≠ entry.pointer) :
    LivePointer ⟨final, replaced state.ledger slot ptr entry⟩ other kept ↔
      LivePointer state other kept := by
  unfold LivePointer replaced
  by_cases isSlot : other = slot
  · subst isSlot
    simp only [Function.update_self, List.mem_cons, List.mem_filter, decide_eq_true_eq]
    constructor
    · rintro ⟨allocation, rfl | ⟨inLedger, -⟩, isKept⟩
      · exact absurd isKept.symm old
      · exact ⟨allocation, inLedger, isKept⟩
    · rintro ⟨allocation, inLedger, isKept⟩
      exact ⟨allocation, Or.inr ⟨inLedger, by rw [isKept]; exact different⟩, isKept⟩
  · simp only [Function.update_of_ne isSlot]

theorem replaced_released (allHold : AllHold state) (live : LivePointer state slot ptr)
    {final : HeapSystem} {entry : Allocation} (different : entry.pointer ≠ ptr) (other : Slot) :
    ¬ LivePointer ⟨final, replaced state.ledger slot ptr entry⟩ other ptr := by
  unfold LivePointer replaced
  by_cases isSlot : other = slot
  · subst isSlot
    simp only [Function.update_self, List.mem_cons, List.mem_filter, decide_eq_true_eq]
    rintro ⟨allocation, rfl | ⟨-, isOther⟩, isPtr⟩
    · exact different isPtr
    · exact isOther isPtr
  · simp only [Function.update_of_ne isSlot]
    rintro ⟨allocation, inLedger, isPtr⟩
    exact allHold.pointer_elsewhere live isSlot allocation inLedger isPtr

/-- A live pointer is replaced by a block that was taken and filled with its
contents: the old block is given back and everything else is kept. -/
theorem AllHold.replace_resized (allHold : AllHold state) (live : LivePointer state slot ptr)
    {new chunk size : Nat} {owner : Nat → Allocation} {after : HeapSystem}
    (pointer : ∀ address, (owner address).pointer = address + 8)
    (taken : Taken state slot chunk owner new after) (enough : max size 1 + 9 ≤ chunk)
    (copied : ∀ i, i < min size (blockSize state.system.memory (ptr - 8) - 9) →
      after.memory (new + i) = state.system.memory (ptr + i)) :
    ∃ final, memDeallocate after slot ptr = some final ∧
      AllHold ⟨final, replaced state.ledger slot ptr (owner (new - 8))⟩ ∧
      Resized state ⟨final, replaced state.ledger slot ptr (owner (new - 8))⟩ slot ptr size
        new := by
  have apart := taken.ne_live allHold live
  have isNew : (owner (new - 8)).pointer = new := by
    obtain ⟨layout, segment, layout', rfl, -⟩ := taken
    rw [pointer]
    omega
  have through : Through (some slot) slot := Or.inr rfl
  obtain ⟨-, entered⟩ := allHold.enter_taken through pointer taken
  have middleHold := entered.allHold allHold
  have newLive : LivePointer ⟨after, Function.update state.ledger slot
      (owner (new - 8) :: state.ledger slot)⟩ slot new :=
    ⟨owner (new - 8), by simp, isNew⟩
  obtain ⟨final, isFreed, given, keeps⟩ :=
    middleHold.free_keeps (live.entered after slot (owner (new - 8)))
  have isNext : (ClientState.mk after (Function.update state.ledger slot
        (owner (new - 8) :: state.ledger slot))).leave (some slot) final ptr =
      ⟨final, replaced state.ledger slot ptr (owner (new - 8))⟩ := by
    unfold ClientState.leave replaced
    simp [isNew, apart]
  have nextHold := given.transfer.allHold middleHold
  rw [isNext] at nextHold
  have nextLive : LivePointer ⟨final, replaced state.ledger slot ptr (owner (new - 8))⟩ slot new :=
    ⟨owner (new - 8), by simp [replaced], isNew⟩
  have newSize := taken.size_le
  have newKept : SameBlock final.memory after.memory new := keeps slot new apart newLive
  refine ⟨final, isFreed, nextHold, nextLive, nextHold.tag_of_live nextLive, ?_, ?_, ?_, ?_, ?_⟩
  · have sameSize := newKept.blockSize_eq (by omega)
    show max size 1 + 9 ≤ blockSize final.memory (new - 8)
    omega
  · intro i below
    rw [← copied i below]
    exact newKept (new + i) (by omega) (by omega)
  · intro _ other
    exact replaced_released allHold live (by rw [isNew]; exact apart) other
  · intro other kept different old
    exact replaced_live different (by rw [isNew]; exact old)
  · intro other kept different otherLive
    have bounds := allHold.blockSize_bounds otherLive
    exact (keeps other kept different (otherLive.entered after slot (owner (new - 8)))).trans
      (taken.sameBlock allHold otherLive) (by omega)

end Replace

/-! ## `tuya_mem_heap_realloc` -/

/-- `tuya_mem_heap_realloc` through the handle of the pointer's heap fails and
changes nothing, or returns a block that meets the contract. -/
def ReallocMeets (state : ClientState) (slot : Slot) (ptr : Nat) (size : UInt32) : Prop :=
  ∃ new after, tuyaMemHeapRealloc state.system (some slot) ptr size = some (new, after) ∧
    (new = 0 ∧ state.reallocated (some slot) ptr size new after = state ∨
      new ≠ 0 ∧ Resized state (state.reallocated (some slot) ptr size new after) slot ptr
        size.toNat new)

section Realloc

variable {state : ClientState} {slot : Slot} {ptr : Nat}

theorem resize_live {after : HeapSystem} {requested : Nat} {other : Slot} {kept : Nat} :
    LivePointer (state.resize after ptr requested) other kept ↔ LivePointer state other kept := by
  have samePointer : ∀ allocation : Allocation,
      (if allocation.pointer = ptr then (⟨ptr, requested, none⟩ : Allocation)
        else allocation).pointer = allocation.pointer := by
    intro allocation
    by_cases isPtr : allocation.pointer = ptr
    · rw [if_pos isPtr, isPtr]
    · rw [if_neg isPtr]
  unfold LivePointer ClientState.resize
  simp only [List.mem_map, exists_exists_and_eq_and, samePointer]

/-- A block that is large enough is kept as it is. -/
theorem AllHold.kept_resized (allHold : AllHold state) (live : LivePointer state slot ptr)
    {size : Nat} (enough : max size 1 + 9 ≤ blockSize state.system.memory (ptr - 8))
    (requested : Nat) :
    Resized state (state.resize state.system ptr requested) slot ptr size ptr where
  live := resize_live.mpr live
  inUse := allHold.tag_of_live live
  usable := enough
  contents := fun _ _ => rfl
  released := fun different => absurd rfl different
  othersLive := fun _ _ _ _ => resize_live
  othersKept := fun _ _ _ _ _ _ _ => rfl

theorem AllHold.live_ge (allHold : AllHold state) (live : LivePointer state slot ptr) :
    8 ≤ ptr := by
  obtain ⟨-, block, -, -, rfl, -⟩ := allHold.block live
  omega

theorem AllHold.live_ne_zero (allHold : AllHold state) (live : LivePointer state slot ptr) :
    ptr ≠ 0 := by
  have above := allHold.live_ge live
  omega

/-- For the largest size the block is kept, and it is too small. -/
theorem AllHold.realloc_last (allHold : AllHold state) (live : LivePointer state slot ptr)
    {size : UInt32} (isLast : size.toNat = 2 ^ 32 - 1) : ¬ ReallocMeets state slot ptr size := by
  have bounds := allHold.blockSize_bounds live
  have isRealloc := allHold.realloc_eq live (some slot) size
  rw [reallocBlock_last isLast, if_pos (by omega)] at isRealloc
  rintro ⟨new, after, isResult, isNull | ⟨-, resized⟩⟩
  · rw [isRealloc] at isResult
    have isPtr : ptr = new := congrArg Prod.fst (Option.some.inj isResult)
    exact allHold.live_ne_zero live (isPtr.trans isNull.1)
  · rw [isRealloc] at isResult
    have isPtr : ptr = new := congrArg Prod.fst (Option.some.inj isResult)
    have isSame : state.system = after := congrArg Prod.snd (Option.some.inj isResult)
    subst isPtr isSame
    have usable := resized.usable
    unfold ClientState.reallocated at usable
    rw [if_neg (allHold.live_ne_zero live), if_neg (allHold.live_ne_zero live), if_pos rfl]
      at usable
    have short : max size.toNat 1 + 9 ≤ blockSize state.system.memory (ptr - 8) := usable
    omega

/-- The block is moved: a new one is taken, filled and the old one freed. -/
theorem AllHold.realloc_moved (allHold : AllHold state) (live : LivePointer state slot ptr)
    {size : UInt32} (short : blockSize state.system.memory (ptr - 8) < reallocBlock size) {new : Nat}
    {after : HeapSystem}
    (isBlock : tuyaMemHeapMalloc state.system (some slot) (reallocSize size) = some (new, after))
    (taken : Taken state slot (chunkSize (reallocSize size).toNat) (plainOwner size.toNat) new
      after) : ReallocMeets state slot ptr size := by
  have sizes := allHold.blockSize_bounds live
  have nonzero := taken.ptr_ne_zero
  have apart := taken.ne_live allHold live
  have chunkIs := chunkSize_eq (show size.toNat ≤ 2 ^ 40 by have := size.toNat_lt; omega)
  have oldBytes := taken.sameBlock allHold live
  obtain ⟨shorter, filled, moves⟩ := allHold.realloc_taken live short isBlock taken
  obtain ⟨final, isFreed, -, resized⟩ := allHold.replace_resized live (fun _ => rfl) filled
    (show max size.toNat 1 + 9 ≤ chunkSize size.toNat by omega) (by
      intro i below
      dsimp only [copied]
      rw [writeBytes_inside (by omega) (by omega), Nat.add_sub_cancel_left]
      exact oldBytes (ptr + i) (by omega) (by omega))
  simp only [tuyaMemHeapFree, isFreed, Option.map_some] at moves
  refine ⟨new, final, moves, Or.inr ⟨nonzero, ?_⟩⟩
  have isEntry : plainOwner size.toNat (new - 8) = ⟨new, size.toNat, none⟩ := by
    obtain ⟨layout, segment, layout', rfl, -⟩ := taken
    rfl
  have isNext : state.reallocated (some slot) ptr size new final =
      ⟨final, replaced state.ledger slot ptr (plainOwner size.toNat (new - 8))⟩ := by
    unfold ClientState.reallocated
    rw [if_neg nonzero, if_neg (allHold.live_ne_zero live), if_neg apart, isEntry]
    unfold ClientState.enter
    rw [if_neg nonzero]
    simp [home, freeTarget, ClientState.leave, replaced]
  rw [isNext]
  exact resized

theorem AllHold.reallocMeets_iff (allHold : AllHold state) (live : LivePointer state slot ptr)
    (size : UInt32) : ReallocMeets state slot ptr size ↔ size.toNat ≠ 2 ^ 32 - 1 := by
  constructor
  · intro meets isLast
    exact allHold.realloc_last live isLast meets
  · intro notLast
    have isRealloc := allHold.realloc_eq live (some slot) size
    have chunkIs := chunkSize_eq (show size.toNat ≤ 2 ^ 40 by have := size.toNat_lt; omega)
    by_cases large : reallocBlock size ≤ blockSize state.system.memory (ptr - 8)
    · rw [if_pos large] at isRealloc
      rw [reallocBlock_eq notLast] at large
      refine ⟨ptr, state.system, isRealloc, Or.inr ⟨allHold.live_ne_zero live, ?_⟩⟩
      unfold ClientState.reallocated
      rw [if_neg (allHold.live_ne_zero live), if_neg (allHold.live_ne_zero live), if_pos rfl]
      exact allHold.kept_resized live (by omega) _
    · rw [if_neg large] at isRealloc
      have enough : size.toNat ≤ (reallocSize size).toNat := by
        rw [reallocSize_toNat]
        omega
      rcases allHold.malloc_cases (some slot) (reallocSize size) enough with
        ⟨-, isNull⟩ | ⟨-, taker, new, after, through, isBlock, taken⟩
      · simp only [isNull, Option.bind_some, if_true] at isRealloc
        exact ⟨0, state.system, isRealloc, Or.inl ⟨rfl, rfl⟩⟩
      · have isTaker := through.eq_of_some
        subst isTaker
        exact allHold.realloc_moved live (Nat.lt_of_not_le large) isBlock taken

end Realloc

/-- In every state that clients reach, a realloc of a live pointer through the
handle of its heap meets its contract exactly for the sizes below the largest
`unsigned int`. -/
theorem realloc_correct_iff_not_last (memory : Memory) {calls : List Call}
    (legal : EveryStep step LegalCall ⟨HeapSystem.initial memory, fun _ => []⟩ calls)
    (roomy : EveryStep step Roomy ⟨HeapSystem.initial memory, fun _ => []⟩ calls) :
    ∃ final, run step ⟨HeapSystem.initial memory, fun _ => []⟩ calls = some final ∧
      ∀ slot ptr (size : UInt32), LivePointer final slot ptr →
        (ReallocMeets final slot ptr size ↔ size.toNat ≠ 2 ^ 32 - 1) := by
  obtain ⟨final, ran, allHold⟩ := run_allHold (allHold_initial memory) legal roomy
  exact ⟨final, ran, fun slot ptr size live => allHold.reallocMeets_iff live size⟩

/-- A heap with one live pointer, 4344, in a block of 16 bytes. -/
def oneSmallBlock : List Call := [.create 4096 256, .malloc (some 0) 1]

theorem realloc_correct_small_block :
    ∃ final, run step ⟨HeapSystem.initial fun _ => 0, fun _ => []⟩ oneSmallBlock = some final ∧
      ∀ slot ptr (size : UInt32), LivePointer final slot ptr →
        (ReallocMeets final slot ptr size ↔ size.toNat ≠ 2 ^ 32 - 1) :=
  realloc_correct_iff_not_last (fun _ => 0) (by decide +kernel) (by decide +kernel)

theorem oneSmallBlock_hold :
    ∃ final, run step ⟨HeapSystem.initial fun _ => 0, fun _ => []⟩ oneSmallBlock = some final ∧
      AllHold final ∧ LivePointer final 0 4344 ∧ blockSize final.system.memory 4336 = 16 := by
  obtain ⟨final, ran, allHold⟩ := run_allHold (allHold_initial fun _ => 0)
    (by decide +kernel : EveryStep step LegalCall _ oneSmallBlock) (by decide +kernel)
  have facts : (run step ⟨HeapSystem.initial fun _ => 0, fun _ => []⟩ oneSmallBlock).map
      (fun state => decide (LivePointer state 0 4344 ∧ blockSize state.system.memory 4336 = 16)) =
        some true := by
    decide +kernel
  rw [ran, Option.map_some, Option.some.injEq, decide_eq_true_eq] at facts
  exact ⟨final, ran, allHold, facts.1, facts.2⟩

/-- A request for 4294967295 bytes keeps the block of 16. -/
theorem realloc_keeps_small_block_for_last :
    ∃ final, run step ⟨HeapSystem.initial fun _ => 0, fun _ => []⟩ oneSmallBlock = some final ∧
      LivePointer final 0 4344 ∧ blockSize final.system.memory 4336 = 16 ∧
      tuyaMemHeapRealloc final.system (some 0) 4344 4294967295 = some (4344, final.system) ∧
      ¬ ReallocMeets final 0 4344 4294967295 := by
  obtain ⟨final, ran, allHold, live, isSize⟩ := oneSmallBlock_hold
  refine ⟨final, ran, live, isSize, ?_, allHold.realloc_last live (by decide)⟩
  rw [allHold.realloc_eq live, reallocBlock_last (by decide), if_pos]
  show 8 ≤ blockSize final.system.memory 4336
  omega

/-! ## `tuya_mem_heap_debug_realloc` -/

/-- The ledger after `tuya_mem_heap_debug_realloc` returned `new`. -/
def ClientState.debugReallocated (state : ClientState) (handle : Option Slot) (ptr : Nat)
    (size : UInt32) (filename : Nat) (line : Int) (new : Nat) (after : HeapSystem) : ClientState :=
  if new = 0 then { state with system := after }
  else
    (state.leave (freeTarget state.system handle ptr) after ptr).enter (home after handle new)
      after ⟨new, size.toNat, some ⟨filename, line⟩⟩

/-- The bytes read by the `memcpy` lie in the block of the old pointer; for the
null pointer there is none. -/
def ReadsOldBlock (state : ClientState) (ptr : Nat) (result : DebugRealloc) : Prop :=
  ∀ address, result.readStart ≤ address → address < result.readStart + result.readCount →
    ptr ≠ 0 ∧ ptr - 8 ≤ address ∧
      address < ptr - 8 + blockSize state.system.memory (ptr - 8)

/-- `tuya_mem_heap_debug_realloc` reads nothing outside the old block. For the
null pointer it does what `tuya_mem_heap_debug_malloc` does; for a live one it
fails and changes nothing, or returns a block that meets the contract. -/
def DebugReallocMeets (state : ClientState) (slot : Slot) (ptr : Nat) (size : UInt32)
    (filename : Nat) (line : Int) : Prop :=
  ∃ result, tuyaMemHeapDebugRealloc state.system (some slot) ptr size filename line = some result ∧
    ReadsOldBlock state ptr result ∧
    if ptr = 0 then
      tuyaMemHeapDebugMalloc state.system (some slot) size filename line =
        some (result.ptr, result.system)
    else
      let next := state.debugReallocated (some slot) ptr size filename line result.ptr
        result.system
      result.ptr = 0 ∧ next = state ∨
        result.ptr ≠ 0 ∧ Resized state next slot ptr size.toNat result.ptr

/-- The call finds no block, or copies no more than the old block holds after its
header. -/
def CopiesInside (state : ClientState) (slot : Slot) (ptr : Nat) (size : UInt32) : Prop :=
  ¬ Fits state.system slot (debugSize size.toNat) ∨
    if ptr = 0 then size.toNat = 0
    else size.toNat + memBlockHeadSize ≤ blockSize state.system.memory (ptr - 8)

section DebugRealloc

variable {state : ClientState} {slot : Slot} {ptr : Nat}

/-- `MEM_AllocateDebug` gives a block exactly when one fits. -/
theorem AllHold.memAllocateDebug_cases (allHold : AllHold state) (slot : Slot) (size : UInt32)
    (filename : Nat) (line : Int) :
    (¬ Fits state.system slot (debugSize size.toNat) ∧
        memAllocateDebug state.system slot size.toNat filename line = some (0, state.system)) ∨
      Fits state.system slot (debugSize size.toNat) ∧ ∃ ptr after,
        memAllocateDebug state.system slot size.toNat filename line = some (ptr, after) ∧
        Taken state slot (chunkSize (debugSize size.toNat))
          (debugOwner size.toNat filename line) ptr after := by
  have sizeIs := debugSize_eq (le_of_lt size.toNat_lt)
  have bound := size.toNat_lt
  have samePtr : ∀ result, memAllocate state.system slot (debugSize size.toNat) = some result →
      (memAllocateDebug state.system slot size.toNat filename line).map Prod.fst =
        some result.1 := by
    intro result isResult
    unfold memAllocateDebug
    rw [show add 64 (alignUp size.toNat) dbgLeakSize = debugSize size.toNat from rfl, isResult,
      Option.map_some]
    by_cases isNull : result.1 = 0
    · simp [isNull]
    · simp [isNull]
  rcases allHold.memAllocate_cases slot (show debugSize size.toNat ≤ 2 ^ 40 by omega)
      (le_refl (debugSize size.toNat)) with ⟨refuses, isNull⟩ | ⟨fits, ptr, after, isBlock, plain⟩
  · left
    refine ⟨refuses, ?_⟩
    unfold memAllocateDebug
    rw [show add 64 (alignUp size.toNat) dbgLeakSize = debugSize size.toNat from rfl, isNull]
    rfl
  · right
    refine ⟨fits, ?_⟩
    have isPtr := samePtr _ isBlock
    rcases allHold.debugMalloc_cases (some slot) size filename line with
      isNull | ⟨taker, new, debugAfter, through, isDebug, taken⟩
    · rw [show tuyaMemHeapDebugMalloc state.system (some slot) size filename line =
        memAllocateDebug state.system slot size.toNat filename line from rfl] at isNull
      rw [isNull, Option.map_some, Option.some.injEq] at isPtr
      exact absurd isPtr.symm plain.ptr_ne_zero
    · have isTaker := through.eq_of_some
      subst isTaker
      exact ⟨new, debugAfter, isDebug, taken⟩

/-- A live pointer whose request finds a block: the result meets the contract
except for what it reads. -/
theorem AllHold.debugRealloc_moved (allHold : AllHold state) (live : LivePointer state slot ptr)
    {size : UInt32} {filename : Nat} {line : Int} {new : Nat} {after : HeapSystem}
    (isBlock : memAllocateDebug state.system slot size.toNat filename line = some (new, after))
    (taken : Taken state slot (chunkSize (debugSize size.toNat))
      (debugOwner size.toNat filename line) new after) :
    ∃ final,
      tuyaMemHeapDebugRealloc state.system (some slot) ptr size filename line =
        some ⟨new, final, ptr, size.toNat⟩ ∧
      Resized state (state.debugReallocated (some slot) ptr size filename line new final) slot ptr
        size.toNat new := by
  have bound := size.toNat_lt
  have sizes := allHold.blockSize_bounds live
  have sizeIs := debugSize_eq (le_of_lt bound)
  have chunkIs := chunkSize_eq (show debugSize size.toNat ≤ 2 ^ 40 by omega)
  have nonzero := taken.ptr_ne_zero
  have oldBytes := taken.sameBlock allHold live
  have filled := taken.filled (fun i => after.memory (ptr + i))
    (show size.toNat + 9 ≤ chunkSize (debugSize size.toNat) by omega)
  obtain ⟨final, isFreed, -, resized⟩ := allHold.replace_resized live (fun _ => rfl) filled
    (show max size.toNat 1 + 9 ≤ chunkSize (debugSize size.toNat) by omega) (by
      intro i below
      dsimp only
      rw [writeBytes_inside (by omega) (by omega), Nat.add_sub_cancel_left]
      exact oldBytes (ptr + i) (by omega) (by omega))
  refine ⟨final, ?_, ?_⟩
  · simp only [tuyaMemHeapDebugRealloc, tuyaMemHeapDebugMalloc, isBlock, Option.bind_some,
      if_neg nonzero, tuyaMemHeapFree, isFreed, Option.map_some]
  · have isEntry : debugOwner size.toNat filename line (new - 8) =
        ⟨new, size.toNat, some ⟨filename, line⟩⟩ := by
      obtain ⟨layout, segment, layout', rfl, -⟩ := taken
      rfl
    have isNext : state.debugReallocated (some slot) ptr size filename line new final =
        ⟨final, replaced state.ledger slot ptr (debugOwner size.toNat filename line (new - 8))⟩ := by
      unfold ClientState.debugReallocated
      rw [if_neg nonzero, isEntry]
      unfold ClientState.enter
      rw [if_neg nonzero]
      simp [home, freeTarget, ClientState.leave, replaced]
    rw [isNext]
    exact resized

/-- A request that finds no block. -/
theorem AllHold.debugRealloc_refused {size : UInt32} {filename : Nat} {line : Int}
    (isNull : memAllocateDebug state.system slot size.toNat filename line =
      some (0, state.system)) : DebugReallocMeets state slot ptr size filename line := by
  refine ⟨⟨0, state.system, ptr, 0⟩, ?_, ?_, ?_⟩
  · simp only [tuyaMemHeapDebugRealloc, tuyaMemHeapDebugMalloc, isNull, Option.bind_some, if_true]
  · intro address lower upper
    dsimp only at lower upper
    omega
  · by_cases isZero : ptr = 0
    · rw [if_pos isZero]
      exact isNull
    · rw [if_neg isZero]
      exact Or.inl ⟨rfl, rfl⟩

/-- A null pointer whose request finds a block. -/
theorem debugRealloc_null {size : UInt32} {filename : Nat} {line : Int} {new : Nat}
    {after : HeapSystem} (nonzero : new ≠ 0)
    (isBlock : memAllocateDebug state.system slot size.toNat filename line = some (new, after)) :
    DebugReallocMeets state slot 0 size filename line ↔ size.toNat = 0 := by
  have isResult : tuyaMemHeapDebugRealloc state.system (some slot) 0 size filename line =
      some ⟨new, { after with
        memory := writeBytes after.memory new size.toNat fun i => after.memory (0 + i) }, 0,
        size.toNat⟩ := by
    simp only [tuyaMemHeapDebugRealloc, tuyaMemHeapDebugMalloc, isBlock, Option.bind_some,
      if_neg nonzero, tuyaMemHeapFree, memDeallocate, if_true, Option.map_some]
  constructor
  · rintro ⟨result, isOther, reads, -⟩
    rw [isResult, Option.some.injEq] at isOther
    subst isOther
    by_contra positive
    exact (reads 0 (le_refl 0) (by dsimp only; omega)).1 rfl
  · intro isEmpty
    refine ⟨_, isResult, ?_, ?_⟩
    · intro address lower upper
      dsimp only at lower upper
      omega
    · rw [if_pos rfl]
      have unchanged : writeBytes after.memory new size.toNat (fun i => after.memory (0 + i)) =
          after.memory := by
        funext address
        exact writeBytes_outside (by omega)
      rw [unchanged]
      exact isBlock

theorem AllHold.debugReallocMeets_iff (allHold : AllHold state)
    (known : ptr = 0 ∨ LivePointer state slot ptr) (size : UInt32) (filename : Nat) (line : Int) :
    DebugReallocMeets state slot ptr size filename line ↔ CopiesInside state slot ptr size := by
  unfold CopiesInside
  rcases allHold.memAllocateDebug_cases slot size filename line with
    ⟨refuses, isNull⟩ | ⟨fits, new, after, isBlock, taken⟩
  · exact iff_of_true (AllHold.debugRealloc_refused isNull) (Or.inl refuses)
  rcases known with isZero | live
  · subst isZero
    rw [debugRealloc_null taken.ptr_ne_zero isBlock, if_pos rfl]
    exact ⟨Or.inr, fun copies => copies.resolve_left fun refuses => refuses fits⟩
  · have ptrNonzero := allHold.live_ne_zero live
    have above := allHold.live_ge live
    have sizes := allHold.blockSize_bounds live
    obtain ⟨final, isResult, resized⟩ := allHold.debugRealloc_moved live isBlock taken
    rw [if_neg ptrNonzero]
    unfold memBlockHeadSize
    constructor
    · rintro ⟨result, isOther, reads, -⟩
      rw [isResult, Option.some.injEq] at isOther
      subst isOther
      right
      by_contra beyond
      have last := reads (ptr + (size.toNat - 1)) (by dsimp only; omega) (by dsimp only; omega)
      omega
    · intro copies
      have inside := copies.resolve_left fun refuses => refuses fits
      refine ⟨_, isResult, ?_, ?_⟩
      · intro address lower upper
        dsimp only at lower upper
        exact ⟨ptrNonzero, by omega, by omega⟩
      · rw [if_neg ptrNonzero]
        exact Or.inr ⟨taken.ptr_ne_zero, resized⟩

end DebugRealloc

/-- In every state that clients reach, the debug realloc of the null pointer or
of a live one meets the contract exactly when no block fits its request or its
copy stays inside the old block. -/
theorem debugRealloc_correct_iff_copies_inside (memory : Memory) {calls : List Call}
    (legal : EveryStep step LegalCall ⟨HeapSystem.initial memory, fun _ => []⟩ calls)
    (roomy : EveryStep step Roomy ⟨HeapSystem.initial memory, fun _ => []⟩ calls) :
    ∃ final, run step ⟨HeapSystem.initial memory, fun _ => []⟩ calls = some final ∧
      ∀ slot ptr (size : UInt32) filename line, ptr = 0 ∨ LivePointer final slot ptr →
        (DebugReallocMeets final slot ptr size filename line ↔
          CopiesInside final slot ptr size) := by
  obtain ⟨final, ran, allHold⟩ := run_allHold (allHold_initial memory) legal roomy
  exact ⟨final, ran, fun slot ptr size filename line known =>
    allHold.debugReallocMeets_iff known size filename line⟩

theorem debugRealloc_correct_small_block :
    ∃ final, run step ⟨HeapSystem.initial fun _ => 0, fun _ => []⟩ oneSmallBlock = some final ∧
      ∀ slot ptr (size : UInt32) filename line, ptr = 0 ∨ LivePointer final slot ptr →
        (DebugReallocMeets final slot ptr size filename line ↔
          CopiesInside final slot ptr size) :=
  debugRealloc_correct_iff_copies_inside (fun _ => 0) (by decide +kernel) (by decide +kernel)

/-- Growing a block of 16 bytes to 40 reads 40 bytes from its payload of 8, and
the null pointer is read as well. -/
theorem debugRealloc_reads_beyond_small_block :
    ∃ final, run step ⟨HeapSystem.initial fun _ => 0, fun _ => []⟩ oneSmallBlock = some final ∧
      LivePointer final 0 4344 ∧ blockSize final.system.memory 4336 = 16 ∧
      (tuyaMemHeapDebugRealloc final.system (some 0) 4344 40 0 1).map
        (fun result => (result.ptr, result.readStart, result.readCount)) = some (4256, 4344, 40) ∧
      (tuyaMemHeapDebugRealloc final.system (some 0) 0 40 0 1).map
        (fun result => (result.ptr, result.readStart, result.readCount)) = some (4256, 0, 40) ∧
      ¬ DebugReallocMeets final 0 4344 40 0 1 ∧ ¬ DebugReallocMeets final 0 0 40 0 1 := by
  obtain ⟨final, ran, allHold, live, isSize⟩ := oneSmallBlock_hold
  have facts : (run step ⟨HeapSystem.initial fun _ => 0, fun _ => []⟩ oneSmallBlock).map
      (fun state => decide (Fits state.system 0 (debugSize 40)) &&
        decide ((tuyaMemHeapDebugRealloc state.system (some 0) 4344 40 0 1).map
          (fun result => (result.ptr, result.readStart, result.readCount)) =
            some (4256, 4344, 40)) &&
        decide ((tuyaMemHeapDebugRealloc state.system (some 0) 0 40 0 1).map
          (fun result => (result.ptr, result.readStart, result.readCount)) =
            some (4256, 0, 40))) = some true := by
    decide +kernel
  rw [ran, Option.map_some, Option.some.injEq, Bool.and_eq_true, Bool.and_eq_true,
    decide_eq_true_eq, decide_eq_true_eq, decide_eq_true_eq] at facts
  obtain ⟨⟨fits, grown⟩, fromNull⟩ := facts
  refine ⟨final, ran, live, isSize, grown, fromNull, ?_, ?_⟩
  · rw [allHold.debugReallocMeets_iff (Or.inr live)]
    rintro (refuses | inside)
    · exact refuses fits
    · have small : 40 + 8 ≤ blockSize final.system.memory 4336 := inside
      omega
  · rw [allHold.debugReallocMeets_iff (Or.inl rfl)]
    rintro (refuses | isEmpty)
    · exact refuses fits
    · rw [if_pos rfl] at isEmpty
      exact absurd isEmpty (by decide)

end TuyaAdapter.TuyaMemHeap
