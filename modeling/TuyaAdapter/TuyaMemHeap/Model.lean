import TuyaAdapter.Foundation.ByteMemory
import TuyaAdapter.Foundation.MachineWord
import Mathlib.Data.List.FinRange

/-!
Contract: the heap manager of `tuya_mem_heap.c` on an LP64, little-endian
target, as functions on the byte memory and on the module's static state.

Pointers and `unsigned long` values are natural numbers below `2 ^ 64` with
wrapping arithmetic, `unsigned int` parameters are `UInt32`, and the null
pointer is `0`. A heap handle is `none` for `NULL` or the slot of
`mem_heap_list` it points to. Block headers, free-list links, tag bytes and
leak records live in the byte memory that is handed out, as in the source.

A result `none` means that a loop of the source never ends: `loopBound` exceeds
the number of states such a loop can be in, so a walk that has not stopped by
then repeats itself. Assertions are compiled out (`MEM_DEBUG_ASSERT_ON` is 0),
as is filling freed memory (`MEM_DEBUG_FREE_FILL` is 0). The text passed to
`dbg_output` is left out, except for the leak records that `MEM_HeapStatus`
prints.
-/

namespace TuyaAdapter.TuyaMemHeap

open Foundation Foundation.ByteMemory
open Foundation.MachineWord (add sub)

/-! ## Constants and static state -/

abbrev memHeapListNum : Nat := 4
def memAlignNum : Nat := 8
def memBlockMinSize : Nat := 24
def fitFindDepth : Nat := 3
/-- `sizeof (MEM_HeapBlock_t) - sizeof (unsigned long)`. -/
def memBlockHeadSize : Nat := 8
def memHeapMinSize : Nat := memBlockMinSize + memBlockHeadSize
def memBlockStatUse : UInt8 := 0x55
def memBlockStatFree : UInt8 := 0xaa
def memDbgLeakMagic : Nat := 0x13572468
/-- `sizeof (MEM_DbgLeak_t)`: four eight-byte fields. -/
def dbgLeakSize : Nat := 32

/-- More iterations than a loop over the block list has states. -/
def loopBound : Nat := 2 ^ 128

instance : NeZero memHeapListNum := ⟨by decide⟩

/-- A slot of `mem_heap_list`. -/
abbrev Slot := Fin memHeapListNum

/-- `MEM_Heap_t`. -/
structure MemHeap where
  freeList : Nat
  base : Nat
  size : Nat
  free : Nat
  freeWatermark : Nat
deriving DecidableEq, Repr

/-- The zeroed slot that static storage starts with and deletion restores. -/
def MemHeap.zeroed : MemHeap := ⟨0, 0, 0, 0, 0⟩

/-- The byte memory and the file-static variables of `tuya_mem_heap.c`. -/
structure HeapSystem where
  memory : Memory
  heapList : Slot → MemHeap
  heapFreeSize : Nat
  heapFreeSizeWatermark : Nat

/-- The static variables before the first call. -/
def HeapSystem.initial (memory : Memory) : HeapSystem := ⟨memory, fun _ => MemHeap.zeroed, 0, 0⟩

/-- Replace one slot of `mem_heap_list`. -/
def HeapSystem.setHeap (system : HeapSystem) (slot : Slot) (heap : MemHeap) : HeapSystem :=
  { system with heapList := Function.update system.heapList slot heap }

/-- `ALIGN_UP`. -/
def alignUp (x : Nat) : Nat :=
  let sum := add 64 x (memAlignNum - 1)
  sum - sum % memAlignNum

/-- `ALIGN_DOWN`. -/
def alignDown (x : Nat) : Nat := x - x % memAlignNum

/-- `block->size`. -/
def blockSize (memory : Memory) (block : Nat) : Nat := readWord memory block

/-- `block->next`. -/
def blockNext (memory : Memory) (block : Nat) : Nat := readWord memory (block + 8)

/-- `MEM_DOG_ADDR`: the tag byte is the last byte of the block. -/
def memDogAddr (memory : Memory) (block : Nat) : Nat :=
  sub 64 (add 64 block (blockSize memory block)) 1

/-- `MEM_LEAK_DBG_ADDR`. -/
def memLeakDbgAddr (memory : Memory) (block : Nat) : Nat :=
  sub 64 (sub 64 (add 64 block (blockSize memory block)) dbgLeakSize) memAlignNum

/-! ## Creation and deletion -/

/-- `mem_heap_init`: the return code and the new state. -/
def memHeapInit (system : HeapSystem) (slot : Slot) (ptr size : Nat) : Int × HeapSystem :=
  let heap := { system.heapList slot with base := ptr, size := size }
  let start := alignUp ptr
  let usable := alignDown (sub 64 size (sub 64 start ptr))
  if usable < memHeapMinSize then
    (-1, system.setHeap slot heap)
  else
    let memory := writeWord system.memory (start + 8) 0
    let memory := writeWord memory start usable
    let total := add 64 system.heapFreeSize usable
    let memory := writeByte memory (memDogAddr memory start) memBlockStatFree
    (0, { system.setHeap slot
            { heap with freeList := start, free := usable, freeWatermark := usable } with
          memory := memory, heapFreeSize := total, heapFreeSizeWatermark := total })

/-- The search for an unused slot in `MEM_HeapCreate`. -/
def firstUnused (system : HeapSystem) : Option Slot :=
  (List.finRange memHeapListNum).find? fun slot => (system.heapList slot).size = 0

/-- `MEM_HeapCreate`: `none` is the null handle. -/
def memHeapCreate (system : HeapSystem) (ptr size : Nat) : Option Slot × HeapSystem :=
  if ptr = 0 ∨ size = 0 then (none, system)
  else
    match firstUnused system with
    | none => (none, system)
    | some slot =>
        let (code, after) := memHeapInit system slot ptr size
        if code ≠ 0 then (none, after.setHeap slot { after.heapList slot with size := 0 })
        else (some slot, after)

/-- `MEM_HeapDelete`. -/
def memHeapDelete (system : HeapSystem) : Option Slot → HeapSystem
  | none => system
  | some slot => system.setHeap slot MemHeap.zeroed

/-! ## Allocation -/

/-- The inner loop of `mem_chunk_get`: from a block that fits, move on to later
blocks that fit and are no larger, at most `FIT_FIND_DEPTH` times. The result is
the predecessor and the block. -/
def refineFit (memory : Memory) (size : Nat) : Nat → Nat → Nat → Nat → Nat → Nat →
    Option (Nat × Nat)
  | 0, _, _, _, _, _ => none
  | fuel + 1, preBak, thisBak, pre, this, findNum =>
      if thisBak = 0 then some (pre, this)
      else
        let better := size ≤ blockSize memory thisBak ∧
          blockSize memory thisBak ≤ blockSize memory this
        let pre := if better then preBak else pre
        let this := if better then thisBak else this
        let findNum := if better then findNum + 1 else findNum
        if fitFindDepth ≤ findNum then some (pre, this)
        else refineFit memory size fuel thisBak (blockNext memory thisBak) pre this findNum

/-- The outer loop of `mem_chunk_get` up to the choice of the block. -/
def findFit (memory : Memory) (size : Nat) : Nat → Nat → Nat → Option (Option (Nat × Nat))
  | 0, _, _ => none
  | fuel + 1, pre, this =>
      if this = 0 then some none
      else if size ≤ blockSize memory this then
        (refineFit memory size loopBound this (blockNext memory this) pre this 0).map some
      else findFit memory size fuel this (blockNext memory this)

/-- `mem_chunk_get` once the block is chosen: split its tail off when the rest
is big enough, else unlink it. The result is the block, the memory and the new
head of the free list. -/
def takeChunk (memory : Memory) (freeList size pre this : Nat) : Nat × Memory × Nat :=
  if memHeapMinSize ≤ sub 64 (blockSize memory this) size then
    let memory := writeWord memory this (sub 64 (blockSize memory this) size)
    let memory := writeByte memory (memDogAddr memory this) memBlockStatFree
    let block := add 64 this (blockSize memory this)
    let memory := writeWord memory block size
    let memory := writeByte memory (memDogAddr memory block) memBlockStatUse
    (block, memory, freeList)
  else
    let linked :=
      if pre ≠ 0 then (writeWord memory (pre + 8) (blockNext memory this), freeList)
      else (memory, blockNext memory this)
    (this, writeByte linked.1 (memDogAddr linked.1 this) memBlockStatUse, linked.2)

/-- `mem_chunk_get`: the block (`0` when none fits), the memory and the new head
of the free list. -/
def memChunkGet (memory : Memory) (freeList size : Nat) : Option (Nat × Memory × Nat) :=
  (findFit memory size loopBound 0 freeList).map fun
    | none => (0, memory, freeList)
    | some (pre, this) => takeChunk memory freeList size pre this

/-- The block size `MEM_Allocate` asks for. -/
def allocationSize (size : Nat) : Nat :=
  add 64 (alignUp (add 64 size 1)) memBlockHeadSize

/-- `MEM_Allocate`: the pointer (`0` for `NULL`) and the new state. -/
def memAllocate (system : HeapSystem) (slot : Slot) (size : Nat) : Option (Nat × HeapSystem) :=
  if size = 0 then some (0, system)
  else
    let size := if size < 4 then 4 else size
    let newSize := allocationSize size
    if newSize < size then some (0, system)
    else
      (memChunkGet system.memory (system.heapList slot).freeList newSize).map
        fun (block, memory, freeList) =>
          let heap := { system.heapList slot with freeList := freeList }
          if block = 0 then (0, { system.setHeap slot heap with memory := memory })
          else
            let free := sub 64 heap.free (blockSize memory block)
            let watermark := if free < heap.freeWatermark then free else heap.freeWatermark
            let total := sub 64 system.heapFreeSize (blockSize memory block)
            let totalWatermark :=
              if total < system.heapFreeSizeWatermark then total
              else system.heapFreeSizeWatermark
            (add 64 block memBlockHeadSize,
              { system.setHeap slot { heap with free := free, freeWatermark := watermark } with
                memory := memory, heapFreeSize := total,
                heapFreeSizeWatermark := totalWatermark })

/-- An `int` stored in a `long` field. -/
def wordOfInt (value : Int) : Nat := (value % 2 ^ 64).toNat

/-- The four stores of `MEM_AllocateDebug` into the leak record. -/
def writeLeak (memory : Memory) (leak filename size : Nat) (line : Int) : Memory :=
  let memory := writeWord memory leak filename
  let memory := writeWord memory (leak + 8) (wordOfInt line)
  let memory := writeWord memory (leak + 16) size
  writeWord memory (leak + 24) memDbgLeakMagic

/-- `MEM_AllocateDebug`. -/
def memAllocateDebug (system : HeapSystem) (slot : Slot) (size filename : Nat) (line : Int) :
    Option (Nat × HeapSystem) :=
  (memAllocate system slot (add 64 (alignUp size) dbgLeakSize)).map fun (ptr, after) =>
    if ptr = 0 then (0, after)
    else
      let leak := memLeakDbgAddr after.memory (sub 64 ptr memBlockHeadSize)
      (ptr, { after with memory := writeLeak after.memory leak filename size line })

/-! ## Deallocation -/

/-- The search of `MEM_Deallocate` for the neighbours of the freed block on the
free list. -/
def findPlace (memory : Memory) (block : Nat) : Nat → Nat → Nat → Option (Nat × Nat)
  | 0, _, _ => none
  | fuel + 1, pre, next =>
      if next ≠ 0 ∧ next < block then findPlace memory block fuel next (blockNext memory next)
      else some (pre, next)

/-- Put the freed block on the free list, or add it to its predecessor when they
touch. The result is the block that now holds it, the memory and the new head. -/
def linkFree (memory : Memory) (freeList block pre next : Nat) : Nat × Memory × Nat :=
  let memory := writeWord memory (block + 8) next
  if pre = 0 then (block, memory, block)
  else if add 64 pre (blockSize memory pre) = block then
    (pre, writeWord memory pre (add 64 (blockSize memory pre) (blockSize memory block)), freeList)
  else (block, writeWord memory (pre + 8) block, freeList)

/-- Add the following free block to `pre` when they touch. -/
def mergeNext (memory : Memory) (pre next : Nat) : Memory :=
  if next ≠ 0 ∧ add 64 pre (blockSize memory pre) = next then
    let memory := writeWord memory pre (add 64 (blockSize memory pre) (blockSize memory next))
    writeWord memory (pre + 8) (blockNext memory next)
  else memory

/-- `MEM_Deallocate`. -/
def memDeallocate (system : HeapSystem) (slot : Slot) (ptr : Nat) : Option HeapSystem :=
  if ptr = 0 then some system
  else
    let block := sub 64 ptr memBlockHeadSize
    let dog := memDogAddr system.memory block
    if system.memory dog ≠ memBlockStatUse then some system
    else
      let memory := writeByte system.memory dog memBlockStatFree
      let heap := system.heapList slot
      let free := add 64 heap.free (blockSize memory block)
      let total := add 64 system.heapFreeSize (blockSize memory block)
      (findPlace memory block loopBound 0 heap.freeList).map fun (pre, next) =>
        let linked := linkFree memory heap.freeList block pre next
        let memory := mergeNext linked.2.1 linked.1 next
        { system.setHeap slot { heap with freeList := linked.2.2, free := free } with
          memory := memory, heapFreeSize := total }

/-! ## Diagnosis -/

/-- `MEM_HeapStatus_t`. -/
structure MemHeapStatus where
  size : Nat
  free : Nat
  freeLargest : Nat
  valid : Nat
  usedBlock : Nat
  freeBlock : Nat
deriving DecidableEq, Repr

/-- One line that `MEM_HeapStatus` prints for a block with a leak record. -/
structure LeakLine where
  filename : Nat
  line : Nat
  block : Nat
  size : Nat
deriving DecidableEq, Repr

/-- The local variables of the `MEM_HeapStatus` walk that change. -/
structure StatusWalk where
  addr : Nat
  freeBlockp : Nat
  status : MemHeapStatus
  leaks : List LeakLine

/-- The leak lines printed for a used block: at most one. The record may lie
before the block when that is small, so its fields are addressed modulo
`2 ^ 64`. -/
def leakLines (memory : Memory) (block : Nat) : List LeakLine :=
  let leak := memLeakDbgAddr memory block
  if readWord memory (add 64 leak 24) = memDbgLeakMagic then
    [⟨readWord memory leak, readWord memory (add 64 leak 8), block,
      readWord memory (add 64 leak 16)⟩]
  else []

/-- The `while` loop of `MEM_HeapStatus`: the `result` code and the locals. -/
def statusLoop (memory : Memory) (topAddr : Nat) : Nat → StatusWalk → Option (Nat × StatusWalk)
  | 0, _ => none
  | fuel + 1, walk =>
      if walk.addr < topAddr then
        let this := walk.addr
        let tag := memory (memDogAddr memory this)
        if tag = memBlockStatUse then
          if this = walk.freeBlockp then some (1, walk)
          else
            statusLoop memory topAddr fuel
              { walk with
                addr := add 64 this (blockSize memory this)
                leaks := walk.leaks ++ leakLines memory this
                status := { walk.status with usedBlock := add 64 walk.status.usedBlock 1 } }
        else if tag = memBlockStatFree then
          if this ≠ walk.freeBlockp then some (2, walk)
          else
            let thisSize := sub 64 (sub 64 (blockSize memory this) memBlockHeadSize) 1
            statusLoop memory topAddr fuel
              { walk with
                addr := add 64 this (blockSize memory this)
                freeBlockp := blockNext memory walk.freeBlockp
                status :=
                  { walk.status with
                    free := add 64 walk.status.free thisSize
                    freeLargest :=
                      if walk.status.freeLargest < thisSize then thisSize
                      else walk.status.freeLargest
                    freeBlock := add 64 walk.status.freeBlock 1 } }
        else some (3, walk)
      else some (0, walk)

/-- `MEM_HeapStatus`: the status and the leak lines printed. -/
def memHeapStatus (memory : Memory) (heap : MemHeap) : Option (MemHeapStatus × List LeakLine) :=
  let topAddr := alignDown (add 64 heap.base heap.size)
  (statusLoop memory topAddr loopBound
      ⟨alignUp heap.base, heap.freeList, ⟨heap.size, 0, 0, 0, 0, 0⟩, []⟩).map
    fun (result, walk) =>
      if result = 0 ∧ walk.addr = topAddr ∧ walk.freeBlockp = 0 then
        ({ walk.status with valid := 1 }, walk.leaks)
      else (walk.status, walk.leaks)

/-! ## Public interface -/

/-- `tuya_mem_heap_create`: `some` handle with return code 0, `none` with -1. -/
def tuyaMemHeapCreate (system : HeapSystem) (startAddr : Nat) (size : UInt32) :
    Option Slot × HeapSystem :=
  memHeapCreate system startAddr size.toNat

/-- `tuya_mem_heap_delete`. -/
def tuyaMemHeapDelete (system : HeapSystem) (handle : Option Slot) : HeapSystem :=
  memHeapDelete system handle

/-- The loop over `mem_heap_list` shared by `tuya_mem_heap_malloc` and
`tuya_mem_heap_debug_malloc` when the handle is `NULL`. An unused slot ends it.
The comparison with `size + MEM_BLOCK_MIN_SIZE` is made in `unsigned int`. -/
def allocateScan (allocate : HeapSystem → Slot → Option (Nat × HeapSystem)) (size : UInt32) :
    HeapSystem → List Slot → Option (Nat × HeapSystem)
  | system, [] => some (0, system)
  | system, slot :: rest =>
      if 0 < (system.heapList slot).size then
        if (size + UInt32.ofNat memBlockMinSize).toNat < (system.heapList slot).free then
          (allocate system slot).bind fun (ptr, after) =>
            if ptr ≠ 0 then some (ptr, after) else allocateScan allocate size after rest
        else allocateScan allocate size system rest
      else some (0, system)

/-- `tuya_mem_heap_malloc`. -/
def tuyaMemHeapMalloc (system : HeapSystem) (handle : Option Slot) (size : UInt32) :
    Option (Nat × HeapSystem) :=
  match handle with
  | some slot => memAllocate system slot size.toNat
  | none =>
      allocateScan (fun system slot => memAllocate system slot size.toNat) size system
        (List.finRange memHeapListNum)

/-- `tuya_mem_heap_debug_malloc`. -/
def tuyaMemHeapDebugMalloc (system : HeapSystem) (handle : Option Slot) (size : UInt32)
    (filename : Nat) (line : Int) : Option (Nat × HeapSystem) :=
  match handle with
  | some slot => memAllocateDebug system slot size.toNat filename line
  | none =>
      allocateScan (fun system slot => memAllocateDebug system slot size.toNat filename line)
        size system (List.finRange memHeapListNum)

/-- `memset (ptr, 0, size)` on an allocation that succeeded. -/
def clearAllocation (size : UInt32) : Nat × HeapSystem → Nat × HeapSystem
  | (ptr, system) =>
      if ptr = 0 then (0, system)
      else (ptr, { system with memory := writeBytes system.memory ptr size.toNat fun _ => 0 })

/-- `tuya_mem_heap_calloc`. -/
def tuyaMemHeapCalloc (system : HeapSystem) (handle : Option Slot) (size : UInt32) :
    Option (Nat × HeapSystem) :=
  (tuyaMemHeapMalloc system handle size).map (clearAllocation size)

/-- The loop of `tuya_mem_heap_free` over `mem_heap_list` when the handle is
`NULL`. -/
def freeScan (ptr : Nat) : HeapSystem → List Slot → Option HeapSystem
  | system, [] => some system
  | system, slot :: rest =>
      let heap := system.heapList slot
      if 0 < heap.size then
        if heap.base < ptr ∧ ptr < heap.base + heap.size then memDeallocate system slot ptr
        else freeScan ptr system rest
      else some system

/-- `tuya_mem_heap_free`. -/
def tuyaMemHeapFree (system : HeapSystem) (handle : Option Slot) (ptr : Nat) :
    Option HeapSystem :=
  match handle with
  | some slot => memDeallocate system slot ptr
  | none => freeScan ptr system (List.finRange memHeapListNum)

/-- `tuya_mem_heap_realloc`. The size test computes `size + 1` in
`unsigned int`; the copy takes the whole old payload, tag byte included. -/
def tuyaMemHeapRealloc (system : HeapSystem) (handle : Option Slot) (ptr : Nat)
    (size : UInt32) : Option (Nat × HeapSystem) :=
  if ptr = 0 then tuyaMemHeapMalloc system handle size
  else
    let oldBlock := sub 64 ptr memBlockHeadSize
    if system.memory (memDogAddr system.memory oldBlock) ≠ memBlockStatUse then some (0, system)
    else
      let size := if size < 4 then 4 else size
      let newSize := add 64 (alignUp (size + 1).toNat) memBlockHeadSize
      if newSize ≤ blockSize system.memory oldBlock then some (ptr, system)
      else
        (tuyaMemHeapMalloc system handle size).bind fun (tmp, after) =>
          if tmp = 0 then some (0, after)
          else
            let count := sub 64 (blockSize after.memory oldBlock) memBlockHeadSize
            let memory := writeBytes after.memory tmp count fun i => after.memory (ptr + i)
            (tuyaMemHeapFree { after with memory := memory } handle ptr).map fun final =>
              (tmp, final)

/-- The outcome of `tuya_mem_heap_debug_realloc`: the pointer, the new state, and
the bytes its `memcpy` reads. -/
structure DebugRealloc where
  ptr : Nat
  system : HeapSystem
  readStart : Nat
  readCount : Nat

/-- `tuya_mem_heap_debug_realloc`. It copies as many bytes as the new block was
asked for, whatever the old block holds, and never keeps the old block. -/
def tuyaMemHeapDebugRealloc (system : HeapSystem) (handle : Option Slot) (ptr : Nat)
    (size : UInt32) (filename : Nat) (line : Int) : Option DebugRealloc :=
  (tuyaMemHeapDebugMalloc system handle size filename line).bind fun (tmp, after) =>
    if tmp = 0 then some ⟨0, after, ptr, 0⟩
    else
      let memory := writeBytes after.memory tmp size.toNat fun i => after.memory (ptr + i)
      (tuyaMemHeapFree { after with memory := memory } handle ptr).map fun final =>
        ⟨tmp, final, ptr, size.toNat⟩

/-- `tuya_mem_heap_available`, before the conversion to `int`. -/
def tuyaMemHeapAvailable (system : HeapSystem) : Option Slot → Nat
  | none => system.heapFreeSize
  | some slot => (system.heapList slot).free

end TuyaAdapter.TuyaMemHeap
