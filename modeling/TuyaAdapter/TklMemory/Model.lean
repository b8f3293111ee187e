import TuyaAdapter.TuyaMemHeap.ManyRuns

/-!
Contract: `tkl_memory.c` over the heap manager.

`SIZE_T` is `size_t`, 64 bits wide, and the heap manager takes `unsigned int`;
the conversion keeps the low 32 bits. The region that `__heap_init` gets from
the C library is part of a call, `0` when the library has none. Only
`tkl_system_malloc` creates the system heap on demand.
-/

namespace TuyaAdapter.TklMemory

open Foundation Foundation.ByteMemory
open TuyaMemHeap (HeapSystem Slot Allocation ClientState)

/-- `MAX_HEAP_SIZE`. -/
def maxHeapSize : UInt32 := 512 * 1024 * 1024

/-- The heap manager and `s_heap_handle`. -/
structure SystemMemory where
  heap : HeapSystem
  sHeapHandle : Option Slot

/-- `__heap_init`; a failed creation leaves the handle as it is. -/
def heapInit (memory : SystemMemory) (buf : Nat) : SystemMemory :=
  match TuyaMemHeap.tuyaMemHeapCreate memory.heap buf maxHeapSize with
  | (none, after) => { memory with heap := after }
  | (some slot, after) => ⟨after, some slot⟩

/-- The memory that `tkl_system_malloc` allocates from. -/
def ready (memory : SystemMemory) (buf : Nat) : SystemMemory :=
  if memory.sHeapHandle = none then heapInit memory buf else memory

def tklSystemMalloc (memory : SystemMemory) (size : UInt64) (buf : Nat) :
    Option (Nat × SystemMemory) :=
  let memory := ready memory buf
  (TuyaMemHeap.tuyaMemHeapMalloc memory.heap memory.sHeapHandle size.toUInt32).map
    fun (ptr, after) => (ptr, { memory with heap := after })

def tklSystemFree (memory : SystemMemory) (ptr : Nat) : Option SystemMemory :=
  if ptr ≠ 0 then
    (TuyaMemHeap.tuyaMemHeapFree memory.heap memory.sHeapHandle ptr).map fun after =>
      { memory with heap := after }
  else some memory

/-- The product is a `size_t`. -/
def tklSystemCalloc (memory : SystemMemory) (nitems size : UInt64) :
    Option (Nat × SystemMemory) :=
  (TuyaMemHeap.tuyaMemHeapCalloc memory.heap memory.sHeapHandle (nitems * size).toUInt32).map
    fun (ptr, after) => (ptr, { memory with heap := after })

def tklSystemRealloc (memory : SystemMemory) (ptr : Nat) (size : UInt64) :
    Option (Nat × SystemMemory) :=
  (TuyaMemHeap.tuyaMemHeapRealloc memory.heap memory.sHeapHandle ptr size.toUInt32).map
    fun (new, after) => (new, { memory with heap := after })

/-! ## Clients -/

/-- The memory together with the allocations its clients hold. -/
structure MemoryState where
  memory : SystemMemory
  ledger : Slot → List Allocation

/-- The state as the heap manager sees it. -/
def MemoryState.client (state : MemoryState) : ClientState := ⟨state.memory.heap, state.ledger⟩

/-- Before the first call. -/
def MemoryState.initial (memory : Memory) : MemoryState :=
  ⟨⟨HeapSystem.initial memory, none⟩, fun _ => []⟩

inductive MemoryCall where
  | malloc (size : UInt64) (buf : Nat)
  | calloc (nitems size : UInt64)
  | realloc (ptr : Nat) (size : UInt64)
  | free (ptr : Nat)
  /-- A client stores one byte. -/
  | store (address : Nat) (value : UInt8)

def step (state : MemoryState) : MemoryCall → Option MemoryState
  | .malloc size buf =>
      (tklSystemMalloc state.memory size buf).map fun (ptr, after) =>
        ⟨after, (state.client.enter (TuyaMemHeap.home after.heap after.sHeapHandle ptr) after.heap
          ⟨ptr, size.toUInt32.toNat, none⟩).ledger⟩
  | .calloc nitems size =>
      (tklSystemCalloc state.memory nitems size).map fun (ptr, after) =>
        ⟨after, (state.client.enter (TuyaMemHeap.home after.heap after.sHeapHandle ptr) after.heap
          ⟨ptr, (nitems * size).toUInt32.toNat, none⟩).ledger⟩
  | .realloc ptr size =>
      (tklSystemRealloc state.memory ptr size).map fun (new, after) =>
        ⟨after, (state.client.reallocated state.memory.sHeapHandle ptr size.toUInt32 new
          after.heap).ledger⟩
  | .free ptr =>
      (tklSystemFree state.memory ptr).map fun after =>
        ⟨after, (state.client.leave
          (TuyaMemHeap.freeTarget state.memory.heap state.memory.sHeapHandle ptr) after.heap
          ptr).ledger⟩
  | .store address value =>
      some { state with
        memory := { state.memory with
          heap := { state.memory.heap with
            memory := writeByte state.memory.heap.memory address value } } }

/-- The C library gives no region or one without a byte of a live heap, and
clients free and resize what they hold and store into the bytes they were
given. -/
def Legal (state : MemoryState) : MemoryCall → Prop
  | .malloc _ buf =>
      buf = 0 ∨ TuyaMemHeap.FreeRegion state.memory.heap buf maxHeapSize.toNat
  | .realloc ptr _ =>
      ptr = 0 ∨ TuyaMemHeap.OwnedThrough state.client state.memory.sHeapHandle ptr
  | .free ptr => ptr = 0 ∨ TuyaMemHeap.OwnedThrough state.client state.memory.sHeapHandle ptr
  | .store address _ => ∃ slot, TuyaMemHeap.RequestedByte state.client slot address
  | .calloc _ _ => True

instance (state : MemoryState) : ∀ call, Decidable (Legal state call)
  | .malloc _ buf => inferInstanceAs (Decidable
      (buf = 0 ∨ TuyaMemHeap.FreeRegion state.memory.heap buf maxHeapSize.toNat))
  | .realloc ptr _ => inferInstanceAs (Decidable
      (ptr = 0 ∨ TuyaMemHeap.OwnedThrough state.client state.memory.sHeapHandle ptr))
  | .free ptr => inferInstanceAs (Decidable
      (ptr = 0 ∨ TuyaMemHeap.OwnedThrough state.client state.memory.sHeapHandle ptr))
  | .store address _ => inferInstanceAs (Decidable
      (∃ slot, TuyaMemHeap.RequestedByte state.client slot address))
  | .calloc _ _ => isTrue trivial

end TuyaAdapter.TklMemory
