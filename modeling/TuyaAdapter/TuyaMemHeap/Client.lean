import TuyaAdapter.Foundation.Run
import TuyaAdapter.TuyaMemHeap.HeapOperations

/-!
Contract: clients of the heap manager as a transition system.

A state is the heap manager together with a ledger that records, for every
slot, the allocations its clients hold. A call is one call of the public
interface or one byte stored by a client. `step` runs the call on the model of
the source and enters its result into the ledger; it produces no state when the
source does not return.

`ThroughHandle` admits the calls made through one handle, `Effect` says what
such a call can do to the heap behind it, and `step_effect` proves that every
admitted call returns with one of these effects.
-/

namespace TuyaAdapter.TuyaMemHeap

open Foundation Foundation.ByteMemory Foundation.Tiling
open Foundation.MachineWord (add sub)

/-! ## Calls and states -/

inductive Call where
  | create (startAddr : Nat) (size : UInt32)
  | delete (handle : Option Slot)
  | malloc (handle : Option Slot) (size : UInt32)
  | calloc (handle : Option Slot) (size : UInt32)
  | debugMalloc (handle : Option Slot) (size : UInt32) (filename : Nat) (line : Int)
  | realloc (handle : Option Slot) (ptr : Nat) (size : UInt32)
  | free (handle : Option Slot) (ptr : Nat)
  /-- A client stores one byte. -/
  | store (address : Nat) (value : UInt8)
deriving DecidableEq, Repr

structure ClientState where
  system : HeapSystem
  ledger : Slot → List Allocation

/-- The pointer lies in the region of a live heap, as `tuya_mem_heap_free` tests
it. -/
def InRegion (heap : MemHeap) (ptr : Nat) : Prop :=
  0 < heap.size ∧ heap.base < ptr ∧ ptr < heap.base + heap.size

instance (heap : MemHeap) (ptr : Nat) : Decidable (InRegion heap ptr) :=
  inferInstanceAs (Decidable (_ ∧ _))

/-- The slot an allocation through `handle` came from. -/
def home (system : HeapSystem) (handle : Option Slot) (ptr : Nat) : Option Slot :=
  match handle with
  | some slot => some slot
  | none => (List.finRange memHeapListNum).find? fun slot => InRegion (system.heapList slot) ptr

/-- The slot whose `MEM_Deallocate` the loop of `tuya_mem_heap_free` calls. -/
def scanTarget (system : HeapSystem) (ptr : Nat) : List Slot → Option Slot
  | [] => none
  | slot :: rest =>
      if 0 < (system.heapList slot).size then
        if InRegion (system.heapList slot) ptr then some slot else scanTarget system ptr rest
      else none

/-- The slot whose `MEM_Deallocate` is called by `tuya_mem_heap_free`. -/
def freeTarget (system : HeapSystem) (handle : Option Slot) (ptr : Nat) : Option Slot :=
  match handle with
  | some slot => some slot
  | none => scanTarget system ptr (List.finRange memHeapListNum)

/-- Enter an allocation into the ledger; a null pointer enters nothing. -/
def ClientState.enter (state : ClientState) (slot : Option Slot) (after : HeapSystem)
    (allocation : Allocation) : ClientState :=
  if allocation.pointer = 0 then { state with system := after }
  else
    match slot with
    | none => { state with system := after }
    | some slot =>
        ⟨after, Function.update state.ledger slot (allocation :: state.ledger slot)⟩

/-- Drop a pointer from the ledger of the slot it was returned to. -/
def ClientState.leave (state : ClientState) (slot : Option Slot) (after : HeapSystem)
    (ptr : Nat) : ClientState :=
  match slot with
  | none => { state with system := after }
  | some slot =>
      ⟨after, Function.update state.ledger slot
        ((state.ledger slot).filter fun allocation => allocation.pointer ≠ ptr)⟩

/-- Record a new size for a pointer. -/
def ClientState.resize (state : ClientState) (after : HeapSystem) (ptr requested : Nat) :
    ClientState :=
  ⟨after, fun slot => (state.ledger slot).map fun allocation =>
    if allocation.pointer = ptr then ⟨ptr, requested, none⟩ else allocation⟩

/-- The ledger after `tuya_mem_heap_realloc` returned `new`. A block that was
kept is worth what fits in it, whatever size was asked for. -/
def ClientState.reallocated (state : ClientState) (handle : Option Slot) (ptr : Nat)
    (size : UInt32) (new : Nat) (after : HeapSystem) : ClientState :=
  if new = 0 then { state with system := after }
  else if ptr = 0 then state.enter (home after handle new) after ⟨new, size.toNat, none⟩
  else if new = ptr then
    state.resize after ptr (min size.toNat (blockSize after.memory (ptr - 8) - 9))
  else
    (state.leave (freeTarget state.system handle ptr) after ptr).enter (home after handle new)
      after ⟨new, size.toNat, none⟩

@[simp] theorem ClientState.enter_system (state : ClientState) (slot : Option Slot)
    (after : HeapSystem) (allocation : Allocation) :
    (state.enter slot after allocation).system = after := by
  unfold ClientState.enter
  split
  · rfl
  · split
    · rfl
    · rfl

@[simp] theorem ClientState.leave_system (state : ClientState) (slot : Option Slot)
    (after : HeapSystem) (ptr : Nat) : (state.leave slot after ptr).system = after := by
  unfold ClientState.leave
  split
  · rfl
  · rfl

@[simp] theorem ClientState.reallocated_system (state : ClientState) (handle : Option Slot)
    (ptr : Nat) (size : UInt32) (new : Nat) (after : HeapSystem) :
    (state.reallocated handle ptr size new after).system = after := by
  unfold ClientState.reallocated
  split
  · rfl
  · split
    · simp
    · split
      · rfl
      · simp

/-- One call. -/
def step (state : ClientState) : Call → Option ClientState
  | .create startAddr size =>
      match tuyaMemHeapCreate state.system startAddr size with
      | (none, after) => some { state with system := after }
      | (some slot, after) => some ⟨after, Function.update state.ledger slot []⟩
  | .delete handle =>
      let after := tuyaMemHeapDelete state.system handle
      match handle with
      | none => some { state with system := after }
      | some slot => some ⟨after, Function.update state.ledger slot []⟩
  | .malloc handle size =>
      (tuyaMemHeapMalloc state.system handle size).map fun (ptr, after) =>
        state.enter (home after handle ptr) after ⟨ptr, size.toNat, none⟩
  | .calloc handle size =>
      (tuyaMemHeapCalloc state.system handle size).map fun (ptr, after) =>
        state.enter (home after handle ptr) after ⟨ptr, size.toNat, none⟩
  | .debugMalloc handle size filename line =>
      (tuyaMemHeapDebugMalloc state.system handle size filename line).map fun (ptr, after) =>
        state.enter (home after handle ptr) after ⟨ptr, size.toNat, some ⟨filename, line⟩⟩
  | .realloc handle ptr size =>
      (tuyaMemHeapRealloc state.system handle ptr size).map fun (new, after) =>
        state.reallocated handle ptr size new after
  | .free handle ptr =>
      (tuyaMemHeapFree state.system handle ptr).map fun after =>
        state.leave (freeTarget state.system handle ptr) after ptr
  | .store address value =>
      some { state with
        system := { state.system with memory := writeByte state.system.memory address value } }

/-! ## Calls through one handle -/

/-- The pointer was returned for an allocation of this slot and not freed
since. -/
def LivePointer (state : ClientState) (slot : Slot) (ptr : Nat) : Prop :=
  ∃ allocation ∈ state.ledger slot, allocation.pointer = ptr

/-- The address is one of the bytes a client of this slot asked for. -/
def RequestedByte (state : ClientState) (slot : Slot) (address : Nat) : Prop :=
  ∃ allocation ∈ state.ledger slot,
    allocation.pointer ≤ address ∧ address < allocation.pointer + allocation.requested

/-- The calls that work on one heap: allocations of any size and frees of live
pointers through its handle, and stores into requested bytes. -/
def ThroughHandle (slot : Slot) (state : ClientState) : Call → Prop
  | .malloc handle _ => handle = some slot
  | .calloc handle _ => handle = some slot
  | .debugMalloc handle _ _ _ => handle = some slot
  | .free handle ptr => handle = some slot ∧ (ptr = 0 ∨ LivePointer state slot ptr)
  | .store address _ => RequestedByte state slot address
  | _ => False

instance (state : ClientState) (slot : Slot) (ptr : Nat) :
    Decidable (LivePointer state slot ptr) :=
  inferInstanceAs (Decidable (∃ allocation ∈ state.ledger slot, allocation.pointer = ptr))

instance (state : ClientState) (slot : Slot) (address : Nat) :
    Decidable (RequestedByte state slot address) :=
  inferInstanceAs (Decidable (∃ allocation ∈ state.ledger slot,
    allocation.pointer ≤ address ∧ address < allocation.pointer + allocation.requested))

instance (slot : Slot) (state : ClientState) :
    ∀ call, Decidable (ThroughHandle slot state call)
  | .malloc handle _ => inferInstanceAs (Decidable (handle = some slot))
  | .calloc handle _ => inferInstanceAs (Decidable (handle = some slot))
  | .debugMalloc handle _ _ _ => inferInstanceAs (Decidable (handle = some slot))
  | .free handle ptr =>
      inferInstanceAs (Decidable (handle = some slot ∧ (ptr = 0 ∨ LivePointer state slot ptr)))
  | .store address _ => inferInstanceAs (Decidable (RequestedByte state slot address))
  | .create _ _ => isFalse id
  | .delete _ => isFalse id
  | .realloc _ _ _ => isFalse id

/-- What a call through a handle can do. -/
inductive Effect (slot : Slot) (state : ClientState) (layout : List Segment) (call : Call)
    (next : ClientState) : List Segment → Prop
  | unchanged (isSame : next = state) : Effect slot state layout call next layout
  | granted {size : Nat} {owner : Nat → Allocation} {segment : Segment}
      {layout' : List Segment}
      (granted : Granted state.system slot (state.ledger slot) layout size owner next.system
        segment layout')
      (ledger : next.ledger slot = owner segment.address :: state.ledger slot) :
      Effect slot state layout call next layout'
  | surrendered {left right left' right' : List Segment} {block joined : Segment}
      (isFree : call = .free (some slot) (block.address + 8))
      (isLayout : layout = left ++ block :: right) (owned : block.vacant = false)
      (surrendered : Surrendered state.system slot (state.ledger slot) left block right
        next.system left' joined right')
      (ledger : next.ledger slot =
        (state.ledger slot).filter fun allocation => allocation.pointer ≠ block.address + 8) :
      Effect slot state layout call next (left' ++ joined :: right')
  | stored {block : Segment} (member : block ∈ layout) (owned : block.vacant = false)
      (same : ∀ address,
        address < block.address + 8 ∨ block.address + block.size - 1 ≤ address →
        next.system.memory address = state.system.memory address)
      (heaps : next.system.heapList = state.system.heapList)
      (ledger : next.ledger = state.ledger) : Effect slot state layout call next layout

/-- A requested byte lies in the payload of an owned block, in front of its tag. -/
theorem HeapHolds.storedBlock {state : ClientState} {slot : Slot} {layout : List Segment}
    (holds : HeapHolds state.system.memory (state.system.heapList slot) (state.ledger slot) layout)
    {address : Nat} (requested : RequestedByte state slot address) (value : UInt8) :
    ∃ block ∈ layout, block.vacant = false ∧
      ∀ other, other < block.address + 8 ∨ block.address + block.size - 1 ≤ other →
        writeByte state.system.memory address value other = state.system.memory other := by
  obtain ⟨allocation, inLedger, lower, upper⟩ := requested
  obtain ⟨left, block, right, isLayout, owned, pointer, footprint⟩ := holds.split inLedger
  have enough := allocation.requested_le_footprint
  refine ⟨block, by simp [isLayout], vacant_of_owner owned, ?_⟩
  intro other outside
  exact writeByte_other (by omega)

section Through

variable {state : ClientState} {slot : Slot} {layout : List Segment}

/-- Entering the result of a request that granted nothing or a block. -/
theorem enter_effect {call : Call} {ptr : Nat} {after : HeapSystem} {size : Nat}
    {owner : Nat → Allocation} (pointer : ∀ address, (owner address).pointer = address + 8)
    (result : (ptr = 0 ∧ after = state.system) ∨
      ∃ segment layout', ptr = segment.address + 8 ∧
        Granted state.system slot (state.ledger slot) layout size owner after segment layout') :
    ∃ layout', Effect slot state layout call
      (state.enter (some slot) after { owner (ptr - 8) with pointer := ptr }) layout' := by
  rcases result with ⟨rfl, rfl⟩ | ⟨segment, layout', rfl, granted⟩
  · exact ⟨layout, Effect.unchanged rfl⟩
  · have isOwner : { owner (segment.address + 8 - 8) with pointer := segment.address + 8 } =
        owner segment.address := by
      rw [Nat.add_sub_cancel, ← pointer]
    have isEntered : state.enter (some slot) after (owner segment.address) =
        ⟨after, Function.update state.ledger slot
          (owner segment.address :: state.ledger slot)⟩ := by
      unfold ClientState.enter
      rw [if_neg (by rw [pointer]; omega)]
    rw [isOwner, isEntered]
    exact ⟨layout', Effect.granted granted (by simp)⟩

variable (holds : HeapHolds state.system.memory (state.system.heapList slot)
  (state.ledger slot) layout)
include holds

/-- A live pointer is that of an owned segment, which splits the layout. -/
theorem HeapHolds.block_of_live {ptr : Nat} (live : LivePointer state slot ptr) :
    ∃ left block right allocation, layout = left ++ block :: right ∧
      block.owner = some allocation ∧ ptr = block.address + 8 := by
  obtain ⟨allocation, inLedger, isPointer⟩ := live
  obtain ⟨left, block, right, isLayout, owned, pointer, -⟩ := holds.split inLedger
  exact ⟨left, block, right, allocation, isLayout, owned, isPointer.symm.trans pointer⟩

theorem malloc_effect (size : UInt32) :
    ∃ ptr after, memAllocate state.system slot size.toNat = some (ptr, after) ∧
      ((ptr = 0 ∧ after = state.system) ∨
        ∃ segment layout', ptr = segment.address + 8 ∧
          Granted state.system slot (state.ledger slot) layout (chunkSize size.toNat)
            (plainOwner size.toNat) after segment layout') := by
  have small : size.toNat ≤ 2 ^ 40 := by
    have bound := size.toNat_lt
    omega
  rcases memAllocate_spec holds small (fun _ => rfl) (plainOwner_footprint small) with
    ⟨isNull, -⟩ | ⟨-, after, segment, layout', isBlock, granted, -⟩
  · exact ⟨0, _, isNull, Or.inl ⟨rfl, rfl⟩⟩
  · exact ⟨_, after, isBlock, Or.inr ⟨segment, layout', rfl, granted⟩⟩

theorem HeapHolds.pointer_ne_zero {allocation : Allocation}
    (inLedger : allocation ∈ state.ledger slot) : allocation.pointer ≠ 0 := by
  obtain ⟨_, block, _, _, _, pointer, _⟩ := holds.split inLedger
  omega

/-- Freeing the null pointer does nothing. -/
theorem HeapHolds.free_null : step state (.free (some slot) 0) = some state := by
  have noneDropped : ((state.ledger slot).filter fun allocation => allocation.pointer ≠ 0) =
      state.ledger slot := by
    apply List.filter_eq_self.mpr
    intro allocation inLedger
    simpa using holds.pointer_ne_zero inLedger
  simp only [step, tuyaMemHeapFree, memDeallocate, if_true, Option.map_some,
    ClientState.leave, freeTarget, noneDropped, Function.update_eq_self]

/-- Freeing a live pointer gives its block back. -/
theorem free_surrenders {ptr : Nat} (live : LivePointer state slot ptr) :
    ∃ next left block right left' joined right',
      step state (.free (some slot) ptr) = some next ∧ layout = left ++ block :: right ∧
      ptr = block.address + 8 ∧ block.vacant = false ∧
      Surrendered state.system slot (state.ledger slot) left block right next.system left'
        joined right' ∧
      next.ledger slot = (state.ledger slot).filter fun allocation =>
        allocation.pointer ≠ block.address + 8 := by
  obtain ⟨left, block, right, allocation, isLayout, owned, rfl⟩ := holds.block_of_live live
  subst isLayout
  obtain ⟨after, left', joined, right', isFreed, surrendered⟩ := memDeallocate_spec holds owned
  refine ⟨_, left, block, right, left', joined, right',
    by simp only [step, tuyaMemHeapFree, isFreed]; rfl, rfl, rfl, vacant_of_owner owned,
    surrendered, ?_⟩
  simp [ClientState.leave, freeTarget]

/-- Every call through the handle returns, with one of the effects. -/
theorem step_effect {call : Call} (legal : ThroughHandle slot state call) :
    ∃ next layout', step state call = some next ∧
      Effect slot state layout call next layout' := by
  cases call with
  | create | delete | realloc => exact absurd legal (by simp [ThroughHandle])
  | malloc handle size =>
      have isHandle : handle = some slot := legal
      subst isHandle
      obtain ⟨ptr, after, isResult, result⟩ := malloc_effect holds size
      obtain ⟨layout', effect⟩ := enter_effect (fun _ => rfl) result
      refine ⟨_, layout', ?_, effect⟩
      simp only [step, tuyaMemHeapMalloc, isResult, Option.map_some, home]
      rfl
  | calloc handle size =>
      have isHandle : handle = some slot := legal
      subst isHandle
      obtain ⟨ptr, after, isResult, result⟩ := malloc_effect holds size
      have cleared : (clearAllocation size (ptr, after)).1 = 0 ∧
            (clearAllocation size (ptr, after)).2 = state.system ∨
          ∃ segment layout', (clearAllocation size (ptr, after)).1 = segment.address + 8 ∧
            Granted state.system slot (state.ledger slot) layout (chunkSize size.toNat)
              (plainOwner size.toNat) (clearAllocation size (ptr, after)).2 segment layout' := by
        rcases result with ⟨rfl, rfl⟩ | ⟨segment, layout', rfl, granted⟩
        · exact Or.inl ⟨rfl, rfl⟩
        · right
          have nonzero : segment.address + 8 ≠ 0 := by omega
          simp only [clearAllocation, if_neg nonzero]
          exact ⟨segment, layout', rfl, granted.cleared⟩
      obtain ⟨layout', effect⟩ := enter_effect (fun _ => rfl) cleared
      refine ⟨_, layout', ?_, effect⟩
      simp only [step, tuyaMemHeapCalloc, tuyaMemHeapMalloc, isResult, Option.map_some, home]
      rfl
  | debugMalloc handle size filename line =>
      have isHandle : handle = some slot := legal
      subst isHandle
      have small : size.toNat ≤ 2 ^ 32 := le_of_lt size.toNat_lt
      have result := memAllocateDebug_spec holds small filename line
      have allocated : ∃ ptr after,
          memAllocateDebug state.system slot size.toNat filename line = some (ptr, after) ∧
          ((ptr = 0 ∧ after = state.system) ∨
            ∃ segment layout', ptr = segment.address + 8 ∧
              Granted state.system slot (state.ledger slot) layout
                (chunkSize (debugSize size.toNat)) (debugOwner size.toNat filename line) after
                segment layout') := by
        rcases result with isNull | ⟨after, segment, layout', isBlock, granted, -⟩
        · exact ⟨0, _, isNull, Or.inl ⟨rfl, rfl⟩⟩
        · exact ⟨_, after, isBlock, Or.inr ⟨segment, layout', rfl, granted⟩⟩
      obtain ⟨ptr, after, isResult, outcome⟩ := allocated
      obtain ⟨layout', effect⟩ := enter_effect (fun _ => rfl) outcome
      refine ⟨_, layout', ?_, effect⟩
      simp only [step, tuyaMemHeapDebugMalloc, isResult, Option.map_some, home]
      rfl
  | free handle ptr =>
      obtain ⟨isHandle, isNull | live⟩ : handle = some slot ∧ (ptr = 0 ∨ _) := legal
      · subst isHandle isNull
        exact ⟨state, layout, holds.free_null, Effect.unchanged rfl⟩
      · subst isHandle
        obtain ⟨next, left, block, right, left', joined, right', stepped, isLayout, isPointer,
          owned, surrendered, ledger⟩ := free_surrenders holds live
        subst isPointer
        exact ⟨next, _, stepped, Effect.surrendered rfl isLayout owned surrendered ledger⟩
  | store address value =>
      obtain ⟨block, member, owned, same⟩ := holds.storedBlock legal value
      refine ⟨_, layout, rfl, ?_⟩
      exact Effect.stored member owned same rfl rfl

end Through

end TuyaAdapter.TuyaMemHeap
