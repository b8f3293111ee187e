import TuyaAdapter.TuyaMemHeap.ManyHeaps

/-!
Contract: the calls of the public interface in a state with any number of
heaps.

`Serves` says for which handle and size a request is granted, and `freeTarget`
which slot a free works on. Every admitted call returns: `step_spec` describes
its result as a new or deleted heap or as a sequence of transfers.
-/

namespace TuyaAdapter.TuyaMemHeap

open Foundation Foundation.ByteMemory Foundation.LinkedPath Foundation.Tiling Foundation.Run
open Foundation.MachineWord (add sub)

/-! ## Reached slots -/

/-- No slot up to this one is unused. -/
def Reached (system : HeapSystem) (slot : Slot) : Prop :=
  ∀ lower, lower ≤ slot → 0 < (system.heapList lower).size

instance (system : HeapSystem) (slot : Slot) : Decidable (Reached system slot) :=
  inferInstanceAs (Decidable (∀ lower, lower ≤ slot → 0 < (system.heapList lower).size))

/-- The slots that a loop over `mem_heap_list` looks into. -/
def reachedSlots (system : HeapSystem) (slots : List Slot) : List Slot :=
  slots.takeWhile fun slot => 0 < (system.heapList slot).size

theorem mem_reachedSlots_of_sorted {system : HeapSystem} {slots : List Slot}
    (sorted : slots.Pairwise (· < ·)) {slot : Slot} :
    slot ∈ reachedSlots system slots ↔
      slot ∈ slots ∧ ∀ lower ∈ slots, lower ≤ slot → 0 < (system.heapList lower).size := by
  induction slots with
  | nil => simp [reachedSlots]
  | cons first rest inductionHypothesis =>
      obtain ⟨least, restSorted⟩ := List.pairwise_cons.mp sorted
      have later := inductionHypothesis restSorted
      unfold reachedSlots at later ⊢
      by_cases isLive : 0 < (system.heapList first).size
      · rw [List.takeWhile_cons_of_pos (by simpa using isLive), List.mem_cons, later]
        constructor
        · rintro (rfl | ⟨member, below⟩)
          · refine ⟨List.mem_cons_self, fun lower inSlots notAbove => ?_⟩
            rcases List.mem_cons.mp inSlots with rfl | inRest
            · exact isLive
            · exact absurd (least lower inRest) (not_lt_of_ge notAbove)
          · refine ⟨List.mem_cons_of_mem _ member, fun lower inSlots notAbove => ?_⟩
            rcases List.mem_cons.mp inSlots with rfl | inRest
            · exact isLive
            · exact below lower inRest notAbove
        · rintro ⟨inSlots, below⟩
          rcases List.mem_cons.mp inSlots with isFirst | inRest
          · exact Or.inl isFirst
          · exact Or.inr ⟨inRest, fun lower member => below lower (List.mem_cons_of_mem _ member)⟩
      · rw [List.takeWhile_cons_of_neg (by simpa using isLive)]
        constructor
        · intro member
          exact absurd member List.not_mem_nil
        · rintro ⟨inSlots, below⟩
          have notAbove : first ≤ slot := by
            rcases List.mem_cons.mp inSlots with rfl | inRest
            · exact le_refl _
            · exact le_of_lt (least slot inRest)
          exact absurd (below first List.mem_cons_self notAbove) isLive

theorem mem_reachedSlots {system : HeapSystem} {slot : Slot} :
    slot ∈ reachedSlots system (List.finRange memHeapListNum) ↔ Reached system slot := by
  rw [mem_reachedSlots_of_sorted (List.pairwise_lt_finRange _)]
  simp [Reached]

theorem Reached.live {system : HeapSystem} {slot : Slot} (reached : Reached system slot) :
    0 < (system.heapList slot).size :=
  reached slot (le_refl slot)

/-- The loop of `tuya_mem_heap_malloc`: nothing, or what one of the reached slots
with enough free bytes gives. -/
theorem allocateScan_spec (allocate : HeapSystem → Slot → Option (Nat × HeapSystem))
    (size : UInt32) {system : HeapSystem} (slots : List Slot)
    (outcome : ∀ slot, 0 < (system.heapList slot).size →
      allocate system slot = some (0, system) ∨
        ∃ ptr after, ptr ≠ 0 ∧ allocate system slot = some (ptr, after)) :
    (allocateScan allocate size system slots = some (0, system) ∧
        ∀ slot ∈ reachedSlots system slots,
          (size + UInt32.ofNat memBlockMinSize).toNat < (system.heapList slot).free →
          allocate system slot = some (0, system)) ∨
      ∃ slot ∈ reachedSlots system slots,
        (size + UInt32.ofNat memBlockMinSize).toNat < (system.heapList slot).free ∧
        ∃ ptr after, ptr ≠ 0 ∧ allocate system slot = some (ptr, after) ∧
          allocateScan allocate size system slots = some (ptr, after) := by
  induction slots with
  | nil => exact Or.inl ⟨rfl, by simp [reachedSlots]⟩
  | cons first rest inductionHypothesis =>
      unfold reachedSlots at inductionHypothesis ⊢
      by_cases isLive : 0 < (system.heapList first).size
      · rw [List.takeWhile_cons_of_pos (by simpa using isLive)]
        by_cases given :
            (size + UInt32.ofNat memBlockMinSize).toNat < (system.heapList first).free ∧
              ∃ ptr after, ptr ≠ 0 ∧ allocate system first = some (ptr, after)
        · obtain ⟨enough, ptr, after, nonzero, isBlock⟩ := given
          right
          refine ⟨first, List.mem_cons_self, enough, ptr, after, nonzero, isBlock, ?_⟩
          simp only [allocateScan, if_pos isLive, if_pos enough, isBlock, Option.bind_some,
            ne_eq, nonzero, not_false_eq_true, if_true]
        · -- The first slot is too full or gives nothing, and the loop goes on unchanged.
          have firstNull :
              (size + UInt32.ofNat memBlockMinSize).toNat < (system.heapList first).free →
              allocate system first = some (0, system) := by
            intro enough
            rcases outcome first isLive with isNull | block
            · exact isNull
            · exact absurd ⟨enough, block⟩ given
          have skipped : allocateScan allocate size system (first :: rest) =
              allocateScan allocate size system rest := by
            by_cases enough :
                (size + UInt32.ofNat memBlockMinSize).toNat < (system.heapList first).free
            · simp only [allocateScan, if_pos isLive, if_pos enough, firstNull enough,
                Option.bind_some, ne_eq, not_true_eq_false, if_false]
            · simp only [allocateScan, if_pos isLive, if_neg enough]
          rw [skipped]
          rcases inductionHypothesis with ⟨isNone, restNull⟩ | ⟨slot, member, facts⟩
          · refine Or.inl ⟨isNone, fun slot inSlots isEnough => ?_⟩
            rcases List.mem_cons.mp inSlots with rfl | inRest
            · exact firstNull isEnough
            · exact restNull slot inRest isEnough
          · exact Or.inr ⟨slot, List.mem_cons_of_mem _ member, facts⟩
      · rw [List.takeWhile_cons_of_neg (by simpa using isLive)]
        left
        refine ⟨by simp only [allocateScan, if_neg isLive], ?_⟩
        intro slot member
        exact absurd member List.not_mem_nil

theorem freeScan_eq (ptr : Nat) (system : HeapSystem) (slots : List Slot) :
    freeScan ptr system slots =
      match scanTarget system ptr slots with
      | none => some system
      | some slot => memDeallocate system slot ptr := by
  induction slots with
  | nil => rfl
  | cons first rest inductionHypothesis =>
      simp only [freeScan, scanTarget]
      by_cases isLive : 0 < (system.heapList first).size
      · by_cases inside : (system.heapList first).base < ptr ∧
            ptr < (system.heapList first).base + (system.heapList first).size
        · simp only [if_pos isLive, if_pos inside,
            if_pos (show InRegion (system.heapList first) ptr from ⟨isLive, inside⟩)]
        · have outside : ¬ InRegion (system.heapList first) ptr := fun both => inside both.2
          simp only [if_pos isLive, if_neg inside, if_neg outside, inductionHypothesis]
      · simp only [if_neg isLive]

theorem scanTarget_eq (ptr : Nat) (system : HeapSystem) (slots : List Slot) :
    scanTarget system ptr slots =
      (reachedSlots system slots).find? fun slot => InRegion (system.heapList slot) ptr := by
  unfold reachedSlots
  induction slots with
  | nil => rfl
  | cons first rest inductionHypothesis =>
      simp only [scanTarget]
      by_cases isLive : 0 < (system.heapList first).size
      · rw [if_pos isLive, List.takeWhile_cons_of_pos (by simpa using isLive), List.find?_cons]
        by_cases inside : InRegion (system.heapList first) ptr
        · simp [inside]
        · simp [inside, inductionHypothesis]
      · rw [if_neg isLive, List.takeWhile_cons_of_neg (by simpa using isLive)]
        rfl

/-- `tuya_mem_heap_free` frees from its target, if it has one. -/
theorem tuyaMemHeapFree_eq (system : HeapSystem) (handle : Option Slot) (ptr : Nat) :
    tuyaMemHeapFree system handle ptr =
      match freeTarget system handle ptr with
      | none => some system
      | some slot => memDeallocate system slot ptr := by
  cases handle with
  | none => exact freeScan_eq ptr system _
  | some slot => rfl

/-! ## Requests -/

/-- A block of the free list is large enough for a request that is not empty. -/
def Fits (system : HeapSystem) (slot : Slot) (size : Nat) : Prop :=
  size ≠ 0 ∧ ∃ node ∈ freeListNodes system slot, chunkSize size ≤ blockSize system.memory node

instance (system : HeapSystem) (slot : Slot) (size : Nat) : Decidable (Fits system slot size) :=
  inferInstanceAs (Decidable (_ ∧ _))

/-- A request through a handle finds a block. The null handle needs a reached
slot that also has more free bytes than `size + MEM_BLOCK_MIN_SIZE`. -/
def Serves (system : HeapSystem) (handle : Option Slot) (size : UInt32) : Prop :=
  match handle with
  | some slot => Fits system slot size.toNat
  | none => ∃ slot, Reached system slot ∧
      (size + UInt32.ofNat memBlockMinSize).toNat < (system.heapList slot).free ∧
      Fits system slot size.toNat

instance (system : HeapSystem) (handle : Option Slot) (size : UInt32) :
    Decidable (Serves system handle size) :=
  match handle with
  | some slot => inferInstanceAs (Decidable (Fits system slot size.toNat))
  | none => inferInstanceAs (Decidable (∃ slot, Reached system slot ∧
      (size + UInt32.ofNat memBlockMinSize).toNat < (system.heapList slot).free ∧
      Fits system slot size.toNat))

/-- The handle is null or names the slot. -/
def Through (handle : Option Slot) (slot : Slot) : Prop := handle = none ∨ handle = some slot

theorem Carve.chunk {size : Nat} {owner : Nat → Allocation} {layout layout' : List Segment}
    {segment : Segment} (carve : Carve size owner layout segment layout') :
    ∃ chunk ∈ layout, chunk.vacant = true ∧ size ≤ chunk.size := by
  cases carve with
  | split left chunk right vacant room => exact ⟨chunk, by simp, vacant, by omega⟩
  | whole left chunk right vacant fits _ => exact ⟨chunk, by simp, vacant, fits⟩

section Requests

variable {state : ClientState} {slot : Slot} {layout : List Segment}

theorem HeapHolds.fits_iff
    (holds : HeapHolds state.system.memory (state.system.heapList slot) (state.ledger slot) layout)
    (size : Nat) :
    Fits state.system slot size ↔
      size ≠ 0 ∧ ∃ chunk ∈ layout, chunk.vacant = true ∧ chunkSize size ≤ chunk.size := by
  unfold Fits
  rw [holds.freeListNodes_eq]
  refine and_congr_right fun _ => ?_
  constructor
  · rintro ⟨node, isNode, large⟩
    obtain ⟨chunk, member, vacant, rfl⟩ := mem_freeNodes.mp isNode
    rw [holds.bytes.blockSize_eq member] at large
    exact ⟨chunk, member, vacant, large⟩
  · rintro ⟨chunk, member, vacant, large⟩
    rw [← holds.bytes.blockSize_eq member] at large
    exact ⟨chunk.address, mem_freeNodes.mpr ⟨chunk, member, vacant, rfl⟩, large⟩

/-- A block taken from a slot. -/
def Taken (state : ClientState) (slot : Slot) (size : Nat) (owner : Nat → Allocation) (ptr : Nat)
    (after : HeapSystem) : Prop :=
  ∃ layout segment layout', ptr = segment.address + 8 ∧
    HeapHolds state.system.memory (state.system.heapList slot) (state.ledger slot) layout ∧
    Granted state.system slot (state.ledger slot) layout size owner after segment layout'

theorem Taken.ptr_ne_zero {size : Nat} {owner : Nat → Allocation} {ptr : Nat} {after : HeapSystem}
    (taken : Taken state slot size owner ptr after) : ptr ≠ 0 := by
  obtain ⟨layout, segment, layout', rfl, -⟩ := taken
  omega

/-- An unused slot has no block to give. -/
theorem AllHold.unused_refuses (allHold : AllHold state)
    (isUnused : (state.system.heapList slot).size = 0) (size : Nat) :
    ¬ Fits state.system slot size ∧ memAllocate state.system slot size = some (0, state.system) := by
  obtain ⟨noList, -⟩ := allHold.unused slot isUnused
  have bound : loopBound = (loopBound - 1) + 1 := rfl
  have noNodes : freeListNodes state.system slot = [] := by
    unfold freeListNodes
    rw [bound, walk, noList, if_pos rfl]
  have noChunk : ∀ wanted, memChunkGet state.system.memory 0 wanted =
      some (0, state.system.memory, 0) := by
    intro wanted
    unfold memChunkGet
    rw [bound, findFit, if_pos rfl]
    rfl
  constructor
  · rintro ⟨-, node, isNode, -⟩
    rw [noNodes] at isNode
    exact absurd isNode List.not_mem_nil
  · have sameHeap : { state.system.heapList slot with freeList := 0 } =
        state.system.heapList slot := by
      rw [← noList]
    unfold memAllocate
    split
    · rfl
    · simp only [noList, noChunk, Option.map_some, if_true, sameHeap, HeapSystem.setHeap,
        Function.update_eq_self, ite_self]

/-- `MEM_Allocate` gives a block exactly when one fits. -/
theorem AllHold.memAllocate_cases (allHold : AllHold state) (slot : Slot) {size requested : Nat}
    (small : size ≤ 2 ^ 40) (enough : requested ≤ size) :
    (¬ Fits state.system slot size ∧
        memAllocate state.system slot size = some (0, state.system)) ∨
      Fits state.system slot size ∧ ∃ ptr after,
        memAllocate state.system slot size = some (ptr, after) ∧
        Taken state slot (chunkSize size) (plainOwner requested) ptr after := by
  by_cases isLive : 0 < (state.system.heapList slot).size
  · obtain ⟨layout, holds⟩ := allHold.live slot isLive
    have footprint : ∀ address, (plainOwner requested address).footprint ≤ chunkSize size := by
      intro address
      have whole := plainOwner_footprint small address
      have less : (plainOwner requested address).footprint ≤ (plainOwner size address).footprint :=
        Nat.add_le_add_right enough 9
      exact less.trans whole
    rw [holds.fits_iff size]
    rcases memAllocate_spec holds small (fun _ => rfl) footprint with
      ⟨isNull, noChunk⟩ | ⟨nonzero, after, segment, layout', isBlock, granted, -⟩
    · left
      refine ⟨?_, isNull⟩
      rintro ⟨nonzero, chunk, member, vacant, large⟩
      rcases noChunk with isZero | tooSmall
      · exact nonzero isZero
      · exact absurd large (not_le_of_gt (tooSmall chunk member vacant))
    · right
      exact ⟨⟨nonzero, granted.carve.chunk⟩, _, after, isBlock, layout, segment, layout', rfl,
        holds, granted⟩
  · left
    exact allHold.unused_refuses (by omega) size

/-- `tuya_mem_heap_malloc` gives a block exactly when the handle serves the
request. -/
theorem AllHold.malloc_cases (allHold : AllHold state) (handle : Option Slot) (size : UInt32)
    {requested : Nat} (enough : requested ≤ size.toNat) :
    (¬ Serves state.system handle size ∧
        tuyaMemHeapMalloc state.system handle size = some (0, state.system)) ∨
      Serves state.system handle size ∧ ∃ slot ptr after, Through handle slot ∧
        tuyaMemHeapMalloc state.system handle size = some (ptr, after) ∧
        Taken state slot (chunkSize size.toNat) (plainOwner requested) ptr after := by
  have small : size.toNat ≤ 2 ^ 40 := by
    have bound := size.toNat_lt
    omega
  cases handle with
  | some slot =>
      rcases allHold.memAllocate_cases slot small enough with refused | ⟨fits, ptr, after, given⟩
      · exact Or.inl refused
      · exact Or.inr ⟨fits, slot, ptr, after, Or.inr rfl, given⟩
  | none =>
      have outcome : ∀ slot, 0 < (state.system.heapList slot).size →
          memAllocate state.system slot size.toNat = some (0, state.system) ∨
            ∃ ptr after, ptr ≠ 0 ∧
              memAllocate state.system slot size.toNat = some (ptr, after) := by
        intro slot _
        rcases allHold.memAllocate_cases slot small enough with
          ⟨-, refused⟩ | ⟨-, ptr, after, isBlock, taken⟩
        · exact Or.inl refused
        · exact Or.inr ⟨ptr, after, taken.ptr_ne_zero, isBlock⟩
      rcases allocateScan_spec (fun system slot => memAllocate system slot size.toNat) size
          (List.finRange memHeapListNum) outcome with
        ⟨isNone, refused⟩ | ⟨slot, member, isEnough, ptr, after, nonzero, isBlock, isScan⟩
      · refine Or.inl ⟨?_, isNone⟩
        rintro ⟨slot, reached, isEnough, fits⟩
        have isNull := refused slot (mem_reachedSlots.mpr reached) isEnough
        rcases allHold.memAllocate_cases slot small enough with
          ⟨noFit, -⟩ | ⟨-, ptr, after, isBlock, taken⟩
        · exact noFit fits
        · rw [isNull] at isBlock
          exact taken.ptr_ne_zero (Prod.mk.inj (Option.some.inj isBlock)).1.symm
      · right
        rcases allHold.memAllocate_cases slot small enough with
          ⟨-, refused⟩ | ⟨fits, other, others, isOther, taken⟩
        · rw [isBlock] at refused
          exact absurd (Prod.mk.inj (Option.some.inj refused)).1 nonzero
        · rw [isBlock] at isOther
          obtain ⟨rfl, rfl⟩ := Prod.mk.inj (Option.some.inj isOther)
          exact ⟨⟨slot, mem_reachedSlots.mp member, isEnough, fits⟩, slot, ptr, after, Or.inl rfl,
            isScan, taken⟩

/-- Entering a taken block into the ledger is a transfer of its slot. -/
theorem AllHold.enter_taken (allHold : AllHold state) {handle : Option Slot}
    (through : Through handle slot) {size : Nat} {owner : Nat → Allocation}
    (pointer : ∀ address, (owner address).pointer = address + 8) {ptr : Nat} {after : HeapSystem}
    (taken : Taken state slot size owner ptr after) :
    state.enter (home after handle ptr) after (owner (ptr - 8)) =
        ⟨after, Function.update state.ledger slot (owner (ptr - 8) :: state.ledger slot)⟩ ∧
      Transfer slot state
        ⟨after, Function.update state.ledger slot (owner (ptr - 8) :: state.ledger slot)⟩ := by
  obtain ⟨layout, segment, layout', rfl, holds, granted⟩ := taken
  have transfer := granted.transfer holds
  rw [Nat.add_sub_cancel]
  refine ⟨?_, transfer⟩
  have inRegion := granted.holds.inRegion granted.carve.mem
  have isHome := (transfer.allHold allHold).home_eq through inRegion
  unfold ClientState.enter
  rw [if_neg (by rw [pointer]; omega), isHome]

/-- The result of a request, entered into the ledger. -/
theorem AllHold.request_transfers (allHold : AllHold state) {handle : Option Slot}
    {result : Option (Nat × HeapSystem)} {size requested : Nat} {site : Option DebugSite}
    (cases_ : result = some (0, state.system) ∨
      ∃ slot ptr after, Through handle slot ∧ result = some (ptr, after) ∧
        Taken state slot size (fun address => ⟨address + 8, requested, site⟩) ptr after) :
    ∃ next, (result.map fun (ptr, after) =>
        state.enter (home after handle ptr) after ⟨ptr, requested, site⟩) = some next ∧
      Transfers state next := by
  rcases cases_ with isNull | ⟨slot, ptr, after, through, isBlock, taken⟩
  · rw [isNull]
    exact ⟨state, rfl, Relation.ReflTransGen.refl⟩
  · obtain ⟨entered, transfer⟩ := allHold.enter_taken through (fun _ => rfl) taken
    have isPtr : ptr - 8 + 8 = ptr := by
      obtain ⟨layout, segment, layout', rfl, -⟩ := taken
      omega
    simp only [isPtr] at entered transfer
    rw [isBlock]
    exact ⟨_, congrArg some entered, Transfers.one transfer⟩

theorem AllHold.calloc_cases (allHold : AllHold state) (handle : Option Slot) (size : UInt32) :
    (¬ Serves state.system handle size ∧
        tuyaMemHeapCalloc state.system handle size = some (0, state.system)) ∨
      Serves state.system handle size ∧ ∃ slot ptr after, Through handle slot ∧
        tuyaMemHeapCalloc state.system handle size = some (ptr, after) ∧
        (∀ i < size.toNat, after.memory (ptr + i) = 0) ∧
        Taken state slot (chunkSize size.toNat) (plainOwner size.toNat) ptr after := by
  unfold tuyaMemHeapCalloc
  rcases allHold.malloc_cases handle size (le_refl _) with
    ⟨refuses, isNull⟩ | ⟨serves, slot, ptr, after, through, isBlock, taken⟩
  · rw [isNull]
    exact Or.inl ⟨refuses, rfl⟩
  · right
    have nonzero := taken.ptr_ne_zero
    obtain ⟨layout, segment, layout', rfl, holds, granted⟩ := taken
    rw [isBlock]
    simp only [Option.map_some, clearAllocation, if_neg nonzero]
    refine ⟨serves, slot, _, _, through, rfl, ?_, layout, segment, layout', rfl, holds,
      granted.cleared⟩
    intro i inside
    show writeBytes after.memory (segment.address + 8) size.toNat (fun _ => 0)
      (segment.address + 8 + i) = 0
    rw [writeBytes_inside (by omega) (by omega)]

theorem AllHold.calloc_taken (allHold : AllHold state) (handle : Option Slot) (size : UInt32) :
    tuyaMemHeapCalloc state.system handle size = some (0, state.system) ∨
      ∃ slot ptr after, Through handle slot ∧
        tuyaMemHeapCalloc state.system handle size = some (ptr, after) ∧
        Taken state slot (chunkSize size.toNat) (plainOwner size.toNat) ptr after := by
  rcases allHold.calloc_cases handle size with
    ⟨-, isNull⟩ | ⟨-, slot, ptr, after, through, isBlock, -, taken⟩
  · exact Or.inl isNull
  · exact Or.inr ⟨slot, ptr, after, through, isBlock, taken⟩

theorem AllHold.debugMalloc_cases (allHold : AllHold state) (handle : Option Slot) (size : UInt32)
    (filename : Nat) (line : Int) :
    tuyaMemHeapDebugMalloc state.system handle size filename line = some (0, state.system) ∨
      ∃ slot ptr after, Through handle slot ∧
        tuyaMemHeapDebugMalloc state.system handle size filename line = some (ptr, after) ∧
        Taken state slot (chunkSize (debugSize size.toNat))
          (debugOwner size.toNat filename line) ptr after := by
  have small : size.toNat ≤ 2 ^ 32 := le_of_lt size.toNat_lt
  have oneSlot : ∀ slot, memAllocateDebug state.system slot size.toNat filename line =
        some (0, state.system) ∨
      ∃ ptr after, memAllocateDebug state.system slot size.toNat filename line = some (ptr, after) ∧
        Taken state slot (chunkSize (debugSize size.toNat))
          (debugOwner size.toNat filename line) ptr after := by
    intro slot
    by_cases isLive : 0 < (state.system.heapList slot).size
    · obtain ⟨layout, holds⟩ := allHold.live slot isLive
      rcases memAllocateDebug_spec holds small filename line with
        isNull | ⟨after, segment, layout', isBlock, granted, -⟩
      · exact Or.inl isNull
      · exact Or.inr ⟨_, after, isBlock, layout, segment, layout', rfl, holds, granted⟩
    · left
      unfold memAllocateDebug
      rw [(allHold.unused_refuses (by omega) _).2]
      rfl
  cases handle with
  | some slot =>
      rcases oneSlot slot with isNull | ⟨ptr, after, isBlock, taken⟩
      · exact Or.inl isNull
      · exact Or.inr ⟨slot, ptr, after, Or.inr rfl, isBlock, taken⟩
  | none =>
      have outcome : ∀ slot, 0 < (state.system.heapList slot).size →
          memAllocateDebug state.system slot size.toNat filename line = some (0, state.system) ∨
            ∃ ptr after, ptr ≠ 0 ∧
              memAllocateDebug state.system slot size.toNat filename line = some (ptr, after) := by
        intro slot _
        rcases oneSlot slot with isNull | ⟨ptr, after, isBlock, taken⟩
        · exact Or.inl isNull
        · exact Or.inr ⟨ptr, after, taken.ptr_ne_zero, isBlock⟩
      rcases allocateScan_spec
          (fun system slot => memAllocateDebug system slot size.toNat filename line) size
          (List.finRange memHeapListNum) outcome with
        ⟨isNone, -⟩ | ⟨slot, -, -, ptr, after, nonzero, isBlock, isScan⟩
      · exact Or.inl isNone
      · right
        rcases oneSlot slot with isNull | ⟨other, others, isOther, taken⟩
        · rw [isBlock] at isNull
          exact absurd (Prod.mk.inj (Option.some.inj isNull)).1 nonzero
        · rw [isBlock] at isOther
          obtain ⟨rfl, rfl⟩ := Prod.mk.inj (Option.some.inj isOther)
          exact ⟨slot, ptr, after, Or.inl rfl, isScan, taken⟩

/-! ## Frees -/

/-- A free of a live pointer works on the slot of the pointer, or on none when
the handle is null and the slot is not reached. -/
theorem AllHold.freeTarget_eq (allHold : AllHold state) {handle : Option Slot} {ptr : Nat}
    (through : Through handle slot) (live : LivePointer state slot ptr) :
    freeTarget state.system handle ptr =
      if handle = none ∧ ¬ Reached state.system slot then none else some slot := by
  have inRegion := allHold.inRegion_of_live live
  rcases through with rfl | rfl
  · unfold freeTarget
    simp only [scanTarget_eq, true_and]
    by_cases reached : Reached state.system slot
    · rw [if_neg (not_not_intro reached)]
      exact allHold.find_region (mem_reachedSlots.mpr reached) inRegion
    · rw [if_pos reached, List.find?_eq_none]
      intro other member inOther
      have isSlot := allHold.region_unique (of_decide_eq_true inOther) inRegion
      rw [isSlot] at member
      exact reached (mem_reachedSlots.mp member)
  · simp [freeTarget]

/-- A block given back to a slot. -/
def GivenBack (state : ClientState) (slot : Slot) (ptr : Nat) (after : HeapSystem) : Prop :=
  ∃ left block right left' joined right', ptr = block.address + 8 ∧ 0 < block.size ∧
    Surrendered state.system slot (state.ledger slot) left block right after left' joined right'

theorem AllHold.memDeallocate_live (allHold : AllHold state) {ptr : Nat}
    (live : LivePointer state slot ptr) :
    ∃ after, memDeallocate state.system slot ptr = some after ∧ GivenBack state slot ptr after := by
  obtain ⟨layout, holds⟩ := allHold.live slot (allHold.inRegion_of_live live).1
  obtain ⟨left, block, right, allocation, isLayout, owned, rfl⟩ := holds.block_of_live live
  subst isLayout
  obtain ⟨after, left', joined, right', isFreed, surrendered⟩ := memDeallocate_spec holds owned
  exact ⟨after, isFreed, left, block, right, left', joined, right', rfl,
    holds.bytes.positive block (by simp), surrendered⟩

theorem GivenBack.transfer {ptr : Nat} {after : HeapSystem}
    (given : GivenBack state slot ptr after) :
    Transfer slot state (state.leave (some slot) after ptr) := by
  obtain ⟨left, block, right, left', joined, right', rfl, -, surrendered⟩ := given
  exact surrendered.transfer

/-- A free of a live pointer returns. -/
theorem AllHold.free_transfers (allHold : AllHold state) {handle : Option Slot} {ptr : Nat}
    (through : Through handle slot) (live : LivePointer state slot ptr) :
    ∃ after, tuyaMemHeapFree state.system handle ptr = some after ∧
      Transfers state (state.leave (freeTarget state.system handle ptr) after ptr) := by
  rw [tuyaMemHeapFree_eq, allHold.freeTarget_eq through live]
  by_cases stopped : handle = none ∧ ¬ Reached state.system slot
  · rw [if_pos stopped]
    exact ⟨state.system, rfl, Relation.ReflTransGen.refl⟩
  · rw [if_neg stopped]
    obtain ⟨after, isFreed, given⟩ := allHold.memDeallocate_live live
    exact ⟨after, isFreed, Transfers.one given.transfer⟩

theorem AllHold.free_null (allHold : AllHold state) (handle : Option Slot) :
    step state (.free handle 0) = some state := by
  cases handle with
  | none =>
      have noTarget : freeTarget state.system none 0 = none := by
        unfold freeTarget
        simp only [scanTarget_eq, List.find?_eq_none]
        intro slot _ inRegion
        exact absurd (of_decide_eq_true inRegion).2.1 (Nat.not_lt_zero _)
      simp only [step, tuyaMemHeapFree_eq, noTarget, Option.map_some, ClientState.leave]
  | some slot =>
      by_cases isLive : 0 < (state.system.heapList slot).size
      · obtain ⟨layout, holds⟩ := allHold.live slot isLive
        exact holds.free_null
      · have noLedger := (allHold.unused slot (by omega)).2.2
        simp only [step, tuyaMemHeapFree, memDeallocate, if_true, Option.map_some,
          ClientState.leave, freeTarget, noLedger, List.filter_nil]
        rw [← noLedger, Function.update_eq_self]

end Requests

end TuyaAdapter.TuyaMemHeap
