import TuyaAdapter.TuyaMemHeap.Contents

/-!
Contract: no block of a free list carries the use tag.

The last byte of a free block is the free tag or, in a block of 16 bytes, the
most significant byte of a link, which is zero for addresses of this target. So
it is never the use tag, whatever clients do with the public interface. This is
what `MEM_Deallocate` relies on when it refuses to free a block twice.
-/

namespace TuyaAdapter.TuyaMemHeap

open Foundation Foundation.ByteMemory Foundation.LinkedPath Foundation.Tiling Foundation.Run
open Foundation.MachineWord (add sub)

/-- The blocks of a free list do not end in the use tag. -/
def FreeTagsClear (system : HeapSystem) (slot : Slot) : Prop :=
  ∀ block ∈ freeListNodes system slot,
    system.memory (block + blockSize system.memory block - 1) ≠ memBlockStatUse

/-- The same for the vacant segments of a layout. -/
def LayoutClear (memory : Memory) (layout : List Segment) : Prop :=
  ∀ segment ∈ layout, segment.vacant = true →
    memory (segment.address + segment.size - 1) ≠ memBlockStatUse

section Reading

variable {system : HeapSystem} {slot : Slot} {ledger : List Allocation} {layout : List Segment}

theorem HeapHolds.freeTagsClear_iff
    (holds : HeapHolds system.memory (system.heapList slot) ledger layout) :
    FreeTagsClear system slot ↔ LayoutClear system.memory layout := by
  unfold FreeTagsClear LayoutClear
  rw [holds.freeListNodes_eq]
  constructor
  · intro clear segment member vacant
    have tag := clear segment.address (mem_freeNodes.mpr ⟨segment, member, vacant, rfl⟩)
    rwa [holds.bytes.blockSize_eq member] at tag
  · intro clear block isNode
    obtain ⟨segment, member, vacant, rfl⟩ := mem_freeNodes.mp isNode
    rw [holds.bytes.blockSize_eq member]
    exact clear segment member vacant

theorem freeTagsClear_of_empty (isEmpty : (system.heapList slot).freeList = 0) :
    FreeTagsClear system slot := by
  have noNodes : freeListNodes system slot = [] := by
    unfold freeListNodes
    rw [isEmpty]
    exact Path.walk_eq (path_nil.mpr rfl) (by simp) (by unfold loopBound; decide)
  intro block isNode
  rw [noNodes] at isNode
  exact absurd isNode (by simp)

/-- A vacant segment that is kept up to its link stays clear: its tag is behind
the link, or is the zero at the end of it. -/
theorem HeapHolds.clear_of_kept {before : Memory} {segment : Segment}
    (holds : HeapHolds system.memory (system.heapList slot) ledger layout)
    (member : segment ∈ layout) (vacant : segment.vacant = true)
    (kept : Kept system.memory before segment)
    (clear : before (segment.address + segment.size - 1) ≠ memBlockStatUse) :
    system.memory (segment.address + segment.size - 1) ≠ memBlockStatUse := by
  have large := holds.bytes.large segment member
  have aligned := holds.bytes.aligned segment member
  by_cases isSixteen : segment.size = 16
  · rw [holds.last_of_smallest member vacant isSixteen]
    decide
  · rw [kept.vacant _ (by omega) (by omega) (by omega)]
    exact clear

end Reading

/-! ## Blocks taken and given back -/

section Blocks

variable {system after : HeapSystem} {slot : Slot} {ledger : List Allocation}
  {layout layout' : List Segment} {segment : Segment} {size : Nat} {owner : Nat → Allocation}

theorem Granted.layoutClear (granted : Granted system slot ledger layout size owner after segment
    layout') (clear : LayoutClear system.memory layout) : LayoutClear after.memory layout' := by
  intro other member vacant
  by_cases old : other ∈ layout
  · exact granted.holds.clear_of_kept member vacant (granted.kept other old member)
      (clear other old vacant)
  · rw [granted.freshTag other member old vacant]
    decide

variable {left right left' right' : List Segment} {block joined : Segment}

theorem Surrendered.layoutClear
    (holds : HeapHolds system.memory (system.heapList slot) ledger (left ++ block :: right))
    (surrendered : Surrendered system slot ledger left block right after left' joined right')
    (clear : LayoutClear system.memory (left ++ block :: right)) :
    LayoutClear after.memory (left' ++ joined :: right') := by
  have released := surrendered.released
  have joinedClear : after.memory (joined.address + joined.size - 1) ≠ memBlockStatUse := by
    by_cases followed : ∃ following ∈ right.head?, following.vacant = true
    · obtain ⟨following, isHead, vacant⟩ := followed
      rw [surrendered.tag_joined holds isHead vacant]
      have inRight : following ∈ right := List.mem_of_mem_head? isHead
      exact clear following (by simp [inRight]) vacant
    · rw [surrendered.tag_alone holds followed]
      split
      · decide
      · decide
  intro other member vacant
  by_cases isJoined : other = joined
  · rw [isJoined]
    exact joinedClear
  · have beside : other ∈ left' ++ right' := by
      simp only [List.mem_append, List.mem_cons] at member ⊢
      tauto
    exact surrendered.holds.clear_of_kept member vacant (released.kept other beside)
      (clear other (released.old_mem beside) vacant)

end Blocks

/-! ## All slots -/

def Clear (system : HeapSystem) : Prop := ∀ slot, FreeTagsClear system slot

section Slots

variable {state : ClientState} {slot other : Slot} {after : HeapSystem}

/-- A heap whose bytes are the same stays clear. -/
theorem HeapHolds.clear_of_agree {ledger : List Allocation} {layout : List Segment}
    (holds : HeapHolds state.system.memory (state.system.heapList slot) ledger layout)
    (same : after.heapList slot = state.system.heapList slot)
    (agree : AgreeOn after.memory state.system.memory (state.system.heapList slot).low
      (state.system.heapList slot).high)
    (clear : FreeTagsClear state.system slot) : FreeTagsClear after slot := by
  have afterHolds := holds.of_agree agree
  rw [← same] at afterHolds
  rw [afterHolds.freeTagsClear_iff]
  rw [holds.freeTagsClear_iff] at clear
  intro segment member vacant
  have bounds := holds.bytes.bounds member
  have large := holds.bytes.large segment member
  rw [agree _ (by omega) (by omega)]
  exact clear segment member vacant

/-- What happens in one slot does not concern the free lists of the others. -/
theorem AllHold.clear_elsewhere (allHold : AllHold state)
    (confined : Confined state.system after slot) (isLive : 0 < (state.system.heapList slot).size)
    (different : other ≠ slot) (clear : Clear state.system) : FreeTagsClear after other := by
  have same := confined.elsewhere other different
  by_cases isUnused : (state.system.heapList other).size = 0
  · apply freeTagsClear_of_empty
    rw [same]
    exact (allHold.unused other isUnused).1
  · obtain ⟨layout, holds⟩ := allHold.live other (Nat.pos_of_ne_zero isUnused)
    exact holds.clear_of_agree same (allHold.agree_elsewhere confined isLive different holds)
      (clear other)

theorem Taken.clear {size ptr : Nat} {owner : Nat → Allocation}
    (taken : Taken state slot size owner ptr after) (allHold : AllHold state)
    (clear : Clear state.system) : Clear after := by
  obtain ⟨layout, segment, layout', -, holds, granted⟩ := taken
  intro other
  by_cases isSlot : other = slot
  · subst isSlot
    rw [granted.holds.freeTagsClear_iff]
    exact granted.layoutClear (holds.freeTagsClear_iff.mp (clear other))
  · exact allHold.clear_elsewhere granted.confined holds.live isSlot clear

theorem AllHold.memDeallocate_clear (allHold : AllHold state) {ptr : Nat}
    (live : LivePointer state slot ptr) (clear : Clear state.system)
    (isFreed : memDeallocate state.system slot ptr = some after) : Clear after := by
  obtain ⟨layout, holds⟩ := allHold.live slot (allHold.inRegion_of_live live).1
  obtain ⟨left, block, right, allocation, isLayout, owned, rfl⟩ := holds.block_of_live live
  subst isLayout
  obtain ⟨final, left', joined, right', isFinal, surrendered⟩ := memDeallocate_spec holds owned
  have isAfter : final = after := Option.some.inj (isFinal.symm.trans isFreed)
  subst isAfter
  intro other
  by_cases isSlot : other = slot
  · subst isSlot
    rw [surrendered.holds.freeTagsClear_iff]
    exact surrendered.layoutClear holds (holds.freeTagsClear_iff.mp (clear other))
  · exact allHold.clear_elsewhere surrendered.confined holds.live isSlot clear

/-- A free of a live pointer, through its handle or the null one. -/
theorem AllHold.free_clear (allHold : AllHold state) {handle : Option Slot} {ptr : Nat}
    (through : Through handle slot) (live : LivePointer state slot ptr)
    (clear : Clear state.system)
    (isFreed : tuyaMemHeapFree state.system handle ptr = some after) : Clear after := by
  rw [tuyaMemHeapFree_eq, allHold.freeTarget_eq through live] at isFreed
  by_cases stopped : handle = none ∧ ¬ Reached state.system slot
  · rw [if_pos stopped] at isFreed
    rw [← Option.some.inj isFreed]
    exact clear
  · rw [if_neg stopped] at isFreed
    exact allHold.memDeallocate_clear live clear isFreed

/-- Stores below the tag of an owned block. -/
theorem HeapHolds.rewrite_clear {layout : List Segment} {block : Segment} {memory : Memory}
    (holds : HeapHolds state.system.memory (state.system.heapList slot) (state.ledger slot) layout)
    (allHold : AllHold state) (member : block ∈ layout) (owned : block.vacant = false)
    (same : ∀ address, address < block.address + 8 ∨ block.address + block.size - 1 ≤ address →
      memory address = state.system.memory address) (clear : Clear state.system) :
    Clear { state.system with memory := memory } := by
  intro other
  by_cases isSlot : other = slot
  · subst isSlot
    have afterHolds : HeapHolds
        (HeapSystem.mk memory state.system.heapList state.system.heapFreeSize
          state.system.heapFreeSizeWatermark).memory
        (state.system.heapList other) (state.ledger other) layout :=
      holds.writeInside member owned same
    rw [HeapHolds.freeTagsClear_iff afterHolds]
    have old := holds.freeTagsClear_iff.mp (clear other)
    intro segment inLayout vacant
    have large := holds.bytes.large segment inLayout
    have unchanged : memory (segment.address + segment.size - 1) =
        state.system.memory (segment.address + segment.size - 1) := by
      apply same
      rcases holds.bytes.apart inLayout member with isBlock | before | behind
      · rw [isBlock, owned] at vacant
        exact absurd vacant (by decide)
      · omega
      · omega
    show memory (segment.address + segment.size - 1) ≠ memBlockStatUse
    rw [unchanged]
    exact old segment inLayout vacant
  · exact allHold.clear_elsewhere (holds.rewrite_transfer member owned same).confined holds.live
      isSlot clear

end Slots

/-! ## Calls -/

section Calls

variable {state : ClientState} {slot : Slot} {after : HeapSystem}

theorem Created.clear {startAddr : Nat} {size : UInt32}
    (made : Created state.system slot startAddr size.toNat after) (nonempty : size.toNat ≠ 0)
    (legal : FreeRegion state.system startAddr size.toNat) (allHold : AllHold state)
    (clear : Clear state.system) : Clear after := by
  intro other
  by_cases isSlot : other = slot
  · subst isSlot
    rw [made.holds.freeTagsClear_iff]
    intro segment member _
    have room := made.holds.room
    rw [List.mem_singleton.mp member]
    dsimp only
    rw [Nat.add_sub_cancel' (by omega), made.tag]
    decide
  · have same := made.elsewhere other isSlot
    by_cases isUnused : (state.system.heapList other).size = 0
    · apply freeTagsClear_of_empty
      rw [same]
      exact (allHold.unused other isUnused).1
    · obtain ⟨layout, holds⟩ := allHold.live other (Nat.pos_of_ne_zero isUnused)
      exact holds.clear_of_agree same (made.agree_elsewhere nonempty legal holds) (clear other)

theorem clear_of_heaps (sameMemory : after.memory = state.system.memory)
    (sameLists : ∀ slot, (after.heapList slot).freeList = (state.system.heapList slot).freeList)
    (clear : Clear state.system) : Clear after := by
  intro slot block isNode
  unfold freeListNodes at isNode
  rw [sameMemory, sameLists] at isNode
  rw [sameMemory]
  exact clear slot block isNode

/-- A deleted heap has no free list. -/
theorem clear_of_deleted (slot : Slot) (clear : Clear state.system) :
    Clear (tuyaMemHeapDelete state.system (some slot)) := by
  intro other
  by_cases isSlot : other = slot
  · apply freeTagsClear_of_empty
    simp [tuyaMemHeapDelete, memHeapDelete, HeapSystem.setHeap, isSlot, MemHeap.zeroed]
  · have same : (tuyaMemHeapDelete state.system (some slot)).heapList other =
        state.system.heapList other := by
      simp [tuyaMemHeapDelete, memHeapDelete, HeapSystem.setHeap, isSlot]
    intro block isNode
    unfold freeListNodes at isNode
    rw [same] at isNode
    exact clear other block isNode

/-- A request that fails or takes a block. -/
theorem AllHold.request_clear (allHold : AllHold state) {handle : Option Slot}
    {result : Option (Nat × HeapSystem)} {size : Nat} {owner : Nat → Allocation}
    (cases_ : result = some (0, state.system) ∨
      ∃ slot ptr after, Through handle slot ∧ result = some (ptr, after) ∧
        Taken state slot size owner ptr after)
    (clear : Clear state.system) {ptr : Nat} (isResult : result = some (ptr, after)) :
    Clear after := by
  rcases cases_ with isNull | ⟨slot, new, other, -, isOther, taken⟩
  · rw [isNull] at isResult
    have isSame : state.system = after := congrArg Prod.snd (Option.some.inj isResult)
    rw [← isSame]
    exact clear
  · rw [isOther] at isResult
    have isSame : other = after := congrArg Prod.snd (Option.some.inj isResult)
    rw [← isSame]
    exact taken.clear allHold clear

/-- A realloc of a live pointer. -/
theorem AllHold.realloc_clear (allHold : AllHold state) {handle : Option Slot} {ptr new : Nat}
    {size : UInt32} (through : Through handle slot) (live : LivePointer state slot ptr)
    (clear : Clear state.system)
    (isResult : tuyaMemHeapRealloc state.system handle ptr size = some (new, after)) :
    Clear after := by
  have isRealloc := allHold.realloc_eq live handle size
  rw [isResult] at isRealloc
  by_cases large : reallocBlock size ≤ blockSize state.system.memory (ptr - 8)
  · rw [if_pos large] at isRealloc
    have isSame : after = state.system := congrArg Prod.snd (Option.some.inj isRealloc)
    rw [isSame]
    exact clear
  rw [if_neg large] at isRealloc
  rcases allHold.malloc_cases handle (reallocSize size) (le_refl _) with
    ⟨-, isNull⟩ | ⟨-, taker, tmp, middle, takerThrough, isBlock, taken⟩
  · simp only [isNull, Option.bind_some, if_true] at isRealloc
    have isSame : after = state.system := congrArg Prod.snd (Option.some.inj isRealloc)
    rw [isSame]
    exact clear
  · obtain ⟨-, filled, moves⟩ :=
      allHold.realloc_taken live (Nat.lt_of_not_le large) isBlock taken
    rw [isResult] at moves
    obtain ⟨-, entered⟩ := allHold.enter_taken takerThrough (fun _ => rfl) filled
    obtain ⟨final, isFreed, isFinal⟩ := Option.map_eq_some_iff.mp moves.symm
    have isSame : final = after := congrArg Prod.snd isFinal
    rw [← isSame]
    exact (entered.allHold allHold).free_clear through (live.entered _ taker _)
      (filled.clear allHold clear) isFreed

/-- Every admitted call returns and keeps the free lists clear of use tags. -/
theorem step_clear {call : Call} (allHold : AllHold state) (clear : Clear state.system)
    (legal : LegalCall state call) (roomy : Roomy state call) :
    ∃ next, step state call = some next ∧ AllHold next ∧ Clear next.system := by
  obtain ⟨next, stepped, result⟩ := step_result allHold legal roomy
  have nextHold := result.allHold legal allHold
  refine ⟨next, stepped, nextHold, ?_⟩
  cases call with
  | create startAddr size =>
      rcases create_cases legal roomy with
        ⟨after, isNext, failed⟩ | ⟨slot, after, isNext, made, nonempty⟩
      · rw [← Option.some.inj (isNext.symm.trans stepped)]
        have sameLists : ∀ slot, (after.heapList slot).freeList =
            (state.system.heapList slot).freeList := by
          intro slot
          rcases failed.heaps slot with isSame | ⟨-, base, isBase⟩
          · rw [isSame]
          · rw [isBase]
        exact clear_of_heaps failed.memory sameLists clear
      · rw [← Option.some.inj (isNext.symm.trans stepped)]
        exact made.clear nonempty legal allHold clear
  | delete handle =>
      cases handle with
      | none =>
          rw [← Option.some.inj stepped]
          exact clear
      | some slot =>
          rw [← Option.some.inj stepped]
          exact clear_of_deleted slot clear
  | malloc handle size =>
      have cases_ := allHold.malloc_cases handle size (le_refl _)
      obtain ⟨⟨ptr, after⟩, isResult, rfl⟩ := Option.map_eq_some_iff.mp stepped
      rw [ClientState.enter_system]
      exact allHold.request_clear (cases_.imp And.right And.right) clear isResult
  | calloc handle size =>
      obtain ⟨⟨ptr, after⟩, isResult, rfl⟩ := Option.map_eq_some_iff.mp stepped
      rw [ClientState.enter_system]
      exact allHold.request_clear (allHold.calloc_taken handle size) clear isResult
  | debugMalloc handle size filename line =>
      obtain ⟨⟨ptr, after⟩, isResult, rfl⟩ := Option.map_eq_some_iff.mp stepped
      rw [ClientState.enter_system]
      exact allHold.request_clear (allHold.debugMalloc_cases handle size filename line) clear
        isResult
  | realloc handle ptr size =>
      rcases legal with rfl | ⟨slot, through, live⟩
      · have cases_ := allHold.malloc_cases handle size (le_refl _)
        rw [realloc_null] at stepped
        obtain ⟨⟨ptr, after⟩, isResult, rfl⟩ := Option.map_eq_some_iff.mp stepped
        rw [ClientState.enter_system]
        exact allHold.request_clear (cases_.imp And.right And.right) clear isResult
      · obtain ⟨⟨new, after⟩, isResult, rfl⟩ := Option.map_eq_some_iff.mp stepped
        rw [ClientState.reallocated_system]
        exact allHold.realloc_clear through live clear isResult
  | free handle ptr =>
      rcases legal with rfl | ⟨slot, through, live⟩
      · rw [← Option.some.inj ((allHold.free_null handle).symm.trans stepped)]
        exact clear
      · obtain ⟨after, isFreed, rfl⟩ := Option.map_eq_some_iff.mp stepped
        rw [ClientState.leave_system]
        exact allHold.free_clear through live clear isFreed
  | store address value =>
      obtain ⟨slot, requested⟩ := legal
      obtain ⟨layout, holds⟩ := allHold.live slot (allHold.live_of_requested requested)
      obtain ⟨block, member, owned, same⟩ := holds.storedBlock requested value
      rw [← Option.some.inj stepped]
      exact holds.rewrite_clear allHold member owned same clear

end Calls

/-- Clients that made admitted calls leave every heap well formed and every free
list clear of use tags. -/
theorem run_clear (memory : Memory) {calls : List Call}
    (legal : EveryStep step LegalCall ⟨HeapSystem.initial memory, fun _ => []⟩ calls)
    (roomy : EveryStep step Roomy ⟨HeapSystem.initial memory, fun _ => []⟩ calls) :
    ∃ final, run step ⟨HeapSystem.initial memory, fun _ => []⟩ calls = some final ∧
      AllHold final ∧ Clear final.system := by
  have start : Clear (HeapSystem.initial memory) := fun slot => freeTagsClear_of_empty rfl
  have progress : ∀ state call, AllHold state ∧ Clear state.system →
      LegalCall state call ∧ Roomy state call →
      ∃ next, step state call = some next ∧ AllHold next ∧ Clear next.system := by
    intro state call holds admitted
    exact step_clear holds.1 holds.2 admitted.1 admitted.2
  exact run_total progress ⟨allHold_initial memory, start⟩ (legal.and roomy)

end TuyaAdapter.TuyaMemHeap
