import Mathlib.Logic.Relation
import TuyaAdapter.TuyaMemHeap.Status

/-!
Contract: all slots of `mem_heap_list` together.

`AllHold` is the invariant of a state with any number of heaps: every live slot
holds a well-formed heap, their regions share no byte, and an unused slot has
nothing. A call of the public interface that touches blocks is a sequence of
transfers, each confined to one slot; `Transfer` says what one of them does to
the heap, to the ledger and to the counters. The calls through a null handle
look at the slots up to the first unused one, which are the reached slots.
-/

namespace TuyaAdapter.TuyaMemHeap

open Foundation Foundation.ByteMemory Foundation.LinkedPath Foundation.Tiling Foundation.Run
open Foundation.MachineWord (add sub)

/-! ## Invariant -/

/-- Two regions share no byte. -/
def RegionsApart (one other : MemHeap) : Prop :=
  one.base + one.size ≤ other.base ∨ other.base + other.size ≤ one.base

structure AllHold (state : ClientState) : Prop where
  live : ∀ slot, 0 < (state.system.heapList slot).size →
    ∃ layout, HeapHolds state.system.memory (state.system.heapList slot) (state.ledger slot) layout
  unused : ∀ slot, (state.system.heapList slot).size = 0 →
    (state.system.heapList slot).freeList = 0 ∧ (state.system.heapList slot).free = 0 ∧
      state.ledger slot = []
  small : ∀ slot, (state.system.heapList slot).size < 2 ^ 32
  apart : ∀ one other, one ≠ other → 0 < (state.system.heapList one).size →
    0 < (state.system.heapList other).size →
    RegionsApart (state.system.heapList one) (state.system.heapList other)

theorem allHold_initial (memory : Memory) :
    AllHold ⟨HeapSystem.initial memory, fun _ => []⟩ where
  live := fun _ isLive => absurd isLive (by simp [HeapSystem.initial, MemHeap.zeroed])
  unused := fun _ _ => ⟨rfl, rfl, rfl⟩
  small := fun _ => by simp [HeapSystem.initial, MemHeap.zeroed]
  apart := fun _ _ _ isLive => absurd isLive (by simp [HeapSystem.initial, MemHeap.zeroed])

/-! ## Transfers -/

/-- How a transfer moves bytes between a heap and its clients, and what the
counters of all heaps make of it. -/
inductive Booked (before after : HeapSystem) (slot : Slot) : Prop
  | taken (bytes : Nat)
      (free : (after.heapList slot).free + bytes = (before.heapList slot).free)
      (total : after.heapFreeSize = sub 64 before.heapFreeSize bytes)
      (totalWatermark : after.heapFreeSizeWatermark =
        min before.heapFreeSizeWatermark after.heapFreeSize)
  | returned (bytes : Nat)
      (free : (after.heapList slot).free = (before.heapList slot).free + bytes)
      (total : after.heapFreeSize = add 64 before.heapFreeSize bytes)
      (totalWatermark : after.heapFreeSizeWatermark = before.heapFreeSizeWatermark)
  | same (free : (after.heapList slot).free = (before.heapList slot).free)
      (total : after.heapFreeSize = before.heapFreeSize)
      (totalWatermark : after.heapFreeSizeWatermark = before.heapFreeSizeWatermark)

/-- One change to the blocks of a slot. -/
structure Transfer (slot : Slot) (before after : ClientState) : Prop where
  holds : ∃ layout, HeapHolds after.system.memory (after.system.heapList slot)
    (after.ledger slot) layout
  confined : Confined before.system after.system slot
  ledger : ∀ other, other ≠ slot → after.ledger other = before.ledger other
  booked : Booked before.system after.system slot

/-- Any number of changes, each to the blocks of some slot. -/
def Transfers : ClientState → ClientState → Prop :=
  Relation.ReflTransGen fun before after => ∃ slot, Transfer slot before after

section Transfer

variable {state next : ClientState} {slot : Slot}

/-- What is confined to one slot does not touch the blocks of another live heap. -/
theorem AllHold.agree_elsewhere (allHold : AllHold state) {after : HeapSystem}
    (confined : Confined state.system after slot) (isLive : 0 < (state.system.heapList slot).size)
    {other : Slot} (different : other ≠ slot) {layout : List Segment}
    (holds : HeapHolds state.system.memory (state.system.heapList other) (state.ledger other) layout) :
    AgreeOn after.memory state.system.memory (state.system.heapList other).low
      (state.system.heapList other).high := by
  obtain ⟨own, ownHolds⟩ := allHold.live slot isLive
  have inside := holds.inside
  have ownInside := ownHolds.inside
  have apart := allHold.apart other slot different holds.live isLive
  unfold RegionsApart at apart
  intro address lower upper
  apply confined.outside
  omega

/-- Another live heap does not notice what is confined to one slot. -/
theorem AllHold.elsewhere (allHold : AllHold state) {after : HeapSystem}
    (confined : Confined state.system after slot) (isLive : 0 < (state.system.heapList slot).size)
    {other : Slot} (different : other ≠ slot) {layout : List Segment}
    (holds : HeapHolds state.system.memory (state.system.heapList other) (state.ledger other) layout) :
    HeapHolds after.memory (after.heapList other) (state.ledger other) layout := by
  rw [confined.elsewhere other different]
  exact holds.of_agree (allHold.agree_elsewhere confined isLive different holds)

theorem Transfer.allHold (transfer : Transfer slot state next) (allHold : AllHold state) :
    AllHold next := by
  obtain ⟨layout, holds⟩ := transfer.holds
  have confined := transfer.confined
  have isLive : 0 < (state.system.heapList slot).size := by
    rw [← confined.size]
    exact holds.live
  have sameSize : ∀ other, (next.system.heapList other).size = (state.system.heapList other).size := by
    intro other
    by_cases isSlot : other = slot
    · rw [isSlot, confined.size]
    · rw [confined.elsewhere other isSlot]
  have sameBase : ∀ other, (next.system.heapList other).base = (state.system.heapList other).base := by
    intro other
    by_cases isSlot : other = slot
    · rw [isSlot, confined.base]
    · rw [confined.elsewhere other isSlot]
  refine ⟨?_, ?_, ?_, ?_⟩
  · intro other otherLive
    by_cases isSlot : other = slot
    · rw [isSlot]
      exact ⟨layout, holds⟩
    · rw [sameSize] at otherLive
      obtain ⟨its, itsHolds⟩ := allHold.live other otherLive
      rw [transfer.ledger other isSlot]
      exact ⟨its, allHold.elsewhere confined isLive isSlot itsHolds⟩
  · intro other isUnused
    rw [sameSize] at isUnused
    have isOther : other ≠ slot := by
      intro isSlot
      rw [isSlot] at isUnused
      omega
    rw [confined.elsewhere other isOther, transfer.ledger other isOther]
    exact allHold.unused other isUnused
  · intro other
    rw [sameSize]
    exact allHold.small other
  · intro one other different oneLive otherLive
    rw [sameSize] at oneLive otherLive
    unfold RegionsApart
    rw [sameSize, sameSize, sameBase, sameBase]
    exact allHold.apart one other different oneLive otherLive

theorem Transfers.allHold (transfers : Transfers state next) (allHold : AllHold state) :
    AllHold next := by
  induction transfers with
  | refl => exact allHold
  | tail _ last inductionHypothesis =>
      obtain ⟨slot, transfer⟩ := last
      exact transfer.allHold inductionHypothesis

theorem Transfers.one (transfer : Transfer slot state next) : Transfers state next :=
  Relation.ReflTransGen.single ⟨slot, transfer⟩

/-! ## Blocks of a slot -/

theorem AllHold.free_lt (allHold : AllHold state) (slot : Slot) :
    (state.system.heapList slot).free < 2 ^ 32 := by
  by_cases isLive : 0 < (state.system.heapList slot).size
  · obtain ⟨layout, holds⟩ := allHold.live slot isLive
    have inside := holds.inside
    have bounded := holds.bytes.vacantBytes_le
    have small := allHold.small slot
    rw [holds.free]
    omega
  · rw [(allHold.unused slot (by omega)).2.1]
    exact Nat.two_pow_pos 32

variable {layout : List Segment}

/-- The pointer of a live allocation lies in the region of its heap. -/
theorem HeapHolds.inRegion {memory : Memory} {heap : MemHeap} {ledger : List Allocation}
    (holds : HeapHolds memory heap ledger layout) {segment : Segment} (member : segment ∈ layout) :
    InRegion heap (segment.address + 8) := by
  have bounds := holds.bytes.bounds member
  have large := holds.bytes.large segment member
  have inside := holds.inside
  exact ⟨holds.live, by omega, by omega⟩

/-- A pointer lies in one region only. -/
theorem AllHold.region_unique (allHold : AllHold state) {one other : Slot} {ptr : Nat}
    (inOne : InRegion (state.system.heapList one) ptr)
    (inOther : InRegion (state.system.heapList other) ptr) : one = other := by
  by_contra different
  have apart := allHold.apart one other different inOne.1 inOther.1
  unfold RegionsApart at apart
  unfold InRegion at inOne inOther
  omega

theorem AllHold.inRegion_of_live (allHold : AllHold state) {ptr : Nat}
    (live : LivePointer state slot ptr) : InRegion (state.system.heapList slot) ptr := by
  have isLive : 0 < (state.system.heapList slot).size := by
    rw [Nat.pos_iff_ne_zero]
    intro isUnused
    obtain ⟨allocation, inLedger, -⟩ := live
    rw [(allHold.unused slot isUnused).2.2] at inLedger
    exact absurd inLedger List.not_mem_nil
  obtain ⟨layout, holds⟩ := allHold.live slot isLive
  obtain ⟨left, block, right, allocation, isLayout, -, rfl⟩ := holds.block_of_live live
  exact holds.inRegion (by simp [isLayout])

/-- A search for the region of a pointer finds the slot that has it. -/
theorem AllHold.find_region (allHold : AllHold state) {slots : List Slot} {ptr : Nat}
    (member : slot ∈ slots) (inRegion : InRegion (state.system.heapList slot) ptr) :
    (slots.find? fun other => InRegion (state.system.heapList other) ptr) = some slot := by
  have found : (slots.find? fun other => InRegion (state.system.heapList other) ptr).isSome := by
    rw [List.find?_isSome]
    exact ⟨slot, member, by simpa using inRegion⟩
  obtain ⟨other, isOther⟩ := Option.isSome_iff_exists.mp found
  have inOther : InRegion (state.system.heapList other) ptr := by
    simpa using List.find?_some isOther
  rw [allHold.region_unique inRegion inOther]
  exact isOther

/-- The slot an allocation is entered under is the slot it was taken from. -/
theorem AllHold.home_eq (allHold : AllHold state) {handle : Option Slot} {ptr : Nat}
    (through : handle = none ∨ handle = some slot)
    (inRegion : InRegion (state.system.heapList slot) ptr) :
    home state.system handle ptr = some slot := by
  rcases through with rfl | rfl
  · exact allHold.find_region (List.mem_finRange slot) inRegion
  · rfl

/-! ## The kinds of transfers -/

theorem Granted.transfer {size : Nat} {owner : Nat → Allocation} {after : HeapSystem}
    {segment : Segment} {layout' : List Segment}
    (granted : Granted state.system slot (state.ledger slot) layout size owner after segment
      layout')
    (holds : HeapHolds state.system.memory (state.system.heapList slot) (state.ledger slot)
      layout) :
    Transfer slot state
      ⟨after, Function.update state.ledger slot
        (owner segment.address :: state.ledger slot)⟩ where
  holds := ⟨layout', by simpa using granted.holds⟩
  confined := granted.confined
  ledger := fun other different => Function.update_of_ne different _ _
  booked := by
    apply Booked.taken segment.size
    · rw [granted.holds.free, holds.free, granted.carve.vacantBytes_eq]
    · exact granted.total
    · exact granted.totalWatermark

theorem Surrendered.transfer {after : HeapSystem} {left right left' right' : List Segment}
    {block joined : Segment}
    (surrendered : Surrendered state.system slot (state.ledger slot) left block right after left'
      joined right') :
    Transfer slot state
      ⟨after, Function.update state.ledger slot
        ((state.ledger slot).filter fun allocation =>
          allocation.pointer ≠ block.address + 8)⟩ where
  holds := ⟨_, by simpa using surrendered.holds⟩
  confined := surrendered.confined
  ledger := fun other different => Function.update_of_ne different _ _
  booked := Booked.returned block.size surrendered.free surrendered.total
    surrendered.totalWatermark

/-- Bytes of an owned block between its header and its tag are rewritten. -/
theorem HeapHolds.rewrite_transfer {block : Segment} {memory : Memory}
    (holds : HeapHolds state.system.memory (state.system.heapList slot) (state.ledger slot)
      layout)
    (member : block ∈ layout) (owned : block.vacant = false)
    (same : ∀ address, address < block.address + 8 ∨ block.address + block.size - 1 ≤ address →
      memory address = state.system.memory address) :
    Transfer slot state { state with system := { state.system with memory := memory } } where
  holds := ⟨layout, holds.writeInside member owned same⟩
  confined := by
    have bounds := holds.bytes.bounds member
    have large := holds.bytes.large block member
    refine ⟨fun address outside => ?_, fun _ _ => rfl, rfl, rfl⟩
    apply same
    omega
  ledger := fun _ _ => rfl
  booked := Booked.same rfl rfl rfl

/-- A ledger entry once the block of a pointer is worth another number of
bytes. -/
def relabel (ptr requested : Nat) (allocation : Allocation) : Allocation :=
  if allocation.pointer = ptr then ⟨ptr, requested, none⟩ else allocation

theorem relabel_of_ne {ptr : Nat} (requested : Nat) {ledger : List Allocation}
    (apart : ∀ allocation ∈ ledger, allocation.pointer ≠ ptr) :
    ledger.map (relabel ptr requested) = ledger := by
  induction ledger with
  | nil => rfl
  | cons allocation rest inductionHypothesis =>
      have notPtr := apart allocation List.mem_cons_self
      rw [List.map_cons, relabel, if_neg notPtr,
        inductionHypothesis fun other member => apart other (List.mem_cons_of_mem _ member)]

section Reowned

variable {memory : Memory} {heap : MemHeap} {ledger : List Allocation} {left right : List Segment}
  {block : Segment} {allocation : Allocation} {requested : Nat}

/-- A block whose owner is a plain allocation of another size. -/
def reowned (block : Segment) (requested : Nat) : Segment :=
  { block with owner := some ⟨block.address + 8, requested, none⟩ }

theorem LayoutHolds.reowned {freeList low high : Nat}
    (holds : LayoutHolds memory freeList low high (left ++ block :: right))
    (owned : block.vacant = false) (fits : requested + 9 ≤ block.size) :
    LayoutHolds memory freeList low high (left ++ reowned block requested :: right) := by
  have member : block ∈ left ++ block :: right := by simp
  have arranged : Arranged low high (left ++ [TuyaMemHeap.reowned block requested] ++ right) := by
    have before : Arranged low high (left ++ [block] ++ right) := by
      simpa using holds.toArranged
    apply before.replace
    · exact fun _ _ contiguous => contiguous
    · intro segment isBlock
      rw [List.mem_singleton.mp isBlock]
      exact holds.large block member
    · intro segment isBlock
      rw [List.mem_singleton.mp isBlock]
      exact holds.aligned block member
  rw [List.append_assoc, List.singleton_append] at arranged
  refine ⟨arranged, ?_, ?_⟩
  · intro segment inLayout
    by_cases isBlock : segment = TuyaMemHeap.reowned block requested
    · have segmentHolds := holds.segments block member
      rw [isBlock]
      refine ⟨segmentHolds.header, fun _ => segmentHolds.tag owned, ?_⟩
      intro other isOther
      rw [← Option.some.inj isOther]
      exact ⟨rfl, fits⟩
    · apply holds.segments
      simp only [List.mem_append, List.mem_cons, isBlock, false_or] at inLayout
      simp only [List.mem_append, List.mem_cons]
      tauto
  · have links := holds.links
    rw [freeNodes_append, freeNodes_cons_owned owned] at links
    rw [freeNodes_append, freeNodes_cons_owned rfl]
    exact links

theorem HeapHolds.reowned (holds : HeapHolds memory heap ledger (left ++ block :: right))
    (owned : block.owner = some allocation) (fits : requested + 9 ≤ block.size) :
    HeapHolds memory heap (ledger.map (relabel (block.address + 8) requested))
      (left ++ reowned block requested :: right) := by
  have pointer := ((holds.bytes.segments block (by simp)).owned allocation owned).1
  have blockOwned := vacant_of_owner owned
  have others : ∀ other ∈ allocations left ++ allocations right,
      other.pointer ≠ block.address + 8 := by
    rw [← allocations_filter_pointer holds.bytes owned]
    intro other member
    simpa using List.of_mem_filter member
  have leftKept := relabel_of_ne requested fun other member =>
    others other (List.mem_append_left _ member)
  have rightKept := relabel_of_ne requested fun other member =>
    others other (List.mem_append_right _ member)
  refine ⟨holds.live, holds.fits, holds.room, holds.bytes.reowned blockOwned fits, ?_, ?_, ?_⟩
  · exact separated_occupied holds.separated.front holds.separated.back.tail rfl
  · rw [holds.free, vacantBytes_append, vacantBytes_append, vacantBytes_cons_owned blockOwned,
      vacantBytes_cons_owned rfl]
  · have mapped := holds.owners.map (relabel (block.address + 8) requested)
    rw [allocations_append, allocations_cons_owned owned, List.map_append, List.map_cons, leftKept,
      rightKept, relabel, if_pos pointer] at mapped
    rw [allocations_append, allocations_cons_owned rfl]
    exact mapped

end Reowned

/-- A pointer is live in one slot only. -/
theorem AllHold.pointer_elsewhere (allHold : AllHold state) {ptr : Nat}
    (live : LivePointer state slot ptr) {other : Slot} (different : other ≠ slot) :
    ∀ allocation ∈ state.ledger other, allocation.pointer ≠ ptr := by
  intro allocation inLedger isPtr
  have inOther := allHold.inRegion_of_live ⟨allocation, inLedger, isPtr⟩
  exact different (allHold.region_unique inOther (allHold.inRegion_of_live live))

/-- The block of a live pointer is kept for a request that fits in it. -/
theorem AllHold.resize_transfer (allHold : AllHold state) {ptr requested : Nat}
    (live : LivePointer state slot ptr)
    (fits : requested + 9 ≤ blockSize state.system.memory (ptr - 8)) :
    Transfer slot state (state.resize state.system ptr requested) := by
  obtain ⟨layout, holds⟩ := allHold.live slot (allHold.inRegion_of_live live).1
  obtain ⟨left, block, right, allocation, isLayout, owned, isPtr⟩ := holds.block_of_live live
  subst isLayout
  have size := holds.bytes.blockSize_eq (show block ∈ left ++ block :: right by simp)
  rw [isPtr, Nat.add_sub_cancel, size] at fits
  refine ⟨⟨left ++ reowned block requested :: right, ?_⟩, Confined.refl _ _, ?_,
    Booked.same rfl rfl rfl⟩
  · have reowned := holds.reowned owned fits
    rw [← isPtr] at reowned
    exact reowned
  · intro other different
    exact relabel_of_ne requested (allHold.pointer_elsewhere live different)

end Transfer

end TuyaAdapter.TuyaMemHeap
