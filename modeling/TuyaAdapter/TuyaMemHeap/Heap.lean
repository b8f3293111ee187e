import TuyaAdapter.TuyaMemHeap.Deallocate

/-!
Contract: one live slot of `mem_heap_list` and the allocations made from it.

`HeapHolds` is the invariant of a heap: its bytes follow a layout without
neighbouring vacant segments, `heap->free` is the number of vacant bytes, and
the ledger of live allocations is what the owned segments belong to. `Granted`
and `Surrendered` say what `MEM_Allocate` and `MEM_Deallocate` do to such a
heap; `Confined` says that neither touches anything else.
-/

namespace TuyaAdapter.TuyaMemHeap

open Foundation Foundation.ByteMemory Foundation.LinkedPath Foundation.Tiling
open Foundation.MachineWord (add sub)

/-! ## Invariant -/

/-- User-space addresses of the target lie below this bound. -/
def addressLimit : Nat := 2 ^ 47

/-- Where the first block of a heap starts. -/
def MemHeap.low (heap : MemHeap) : Nat := alignUp heap.base

/-- Where the last block of a heap ends. -/
def MemHeap.high (heap : MemHeap) : Nat := alignDown (add 64 heap.base heap.size)

structure HeapHolds (memory : Memory) (heap : MemHeap) (ledger : List Allocation)
    (layout : List Segment) : Prop where
  live : 0 < heap.size
  fits : heap.base + heap.size ≤ addressLimit
  room : heap.low + 32 ≤ heap.high
  bytes : LayoutHolds memory heap.freeList heap.low heap.high layout
  separated : Separated Segment.vacant layout
  free : heap.free = vacantBytes layout
  owners : ledger.Perm (allocations layout)

/-- A call that works on one slot leaves the rest of the memory and the other
slots as they are. -/
structure Confined (before after : HeapSystem) (slot : Slot) : Prop where
  outside : ∀ address,
    address < (before.heapList slot).low ∨ (before.heapList slot).high ≤ address →
    after.memory address = before.memory address
  elsewhere : ∀ other, other ≠ slot → after.heapList other = before.heapList other
  base : (after.heapList slot).base = (before.heapList slot).base
  size : (after.heapList slot).size = (before.heapList slot).size

section Bounds

variable {memory : Memory} {heap : MemHeap} {ledger : List Allocation} {layout : List Segment}

theorem alignUp_of_small {x : Nat} (small : x ≤ addressLimit) :
    alignUp x = (x + 7) - (x + 7) % 8 := by
  have fits : x + (memAlignNum - 1) < 2 ^ 64 := by
    unfold addressLimit at small
    unfold memAlignNum
    omega
  unfold alignUp
  simp only [MachineWord.add_of_lt fits]
  rfl

theorem MemHeap.high_eq (fits : heap.base + heap.size ≤ addressLimit) :
    heap.high = heap.base + heap.size - (heap.base + heap.size) % 8 := by
  unfold MemHeap.high
  rw [MachineWord.add_of_lt (by unfold addressLimit at fits; omega)]
  rfl

theorem MemHeap.low_eq (fits : heap.base + heap.size ≤ addressLimit) :
    heap.low = (heap.base + 7) - (heap.base + 7) % 8 :=
  alignUp_of_small (by omega)

/-- The blocks lie inside the region the heap was created on. -/
theorem HeapHolds.inside (holds : HeapHolds memory heap ledger layout) :
    heap.base ≤ heap.low ∧ heap.high ≤ heap.base + heap.size := by
  rw [MemHeap.low_eq holds.fits, MemHeap.high_eq holds.fits]
  omega

theorem HeapHolds.high_small (holds : HeapHolds memory heap ledger layout) :
    heap.high ≤ addressLimit :=
  holds.inside.2.trans holds.fits

theorem HeapHolds.mem_ledger (holds : HeapHolds memory heap ledger layout)
    {allocation : Allocation} :
    allocation ∈ ledger ↔ ∃ segment ∈ layout, segment.owner = some allocation :=
  holds.owners.mem_iff.trans mem_allocations

/-- A live allocation owns a segment, which splits the layout. -/
theorem HeapHolds.split (holds : HeapHolds memory heap ledger layout) {allocation : Allocation}
    (live : allocation ∈ ledger) :
    ∃ left block right, layout = left ++ block :: right ∧ block.owner = some allocation ∧
      allocation.pointer = block.address + 8 ∧ allocation.footprint ≤ block.size := by
  obtain ⟨block, member, owned⟩ := holds.mem_ledger.mp live
  obtain ⟨left, right, isLayout⟩ := List.append_of_mem member
  have facts := (holds.bytes.segments block member).owned allocation owned
  exact ⟨left, block, right, isLayout, owned, facts.1, facts.2⟩

/-- Different allocations have different pointers. -/
theorem HeapHolds.pointers_nodup (holds : HeapHolds memory heap ledger layout) :
    (ledger.map Allocation.pointer).Nodup := by
  have apart : (allocations layout).Pairwise fun one other => one.pointer ≠ other.pointer := by
    unfold allocations
    rw [List.pairwise_filterMap]
    apply holds.bytes.contiguous.pairwise.imp_of_mem
    intro earlier later earlierMember laterMember ends one isOne other isOther
    have oneFacts := (holds.bytes.segments earlier earlierMember).owned one isOne
    have otherFacts := (holds.bytes.segments later laterMember).owned other isOther
    have nonempty := holds.bytes.positive earlier earlierMember
    omega
  unfold List.Nodup
  rw [List.pairwise_map]
  exact (holds.owners.pairwise_iff (fun different => different.symm)).mpr apart

end Bounds

section Frames

variable {first second third : HeapSystem} {slot : Slot}

theorem Confined.refl (system : HeapSystem) (slot : Slot) : Confined system system slot :=
  ⟨fun _ _ => rfl, fun _ _ => rfl, rfl, rfl⟩

theorem Confined.low_eq (confined : Confined first second slot) :
    (second.heapList slot).low = (first.heapList slot).low := by
  unfold MemHeap.low
  rw [confined.base]

theorem Confined.high_eq (confined : Confined first second slot) :
    (second.heapList slot).high = (first.heapList slot).high := by
  unfold MemHeap.high
  rw [confined.base, confined.size]

theorem Confined.trans (early : Confined first second slot) (late : Confined second third slot) :
    Confined first third slot where
  outside := by
    intro address outside
    have again : address < (second.heapList slot).low ∨ (second.heapList slot).high ≤ address := by
      rw [early.low_eq, early.high_eq]
      exact outside
    exact (late.outside address again).trans (early.outside address outside)
  elsewhere := fun other different =>
    (late.elsewhere other different).trans (early.elsewhere other different)
  base := late.base.trans early.base
  size := late.size.trans early.size

/-- The invariant depends on the heap's own bytes only. -/
theorem HeapHolds.of_agree {after before : Memory} {heap : MemHeap} {ledger : List Allocation}
    {layout : List Segment} (holds : HeapHolds before heap ledger layout)
    (agree : AgreeOn after before heap.low heap.high) : HeapHolds after heap ledger layout where
  live := holds.live
  fits := holds.fits
  room := holds.room
  bytes := by
    refine ⟨holds.bytes.toArranged, ?_, ?_⟩
    · intro segment member
      have inside := holds.bytes.bounds member
      have kept : Kept after before segment :=
        Kept.of_agree (agree.mono inside.1 inside.2)
      exact kept.segmentHolds (holds.bytes.segments segment member)
        (holds.bytes.large segment member)
    · apply holds.bytes.links.congr
      intro node isNode
      obtain ⟨segment, member, -, rfl⟩ := mem_freeNodes.mp isNode
      have inside := holds.bytes.bounds member
      have large := holds.bytes.large segment member
      exact blockNext_congr (agree.mono (by omega) (by omega))
  separated := holds.separated
  free := holds.free
  owners := holds.owners

/-- Bytes of an owned segment between its header and its tag are free for use:
changing them keeps the invariant. -/
theorem HeapHolds.writeInside {after before : Memory} {heap : MemHeap} {ledger : List Allocation}
    {layout : List Segment} {block : Segment} (holds : HeapHolds before heap ledger layout)
    (member : block ∈ layout) (owned : block.vacant = false)
    (same : ∀ address, address < block.address + 8 ∨ block.address + block.size - 1 ≤ address →
      after address = before address) : HeapHolds after heap ledger layout where
  live := holds.live
  fits := holds.fits
  room := holds.room
  bytes := by
    have elsewhere : ∀ segment ∈ layout, segment ≠ block →
        AgreeOn after before segment.address (segment.address + segment.size) := by
      intro segment inLayout different address lower upper
      apply same
      rcases holds.bytes.apart inLayout member with equal | earlier | later
      · exact absurd equal different
      · omega
      · omega
    refine ⟨holds.bytes.toArranged, ?_, ?_⟩
    · intro segment inLayout
      have large := holds.bytes.large segment inLayout
      have segmentHolds := holds.bytes.segments segment inLayout
      by_cases isBlock : segment = block
      · subst isBlock
        apply segmentHolds.of_agree
        · exact fun address _ upper => same address (Or.inl upper)
        · exact fun _ => same _ (Or.inr (le_refl _))
      · have kept : Kept after before segment := Kept.of_agree (elsewhere segment inLayout isBlock)
        exact kept.segmentHolds segmentHolds large
    · apply holds.bytes.links.congr
      intro node isNode
      obtain ⟨segment, inLayout, vacant, rfl⟩ := mem_freeNodes.mp isNode
      have large := holds.bytes.large segment inLayout
      have notBlock : segment ≠ block := by
        intro equal
        rw [equal, owned] at vacant
        exact absurd vacant (by decide)
      exact blockNext_congr ((elsewhere segment inLayout notBlock).mono (by omega) (by omega))
  separated := holds.separated
  free := holds.free
  owners := holds.owners

end Frames

/-! ## Allocation -/

/-- The block size taken for a request that reaches the search. -/
def chunkSize (size : Nat) : Nat := allocationSize (max size 4)

theorem chunkSize_eq {size : Nat} (small : size ≤ 2 ^ 40) :
    chunkSize size = (max size 4 + 1 + 7) - (max size 4 + 1 + 7) % 8 + 8 := by
  have inner : add 64 (max size 4) 1 = max size 4 + 1 := MachineWord.add_of_lt (by omega)
  unfold chunkSize allocationSize
  rw [inner, alignUp_of_small (by unfold addressLimit; omega)]
  exact MachineWord.add_of_lt (by unfold memBlockHeadSize; omega)

/-- What a successful allocation does: it takes a block out of the layout, adds
the allocation to the ledger and updates the counters. -/
structure Granted (before : HeapSystem) (slot : Slot) (ledger : List Allocation)
    (layout : List Segment) (size : Nat) (owner : Nat → Allocation) (after : HeapSystem)
    (segment : Segment) (layout' : List Segment) : Prop where
  carve : Carve size owner layout segment layout'
  fresh : segment ∉ layout
  holds : HeapHolds after.memory (after.heapList slot) (owner segment.address :: ledger) layout'
  kept : ∀ other ∈ layout, other ∈ layout' → Kept after.memory before.memory other
  freshTag : ∀ other ∈ layout', other ∉ layout → other.vacant = true →
    after.memory (other.address + other.size - 1) = memBlockStatFree
  confined : Confined before after slot
  watermark : (after.heapList slot).freeWatermark =
    min (before.heapList slot).freeWatermark (after.heapList slot).free
  total : after.heapFreeSize = sub 64 before.heapFreeSize segment.size
  totalWatermark : after.heapFreeSizeWatermark =
    min before.heapFreeSizeWatermark after.heapFreeSize

theorem min_eq_ite (watermark free : Nat) :
    (if free < watermark then free else watermark) = min watermark free := by
  split
  · omega
  · omega

section Allocate

variable {system : HeapSystem} {slot : Slot} {ledger : List Allocation} {layout : List Segment}
  {size : Nat} {owner : Nat → Allocation}

/-- The search for a chunk and the counters that are kept for it. -/
theorem memAllocate_eq (nonempty : size ≠ 0) (small : size ≤ 2 ^ 40) :
    memAllocate system slot size =
      (memChunkGet system.memory (system.heapList slot).freeList (chunkSize size)).map
        fun result =>
          let heap := { system.heapList slot with freeList := result.2.2 }
          if result.1 = 0 then (0, { system.setHeap slot heap with memory := result.2.1 })
          else
            let free := sub 64 heap.free (blockSize result.2.1 result.1)
            let watermark := if free < heap.freeWatermark then free else heap.freeWatermark
            let total := sub 64 system.heapFreeSize (blockSize result.2.1 result.1)
            let totalWatermark :=
              if total < system.heapFreeSizeWatermark then total
              else system.heapFreeSizeWatermark
            (add 64 result.1 memBlockHeadSize,
              { system.setHeap slot { heap with free := free, freeWatermark := watermark } with
                memory := result.2.1, heapFreeSize := total,
                heapFreeSizeWatermark := totalWatermark }) := by
  have atLeast : (if size < 4 then 4 else size) = max size 4 := by
    split
    · omega
    · omega
  have isChunk := chunkSize_eq small
  have noOverflow : ¬ chunkSize size < max size 4 := by omega
  unfold memAllocate
  rw [if_neg nonempty, atLeast]
  unfold chunkSize at noOverflow
  simp only [noOverflow, if_false]
  rfl

/-- `MEM_Allocate` on a well-formed heap ends. It returns null and changes
nothing when the request is empty or no vacant segment is large enough. A block
is handed out as it was, but for its header and its tag. -/
theorem memAllocate_spec
    (holds : HeapHolds system.memory (system.heapList slot) ledger layout)
    (small : size ≤ 2 ^ 40) (pointer : ∀ address, (owner address).pointer = address + 8)
    (footprint : ∀ address, (owner address).footprint ≤ chunkSize size) :
    (memAllocate system slot size = some (0, system) ∧
        (size = 0 ∨ ∀ segment ∈ layout, segment.vacant = true → segment.size < chunkSize size)) ∨
      size ≠ 0 ∧ ∃ after segment layout',
        memAllocate system slot size = some (segment.address + 8, after) ∧
        Granted system slot ledger layout (chunkSize size) owner after segment layout' ∧
        AgreeOn after.memory system.memory (segment.address + 8)
          (segment.address + segment.size - 1) := by
  by_cases empty : size = 0
  · left
    exact ⟨by unfold memAllocate; rw [if_pos empty], Or.inl empty⟩
  have isChunk := chunkSize_eq small
  rw [memAllocate_eq empty small]
  rcases memChunkGet_spec holds.bytes (by omega) (by omega) pointer footprint with
    ⟨isNull, tooSmall⟩ | ⟨segment, memory, freeList, layout', isBlock, carved⟩
  · left
    refine ⟨?_, Or.inr tooSmall⟩
    rw [isNull]
    simp [HeapSystem.setHeap]
  · right
    have member := carved.carve.mem
    have inside := carved.holds.bounds member
    have large := carved.holds.large segment member
    have positive := holds.bytes.lowPositive
    have fits := holds.bytes.highFits
    have bytes := carved.carve.vacantBytes_eq
    have bounded := holds.bytes.vacantBytes_le
    have isSize : blockSize memory segment.address = segment.size :=
      carved.holds.blockSize_eq member
    have newFree : sub 64 (system.heapList slot).free segment.size = vacantBytes layout' := by
      rw [holds.free, MachineWord.sub_of_le (by omega) (by omega)]
      omega
    have isPointer : add 64 segment.address memBlockHeadSize = segment.address + 8 :=
      MachineWord.add_of_lt (by unfold memBlockHeadSize; omega)
    rw [isBlock]
    simp only [Option.map_some, isSize, if_neg (by omega : segment.address ≠ 0), isPointer,
      newFree, min_eq_ite]
    refine ⟨empty, _, segment, layout', rfl, ?_, carved.payload⟩
    constructor
    · exact carved.carve
    · exact carved.carve.fresh holds.bytes.toArranged (by omega)
    · constructor
      · simpa [HeapSystem.setHeap] using holds.live
      · simpa [HeapSystem.setHeap] using holds.fits
      · simpa [HeapSystem.setHeap, MemHeap.low, MemHeap.high] using holds.room
      · simpa [HeapSystem.setHeap, MemHeap.low, MemHeap.high] using carved.holds
      · exact carved.carve.separated holds.separated
      · simp [HeapSystem.setHeap]
      · exact (List.Perm.cons _ holds.owners).trans carved.carve.allocations_perm.symm
    · exact carved.kept
    · exact carved.freshTag
    · constructor
      · exact carved.outside
      · intro other different
        simp [HeapSystem.setHeap, different]
      · simp [HeapSystem.setHeap]
      · simp [HeapSystem.setHeap]
    · simp [HeapSystem.setHeap]
    · rfl
    · rfl

/-- Stores between the header and the tag of the new block keep what the
allocation guarantees. -/
theorem Granted.writeInside {after : HeapSystem} {segment : Segment} {layout' : List Segment}
    (granted : Granted system slot ledger layout size owner after segment layout')
    {memory : Memory}
    (same : ∀ address,
      address < segment.address + 8 ∨ segment.address + segment.size - 1 ≤ address →
      memory address = after.memory address) :
    Granted system slot ledger layout size owner { after with memory := memory } segment
      layout' := by
  have member := granted.carve.mem
  have owned : segment.vacant = false := vacant_of_owner granted.carve.owner_eq
  have inside := granted.holds.bytes.bounds member
  have large := granted.holds.bytes.large segment member
  have apart : ∀ other ∈ layout', other ≠ segment →
      AgreeOn memory after.memory other.address (other.address + other.size) := by
    intro other inLayout different address lower upper
    apply same
    rcases granted.holds.bytes.apart inLayout member with equal | earlier | later
    · exact absurd equal different
    · omega
    · omega
  exact {
    carve := granted.carve
    fresh := granted.fresh
    holds := granted.holds.writeInside member owned same
    kept := by
      intro other inOld inNew
      have early := granted.kept other inOld inNew
      by_cases isNew : other = segment
      · -- The new segment is no segment of the old layout.
        rw [isNew] at inOld
        exact absurd inOld granted.fresh
      · exact (Kept.of_agree (apart other inNew isNew)).trans early
    freshTag := by
      intro other inNew notOld isVacant
      have different : other ≠ segment := by
        intro equal
        rw [equal, owned] at isVacant
        exact absurd isVacant (by decide)
      have otherLarge := granted.holds.bytes.large other inNew
      rw [← granted.freshTag other inNew notOld isVacant]
      exact apart other inNew different _ (by omega) (by omega)
    confined := by
      refine ⟨?_, granted.confined.elsewhere, granted.confined.base, granted.confined.size⟩
      intro address outside
      rw [← granted.confined.outside address outside]
      apply same
      rw [← granted.confined.low_eq, ← granted.confined.high_eq] at outside
      omega
    watermark := granted.watermark
    total := granted.total
    totalWatermark := granted.totalWatermark }

end Allocate

end TuyaAdapter.TuyaMemHeap
