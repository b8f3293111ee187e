import TuyaAdapter.TuyaMemHeap.Client

/-!
Contract: every run of calls through one handle.

`Sound` is the invariant of such a run: the heap follows a layout, its region
is the one it was created on, and the watermark is not above the free count.
`WellTiled` reads the consequences off the bytes of the memory: the live blocks
and the blocks of the free list tile the region, and no requested byte is a
byte of a header or a tag.
-/

namespace TuyaAdapter.TuyaMemHeap

open Foundation Foundation.ByteMemory Foundation.LinkedPath Foundation.Tiling Foundation.Run
open Foundation.MachineWord (add sub)

/-! ## Invariant of a run -/

structure Sound (slot : Slot) (base size : Nat) (state : ClientState) : Prop where
  holds : ∃ layout, HeapHolds state.system.memory (state.system.heapList slot)
    (state.ledger slot) layout
  base : (state.system.heapList slot).base = base
  size : (state.system.heapList slot).size = size
  watermark : (state.system.heapList slot).freeWatermark ≤ (state.system.heapList slot).free

section Effect

variable {slot : Slot} {state next : ClientState} {layout layout' : List Segment} {call : Call}
  (effect : Effect slot state layout call next layout')
include effect

theorem Effect.holds
    (before : HeapHolds state.system.memory (state.system.heapList slot) (state.ledger slot)
      layout) :
    HeapHolds next.system.memory (next.system.heapList slot) (next.ledger slot) layout' := by
  cases effect with
  | unchanged isSame =>
      rw [isSame]
      exact before
  | granted granted ledger =>
      rw [ledger]
      exact granted.holds
  | surrendered isFree isLayout owned surrendered ledger =>
      rw [ledger]
      exact surrendered.holds
  | stored member owned same heaps ledger =>
      rw [heaps, ledger]
      exact before.writeInside member owned same

theorem Effect.region :
    (next.system.heapList slot).base = (state.system.heapList slot).base ∧
      (next.system.heapList slot).size = (state.system.heapList slot).size := by
  cases effect with
  | unchanged isSame =>
      rw [isSame]
      exact ⟨rfl, rfl⟩
  | granted granted => exact ⟨granted.confined.base, granted.confined.size⟩
  | surrendered _ _ _ surrendered => exact ⟨surrendered.confined.base, surrendered.confined.size⟩
  | stored _ _ _ heaps =>
      rw [heaps]
      exact ⟨rfl, rfl⟩

/-- Every effect lowers the watermark to the new free count when that is
smaller. -/
theorem Effect.watermark
    (bounded : (state.system.heapList slot).freeWatermark ≤ (state.system.heapList slot).free) :
    (next.system.heapList slot).freeWatermark =
      min (state.system.heapList slot).freeWatermark (next.system.heapList slot).free := by
  cases effect with
  | unchanged isSame =>
      rw [isSame]
      exact (min_eq_left bounded).symm
  | granted granted => exact granted.watermark
  | surrendered _ _ _ surrendered =>
      have grown := surrendered.free
      rw [surrendered.watermark]
      exact (min_eq_left (by omega)).symm
  | stored _ _ _ heaps =>
      rw [heaps]
      exact (min_eq_left bounded).symm

end Effect

section Runs

variable {slot : Slot} {base size : Nat} {state : ClientState}

theorem step_sound {call : Call} (sound : Sound slot base size state)
    (legal : ThroughHandle slot state call) :
    ∃ next, step state call = some next ∧ Sound slot base size next ∧
      (next.system.heapList slot).freeWatermark =
        min (state.system.heapList slot).freeWatermark (next.system.heapList slot).free := by
  obtain ⟨layout, holds⟩ := sound.holds
  obtain ⟨next, layout', stepped, effect⟩ := step_effect holds legal
  have lowered := effect.watermark sound.watermark
  refine ⟨next, stepped, ⟨⟨layout', effect.holds holds⟩, ?_, ?_, ?_⟩, lowered⟩
  · exact effect.region.1.trans sound.base
  · exact effect.region.2.trans sound.size
  · rw [lowered]
    exact min_le_right _ _

/-- The invariant holds in every state that calls through the handle reach. -/
theorem Sound.of_reaches {final : ClientState} (sound : Sound slot base size state)
    (reaches : Reaches step (ThroughHandle slot) state final) : Sound slot base size final := by
  apply Reaches.preserves _ sound reaches
  intro current call isSound admitted
  obtain ⟨next, stepped, kept, -⟩ := step_sound isSound admitted
  exact ⟨next, stepped, kept⟩

/-- The state right after a heap was created on a region that reaches its first
aligned address. -/
theorem created_sound {system after : HeapSystem} {startAddr : Nat} {size : UInt32}
    (created : tuyaMemHeapCreate system startAddr size = (some slot, after))
    (below : startAddr + size.toNat ≤ addressLimit)
    (padded : alignUp startAddr ≤ startAddr + size.toNat) :
    Sound slot startAddr size.toNat ⟨after, fun _ => []⟩ := by
  have isCreated : Created system slot startAddr size.toNat after :=
    memHeapCreate_spec created below padded
  exact ⟨⟨_, isCreated.holds⟩, isCreated.base, isCreated.size, le_of_eq isCreated.watermark⟩

end Runs

/-! ## Reading the tiling off the memory -/

/-- The blocks of the live allocations of a slot. -/
def liveBlocks (state : ClientState) (slot : Slot) : List Nat :=
  (state.ledger slot).map fun allocation => allocation.pointer - 8

/-- The heap of a slot, whose free list visits `nodes`, in terms of the words
and bytes in memory. -/
structure WellTiled (state : ClientState) (slot : Slot) (nodes : List Nat) (low high : Nat) :
    Prop where
  freeList : Path (blockNext state.system.memory) (state.system.heapList slot).freeList nodes 0
  tiles : Tiles id (blockSize state.system.memory) (liveBlocks state slot ++ nodes) low high
  increasing : nodes.Pairwise (· < ·)
  requestedInside : ∀ allocation ∈ state.ledger slot,
    8 ≤ allocation.pointer ∧ allocation.pointer + allocation.requested <
      allocation.pointer - 8 + blockSize state.system.memory (allocation.pointer - 8)
  requestedApart : (state.ledger slot).Pairwise fun one other =>
    one.pointer + one.requested ≤ other.pointer ∨ other.pointer + other.requested ≤ one.pointer
  clearOfHeaders : ∀ allocation ∈ state.ledger slot,
    ∀ block ∈ liveBlocks state slot ++ nodes,
      allocation.pointer + allocation.requested ≤ block ∨ block + 8 ≤ allocation.pointer
  clearOfTags : ∀ allocation ∈ state.ledger slot,
    ∀ block ∈ liveBlocks state slot ++ nodes,
      block + blockSize state.system.memory block - 1 < allocation.pointer ∨
        allocation.pointer + allocation.requested ≤
          block + blockSize state.system.memory block - 1
  free : (state.system.heapList slot).free = (nodes.map (blockSize state.system.memory)).sum

section Reading

variable {state : ClientState} {slot : Slot} {layout : List Segment}

/-- The addresses of the owned segments are the blocks of their owners. -/
theorem ownedAddresses_eq {memory : Memory} (holds : ∀ segment ∈ layout, SegmentHolds memory segment) :
    (layout.filter fun segment => !segment.vacant).map Segment.address =
      (allocations layout).map fun allocation => allocation.pointer - 8 := by
  induction layout with
  | nil => rfl
  | cons segment rest inductionHypothesis =>
      have tail := inductionHypothesis (fun other member => holds other (by simp [member]))
      cases owner : segment.owner with
      | none =>
          have vacant : segment.vacant = true := by simp [Segment.vacant, owner]
          rw [allocations_cons_vacant vacant, ← tail, List.filter_cons_of_neg (by simp [vacant])]
      | some allocation =>
          have owned := vacant_of_owner owner
          have pointer := ((holds segment (by simp)).owned allocation owner).1
          rw [allocations_cons_owned owner, List.filter_cons_of_pos (by simp [owned]),
            List.map_cons, List.map_cons, tail, pointer, Nat.add_sub_cancel]

variable (holds : HeapHolds state.system.memory (state.system.heapList slot)
  (state.ledger slot) layout)
include holds

/-- The live blocks and the free-list nodes are the addresses of the layout. -/
theorem HeapHolds.blocks_perm :
    (layout.map Segment.address).Perm (liveBlocks state slot ++ freeNodes layout) := by
  have parts : (layout.map Segment.address).Perm
      ((layout.filter fun segment => !segment.vacant).map Segment.address ++
        freeNodes layout) := by
    unfold freeNodes
    rw [← List.map_append]
    apply List.Perm.map
    have split := (List.filter_append_perm Segment.vacant layout).symm
    exact split.trans List.perm_append_comm
  refine parts.trans (List.Perm.append_right _ ?_)
  rw [ownedAddresses_eq holds.bytes.segments]
  exact (holds.owners.map _).symm

theorem HeapHolds.mem_blocks {block : Nat} (member : block ∈ liveBlocks state slot ++ freeNodes layout) :
    ∃ segment ∈ layout, segment.address = block ∧
      blockSize state.system.memory block = segment.size := by
  rw [← holds.blocks_perm.mem_iff, List.mem_map] at member
  obtain ⟨segment, inLayout, rfl⟩ := member
  exact ⟨segment, inLayout, rfl, holds.bytes.blockSize_eq inLayout⟩

/-- The requested bytes of an allocation avoid the header and the tag of every
segment. -/
theorem HeapHolds.requested_clear {allocation : Allocation}
    (inLedger : allocation ∈ state.ledger slot) {segment : Segment} (inLayout : segment ∈ layout) :
    (allocation.pointer + allocation.requested ≤ segment.address ∨
        segment.address + 8 ≤ allocation.pointer) ∧
      (segment.address + segment.size - 1 < allocation.pointer ∨
        allocation.pointer + allocation.requested ≤ segment.address + segment.size - 1) := by
  obtain ⟨left, own, right, isLayout, owned, pointer, footprint⟩ := holds.split inLedger
  have enough := allocation.requested_le_footprint
  have large := holds.bytes.large segment inLayout
  rcases holds.bytes.apart (show own ∈ layout by simp [isLayout]) inLayout with
    same | before | after
  · subst same
    omega
  · omega
  · omega

theorem HeapHolds.wellTiled :
    WellTiled state slot (freeNodes layout) (state.system.heapList slot).low
      (state.system.heapList slot).high where
  freeList := holds.bytes.links
  tiles := by
    refine ⟨layout.map Segment.address, holds.blocks_perm, ?_⟩
    exact holds.bytes.contiguous.map (fun _ _ => rfl)
      (fun segment member => holds.bytes.blockSize_eq member)
  increasing := holds.bytes.freeNodes_pairwise
  requestedInside := by
    intro allocation inLedger
    obtain ⟨left, block, right, isLayout, owned, pointer, footprint⟩ := holds.split inLedger
    have size := holds.bytes.blockSize_eq (show block ∈ layout by simp [isLayout])
    have enough := allocation.requested_le_footprint
    rw [pointer, Nat.add_sub_cancel, size]
    omega
  requestedApart := by
    -- Different entries of the ledger own different segments.
    have apart : (allocations layout).Pairwise fun one other =>
        one.pointer + one.requested ≤ other.pointer ∨
          other.pointer + other.requested ≤ one.pointer := by
      unfold allocations
      rw [List.pairwise_filterMap]
      apply holds.bytes.contiguous.pairwise.imp_of_mem
      intro earlier later earlierMember laterMember ends one isOne other isOther
      have oneFacts := (holds.bytes.segments earlier earlierMember).owned one isOne
      have otherFacts := (holds.bytes.segments later laterMember).owned other isOther
      have enough := one.requested_le_footprint
      omega
    exact (holds.owners.pairwise_iff (fun hyp => hyp.symm)).mpr apart
  clearOfHeaders := by
    intro allocation inLedger block isBlock
    obtain ⟨segment, inLayout, rfl, -⟩ := holds.mem_blocks isBlock
    exact (holds.requested_clear inLedger inLayout).1
  clearOfTags := by
    intro allocation inLedger block isBlock
    obtain ⟨segment, inLayout, rfl, size⟩ := holds.mem_blocks isBlock
    rw [size]
    exact (holds.requested_clear inLedger inLayout).2
  free := by
    have sizes : (layout.filter Segment.vacant).map Segment.size =
        (freeNodes layout).map (blockSize state.system.memory) := by
      unfold freeNodes
      rw [List.map_map]
      apply List.map_congr_left
      intro segment member
      exact (holds.bytes.blockSize_eq (List.mem_of_mem_filter member)).symm
    rw [holds.free, vacantBytes, sizes]

end Reading

/-- The region of a heap created on an aligned base. -/
theorem region_of_aligned {heap : MemHeap} {base size : Nat} (isBase : heap.base = base)
    (isSize : heap.size = size) (aligned : base % 8 = 0) (below : base + size ≤ addressLimit) :
    heap.low = base ∧ heap.high = base + alignDown size := by
  rw [← isBase, ← isSize] at below
  rw [MemHeap.low_eq below, MemHeap.high_eq below, isBase, isSize]
  unfold alignDown memAlignNum
  omega

/-- A heap created on an aligned region: after every sequence of allocations and
frees through its handle, with clients storing into the bytes they asked for,
the blocks tile the region, the requested ranges are disjoint from each other
and from the bookkeeping, the free count is exact, and the watermark is the
least free count of the run. -/
theorem heap_tiled_without_overlap {system after : HeapSystem} {slot : Slot} {startAddr : Nat}
    {size : UInt32} (created : tuyaMemHeapCreate system startAddr size = (some slot, after))
    (aligned : startAddr % 8 = 0) (below : startAddr + size.toNat ≤ addressLimit)
    {calls : List Call}
    (legal : EveryStep step (ThroughHandle slot) ⟨after, fun _ => []⟩ calls) :
    ∃ final, run step ⟨after, fun _ => []⟩ calls = some final ∧
      (∃ nodes, WellTiled final slot nodes startAddr (startAddr + alignDown size.toNat)) ∧
      (∀ passed ∈ states step ⟨after, fun _ => []⟩ calls,
        (final.system.heapList slot).freeWatermark ≤ (passed.system.heapList slot).free) ∧
      ∃ passed ∈ states step ⟨after, fun _ => []⟩ calls,
        (final.system.heapList slot).freeWatermark = (passed.system.heapList slot).free := by
  have padded : alignUp startAddr ≤ startAddr + size.toNat := by
    rw [alignUp_of_small (by omega)]
    omega
  have start := created_sound created below padded
  have initially : (after.heapList slot).freeWatermark = (after.heapList slot).free :=
    (memHeapCreate_spec created below padded).watermark
  obtain ⟨final, ran, -, least, attained⟩ :=
    run_minimum (fun _ _ isSound admitted => step_sound isSound admitted)
      (fun _ isSound => isSound.watermark) start legal
  have sound := start.of_reaches ⟨calls, legal, ran⟩
  obtain ⟨layout, holds⟩ := sound.holds
  have region := region_of_aligned sound.base sound.size aligned below
  have tiled := holds.wellTiled
  rw [region.1, region.2] at tiled
  refine ⟨final, ran, ⟨_, tiled⟩, least, ?_⟩
  rcases attained with isInitial | passed
  · refine ⟨⟨after, fun _ => []⟩, ?_, isInitial.trans initially⟩
    cases calls <;> simp [states]
  · exact passed

/-- The theorem on a run that splits the region twice and fills a byte. -/
theorem heap_tiled_after_split :
    let after := (tuyaMemHeapCreate (HeapSystem.initial fun _ => 0) 4096 256).2
    ∃ final, run step ⟨after, fun _ => []⟩
        [.malloc (some 0) 1, .calloc (some 0) 40, .store 4344 7, .free (some 0) 4344] =
          some final ∧
      ∃ nodes, WellTiled final 0 nodes 4096 4352 := by
  have created : tuyaMemHeapCreate (HeapSystem.initial fun _ => 0) 4096 256 =
      (some 0, (tuyaMemHeapCreate (HeapSystem.initial fun _ => 0) 4096 256).2) :=
    Prod.ext (by decide +kernel) rfl
  obtain ⟨final, ran, tiled, -⟩ := heap_tiled_without_overlap created (by decide) (by decide)
    (show EveryStep step (ThroughHandle 0) _
      [.malloc (some 0) 1, .calloc (some 0) 40, .store 4344 7, .free (some 0) 4344] by
        decide +kernel)
  exact ⟨final, ran, tiled⟩

end TuyaAdapter.TuyaMemHeap
