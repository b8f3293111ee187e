import TuyaAdapter.TuyaMemHeap.HandleRuns

/-!
Contract: the free list is a function of the live blocks.

In a sound state the blocks on the free list are the gaps between the live
blocks (`gaps_of_live`), so two sound states of one heap with the same live
blocks have the same free list (`sameFreeList`). Order independence of frees
and the round trip of an allocation follow from what calls do to the set of
live blocks.
-/

namespace TuyaAdapter.TuyaMemHeap

open Foundation Foundation.ByteMemory Foundation.LinkedPath Foundation.Tiling Foundation.Run
open Foundation.MachineWord (add sub)

/-! ## Live blocks and free blocks -/

/-- The free list visits these blocks, with these sizes in their headers. -/
def IsFreeList (state : ClientState) (slot : Slot) (blocks : List Extent) : Prop :=
  Path (blockNext state.system.memory) (state.system.heapList slot).freeList
      (blocks.map Extent.start) 0 ∧
    ∀ block ∈ blocks, blockSize state.system.memory block.start = block.length

/-- Address and size of the live blocks. -/
def liveExtents (state : ClientState) (slot : Slot) : List Extent :=
  (liveBlocks state slot).map fun block => ⟨block, blockSize state.system.memory block⟩

/-- The extents of the segments that are vacant, or that are not. -/
def extentsOf (keep : Segment → Bool) (layout : List Segment) : List Extent :=
  (layout.filter keep).map (extent Segment.address Segment.size)

abbrev vacantExtents (layout : List Segment) : List Extent := extentsOf Segment.vacant layout

abbrev ownedExtents (layout : List Segment) : List Extent :=
  extentsOf (fun segment => !segment.vacant) layout

theorem mem_ownedExtents {layout : List Segment} {block : Extent} :
    block ∈ ownedExtents layout ↔
      ∃ segment ∈ layout, segment.vacant = false ∧
        extent Segment.address Segment.size segment = block := by
  simp [extentsOf, and_assoc]

section Reading

variable {state : ClientState} {slot : Slot} {layout : List Segment}
  (holds : HeapHolds state.system.memory (state.system.heapList slot) (state.ledger slot) layout)
include holds

theorem HeapHolds.isFreeList : IsFreeList state slot (vacantExtents layout) := by
  constructor
  · have starts : (vacantExtents layout).map Extent.start = freeNodes layout := by
      unfold vacantExtents extentsOf
      rw [List.map_map]
      rfl
    rw [starts]
    exact holds.bytes.links
  · intro block member
    obtain ⟨segment, inFilter, rfl⟩ := List.mem_map.mp member
    exact holds.bytes.blockSize_eq (List.mem_of_mem_filter inFilter)

theorem HeapHolds.liveExtents_perm : (liveExtents state slot).Perm (ownedExtents layout) := by
  have addresses : (liveBlocks state slot).Perm
      ((layout.filter fun segment => !segment.vacant).map Segment.address) := by
    rw [ownedAddresses_eq holds.bytes.segments]
    exact holds.owners.map _
  have extents := addresses.map fun block =>
    (⟨block, blockSize state.system.memory block⟩ : Extent)
  rw [List.map_map] at extents
  refine extents.trans (List.Perm.of_eq ?_)
  apply List.map_congr_left
  intro segment member
  show (⟨segment.address, blockSize state.system.memory segment.address⟩ : Extent) =
    ⟨segment.address, segment.size⟩
  rw [holds.bytes.blockSize_eq (List.mem_of_mem_filter member)]

theorem HeapHolds.mem_liveExtents {block : Extent} :
    block ∈ liveExtents state slot ↔
      ∃ segment ∈ layout, segment.vacant = false ∧
        extent Segment.address Segment.size segment = block :=
  holds.liveExtents_perm.mem_iff.trans mem_ownedExtents

theorem HeapHolds.extents_pairwise (keep : Segment → Bool) :
    (extentsOf keep layout).Pairwise fun earlier later =>
      earlier.start + earlier.length ≤ later.start := by
  rw [extentsOf, List.pairwise_map]
  exact holds.bytes.contiguous.pairwise.filter keep

theorem HeapHolds.ownedExtents_nodup : (ownedExtents layout).Nodup := by
  have ordered := holds.extents_pairwise fun segment => !segment.vacant
  apply ordered.imp_of_mem
  intro earlier later earlierMember _ ends same
  obtain ⟨segment, inLayout, -, rfl⟩ := mem_ownedExtents.mp earlierMember
  have nonempty := holds.bytes.positive segment inLayout
  rw [← same] at ends
  simp only [extent] at ends
  omega

/-- The free blocks are the gaps between the live blocks. -/
theorem HeapHolds.vacantExtents_eq :
    vacantExtents layout =
      gaps (ownedExtents layout) (state.system.heapList slot).low
        (state.system.heapList slot).high :=
  vacant_eq_gaps holds.bytes.contiguous holds.bytes.positive holds.separated

theorem HeapHolds.free_eq_sum :
    (state.system.heapList slot).free = ((vacantExtents layout).map Extent.length).sum := by
  rw [holds.free]
  unfold vacantExtents extentsOf
  rw [List.map_map]
  rfl

end Reading

/-- The free list of a state is the list of gaps between its live blocks in
address order, and no two of its blocks touch. -/
def FreeListCanonical (state : ClientState) (slot : Slot) (low high : Nat) : Prop :=
  ∃ free live, IsFreeList state slot free ∧ live.Perm (liveExtents state slot) ∧
    (live.Pairwise fun earlier later => earlier.start + earlier.length ≤ later.start) ∧
    free = gaps live low high ∧
    ∀ one ∈ free, ∀ other ∈ free, one.start + one.length ≠ other.start

/-- Two states have the same free list and the same free count. -/
def SameFreeList (one other : ClientState) (slot : Slot) : Prop :=
  (∃ free, IsFreeList one slot free ∧ IsFreeList other slot free) ∧
    (one.system.heapList slot).free = (other.system.heapList slot).free

section Sound

variable {slot : Slot} {base size : Nat} {state state' : ClientState}

theorem Sound.freeListCanonical (sound : Sound slot base size state) :
    FreeListCanonical state slot (state.system.heapList slot).low
      (state.system.heapList slot).high := by
  obtain ⟨layout, holds⟩ := sound.holds
  refine ⟨vacantExtents layout, ownedExtents layout, holds.isFreeList,
    holds.liveExtents_perm.symm, holds.extents_pairwise _, holds.vacantExtents_eq, ?_⟩
  intro one oneMember other otherMember
  obtain ⟨first, inFirst, rfl⟩ := List.mem_map.mp oneMember
  obtain ⟨second, inSecond, rfl⟩ := List.mem_map.mp otherMember
  have firstFacts := List.mem_filter.mp inFirst
  have secondFacts := List.mem_filter.mp inSecond
  exact holds.separated.not_touching holds.bytes.contiguous holds.bytes.positive firstFacts.1
    secondFacts.1 firstFacts.2 secondFacts.2

theorem Sound.low_eq (sound : Sound slot base size state) :
    (state.system.heapList slot).low = alignUp base := by
  unfold MemHeap.low
  rw [sound.base]

theorem Sound.high_eq (sound : Sound slot base size state) :
    (state.system.heapList slot).high = alignDown (add 64 base size) := by
  unfold MemHeap.high
  rw [sound.base, sound.size]

/-- The live blocks determine the free list. -/
theorem Sound.sameFreeList (sound : Sound slot base size state)
    (sound' : Sound slot base size state')
    (same : ∀ block, block ∈ liveExtents state slot ↔ block ∈ liveExtents state' slot) :
    SameFreeList state state' slot := by
  obtain ⟨layout, holds⟩ := sound.holds
  obtain ⟨layout', holds'⟩ := sound'.holds
  have members : (ownedExtents layout).Perm (ownedExtents layout') := by
    apply (List.perm_ext_iff_of_nodup holds.ownedExtents_nodup holds'.ownedExtents_nodup).mpr
    intro block
    rw [← holds.liveExtents_perm.mem_iff, ← holds'.liveExtents_perm.mem_iff]
    exact same block
  have owned : ownedExtents layout = ownedExtents layout' :=
    filter_eq_of_perm holds.bytes.contiguous holds'.bytes.contiguous holds.bytes.positive
      holds'.bytes.positive members
  have vacant : vacantExtents layout = vacantExtents layout' := by
    rw [holds.vacantExtents_eq, holds'.vacantExtents_eq, owned, sound.low_eq, sound.high_eq,
      sound'.low_eq, sound'.high_eq]
  refine ⟨⟨vacantExtents layout, holds.isFreeList, ?_⟩, ?_⟩
  · rw [vacant]
    exact holds'.isFreeList
  · rw [holds.free_eq_sum, holds'.free_eq_sum, vacant]

end Sound

/-! ## What calls do to the set of live blocks -/

section LiveBlocks

theorem Carve.owned_iff {size : Nat} {owner : Nat → Allocation} {layout layout' : List Segment}
    {segment : Segment} (carve : Carve size owner layout segment layout') {other : Segment}
    (owned : other.vacant = false) : other ∈ layout' ↔ other = segment ∨ other ∈ layout := by
  constructor
  · intro member
    cases carve with
    | split left chunk right vacant room =>
        simp only [List.mem_append, List.mem_cons, List.not_mem_nil, or_false] at member ⊢
        rcases member with (inLeft | isRest | isNew) | inRight
        · exact Or.inr (Or.inl inLeft)
        · rw [isRest] at owned
          exact absurd owned (by simp [Segment.vacant])
        · exact Or.inl isNew
        · exact Or.inr (Or.inr (Or.inr inRight))
    | whole left chunk right vacant fits tight =>
        simp only [List.mem_append, List.mem_cons, List.not_mem_nil, or_false] at member ⊢
        rcases member with (inLeft | isNew) | inRight
        · exact Or.inr (Or.inl inLeft)
        · exact Or.inl isNew
        · exact Or.inr (Or.inr (Or.inr inRight))
  · rintro (isNew | member)
    · rw [isNew]
      exact carve.mem
    · exact carve.owned_mem member owned

variable {slot : Slot} {state next : ClientState} {layout : List Segment}
  (holds : HeapHolds state.system.memory (state.system.heapList slot) (state.ledger slot) layout)
include holds

/-- An allocation adds its block to the live blocks, at an address where no
live block was. -/
theorem Granted.mem_liveExtents {size : Nat} {owner : Nat → Allocation} {segment : Segment}
    {layout' : List Segment}
    (granted : Granted state.system slot (state.ledger slot) layout size owner next.system
      segment layout')
    (ledger : next.ledger slot = owner segment.address :: state.ledger slot) {block : Extent} :
    (block ∈ liveExtents next slot ↔
        block = ⟨segment.address, segment.size⟩ ∨ block ∈ liveExtents state slot) ∧
      (block ∈ liveExtents state slot → block.start ≠ segment.address) := by
  have after : HeapHolds next.system.memory (next.system.heapList slot) (next.ledger slot)
      layout' := by
    rw [ledger]
    exact granted.holds
  rw [after.mem_liveExtents, holds.mem_liveExtents]
  constructor
  · constructor
    · rintro ⟨other, member, owned, rfl⟩
      rcases (granted.carve.owned_iff owned).mp member with isNew | isOld
      · rw [isNew]
        exact Or.inl rfl
      · exact Or.inr ⟨other, isOld, owned, rfl⟩
    · rintro (isNew | ⟨other, member, owned, rfl⟩)
      · exact ⟨segment, granted.carve.mem, vacant_of_owner granted.carve.owner_eq, isNew.symm⟩
      · exact ⟨other, granted.carve.owned_mem member owned, owned, rfl⟩
  · rintro ⟨other, member, owned, rfl⟩ sameStart
    have same := after.bytes.contiguous.eq_of_start after.bytes.positive
      (granted.carve.owned_mem member owned) granted.carve.mem sameStart
    rw [same] at member
    exact granted.fresh member

/-- Freeing a block removes it from the live blocks and leaves the others. -/
theorem Surrendered.mem_liveExtents {left right left' right' : List Segment}
    {block joined : Segment} (isLayout : layout = left ++ block :: right)
    (surrendered : Surrendered state.system slot (state.ledger slot) left block right next.system
      left' joined right')
    (ledger : next.ledger slot =
      (state.ledger slot).filter fun allocation => allocation.pointer ≠ block.address + 8)
    {live : Extent} :
    live ∈ liveExtents next slot ↔
      live ∈ liveExtents state slot ∧ live.start ≠ block.address := by
  have after : HeapHolds next.system.memory (next.system.heapList slot) (next.ledger slot)
      (left' ++ joined :: right') := by
    rw [ledger]
    exact surrendered.holds
  obtain ⟨middle, joinLeft, joinRight⟩ := surrendered.released.joinLeft
  have joinedVacant : joined.vacant = true := joinRight.vacant joinLeft.vacant
  have members : ∀ other : Segment, other.vacant = false →
      (other ∈ left' ++ joined :: right' ↔ other ∈ left ++ right) := by
    intro other owned
    have different : other ≠ joined := by
      intro same
      rw [same, joinedVacant] at owned
      exact absurd owned (by decide)
    simp only [List.mem_append, List.mem_cons, different, false_or,
      joinLeft.owned_iff owned, joinRight.owned_iff owned]
  subst isLayout
  rw [after.mem_liveExtents, holds.mem_liveExtents]
  constructor
  · rintro ⟨other, member, owned, rfl⟩
    have inRest := (members other owned).mp member
    have inLayout : other ∈ left ++ block :: right := by
      simp only [List.mem_append, List.mem_cons] at inRest ⊢
      tauto
    refine ⟨⟨other, inLayout, owned, rfl⟩, ?_⟩
    show other.address ≠ block.address
    have large := holds.bytes.large other inLayout
    have blockLarge := holds.bytes.large block (by simp)
    rcases List.mem_append.mp inRest with inLeft | inRight
    · have before := holds.bytes.left_before other inLeft
      omega
    · have later := holds.bytes.right_after other inRight
      omega
  · rintro ⟨⟨other, inLayout, owned, rfl⟩, different⟩
    refine ⟨other, (members other owned).mpr ?_, owned, rfl⟩
    have notBlock : other ≠ block := by
      intro same
      rw [same] at different
      exact different rfl
    simp only [List.mem_append, List.mem_cons, notBlock, false_or] at inLayout ⊢
    exact inLayout

end LiveBlocks

/-! ## Runs of frees -/

section Frees

variable {slot : Slot} {base size : Nat} {state : ClientState}

theorem free_step {ptr : Nat} (sound : Sound slot base size state)
    (live : LivePointer state slot ptr) :
    ∃ next, step state (.free (some slot) ptr) = some next ∧ Sound slot base size next ∧
      next.ledger slot = ((state.ledger slot).filter fun allocation =>
        allocation.pointer ≠ ptr) ∧
      ∀ block, block ∈ liveExtents next slot ↔
        block ∈ liveExtents state slot ∧ block.start + 8 ≠ ptr := by
  obtain ⟨layout, holds⟩ := sound.holds
  have legal : ThroughHandle slot state (.free (some slot) ptr) := ⟨rfl, Or.inr live⟩
  obtain ⟨next, left, block, right, left', joined, right', stepped, isLayout, rfl, owned,
    surrendered, ledger⟩ := free_surrenders holds live
  obtain ⟨other, isOther, kept, -⟩ := step_sound sound legal
  have isNext : other = next := Option.some.inj (isOther.symm.trans stepped)
  rw [isNext] at kept
  refine ⟨next, stepped, kept, ledger, ?_⟩
  intro block'
  have sameStart : block'.start + 8 ≠ block.address + 8 ↔ block'.start ≠ block.address := by omega
  rw [Surrendered.mem_liveExtents holds isLayout surrendered ledger, sameStart]

/-- Freeing different live pointers, one after the other. -/
theorem free_run (pointers : List Nat) (sound : Sound slot base size state)
    (different : pointers.Nodup) (live : ∀ ptr ∈ pointers, LivePointer state slot ptr) :
    ∃ last, run step state (pointers.map fun ptr => .free (some slot) ptr) = some last ∧
      Sound slot base size last ∧
      ∀ block, block ∈ liveExtents last slot ↔
        block ∈ liveExtents state slot ∧ block.start + 8 ∉ pointers := by
  induction pointers generalizing state with
  | nil => exact ⟨state, rfl, sound, by simp⟩
  | cons ptr rest inductionHypothesis =>
      obtain ⟨next, stepped, kept, ledger, blocks⟩ := free_step sound (live ptr (by simp))
      have notLater : ptr ∉ rest := (List.nodup_cons.mp different).1
      -- The pointers still to be freed are live in the next state.
      have liveNext : ∀ other ∈ rest, LivePointer next slot other := by
        intro other member
        obtain ⟨allocation, inLedger, isPointer⟩ := live other (by simp [member])
        refine ⟨allocation, ?_, isPointer⟩
        rw [ledger]
        refine List.mem_filter.mpr ⟨inLedger, ?_⟩
        have unequal : other ≠ ptr := by
          intro same
          rw [same] at member
          exact notLater member
        simpa [isPointer] using unequal
      obtain ⟨last, ran, isSound, lastBlocks⟩ :=
        inductionHypothesis kept (List.nodup_cons.mp different).2 liveNext
      refine ⟨last, run_cons_eq_some.mpr ⟨next, stepped, ran⟩, isSound, ?_⟩
      intro block
      rw [lastBlocks, blocks, List.mem_cons, not_or, and_assoc]

/-- Different allocations have different pointers. -/
theorem Sound.pointers_nodup (sound : Sound slot base size state) :
    ((state.ledger slot).map Allocation.pointer).Nodup := by
  obtain ⟨layout, holds⟩ := sound.holds
  exact holds.pointers_nodup

/-- Every live block is the block of a live pointer. -/
theorem Sound.pointer_of_live {block : Extent} (sound : Sound slot base size state)
    (live : block ∈ liveExtents state slot) :
    block.start + 8 ∈ (state.ledger slot).map Allocation.pointer := by
  obtain ⟨layout, holds⟩ := sound.holds
  obtain ⟨segment, member, owned, rfl⟩ := holds.mem_liveExtents.mp live
  cases owner : segment.owner with
  | none => simp [Segment.vacant, owner] at owned
  | some allocation =>
      have pointer := ((holds.bytes.segments segment member).owned allocation owner).1
      exact List.mem_map.mpr ⟨allocation, holds.mem_ledger.mpr ⟨segment, member, owner⟩, pointer⟩

/-- With no live block the whole region is one free block. -/
theorem Sound.whole_of_no_live (sound : Sound slot base size state)
    (none : ∀ block, block ∉ liveExtents state slot) :
    IsFreeList state slot
        [⟨alignUp base, alignDown (add 64 base size) - alignUp base⟩] ∧
      (state.system.heapList slot).free = alignDown (add 64 base size) - alignUp base := by
  obtain ⟨layout, holds⟩ := sound.holds
  have empty : ownedExtents layout = [] := by
    apply List.eq_nil_iff_forall_not_mem.mpr
    intro block member
    exact none block (holds.liveExtents_perm.mem_iff.mpr member)
  have room := holds.room
  have vacant := holds.vacantExtents_eq
  rw [empty, sound.low_eq, sound.high_eq] at vacant
  rw [sound.low_eq, sound.high_eq] at room
  have whole : vacantExtents layout =
      [⟨alignUp base, alignDown (add 64 base size) - alignUp base⟩] := by
    rw [vacant, gaps, if_pos (by omega)]
  have isFree := holds.free_eq_sum
  rw [whole] at isFree
  refine ⟨?_, by simpa using isFree⟩
  rw [← whole]
  exact holds.isFreeList

/-- An allocation and the free of its result leave the live blocks as they
were. -/
theorem malloc_free_steps (sound : Sound slot base size state) (n : UInt32) :
    ∃ ptr after middle last, tuyaMemHeapMalloc state.system (some slot) n = some (ptr, after) ∧
      step state (.malloc (some slot) n) = some middle ∧
      step middle (.free (some slot) ptr) = some last ∧ Sound slot base size last ∧
      ∀ block, block ∈ liveExtents last slot ↔ block ∈ liveExtents state slot := by
  obtain ⟨layout, holds⟩ := sound.holds
  obtain ⟨ptr, after, isResult, result⟩ := malloc_effect holds n
  obtain ⟨middle, stepped, kept, -⟩ := step_sound sound
    (show ThroughHandle slot state (.malloc (some slot) n) from rfl)
  have isMiddle : middle = state.enter (some slot) after ⟨ptr, n.toNat, none⟩ := by
    simp only [step, tuyaMemHeapMalloc, isResult, Option.map_some, home] at stepped
    exact (Option.some.inj stepped).symm
  rcases result with ⟨rfl, rfl⟩ | ⟨segment, layout', rfl, granted⟩
  · have isState : middle = state := by
      rw [isMiddle]
      rfl
    subst isState
    exact ⟨0, _, middle, middle, isResult, stepped, holds.free_null, sound, fun _ => Iff.rfl⟩
  · have ledger : middle.ledger slot =
        plainOwner n.toNat segment.address :: state.ledger slot := by
      rw [isMiddle, ClientState.enter, if_neg (by show segment.address + 8 ≠ 0; omega)]
      simp [plainOwner]
    have isAfter : middle.system = after := by
      rw [isMiddle, ClientState.enter, if_neg (by show segment.address + 8 ≠ 0; omega)]
    subst isAfter
    have live : LivePointer middle slot (segment.address + 8) := by
      refine ⟨plainOwner n.toNat segment.address, ?_, rfl⟩
      rw [ledger]
      simp
    obtain ⟨last, freed, lastSound, -, blocks⟩ := free_step kept live
    refine ⟨_, _, middle, last, isResult, stepped, freed, lastSound, ?_⟩
    intro block
    have facts := @Granted.mem_liveExtents slot state middle layout holds _ _ _ _ granted ledger
      block
    rw [blocks, facts.1]
    constructor
    · rintro ⟨isNew | isOld, notFreed⟩
      · rw [isNew] at notFreed
        exact absurd rfl notFreed
      · exact isOld
    · intro isOld
      have apart := facts.2 isOld
      exact ⟨Or.inr isOld, by omega⟩

end Frees

/-! ## Main result -/

/-- The free list is canonical in every state reached by calls through the
handle of a heap: it is the list of gaps between the live blocks. Two runs that
end with the same live blocks have the same free list and free count; the order
of a set of frees does not matter; freeing everything gives the initial block
back; and an allocation followed by the free of its result restores the free
list and the free count. -/
theorem freeList_canonical {system after : HeapSystem} {slot : Slot} {startAddr : Nat}
    {size : UInt32} (created : tuyaMemHeapCreate system startAddr size = (some slot, after))
    (below : startAddr + size.toNat ≤ addressLimit)
    (padded : alignUp startAddr ≤ startAddr + size.toNat) :
    (∀ state, Reaches step (ThroughHandle slot) ⟨after, fun _ => []⟩ state →
      FreeListCanonical state slot (alignUp startAddr)
        (alignDown (startAddr + size.toNat))) ∧
    (∀ state state', Reaches step (ThroughHandle slot) ⟨after, fun _ => []⟩ state →
      Reaches step (ThroughHandle slot) ⟨after, fun _ => []⟩ state' →
      (∀ block, block ∈ liveExtents state slot ↔ block ∈ liveExtents state' slot) →
      SameFreeList state state' slot) ∧
    (∀ state, ∀ pointers pointers' : List Nat,
      Reaches step (ThroughHandle slot) ⟨after, fun _ => []⟩ state →
      pointers.Nodup → (∀ ptr ∈ pointers, LivePointer state slot ptr) →
      pointers'.Perm pointers →
      ∃ last last',
        run step state (pointers.map fun ptr => .free (some slot) ptr) = some last ∧
        run step state (pointers'.map fun ptr => .free (some slot) ptr) = some last' ∧
        SameFreeList last last' slot) ∧
    (∀ state, ∀ pointers : List Nat,
      Reaches step (ThroughHandle slot) ⟨after, fun _ => []⟩ state →
      pointers.Perm ((state.ledger slot).map Allocation.pointer) →
      ∃ last, run step state (pointers.map fun ptr => .free (some slot) ptr) = some last ∧
        IsFreeList last slot
          [⟨alignUp startAddr, alignDown (startAddr + size.toNat) - alignUp startAddr⟩] ∧
        SameFreeList last ⟨after, fun _ => []⟩ slot) ∧
    (∀ state n, Reaches step (ThroughHandle slot) ⟨after, fun _ => []⟩ state →
      ∃ ptr allocated middle last,
        tuyaMemHeapMalloc state.system (some slot) n = some (ptr, allocated) ∧
        step state (.malloc (some slot) n) = some middle ∧
        step middle (.free (some slot) ptr) = some last ∧
        SameFreeList last state slot) := by
  have start := created_sound created below padded
  have top : add 64 startAddr size.toNat = startAddr + size.toNat :=
    MachineWord.add_of_lt (by unfold addressLimit at below; omega)
  refine ⟨?_, ?_, ?_, ?_, ?_⟩
  · intro state reaches
    have sound := start.of_reaches reaches
    have canonical := sound.freeListCanonical
    rwa [sound.low_eq, sound.high_eq, top] at canonical
  · intro state state' reaches reaches' same
    exact (start.of_reaches reaches).sameFreeList (start.of_reaches reaches') same
  · intro state pointers pointers' reaches different live permuted
    have sound := start.of_reaches reaches
    obtain ⟨last, ran, lastSound, blocks⟩ := free_run pointers sound different live
    obtain ⟨last', ran', lastSound', blocks'⟩ := free_run pointers' sound
      (permuted.nodup_iff.mpr different) (fun ptr member => live ptr (permuted.mem_iff.mp member))
    refine ⟨last, last', ran, ran', lastSound.sameFreeList lastSound' ?_⟩
    intro block
    rw [blocks, blocks', permuted.mem_iff]
  · intro state pointers reaches everything
    have sound := start.of_reaches reaches
    obtain ⟨last, ran, lastSound, blocks⟩ := free_run pointers sound
      (everything.nodup_iff.mpr sound.pointers_nodup) (fun ptr member => by
        obtain ⟨allocation, inLedger, isPointer⟩ :=
          List.mem_map.mp (everything.mem_iff.mp member)
        exact ⟨allocation, inLedger, isPointer⟩)
    have none : ∀ block, block ∉ liveExtents last slot := by
      intro block member
      have isLive := (blocks block).mp member
      exact isLive.2 (everything.mem_iff.mpr (sound.pointer_of_live isLive.1))
    have whole := lastSound.whole_of_no_live none
    have initially := start.whole_of_no_live (by simp [liveExtents, liveBlocks])
    rw [top] at whole initially
    exact ⟨last, ran, whole.1, ⟨_, whole.1, initially.1⟩, whole.2.trans initially.2.symm⟩
  · intro state n reaches
    have sound := start.of_reaches reaches
    obtain ⟨ptr, allocated, middle, last, isResult, stepped, freed, lastSound, blocks⟩ :=
      malloc_free_steps sound n
    exact ⟨ptr, allocated, middle, last, isResult, stepped, freed,
      lastSound.sameFreeList sound blocks⟩

/-- The theorem on a heap created on an unaligned region: one free block is left
below the two live ones. -/
theorem freeList_canonical_unaligned :
    let after := (tuyaMemHeapCreate (HeapSystem.initial fun _ => 0) 4099 256).2
    ∃ state, run step ⟨after, fun _ => []⟩ [.malloc (some 0) 1, .malloc (some 0) 40] =
        some state ∧
      FreeListCanonical state 0 4104 4352 := by
  have created : tuyaMemHeapCreate (HeapSystem.initial fun _ => 0) 4099 256 =
      (some 0, (tuyaMemHeapCreate (HeapSystem.initial fun _ => 0) 4099 256).2) :=
    Prod.ext (by decide +kernel) rfl
  have canonical := (freeList_canonical created (by decide) (by decide)).1
  have returns : (run step ⟨(tuyaMemHeapCreate (HeapSystem.initial fun _ => 0) 4099 256).2,
      fun _ => []⟩ [.malloc (some 0) 1, .malloc (some 0) 40]).isSome = true := by
    decide +kernel
  obtain ⟨state, ran⟩ := Option.isSome_iff_exists.mp returns
  exact ⟨state, ran, canonical state ⟨_, by decide +kernel, ran⟩⟩

end TuyaAdapter.TuyaMemHeap
