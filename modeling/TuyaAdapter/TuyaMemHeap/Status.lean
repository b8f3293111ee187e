import TuyaAdapter.TuyaMemHeap.HandleRuns

/-!
Contract: `MEM_HeapStatus`, and which calls keep it silent.

The walk over the blocks reports a valid heap exactly when every free block
still carries its free tag (`memHeapStatus_spec`). A free block of 16 bytes
cannot: the last byte of its link is the tag byte. So the walk stays silent
through a run exactly when no free leaves such a block behind
(`selfDiagnosis_silent_iff`).
-/

namespace TuyaAdapter.TuyaMemHeap

open Foundation Foundation.ByteMemory Foundation.LinkedPath Foundation.Tiling Foundation.Run
open Foundation.MachineWord (add sub)

/-! ## The walk -/

/-- Every vacant segment ends in the free tag. -/
def Tagged (memory : Memory) (layout : List Segment) : Prop :=
  ∀ segment ∈ layout, segment.vacant = true →
    memory (segment.address + segment.size - 1) = memBlockStatFree

def usedCount (layout : List Segment) : Nat := (allocations layout).length

def freeCount (layout : List Segment) : Nat := (freeNodes layout).length

section Walk

variable {memory : Memory} {freeList low high : Nat} {layout : List Segment}

theorem usedCount_cons_owned {segment : Segment} {rest : List Segment}
    (owned : segment.vacant = false) : usedCount (segment :: rest) = usedCount rest + 1 := by
  cases owner : segment.owner with
  | none => simp [Segment.vacant, owner] at owned
  | some allocation => rw [usedCount, allocations_cons_owned owner, List.length_cons, usedCount]

theorem usedCount_cons_vacant {segment : Segment} {rest : List Segment}
    (vacant : segment.vacant = true) : usedCount (segment :: rest) = usedCount rest := by
  rw [usedCount, allocations_cons_vacant vacant, usedCount]

theorem freeCount_cons_owned {segment : Segment} {rest : List Segment}
    (owned : segment.vacant = false) : freeCount (segment :: rest) = freeCount rest := by
  rw [freeCount, freeNodes_cons_owned owned, freeCount]

theorem freeCount_cons_vacant {segment : Segment} {rest : List Segment}
    (vacant : segment.vacant = true) : freeCount (segment :: rest) = freeCount rest + 1 := by
  rw [freeCount, freeNodes_cons_vacant vacant, List.length_cons, freeCount]

/-- What the loop over a well-formed list of segments returns: the end of the
heap with the counts added up, or an error code when a free tag is missing. -/
def WalkResult (memory : Memory) (high : Nat) (rest : List Segment)
    (valid usedBlock freeBlock : Nat) (result : Option (Nat × StatusWalk)) : Prop :=
  (Tagged memory rest ∧ ∃ status leaks, result = some (0, ⟨high, 0, status, leaks⟩) ∧
      status.valid = valid ∧ status.usedBlock = usedBlock + usedCount rest ∧
      status.freeBlock = freeBlock + freeCount rest) ∨
    (¬ Tagged memory rest ∧ ∃ code stopped, result = some (code, stopped) ∧ code ≠ 0 ∧
      stopped.status.valid = valid)

/-- One more segment in front of a walked list. -/
theorem WalkResult.cons {segment : Segment} {rest : List Segment}
    {valid usedBlock freeBlock usedBlock' freeBlock' : Nat}
    {result : Option (Nat × StatusWalk)}
    (tail : WalkResult memory high rest valid usedBlock' freeBlock' result)
    (tag : segment.vacant = true →
      memory (segment.address + segment.size - 1) = memBlockStatFree)
    (used : usedBlock' + usedCount rest = usedBlock + usedCount (segment :: rest))
    (free : freeBlock' + freeCount rest = freeBlock + freeCount (segment :: rest)) :
    WalkResult memory high (segment :: rest) valid usedBlock freeBlock result := by
  have tagged : Tagged memory (segment :: rest) ↔ Tagged memory rest := by
    constructor
    · intro all other member
      exact all other (by simp [member])
    · intro all other member
      rcases List.mem_cons.mp member with isFirst | later
      · rw [isFirst]
        exact tag
      · exact all other later
  rcases tail with ⟨isTagged, status, leaks, isResult, isValid, isUsed, isFree⟩ |
    ⟨notTagged, code, stopped, isResult, isError, isValid⟩
  · left
    exact ⟨tagged.mpr isTagged, status, leaks, isResult, isValid, isUsed.trans used,
      isFree.trans free⟩
  · right
    exact ⟨fun all => notTagged (tagged.mp all), code, stopped, isResult, isError, isValid⟩

/-- Before a segment that is owned, the free pointer is at a later segment or at
the end of the list. -/
theorem LayoutHolds.ne_of_path {before rest : List Segment} {segment : Segment} {freeBlockp : Nat}
    (holds : LayoutHolds memory freeList low high (before ++ segment :: rest))
    (path : Path (blockNext memory) freeBlockp (freeNodes rest) 0) :
    segment.address ≠ freeBlockp := by
  have inside := holds.bounds (show segment ∈ before ++ segment :: rest by simp)
  have large := holds.large segment (by simp)
  rw [path.head_eq]
  cases nodes : freeNodes rest with
  | nil =>
      have positive := holds.lowPositive
      show segment.address ≠ 0
      omega
  | cons node others =>
      have isNode : node ∈ freeNodes rest := by simp [nodes]
      obtain ⟨later, inRest, -, rfl⟩ := mem_freeNodes.mp isNode
      have beyond := holds.right_after later inRest
      show segment.address ≠ later.address
      omega

/-- The status after the walk has counted a free block. -/
def countFree (memory : Memory) (this : Nat) (status : MemHeapStatus) : MemHeapStatus :=
  let thisSize := sub 64 (sub 64 (blockSize memory this) memBlockHeadSize) 1
  { status with
    free := add 64 status.free thisSize
    freeLargest := if status.freeLargest < thisSize then thisSize else status.freeLargest
    freeBlock := add 64 status.freeBlock 1 }

theorem countFree_valid (memory : Memory) (this : Nat) (status : MemHeapStatus) :
    (countFree memory this status).valid = status.valid := by
  cases status
  rfl

theorem countFree_usedBlock (memory : Memory) (this : Nat) (status : MemHeapStatus) :
    (countFree memory this status).usedBlock = status.usedBlock := by
  cases status
  rfl

theorem countFree_freeBlock (memory : Memory) (this : Nat) (status : MemHeapStatus) :
    (countFree memory this status).freeBlock = add 64 status.freeBlock 1 := by
  cases status
  rfl

section Blocks

variable {before rest : List Segment} {segment : Segment}
  (holds : LayoutHolds memory freeList low high (before ++ segment :: rest))
  (fuel : Nat) (status : MemHeapStatus) (leaks : List LeakLine)
include holds

/-- The walk counts an owned block and prints its record. -/
theorem statusLoop_used {freeBlockp : Nat} (owned : segment.vacant = false)
    (path : Path (blockNext memory) freeBlockp (freeNodes rest) 0) :
    statusLoop memory high (fuel + 1) ⟨segment.address, freeBlockp, status, leaks⟩ =
      statusLoop memory high fuel
        ⟨segment.address + segment.size, freeBlockp,
          { status with usedBlock := add 64 status.usedBlock 1 },
          leaks ++ leakLines memory segment.address⟩ := by
  have member : segment ∈ before ++ segment :: rest := by simp
  have inside := holds.bounds member
  have fits := holds.highFits
  have large := holds.large segment member
  have advance : add 64 segment.address (blockSize memory segment.address) =
      segment.address + segment.size := by
    rw [holds.blockSize_eq member]
    exact MachineWord.add_of_lt (by omega)
  conv_lhs => unfold statusLoop
  simp only [if_pos (by omega : segment.address < high), holds.memDogAddr_eq member, advance]
  rw [if_pos ((holds.segments segment member).tag owned), if_neg (holds.ne_of_path path)]

/-- The walk counts a free block that carries its tag. -/
theorem statusLoop_free
    (tag : memory (segment.address + segment.size - 1) = memBlockStatFree) :
    ∃ status', status'.valid = status.valid ∧ status'.usedBlock = status.usedBlock ∧
      status'.freeBlock = add 64 status.freeBlock 1 ∧
      statusLoop memory high (fuel + 1) ⟨segment.address, segment.address, status, leaks⟩ =
        statusLoop memory high fuel
          ⟨segment.address + segment.size, blockNext memory segment.address, status', leaks⟩ := by
  have member : segment ∈ before ++ segment :: rest := by simp
  have inside := holds.bounds member
  have fits := holds.highFits
  have large := holds.large segment member
  have advance : add 64 segment.address (blockSize memory segment.address) =
      segment.address + segment.size := by
    rw [holds.blockSize_eq member]
    exact MachineWord.add_of_lt (by omega)
  have notUsed : memory (segment.address + segment.size - 1) ≠ memBlockStatUse := by
    rw [tag]
    decide
  have walks :
      statusLoop memory high (fuel + 1) ⟨segment.address, segment.address, status, leaks⟩ =
        statusLoop memory high fuel
          ⟨segment.address + segment.size, blockNext memory segment.address,
            countFree memory segment.address status, leaks⟩ := by
    conv_lhs => unfold statusLoop
    simp only [if_pos (by omega : segment.address < high), holds.memDogAddr_eq member, advance]
    rw [if_neg notUsed, if_pos tag, if_neg (not_not.mpr rfl), countFree]
  exact ⟨countFree memory segment.address status, countFree_valid .., countFree_usedBlock ..,
    countFree_freeBlock .., walks⟩

/-- The walk stops at a free block that has lost its tag. -/
theorem statusLoop_lost
    (lost : memory (segment.address + segment.size - 1) ≠ memBlockStatFree) :
    ∃ code, code ≠ 0 ∧
      statusLoop memory high (fuel + 1) ⟨segment.address, segment.address, status, leaks⟩ =
        some (code, ⟨segment.address, segment.address, status, leaks⟩) := by
  have member : segment ∈ before ++ segment :: rest := by simp
  have inside := holds.bounds member
  have large := holds.large segment member
  unfold statusLoop
  simp only [if_pos (by omega : segment.address < high), holds.memDogAddr_eq member]
  by_cases used : memory (segment.address + segment.size - 1) = memBlockStatUse
  · rw [if_pos used, if_pos trivial]
    exact ⟨1, by decide, rfl⟩
  · rw [if_neg used, if_neg lost]
    exact ⟨3, by decide, rfl⟩

end Blocks

/-- The loop from any segment on. The free pointer is at the next vacant
segment, and the counters have room for the segments still to come. -/
theorem statusLoop_spec (rest : List Segment) :
    ∀ (before : List Segment) (fuel addr freeBlockp : Nat) (status : MemHeapStatus)
        (leaks : List LeakLine),
      LayoutHolds memory freeList low high (before ++ rest) → rest.length < fuel →
      Contiguous Segment.address Segment.size rest addr high →
      Path (blockNext memory) freeBlockp (freeNodes rest) 0 →
      status.usedBlock + rest.length < 2 ^ 64 → status.freeBlock + rest.length < 2 ^ 64 →
      WalkResult memory high rest status.valid status.usedBlock status.freeBlock
        (statusLoop memory high fuel ⟨addr, freeBlockp, status, leaks⟩) := by
  induction rest with
  | nil =>
      intro before fuel addr freeBlockp status leaks holds enough contiguous path usedRoom freeRoom
      obtain ⟨fuel, rfl⟩ := Nat.exists_eq_succ_of_ne_zero (by omega : fuel ≠ 0)
      have atEnd : addr = high := contiguous
      have atNull : freeBlockp = 0 := path
      subst atEnd atNull
      left
      refine ⟨fun other member => by simp at member, status, leaks, ?_, rfl, rfl, rfl⟩
      simp [statusLoop]
  | cons segment rest inductionHypothesis =>
      intro before fuel addr freeBlockp status leaks holds enough contiguous path usedRoom freeRoom
      obtain ⟨fuel, rfl⟩ := Nat.exists_eq_succ_of_ne_zero (by omega : fuel ≠ 0)
      obtain ⟨atSegment, tail⟩ := contiguous
      subst atSegment
      have whole : LayoutHolds memory freeList low high ((before ++ [segment]) ++ rest) := by
        simpa using holds
      rw [List.length_cons] at enough usedRoom freeRoom
      cases isVacant : segment.vacant with
      | false =>
          rw [freeNodes_cons_owned isVacant] at path
          have counted : add 64 status.usedBlock 1 = status.usedBlock + 1 :=
            MachineWord.add_of_lt (by omega)
          rw [statusLoop_used holds fuel status leaks isVacant path, counted]
          have walked := inductionHypothesis (before ++ [segment]) fuel
            (segment.address + segment.size) freeBlockp
            { status with usedBlock := status.usedBlock + 1 }
            (leaks ++ leakLines memory segment.address) whole (by omega) tail path
            (by dsimp only; omega) (by dsimp only; omega)
          apply walked.cons
          · intro vacant
            rw [isVacant] at vacant
            exact absurd vacant (by decide)
          · rw [usedCount_cons_owned isVacant]
            dsimp only
            omega
          · rw [freeCount_cons_owned isVacant]
      | true =>
          rw [freeNodes_cons_vacant isVacant] at path
          obtain ⟨isFree, after⟩ := path
          subst isFree
          by_cases tag : memory (segment.address + segment.size - 1) = memBlockStatFree
          · obtain ⟨status', sameValid, sameUsed, counted, walks⟩ :=
              statusLoop_free holds fuel status leaks tag
            rw [MachineWord.add_of_lt (by omega)] at counted
            rw [walks, ← sameValid]
            have walked := inductionHypothesis (before ++ [segment]) fuel
              (segment.address + segment.size) (blockNext memory segment.address) status' leaks
              whole (by omega) tail after (by omega) (by omega)
            apply walked.cons
            · exact fun _ => tag
            · rw [usedCount_cons_vacant isVacant, sameUsed]
            · rw [freeCount_cons_vacant isVacant, counted]
              omega
          · have untagged : ¬ Tagged memory (segment :: rest) := by
              intro all
              exact tag (all segment (by simp) isVacant)
            obtain ⟨code, isError, stops⟩ := statusLoop_lost holds fuel status leaks tag
            right
            exact ⟨untagged, code, _, stops, isError, rfl⟩

/-- `MEM_HeapStatus` on a well-formed heap ends. It reports a valid heap, with
the numbers of live and free blocks, exactly when every free tag is in place. -/
theorem memHeapStatus_spec {heap : MemHeap} {ledger : List Allocation}
    (holds : HeapHolds memory heap ledger layout) :
    ∃ status leaks, memHeapStatus memory heap = some (status, leaks) ∧
      (Tagged memory layout → status.valid = 1 ∧ status.usedBlock = ledger.length ∧
        status.freeBlock = (freeNodes layout).length) ∧
      (¬ Tagged memory layout → status.valid = 0) := by
  have short := holds.bytes.toArranged.length_lt
  have walked := statusLoop_spec layout [] loopBound (alignUp heap.base) heap.freeList
    ⟨heap.size, 0, 0, 0, 0, 0⟩ [] holds.bytes (by unfold loopBound; omega)
    holds.bytes.contiguous holds.bytes.links (by simpa using short) (by simpa using short)
  unfold memHeapStatus
  simp only [show alignDown (add 64 heap.base heap.size) = heap.high from rfl]
  rcases walked with ⟨tagged, status, leaks, isResult, isValid, isUsed, isFree⟩ |
    ⟨notTagged, code, stopped, isResult, isError, isValid⟩
  · rw [isResult]
    refine ⟨{ status with valid := 1 }, leaks, by simp, fun _ => ⟨rfl, ?_, ?_⟩,
      fun absent => absurd tagged absent⟩
    · have same : usedCount layout = ledger.length := holds.owners.length_eq.symm
      simpa [same] using isUsed
    · simpa [freeCount] using isFree
  · rw [isResult]
    exact ⟨stopped.status, stopped.leaks, by simp [isError], fun tagged => absurd tagged notTagged,
      fun _ => isValid⟩

end Walk

/-! ## Tags along a run -/

/-- The blocks the free list of a slot visits. -/
def freeListNodes (system : HeapSystem) (slot : Slot) : List Nat :=
  walk (blockNext system.memory) 0 loopBound (system.heapList slot).freeList

/-- `MEM_HeapStatus` reaches the top, finds the heap valid and counts the live
and the free blocks. -/
def Diagnosed (slot : Slot) (state : ClientState) : Prop :=
  ∃ status leaks,
    memHeapStatus state.system.memory (state.system.heapList slot) = some (status, leaks) ∧
    status.valid = 1 ∧ status.usedBlock = (state.ledger slot).length ∧
    status.freeBlock = (freeListNodes state.system slot).length

/-- Live blocks end in the use tag and free blocks in the free tag. -/
def TagsIntact (slot : Slot) (state : ClientState) : Prop :=
  (∀ block ∈ liveBlocks state slot,
      state.system.memory (block + blockSize state.system.memory block - 1) =
        memBlockStatUse) ∧
    ∀ block ∈ freeListNodes state.system slot,
      state.system.memory (block + blockSize state.system.memory block - 1) = memBlockStatFree

/-- A free that keeps a free tag at the end of its block: the block is larger
than 16 bytes, or the block after it is free and lends its tag. -/
def KeepsTag (slot : Slot) (state : ClientState) : Call → Prop
  | .free _ ptr =>
      ptr = 0 ∨ 24 ≤ blockSize state.system.memory (ptr - 8) ∨
        ptr - 8 + blockSize state.system.memory (ptr - 8) ∈ freeListNodes state.system slot
  | _ => True

instance (slot : Slot) (state : ClientState) : Decidable (Diagnosed slot state) :=
  match isStatus : memHeapStatus state.system.memory (state.system.heapList slot) with
  | none => isFalse (by
      rintro ⟨status, leaks, isOther, -⟩
      rw [isStatus] at isOther
      exact absurd isOther (by simp))
  | some (status, leaks) =>
      decidable_of_iff (status.valid = 1 ∧ status.usedBlock = (state.ledger slot).length ∧
          status.freeBlock = (freeListNodes state.system slot).length)
        ⟨fun facts => ⟨status, leaks, isStatus, facts⟩, by
          rintro ⟨other, others, isOther, facts⟩
          rw [isStatus] at isOther
          have same : status = other := congrArg Prod.fst (Option.some.inj isOther)
          rw [same]
          exact facts⟩

instance (slot : Slot) (state : ClientState) : Decidable (TagsIntact slot state) :=
  inferInstanceAs (Decidable (_ ∧ _))

instance (slot : Slot) (state : ClientState) : ∀ call, Decidable (KeepsTag slot state call)
  | .free _ ptr => inferInstanceAs (Decidable
      (ptr = 0 ∨ 24 ≤ blockSize state.system.memory (ptr - 8) ∨
        ptr - 8 + blockSize state.system.memory (ptr - 8) ∈ freeListNodes state.system slot))
  | .create _ _ => isTrue trivial
  | .delete _ => isTrue trivial
  | .malloc _ _ => isTrue trivial
  | .calloc _ _ => isTrue trivial
  | .debugMalloc _ _ _ _ => isTrue trivial
  | .realloc _ _ _ => isTrue trivial
  | .store _ _ => isTrue trivial

section Reading

theorem HeapHolds.freeListNodes_eq {system : HeapSystem} {slot : Slot} {ledger : List Allocation}
    {layout : List Segment} (holds : HeapHolds system.memory (system.heapList slot) ledger layout) :
    freeListNodes system slot = freeNodes layout := by
  have short := holds.bytes.freeNodes_length
  exact holds.bytes.links.walk_eq holds.bytes.freeNodes_ne_zero (by unfold loopBound; omega)

/-- The last byte of a vacant segment of 16 bytes is the most significant byte of
its link, which is zero. -/
theorem HeapHolds.last_of_smallest {memory : Memory} {heap : MemHeap} {ledger : List Allocation}
    {layout : List Segment} (holds : HeapHolds memory heap ledger layout) {segment : Segment}
    (member : segment ∈ layout) (vacant : segment.vacant = true) (isSixteen : segment.size = 16) :
    memory (segment.address + segment.size - 1) = 0 := by
  have isNode : segment.address ∈ freeNodes layout :=
    mem_freeNodes.mpr ⟨segment, member, vacant, rfl⟩
  have link : blockNext memory segment.address < 2 ^ 56 := by
    have limit := holds.high_small
    unfold addressLimit at limit
    rcases holds.bytes.links.next_mem isNode with inside | atEnd
    · obtain ⟨next, nextMember, -, isNext⟩ := mem_freeNodes.mp inside
      have bounds := holds.bytes.bounds nextMember
      omega
    · omega
  rw [isSixteen, show segment.address + 16 - 1 = segment.address + 8 + 7 by omega]
  exact last_of_small_word link

variable {slot : Slot} {state : ClientState} {layout : List Segment}
  (holds : HeapHolds state.system.memory (state.system.heapList slot) (state.ledger slot) layout)
include holds

theorem HeapHolds.diagnosed_iff : Diagnosed slot state ↔ Tagged state.system.memory layout := by
  obtain ⟨status, leaks, isStatus, whenTagged, whenNot⟩ := memHeapStatus_spec holds
  constructor
  · intro diagnosed
    obtain ⟨other, others, isOther, valid, -⟩ := diagnosed
    rw [isStatus] at isOther
    by_contra untagged
    have invalid := whenNot untagged
    have same : status = other := congrArg Prod.fst (Option.some.inj isOther)
    rw [← same] at valid
    omega
  · intro tagged
    have facts := whenTagged tagged
    refine ⟨status, leaks, isStatus, facts.1, facts.2.1, ?_⟩
    rw [holds.freeListNodes_eq]
    exact facts.2.2

theorem HeapHolds.tagsIntact_iff : TagsIntact slot state ↔ Tagged state.system.memory layout := by
  constructor
  · intro intact segment member vacant
    have isNode : segment.address ∈ freeListNodes state.system slot := by
      rw [holds.freeListNodes_eq]
      exact mem_freeNodes.mpr ⟨segment, member, vacant, rfl⟩
    have tag := intact.2 segment.address isNode
    rwa [holds.bytes.blockSize_eq member] at tag
  · intro tagged
    constructor
    · intro block isLive
      rw [liveBlocks, List.mem_map] at isLive
      obtain ⟨allocation, inLedger, rfl⟩ := isLive
      obtain ⟨left, segment, right, isLayout, owned, pointer, -⟩ := holds.split inLedger
      have member : segment ∈ layout := by simp [isLayout]
      rw [pointer, Nat.add_sub_cancel, holds.bytes.blockSize_eq member]
      exact (holds.bytes.segments segment member).tag (vacant_of_owner owned)
    · intro block isNode
      rw [holds.freeListNodes_eq] at isNode
      obtain ⟨segment, member, vacant, rfl⟩ := mem_freeNodes.mp isNode
      rw [holds.bytes.blockSize_eq member]
      exact tagged segment member vacant

/-- A vacant segment of 16 bytes has lost its tag to its link. -/
theorem HeapHolds.vacant_large (tagged : Tagged state.system.memory layout) {segment : Segment}
    (member : segment ∈ layout) (vacant : segment.vacant = true) : 24 ≤ segment.size := by
  by_contra small
  have large := holds.bytes.large segment member
  have aligned := holds.bytes.aligned segment member
  have zero := holds.last_of_smallest member vacant (by omega)
  rw [tagged segment member vacant] at zero
  exact absurd zero (by decide)

end Reading

section Steps

variable {slot : Slot} {base size : Nat} {state next : ClientState} {layout : List Segment}

/-- Calls other than frees of live blocks keep the free tags. -/
theorem Effect.tagged {layout' : List Segment} {call : Call}
    (effect : Effect slot state layout call next layout')
    (holds : HeapHolds state.system.memory (state.system.heapList slot) (state.ledger slot)
      layout)
    (notFree : ∀ ptr, call ≠ .free (some slot) (ptr + 8))
    (tagged : Tagged state.system.memory layout) : Tagged next.system.memory layout' := by
  cases effect with
  | unchanged isSame =>
      rw [isSame]
      exact tagged
  | granted granted ledger =>
      intro segment member vacant
      by_cases old : segment ∈ layout
      · -- An old vacant segment is larger than 16 bytes: its tag is behind its link.
        have large := holds.vacant_large tagged old vacant
        have kept := granted.kept segment old member
        rw [kept.vacant _ (by omega) (by omega) (by omega)]
        exact tagged segment old vacant
      · exact granted.freshTag segment member old vacant
  | surrendered isFree isLayout owned surrendered ledger => exact absurd isFree (notFree _)
  | stored member owned same heaps ledger =>
      intro segment inLayout vacant
      have large := holds.bytes.large segment inLayout
      rw [← tagged segment inLayout vacant]
      apply same
      rcases holds.bytes.apart inLayout member with equal | before | after
      · rw [equal, owned] at vacant
        exact absurd vacant (by decide)
      · omega
      · omega

/-- The tag of the segment a freed block ends up in. -/
theorem Surrendered.tagged_iff {left right left' right' : List Segment} {block joined : Segment}
    (holds : HeapHolds state.system.memory (state.system.heapList slot) (state.ledger slot)
      (left ++ block :: right))
    (surrendered : Surrendered state.system slot (state.ledger slot) left block right next.system
      left' joined right')
    (tagged : Tagged state.system.memory (left ++ block :: right)) :
    Tagged next.system.memory (left' ++ joined :: right') ↔
      24 ≤ block.size ∨ ∃ following ∈ right.head?, following.vacant = true := by
  have blockLarge := holds.bytes.large block (by simp)
  have blockAligned := holds.bytes.aligned block (by simp)
  have joinedVacant : joined.vacant = true := by
    obtain ⟨middle, joinLeft, joinRight⟩ := surrendered.released.joinLeft
    exact joinRight.vacant joinLeft.vacant
  -- The other vacant segments are old ones; their tags lie behind their links.
  have others : ∀ other ∈ left' ++ right', other.vacant = true →
      next.system.memory (other.address + other.size - 1) = memBlockStatFree := by
    intro other member vacant
    have inOld := surrendered.released.old_mem member
    have large := holds.vacant_large tagged inOld vacant
    rw [(surrendered.released.kept other member).vacant _ (by omega) (by omega) (by omega)]
    exact tagged other inOld vacant
  have reduced : Tagged next.system.memory (left' ++ joined :: right') ↔
      next.system.memory (joined.address + joined.size - 1) = memBlockStatFree := by
    constructor
    · intro all
      exact all joined (by simp) joinedVacant
    · intro tag other member vacant
      simp only [List.mem_append, List.mem_cons] at member
      rcases member with inLeft | isJoined | inRight
      · exact others other (by simp [inLeft]) vacant
      · rw [isJoined]
        exact tag
      · exact others other (by simp [inRight]) vacant
  rw [reduced]
  by_cases followed : ∃ following ∈ right.head?, following.vacant = true
  · obtain ⟨following, isHead, vacant⟩ := followed
    rw [surrendered.tag_joined holds isHead vacant]
    have inRight : following ∈ right := List.mem_of_mem_head? isHead
    constructor
    · intro _
      exact Or.inr ⟨following, isHead, vacant⟩
    · intro _
      exact tagged following (by simp [inRight]) vacant
  · rw [surrendered.tag_alone holds followed]
    by_cases smallest : block.size = 16
    · rw [if_pos smallest]
      constructor
      · intro isTag
        exact absurd isTag (by decide)
      · rintro (large | isFollowed)
        · omega
        · exact absurd isFollowed followed
    · rw [if_neg smallest]
      exact ⟨fun _ => Or.inl (by omega), fun _ => rfl⟩

/-- The block after a live block is on the free list exactly when it is the next
segment and vacant. -/
theorem HeapHolds.following_iff {left right : List Segment} {block : Segment}
    (holds : HeapHolds state.system.memory (state.system.heapList slot) (state.ledger slot)
      (left ++ block :: right)) :
    block.address + block.size ∈ freeListNodes state.system slot ↔
      ∃ following ∈ right.head?, following.vacant = true := by
  have blockLarge := holds.bytes.large block (by simp)
  rw [holds.freeListNodes_eq]
  constructor
  · intro isNode
    obtain ⟨segment, member, vacant, atEnd⟩ := mem_freeNodes.mp isNode
    have inRight : segment ∈ right := by
      rcases List.mem_append.mp member with inLeft | isBlock | later
      · have before := holds.bytes.left_before segment inLeft
        have large := holds.bytes.large segment member
        omega
      · omega
      · assumption
    cases right with
    | nil => simp at inRight
    | cons following rest =>
        have touches := holds.bytes.toArranged.next_start
        have same := holds.bytes.contiguous.eq_of_start holds.bytes.positive member
          (show following ∈ left ++ block :: following :: rest by simp) (by omega)
        exact ⟨following, by simp, by rw [← same]; exact vacant⟩
  · rintro ⟨following, isHead, vacant⟩
    cases right with
    | nil => simp at isHead
    | cons first rest =>
        have isFirst : first = following := by simpa using isHead
        subst isFirst
        have touches := holds.bytes.toArranged.next_start
        exact mem_freeNodes.mpr ⟨first, by simp, vacant, touches.symm⟩

/-- From a state with every tag in place a call keeps them exactly when it is
not a free that loses one. -/
theorem step_tagged {call : Call} (sound : Sound slot base size state)
    (legal : ThroughHandle slot state call) (stepped : step state call = some next)
    (intact : TagsIntact slot state) :
    (TagsIntact slot next ↔ KeepsTag slot state call) := by
  obtain ⟨layout, holds⟩ := sound.holds
  have tagged := holds.tagsIntact_iff.mp intact
  -- A call that is no free of a live block keeps every tag.
  have otherwise : (∀ ptr, call ≠ .free (some slot) (ptr + 8)) → TagsIntact slot next := by
    intro notFree
    obtain ⟨other, layout', isStep, effect⟩ := step_effect holds legal
    have isNext : other = next := Option.some.inj (isStep.symm.trans stepped)
    subst isNext
    exact (effect.holds holds).tagsIntact_iff.mpr (effect.tagged holds notFree tagged)
  cases call with
  | free handle ptr =>
      obtain ⟨isHandle, isNull | live⟩ : handle = some slot ∧ (ptr = 0 ∨ _) := legal
      · have kept : TagsIntact slot next := otherwise (by simp [isNull])
        exact ⟨fun _ => Or.inl isNull, fun _ => kept⟩
      · subst isHandle
        obtain ⟨other, left, block, right, left', joined, right', isStep, isLayout, rfl, owned,
          surrendered, ledger⟩ := free_surrenders holds live
        have isNext : other = next := Option.some.inj (isStep.symm.trans stepped)
        subst isNext isLayout
        have after : HeapHolds other.system.memory (other.system.heapList slot)
            (other.ledger slot) (left' ++ joined :: right') := by
          rw [ledger]
          exact surrendered.holds
        have header := holds.bytes.blockSize_eq
          (show block ∈ left ++ block :: right by simp)
        rw [after.tagsIntact_iff, Surrendered.tagged_iff holds surrendered tagged]
        show _ ↔ block.address + 8 = 0 ∨ 24 ≤ blockSize state.system.memory
          (block.address + 8 - 8) ∨ block.address + 8 - 8 + blockSize state.system.memory
            (block.address + 8 - 8) ∈ freeListNodes state.system slot
        rw [Nat.add_sub_cancel, header, holds.following_iff]
        constructor
        · exact Or.inr
        · intro kept
          rcases kept with isNull | large
          · omega
          · exact large
  | _ => exact ⟨fun _ => trivial, fun _ => otherwise (by simp)⟩

theorem Sound.diagnosed_iff (sound : Sound slot base size state) :
    Diagnosed slot state ↔ TagsIntact slot state := by
  obtain ⟨layout, holds⟩ := sound.holds
  rw [holds.diagnosed_iff, holds.tagsIntact_iff]

end Steps

/-- The single block of a heap that was just created carries its free tag. -/
theorem created_tagsIntact {system after : HeapSystem} {slot : Slot} {startAddr : Nat}
    {size : UInt32} (created : tuyaMemHeapCreate system startAddr size = (some slot, after))
    (below : startAddr + size.toNat ≤ addressLimit)
    (padded : alignUp startAddr ≤ startAddr + size.toNat) :
    TagsIntact slot ⟨after, fun _ => []⟩ := by
  have isCreated : Created system slot startAddr size.toNat after :=
    memHeapCreate_spec created below padded
  have room := isCreated.holds.room
  have initialHolds : HeapHolds after.memory (after.heapList slot) [] _ := isCreated.holds
  apply (@HeapHolds.tagsIntact_iff slot ⟨after, fun _ => []⟩ _ initialHolds).mpr
  intro segment member _
  rw [List.mem_singleton.mp member, ← isCreated.tag]
  congr 1
  show (after.heapList slot).low + ((after.heapList slot).high - (after.heapList slot).low) - 1 = _
  omega

/-- The heap of an aligned region diagnoses itself as valid, with the right
counts, in every state of a run exactly when every free of the run keeps a tag;
and the same holds of the tags themselves. -/
theorem selfDiagnosis_silent_iff {system after : HeapSystem} {slot : Slot} {startAddr : Nat}
    {size : UInt32} (created : tuyaMemHeapCreate system startAddr size = (some slot, after))
    (aligned : startAddr % 8 = 0) (below : startAddr + size.toNat ≤ addressLimit)
    {calls : List Call}
    (legal : EveryStep step (ThroughHandle slot) ⟨after, fun _ => []⟩ calls) :
    (EveryState step (Diagnosed slot) ⟨after, fun _ => []⟩ calls ↔
        EveryStep step (KeepsTag slot) ⟨after, fun _ => []⟩ calls) ∧
      (EveryState step (TagsIntact slot) ⟨after, fun _ => []⟩ calls ↔
        EveryStep step (KeepsTag slot) ⟨after, fun _ => []⟩ calls) := by
  have padded : alignUp startAddr ≤ startAddr + size.toNat := by
    rw [alignUp_of_small (by omega)]
    omega
  have start := created_sound created below padded
  have initially := created_tagsIntact created below padded
  have progress : ∀ state call, Sound slot startAddr size.toNat state →
      ThroughHandle slot state call →
      ∃ next, step state call = some next ∧ Sound slot startAddr size.toNat next := by
    intro state call sound admitted
    obtain ⟨next, stepped, kept, -⟩ := step_sound sound admitted
    exact ⟨next, stepped, kept⟩
  constructor
  · refine everyState_iff_everyStep progress ?_ start (start.diagnosed_iff.mpr initially) legal
    intro state call next sound diagnosed admitted stepped
    obtain ⟨other, isOther, kept⟩ := progress state call sound admitted
    have isNext : other = next := Option.some.inj (isOther.symm.trans stepped)
    rw [isNext] at kept
    rw [kept.diagnosed_iff]
    exact step_tagged sound admitted stepped (sound.diagnosed_iff.mp diagnosed)
  · refine everyState_iff_everyStep progress ?_ start initially legal
    intro state call next sound intact admitted stepped
    exact step_tagged sound admitted stepped intact

/-- The theorem on a run that frees a 40-byte request and never loses a tag. -/
theorem selfDiagnosis_silent_large :
    let after := (tuyaMemHeapCreate (HeapSystem.initial fun _ => 0) 4096 256).2
    EveryState step (Diagnosed 0) ⟨after, fun _ => []⟩
      [.malloc (some 0) 40, .malloc (some 0) 1, .free (some 0) 4304] := by
  have created : tuyaMemHeapCreate (HeapSystem.initial fun _ => 0) 4096 256 =
      (some 0, (tuyaMemHeapCreate (HeapSystem.initial fun _ => 0) 4096 256).2) :=
    Prod.ext (by decide +kernel) rfl
  exact (selfDiagnosis_silent_iff created (by decide) (by decide) (by decide +kernel)).1.mpr
    (by decide +kernel)

/-- Three one-byte requests, then a free of the middle one: its neighbours are
live, so its 16-byte block loses the tag and the heap is reported invalid. -/
theorem selfDiagnosis_alarms_on_small_free :
    let after := (tuyaMemHeapCreate (HeapSystem.initial fun _ => 0) 4096 256).2
    let calls : List Call :=
      [.malloc (some 0) 1, .malloc (some 0) 1, .malloc (some 0) 1, .free (some 0) 4328]
    EveryStep step (ThroughHandle 0) ⟨after, fun _ => []⟩ calls ∧
      ¬ EveryState step (Diagnosed 0) ⟨after, fun _ => []⟩ calls ∧
      ¬ EveryState step (TagsIntact 0) ⟨after, fun _ => []⟩ calls := by
  decide +kernel

end TuyaAdapter.TuyaMemHeap
