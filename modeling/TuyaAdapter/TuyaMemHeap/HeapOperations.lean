import TuyaAdapter.TuyaMemHeap.Heap

/-!
Contract: the entry points that work on one slot, on a well-formed heap:
`MEM_AllocateDebug`, `MEM_Deallocate`, `MEM_HeapCreate` and the stores of a
client into the bytes it asked for.

Each has one specification here. Callers reason about these and do not unfold
the functions.
-/

namespace TuyaAdapter.TuyaMemHeap

open Foundation Foundation.ByteMemory Foundation.LinkedPath Foundation.Tiling
open Foundation.MachineWord (add sub)

/-! ## Requests -/

/-- The client of a plain request for `requested` bytes. -/
def plainOwner (requested address : Nat) : Allocation := ⟨address + 8, requested, none⟩

/-- The client of a debug request for `requested` bytes. -/
def debugOwner (requested filename : Nat) (line : Int) (address : Nat) : Allocation :=
  ⟨address + 8, requested, some ⟨filename, line⟩⟩

/-- The size `MEM_AllocateDebug` asks `MEM_Allocate` for. -/
def debugSize (size : Nat) : Nat := add 64 (alignUp size) dbgLeakSize

theorem debugSize_eq {size : Nat} (small : size ≤ 2 ^ 32) :
    debugSize size = (size + 7) - (size + 7) % 8 + 32 := by
  unfold debugSize
  rw [alignUp_of_small (by unfold addressLimit; omega)]
  exact MachineWord.add_of_lt (by unfold dbgLeakSize; omega)

theorem plainOwner_footprint {size : Nat} (small : size ≤ 2 ^ 40) (address : Nat) :
    (plainOwner size address).footprint ≤ chunkSize size := by
  rw [chunkSize_eq small]
  show size + 9 ≤ _
  omega

theorem debugOwner_footprint {size : Nat} (small : size ≤ 2 ^ 32) (filename : Nat) (line : Int)
    (address : Nat) :
    (debugOwner size filename line address).footprint ≤ chunkSize (debugSize size) := by
  have isSize := debugSize_eq small
  rw [chunkSize_eq (by omega)]
  show size + 48 ≤ _
  omega

theorem writeLeak_outside {memory : Memory} {leak filename size address : Nat} {line : Int}
    (outside : address < leak ∨ leak + 32 ≤ address) :
    writeLeak memory leak filename size line address = memory address := by
  unfold writeLeak
  rw [writeWord_other (by omega), writeWord_other (by omega), writeWord_other (by omega),
    writeWord_other (by omega)]

/-- The leak record of a block that has room for it. -/
theorem memLeakDbgAddr_eq {memory : Memory} {block size : Nat}
    (header : blockSize memory block = size) (large : 40 ≤ size) (fits : block + size < 2 ^ 64) :
    memLeakDbgAddr memory block = block + size - 40 := by
  have record : sub 64 (block + size) dbgLeakSize = block + size - 32 :=
    MachineWord.sub_of_le (by omega) (by unfold dbgLeakSize; omega)
  unfold memLeakDbgAddr
  rw [header, MachineWord.add_of_lt (by omega), record]
  exact MachineWord.sub_of_le (by omega) (by unfold memAlignNum; omega)

/-- The line the walk prints for a block that has room for a record. -/
theorem leakLines_of_room {memory : Memory} {block size : Nat}
    (header : blockSize memory block = size) (large : 40 ≤ size) (fits : block + size < 2 ^ 64) :
    leakLines memory block =
      if readWord memory (block + size - 16) = memDbgLeakMagic then
        [⟨readWord memory (block + size - 40), readWord memory (block + size - 32), block,
          readWord memory (block + size - 24)⟩]
      else [] := by
  have field : ∀ offset, offset ≤ 24 → add 64 (block + size - 40) offset =
      block + size - (40 - offset) := by
    intro offset small
    rw [MachineWord.add_of_lt (by omega)]
    omega
  unfold leakLines
  simp only [memLeakDbgAddr_eq header large fits, field 24 (by decide), field 8 (by decide),
    field 16 (by decide)]

/-- The line the walk prints for a block whose record was just written. -/
theorem leakLines_writeLeak {memory : Memory} {block size requested : Nat}
    (header : blockSize memory block = size) (large : 48 ≤ size) (fits : block + size < 2 ^ 64)
    (small : requested < 2 ^ 64) (filename : Nat) (line : Int) :
    leakLines (writeLeak memory (block + size - 40) filename requested line) block =
      [⟨filename % 2 ^ 64, wordOfInt line, block, requested⟩] := by
  have kept : blockSize (writeLeak memory (block + size - 40) filename requested line) block =
      size := by
    rw [← header]
    apply readWord_congr
    intro address lower upper
    exact writeLeak_outside (by omega)
  have lineFits : wordOfInt line < 2 ^ 64 := by
    unfold wordOfInt
    omega
  rw [leakLines_of_room kept (by omega) fits]
  unfold writeLeak
  simp only [show block + size - 40 + 24 = block + size - 16 by omega,
    show block + size - 40 + 16 = block + size - 24 by omega,
    show block + size - 40 + 8 = block + size - 32 by omega]
  rw [readWord_writeWord (by decide), if_pos rfl,
    readWord_writeWord_other (by omega), readWord_writeWord_other (by omega),
    readWord_writeWord_other (by omega), readWord_writeWord_mod,
    readWord_writeWord_other (by omega), readWord_writeWord_other (by omega),
    readWord_writeWord lineFits, readWord_writeWord_other (by omega), readWord_writeWord small]

section Allocate

variable {system : HeapSystem} {slot : Slot} {ledger : List Allocation} {layout : List Segment}

/-- `MEM_AllocateDebug`: an allocation of the enlarged size, with the leak
record stored between the requested bytes and the tag. -/
theorem memAllocateDebug_spec
    (holds : HeapHolds system.memory (system.heapList slot) ledger layout)
    {size : Nat} (small : size ≤ 2 ^ 32) (filename : Nat) (line : Int) :
    memAllocateDebug system slot size filename line = some (0, system) ∨
      ∃ after segment layout',
        memAllocateDebug system slot size filename line = some (segment.address + 8, after) ∧
        Granted system slot ledger layout (chunkSize (debugSize size))
          (debugOwner size filename line) after segment layout' ∧
        leakLines after.memory segment.address =
          [⟨filename % 2 ^ 64, wordOfInt line, segment.address, size⟩] := by
  have isSize := debugSize_eq small
  unfold memAllocateDebug
  rw [show add 64 (alignUp size) dbgLeakSize = debugSize size from rfl]
  rcases memAllocate_spec holds (by omega : debugSize size ≤ 2 ^ 40) (fun _ => rfl)
      (debugOwner_footprint small filename line) with
    ⟨isNull, -⟩ | ⟨-, after, segment, layout', isBlock, granted, -⟩
  · left
    rw [isNull]
    rfl
  · right
    have member := granted.carve.mem
    have inside := granted.holds.bytes.bounds member
    have fits := granted.holds.bytes.highFits
    have enough := granted.carve.size_le
    have chunkIs := chunkSize_eq (show debugSize size ≤ 2 ^ 40 by omega)
    have header := granted.holds.bytes.blockSize_eq member
    have isBack : sub 64 (segment.address + 8) memBlockHeadSize = segment.address := by
      rw [MachineWord.sub_of_le (by omega) (by unfold memBlockHeadSize; omega)]
      rfl
    have isLeak : memLeakDbgAddr after.memory segment.address =
        segment.address + segment.size - 40 :=
      memLeakDbgAddr_eq header (by omega) (by omega)
    rw [isBlock]
    simp only [Option.map_some, if_neg (by omega : segment.address + 8 ≠ 0), isBack, isLeak]
    refine ⟨_, segment, layout', rfl, granted.writeInside ?_, ?_⟩
    · intro address outside
      exact writeLeak_outside (by omega)
    · exact leakLines_writeLeak header (by omega) (by omega) (by omega) filename line

/-- Taking a block leaves every byte of the segments with an owner alone. -/
theorem Granted.agreeOn {size : Nat} {owner : Nat → Allocation} {after : HeapSystem}
    {segment other : Segment} {layout' : List Segment}
    (granted : Granted system slot ledger layout size owner after segment layout')
    (member : other ∈ layout) (owned : other.vacant = false) :
    AgreeOn after.memory system.memory other.address (other.address + other.size) :=
  (granted.kept other member (granted.carve.owned_mem member owned)).owned owned

/-- `memset` over the requested bytes of a new block. -/
theorem Granted.cleared {size requested : Nat} {after : HeapSystem} {segment : Segment}
    {layout' : List Segment}
    (granted : Granted system slot ledger layout size (plainOwner requested) after segment layout') :
    Granted system slot ledger layout size (plainOwner requested)
      { after with
        memory := writeBytes after.memory (segment.address + 8) requested fun _ => 0 }
      segment layout' := by
  have facts := (granted.holds.bytes.segments segment granted.carve.mem).owned _
    granted.carve.owner_eq
  have footprint : requested + 9 ≤ segment.size := facts.2
  apply granted.writeInside
  intro address outside
  exact writeBytes_outside (by omega)

end Allocate

/-! ## Deallocation -/

section JoinLayouts

variable {block middle joined : Segment} {left left' right right' : List Segment}

theorem JoinLeft.vacantBytes_eq (join : JoinLeft block left left' middle) :
    vacantBytes left + block.size = vacantBytes left' + middle.size := by
  cases join with
  | alone => rfl
  | joined front previous vacant =>
      rw [vacantBytes_append, vacantBytes_cons_vacant vacant]
      show vacantBytes left' + (previous.size + 0) + block.size =
        vacantBytes left' + (previous.size + block.size)
      omega

theorem JoinRight.vacantBytes_eq (join : JoinRight middle right joined right') :
    middle.size + vacantBytes right = joined.size + vacantBytes right' := by
  cases join with
  | alone => rfl
  | joined next rest vacant =>
      rw [vacantBytes_cons_vacant vacant]
      show middle.size + (next.size + vacantBytes right') =
        middle.size + next.size + vacantBytes right'
      omega

theorem JoinLeft.allocations_eq (join : JoinLeft block left left' middle) :
    allocations left' = allocations left := by
  cases join with
  | alone => rfl
  | joined front previous vacant =>
      rw [allocations_append, allocations_cons_vacant vacant]
      exact (List.append_nil _).symm

theorem JoinRight.allocations_eq (join : JoinRight middle right joined right') :
    allocations right' = allocations right := by
  cases join with
  | alone => rfl
  | joined next rest vacant => exact (allocations_cons_vacant vacant).symm

theorem JoinRight.vacant (join : JoinRight middle right joined right')
    (middleVacant : middle.vacant = true) : joined.vacant = true := by
  cases join with
  | alone => exact middleVacant
  | joined => rfl

/-- After a block is freed its vacant segment has no vacant neighbour. -/
theorem join_separated (joinLeft : JoinLeft block left left' middle)
    (joinRight : JoinRight middle right joined right')
    (separated : Separated Segment.vacant (left ++ block :: right)) :
    Separated Segment.vacant (left' ++ joined :: right') := by
  have leftPart : Separated Segment.vacant left' ∧
      ∀ other ∈ left'.getLast?, other.vacant = false := by
    cases joinLeft with
    | alone _ owned => exact ⟨separated.front, owned⟩
    | joined _ previous vacant =>
        have front : Separated Segment.vacant (left' ++ previous :: []) := separated.front
        exact ⟨front.front, (front.neighbours vacant).1⟩
  have rightWhole : Separated Segment.vacant right := separated.back.tail
  have rightPart : Separated Segment.vacant right' ∧
      ∀ other ∈ right'.head?, other.vacant = false := by
    cases joinRight with
    | alone _ owned => exact ⟨rightWhole, owned⟩
    | joined next _ vacant =>
        have back : Separated Segment.vacant ([] ++ next :: right') := rightWhole
        exact ⟨rightWhole.tail, (back.neighbours vacant).2⟩
  exact separated_vacant leftPart.1 rightPart.1 leftPart.2 rightPart.2

theorem JoinLeft.mem_old (join : JoinLeft block left left' middle) {other : Segment}
    (member : other ∈ left') : other ∈ left := by
  cases join with
  | alone => exact member
  | joined => simp [member]

theorem JoinRight.mem_old (join : JoinRight middle right joined right') {other : Segment}
    (member : other ∈ right') : other ∈ right := by
  cases join with
  | alone => exact member
  | joined => simp [member]

theorem JoinLeft.owned_iff (join : JoinLeft block left left' middle) {other : Segment}
    (owned : other.vacant = false) : other ∈ left' ↔ other ∈ left := by
  cases join with
  | alone => rfl
  | joined front previous vacant =>
      have different : other ≠ previous := by
        intro same
        rw [same, vacant] at owned
        exact absurd owned (by decide)
      simp [different]

theorem JoinRight.owned_iff (join : JoinRight middle right joined right') {other : Segment}
    (owned : other.vacant = false) : other ∈ right' ↔ other ∈ right := by
  cases join with
  | alone => rfl
  | joined next rest vacant =>
      have different : other ≠ next := by
        intro same
        rw [same, vacant] at owned
        exact absurd owned (by decide)
      simp [different]

section Released

variable {before after : Memory} {low high freeList : Nat}
  (released : Released before low high left block right after freeList left' joined right')
include released

/-- The segments beside the freed block were there before. -/
theorem Released.old_mem {other : Segment} (member : other ∈ left' ++ right') :
    other ∈ left ++ block :: right := by
  obtain ⟨middle, joinLeft, joinRight⟩ := released.joinLeft
  rcases List.mem_append.mp member with inLeft | inRight
  · simp [joinLeft.mem_old inLeft]
  · simp [joinRight.mem_old inRight]

/-- The other segments with an owner stay where they are, byte for byte. -/
theorem Released.agreeOn {other : Segment} (member : other ∈ left ++ block :: right)
    (owned : other.vacant = false) (different : other ≠ block) :
    AgreeOn after before other.address (other.address + other.size) := by
  obtain ⟨middle, joinLeft, joinRight⟩ := released.joinLeft
  have stays : other ∈ left' ++ right' := by
    rw [List.mem_append, joinLeft.owned_iff owned, joinRight.owned_iff owned]
    rcases List.mem_append.mp member with inLeft | atBlock
    · exact Or.inl inLeft
    · exact Or.inr ((List.mem_cons.mp atBlock).resolve_left different)
  exact (released.kept other stays).owned owned

end Released

end JoinLayouts

/-- What freeing a live block does. -/
structure Surrendered (before : HeapSystem) (slot : Slot) (ledger : List Allocation)
    (left : List Segment) (block : Segment) (right : List Segment) (after : HeapSystem)
    (left' : List Segment) (joined : Segment) (right' : List Segment) : Prop where
  released : Released before.memory (before.heapList slot).low (before.heapList slot).high
    left block right after.memory (after.heapList slot).freeList left' joined right'
  holds : HeapHolds after.memory (after.heapList slot)
    (ledger.filter fun allocation => allocation.pointer ≠ block.address + 8)
    (left' ++ joined :: right')
  confined : Confined before after slot
  free : (after.heapList slot).free = (before.heapList slot).free + block.size
  watermark : (after.heapList slot).freeWatermark = (before.heapList slot).freeWatermark
  total : after.heapFreeSize = add 64 before.heapFreeSize block.size
  totalWatermark : after.heapFreeSizeWatermark = before.heapFreeSizeWatermark

section Deallocate

variable {system : HeapSystem} {slot : Slot} {ledger : List Allocation}
  {left right : List Segment} {block : Segment}

/-- The last byte of the link that a freed block gets. -/
theorem HeapHolds.link_last {memory : Memory} {heap : MemHeap}
    (holds : HeapHolds memory heap ledger (left ++ block :: right)) :
    digit ((freeNodes right).headD 0) 7 = 0 := by
  apply digit_seven_of_small
  have bounded := holds.bytes.next_lt
  have limit := holds.high_small
  unfold addressLimit at limit
  omega

section Tags

variable {after : HeapSystem} {left' right' : List Segment} {joined : Segment}
  (surrendered : Surrendered system slot ledger left block right after left' joined right')
  (holds : HeapHolds system.memory (system.heapList slot) ledger (left ++ block :: right))
include surrendered holds

/-- The last byte of a freed block that no vacant segment follows: its tag, or
the last byte of its link when the block has no byte behind the link. -/
theorem Surrendered.tag_alone (lone : ¬ ∃ following ∈ right.head?, following.vacant = true) :
    after.memory (joined.address + joined.size - 1) =
      if block.size = 16 then 0 else memBlockStatFree := by
  have owned : ∀ other ∈ right.head?, other.vacant = false := by
    intro other isHead
    exact Bool.eq_false_iff.mpr fun vacant => lone ⟨other, isHead, vacant⟩
  obtain ⟨middle, joinLeft, joinRight⟩ := surrendered.released.joinLeft
  cases joinRight with
  | alone _ _ =>
      rw [joinLeft.end_eq holds.bytes.toArranged, surrendered.released.tagAlone owned,
        holds.link_last]
  | joined following rest vacant => exact absurd ⟨following, by simp, vacant⟩ lone

/-- The last byte of a freed block that a vacant segment follows. -/
theorem Surrendered.tag_joined {following : Segment} (isHead : following ∈ right.head?)
    (vacant : following.vacant = true) :
    after.memory (joined.address + joined.size - 1) =
      system.memory (following.address + following.size - 1) := by
  have tag := surrendered.released.tagJoined following isHead vacant
  obtain ⟨middle, joinLeft, joinRight⟩ := surrendered.released.joinLeft
  have ends := joinLeft.end_eq holds.bytes.toArranged
  cases joinRight with
  | alone _ owned =>
      rw [owned following isHead] at vacant
      exact absurd vacant (by decide)
  | joined next rest _ =>
      have isNext : next = following := by simpa using isHead
      have touches := holds.bytes.toArranged.next_start
      have sameEnd : middle.address + (middle.size + next.size) - 1 =
          following.address + following.size - 1 := by
        rw [← isNext]
        omega
      show after.memory (middle.address + (middle.size + next.size) - 1) = _
      rw [sameEnd, tag]

end Tags

/-- Dropping the owner of one block by its pointer drops that owner only. -/
theorem allocations_filter_pointer {memory : Memory} {freeList low high : Nat}
    {allocation : Allocation}
    (holds : LayoutHolds memory freeList low high (left ++ block :: right))
    (owned : block.owner = some allocation) :
    ((allocations (left ++ block :: right)).filter
        fun other => other.pointer ≠ block.address + 8) =
      allocations left ++ allocations right := by
  have pointer := ((holds.segments block (by simp)).owned allocation owned).1
  have others : ∀ other ∈ allocations left ++ allocations right,
      other.pointer ≠ block.address + 8 := by
    intro other member
    rw [← allocations_append] at member
    obtain ⟨segment, inRest, isOwner⟩ := mem_allocations.mp member
    have inLayout : segment ∈ left ++ block :: right := by
      simp only [List.mem_append, List.mem_cons] at inRest ⊢
      tauto
    have itsPointer := ((holds.segments segment inLayout).owned other isOwner).1
    have large := holds.large segment inLayout
    have blockLarge := holds.large block (by simp)
    rcases List.mem_append.mp inRest with inLeft | inRight
    · have before := holds.left_before segment inLeft
      omega
    · have later := holds.right_after segment inRight
      omega
  rw [allocations_append, allocations_cons_owned owned, List.filter_append,
    List.filter_cons_of_neg (by simp [pointer])]
  congr 1
  · exact List.filter_eq_self.mpr fun other member => by
      simpa using others other (by simp [member])
  · exact List.filter_eq_self.mpr fun other member => by
      simpa using others other (by simp [member])

/-- The search for the place of a live block on the free list. -/
theorem findPlace_block {memory : Memory} {freeList low high : Nat}
    (holds : LayoutHolds memory freeList low high (left ++ block :: right))
    (owned : block.vacant = false) :
    findPlace (writeByte memory (block.address + block.size - 1) memBlockStatFree) block.address
        loopBound 0 freeList =
      some (lastOr (freeNodes left), (freeNodes right).headD 0) := by
  have large := holds.large block (by simp)
  have nodes : freeNodes (left ++ block :: right) = freeNodes left ++ freeNodes right := by
    rw [freeNodes_append, freeNodes_cons_owned owned]
  have short := holds.freeNodes_length
  rw [nodes, List.length_append] at short
  have path : Path (blockNext (writeByte memory (block.address + block.size - 1)
      memBlockStatFree)) freeList (freeNodes left ++ freeNodes right) 0 := by
    rw [← nodes]
    apply holds.links.congr
    intro node isNode
    rw [nodes, ← freeNodes_append] at isNode
    obtain ⟨segment, member, -, rfl⟩ := mem_freeNodes.mp isNode
    apply readWord_writeByte
    rcases List.mem_append.mp member with inLeft | inRight
    · have before := holds.left_before segment inLeft
      have segmentLarge := holds.large segment (by simp [inLeft])
      omega
    · have later := holds.right_after segment inRight
      omega
  apply findPlace_spec (freeNodes left) loopBound 0 freeList path
  · intro node isNode
    exact holds.freeNodes_ne_zero node (by simp [isNode])
  · intro node isNode
    obtain ⟨segment, member, -, rfl⟩ := mem_freeNodes.mp isNode
    have before := holds.left_before segment member
    have segmentLarge := holds.large segment (by simp [member])
    omega
  · intro node isNode
    obtain ⟨segment, member, -, rfl⟩ := mem_freeNodes.mp isNode
    have later := holds.right_after segment member
    omega
  · unfold loopBound
    omega

/-- `MEM_Deallocate` of a live block tags it, puts it on the list and merges. -/
theorem memDeallocate_eq
    (holds : HeapHolds system.memory (system.heapList slot) ledger (left ++ block :: right))
    (owned : block.vacant = false) :
    memDeallocate system slot (block.address + 8) =
      let linked := linkFree
        (writeByte system.memory (block.address + block.size - 1) memBlockStatFree)
        (system.heapList slot).freeList block.address (lastOr (freeNodes left))
        ((freeNodes right).headD 0)
      some
        { system.setHeap slot
            { system.heapList slot with
              freeList := linked.2.2
              free := add 64 (system.heapList slot).free block.size } with
          memory := mergeNext linked.2.1 linked.1 ((freeNodes right).headD 0)
          heapFreeSize := add 64 system.heapFreeSize block.size } := by
  have member : block ∈ left ++ block :: right := by simp
  have inside := holds.bytes.bounds member
  have fits := holds.bytes.highFits
  have large := holds.bytes.large block member
  have header := holds.bytes.blockSize_eq member
  have isBack : sub 64 (block.address + 8) memBlockHeadSize = block.address := by
    rw [MachineWord.sub_of_le (by omega) (by unfold memBlockHeadSize; omega)]
    rfl
  have dog := holds.bytes.memDogAddr_eq member
  have tag := (holds.bytes.segments block member).tag owned
  have sizeKept : blockSize
      (writeByte system.memory (block.address + block.size - 1) memBlockStatFree)
      block.address = block.size := by
    unfold blockSize
    rw [readWord_writeByte (by omega)]
    exact header
  unfold memDeallocate
  simp only [if_neg (by omega : block.address + 8 ≠ 0), isBack, dog, tag, ne_eq,
    not_true_eq_false, if_false, sizeKept, findPlace_block holds.bytes owned, Option.map_some]

/-- `MEM_Deallocate` of a live block ends and gives the block back. -/
theorem memDeallocate_spec {allocation : Allocation}
    (holds : HeapHolds system.memory (system.heapList slot) ledger (left ++ block :: right))
    (owned : block.owner = some allocation) :
    ∃ after left' joined right',
      memDeallocate system slot (block.address + 8) = some after ∧
      Surrendered system slot ledger left block right after left' joined right' := by
  have blockOwned := vacant_of_owner owned
  have fits := holds.bytes.highFits
  have bytes : vacantBytes (left ++ block :: right) = vacantBytes left + vacantBytes right := by
    rw [vacantBytes_append, vacantBytes_cons_owned blockOwned]
  obtain ⟨pre, linked, freeList, left', joined, right', isLinked, released⟩ :=
    release_spec holds.bytes blockOwned
  obtain ⟨middle, joinLeft, joinRight⟩ := released.joinLeft
  have newBytes : vacantBytes (left' ++ joined :: right') =
      vacantBytes (left ++ block :: right) + block.size := by
    have one := joinLeft.vacantBytes_eq
    have two := joinRight.vacantBytes_eq
    rw [vacantBytes_append, vacantBytes_cons_vacant (joinRight.vacant joinLeft.vacant), bytes]
    omega
  have bounded := released.holds.vacantBytes_le
  have newFree : add 64 (system.heapList slot).free block.size =
      (system.heapList slot).free + block.size := by
    have isFree := holds.free
    exact MachineWord.add_of_lt (by omega)
  have unfolded := memDeallocate_eq holds blockOwned
  simp only [isLinked, newFree] at unfolded
  refine ⟨_, left', joined, right', unfolded, ?_⟩
  constructor
  · simpa [HeapSystem.setHeap] using released
  · constructor
    · simpa [HeapSystem.setHeap] using holds.live
    · simpa [HeapSystem.setHeap] using holds.fits
    · simpa [HeapSystem.setHeap, MemHeap.low, MemHeap.high] using holds.room
    · simpa [HeapSystem.setHeap, MemHeap.low, MemHeap.high] using released.holds
    · exact join_separated joinLeft joinRight holds.separated
    · simp [HeapSystem.setHeap, newBytes, holds.free]
    · have rest : allocations (left' ++ joined :: right') =
          allocations left ++ allocations right := by
        rw [allocations_append, allocations_cons_vacant (joinRight.vacant joinLeft.vacant),
          joinLeft.allocations_eq, joinRight.allocations_eq]
      rw [rest, ← allocations_filter_pointer holds.bytes owned]
      exact holds.owners.filter _
  · constructor
    · exact released.outside
    · intro other different
      simp [HeapSystem.setHeap, different]
    · simp [HeapSystem.setHeap]
    · simp [HeapSystem.setHeap]
  · simp [HeapSystem.setHeap]
  · simp [HeapSystem.setHeap]
  · rfl
  · rfl

end Deallocate

/-! ## Creation -/

/-- What a successful `MEM_HeapCreate` on a region does. -/
structure Created (before : HeapSystem) (slot : Slot) (ptr size : Nat) (after : HeapSystem) :
    Prop where
  unused : (before.heapList slot).size = 0
  base : (after.heapList slot).base = ptr
  size : (after.heapList slot).size = size
  holds : HeapHolds after.memory (after.heapList slot) []
    [⟨(after.heapList slot).low, (after.heapList slot).high - (after.heapList slot).low, none⟩]
  tag : after.memory ((after.heapList slot).high - 1) = memBlockStatFree
  watermark : (after.heapList slot).freeWatermark = (after.heapList slot).free
  elsewhere : ∀ other, other ≠ slot → after.heapList other = before.heapList other
  outside : ∀ address,
    address < (after.heapList slot).low ∨ (after.heapList slot).high ≤ address →
    after.memory address = before.memory address
  total : after.heapFreeSize = add 64 before.heapFreeSize (after.heapList slot).free
  totalWatermark : after.heapFreeSizeWatermark = after.heapFreeSize

/-- What a failed `MEM_HeapCreate` leaves behind: at most the base address of an
unused slot has changed. -/
structure Refused (before after : HeapSystem) : Prop where
  memory : after.memory = before.memory
  heaps : ∀ slot, after.heapList slot = before.heapList slot ∨
    (before.heapList slot).size = 0 ∧
      ∃ base, after.heapList slot = { before.heapList slot with base := base, size := 0 }
  total : after.heapFreeSize = before.heapFreeSize
  totalWatermark : after.heapFreeSizeWatermark = before.heapFreeSizeWatermark

section Create

variable {system after : HeapSystem} {slot : Slot} {ptr size : Nat}

theorem firstUnused_unused (found : firstUnused system = some slot) :
    (system.heapList slot).size = 0 := by
  have holds := List.find?_some found
  simpa using holds

/-- The size of the block that `mem_heap_init` sets up. -/
def initialSize (ptr size : Nat) : Nat := alignDown (sub 64 size (sub 64 (alignUp ptr) ptr))

/-- The memory once the header of the first block is written. -/
def headedMemory (memory : Memory) (start usable : Nat) : Memory :=
  writeWord (writeWord memory (start + 8) 0) start usable

/-- The state that a successful `mem_heap_init` leaves. -/
def initialized (system : HeapSystem) (slot : Slot) (ptr size : Nat) : HeapSystem :=
  let usable := initialSize ptr size
  let memory := headedMemory system.memory (alignUp ptr) usable
  let heap := { system.heapList slot with
    base := ptr, size := size, freeList := alignUp ptr, free := usable, freeWatermark := usable }
  { system.setHeap slot heap with
    memory := writeByte memory (memDogAddr memory (alignUp ptr)) memBlockStatFree
    heapFreeSize := add 64 system.heapFreeSize usable
    heapFreeSizeWatermark := add 64 system.heapFreeSize usable }

theorem memHeapCreate_created (created : memHeapCreate system ptr size = (some slot, after)) :
    (ptr ≠ 0 ∧ size ≠ 0) ∧ firstUnused system = some slot ∧ 32 ≤ initialSize ptr size ∧
      after = initialized system slot ptr size := by
  unfold memHeapCreate at created
  split at created
  · simp at created
  · rename_i nonzero
    rw [not_or] at nonzero
    cases found : firstUnused system with
    | none =>
        rw [found] at created
        simp at created
    | some unused =>
        rw [found] at created
        simp only [memHeapInit] at created
        rw [show alignDown (sub 64 size (sub 64 (alignUp ptr) ptr)) = initialSize ptr size from rfl]
          at created
        by_cases tooSmall : initialSize ptr size < memHeapMinSize
        · simp [tooSmall] at created
        · simp only [tooSmall, if_false, ne_eq, not_true_eq_false, Prod.mk.injEq,
            Option.some.injEq] at created
          obtain ⟨isSlot, isAfter⟩ := created
          subst isSlot isAfter
          exact ⟨nonzero, rfl, not_lt.mp tooSmall, rfl⟩

/-- The bytes `mem_heap_init` hands to the single free block. -/
theorem usable_eq (fits : ptr + size ≤ addressLimit) (padded : alignUp ptr ≤ ptr + size) :
    initialSize ptr size = alignDown (add 64 ptr size) - alignUp ptr := by
  have isUp := alignUp_of_small (show ptr ≤ addressLimit by omega)
  have small : ptr + size < 2 ^ 64 := by
    unfold addressLimit at fits
    omega
  have pad : sub 64 (alignUp ptr) ptr = alignUp ptr - ptr :=
    MachineWord.sub_of_le (by omega) (by omega)
  rw [initialSize, pad, MachineWord.add_of_lt small, MachineWord.sub_of_le (by omega) (by omega)]
  unfold alignDown memAlignNum
  omega

/-- The memory after `mem_heap_init` has set up its single block. -/
def initialMemory (memory : Memory) (start usable : Nat) : Memory :=
  writeByte (writeWord (writeWord memory (start + 8) 0) start usable) (start + usable - 1)
    memBlockStatFree

theorem initialMemory_holds {memory : Memory} {start usable : Nat} (positive : 0 < start)
    (startAligned : start % 8 = 0) (aligned : usable % 8 = 0) (large : 32 ≤ usable)
    (fits : start + usable < 2 ^ 64) :
    LayoutHolds (initialMemory memory start usable) start start (start + usable)
      [⟨start, usable, none⟩] := by
  refine ⟨⟨positive, startAligned, fits, ⟨rfl, rfl⟩, ?_, ?_⟩, ?_, ?_⟩
  · intro segment member
    rw [List.mem_singleton.mp member]
    show 16 ≤ usable
    omega
  · intro segment member
    rw [List.mem_singleton.mp member]
    exact aligned
  · intro segment member
    rw [List.mem_singleton.mp member]
    exact {
      header := by
        show readWord (initialMemory memory start usable) start = usable
        unfold initialMemory
        rw [readWord_writeByte (by omega), readWord_writeWord (by omega)]
      tag := fun isOwned => absurd isOwned (by simp [Segment.vacant])
      owned := fun allocation isSome => absurd isSome (by simp) }
  · refine ⟨rfl, ?_⟩
    show readWord (initialMemory memory start usable) (start + 8) = 0
    unfold initialMemory
    rw [readWord_writeByte (by omega), readWord_writeWord_other (by omega),
      readWord_writeWord (by omega)]

theorem initialMemory_outside {memory : Memory} {start usable address : Nat}
    (large : 32 ≤ usable) (outside : address < start ∨ start + usable ≤ address) :
    initialMemory memory start usable address = memory address := by
  unfold initialMemory
  rw [writeByte_other (by omega), writeWord_other (by omega), writeWord_other (by omega)]

/-- `MEM_HeapCreate` on a region that reaches its first aligned address. -/
theorem memHeapCreate_spec (created : memHeapCreate system ptr size = (some slot, after))
    (fits : ptr + size ≤ addressLimit) (padded : alignUp ptr ≤ ptr + size) :
    Created system slot ptr size after := by
  obtain ⟨⟨nonNull, nonempty⟩, found, atLeast, isAfter⟩ := memHeapCreate_created created
  subst isAfter
  have isUp := alignUp_of_small (show ptr ≤ addressLimit by omega)
  have isUsable := usable_eq fits padded
  have limit : ptr + size < 2 ^ 64 := by
    unfold addressLimit at fits
    omega
  have isHigh : alignDown (add 64 ptr size) = ptr + size - (ptr + size) % 8 := by
    rw [MachineWord.add_of_lt limit]
    rfl
  have heap : (initialized system slot ptr size).heapList slot =
      { system.heapList slot with
        base := ptr, size := size, freeList := alignUp ptr, free := initialSize ptr size,
        freeWatermark := initialSize ptr size } := by
    simp [initialized, HeapSystem.setHeap]
  have low : ((initialized system slot ptr size).heapList slot).low = alignUp ptr := by
    rw [heap]
    rfl
  have high : ((initialized system slot ptr size).heapList slot).high =
      alignUp ptr + initialSize ptr size := by
    rw [heap]
    show alignDown (add 64 ptr size) = _
    omega
  have memory : (initialized system slot ptr size).memory =
      initialMemory system.memory (alignUp ptr) (initialSize ptr size) := by
    have header : blockSize (headedMemory system.memory (alignUp ptr) (initialSize ptr size))
        (alignUp ptr) = initialSize ptr size :=
      readWord_writeWord (by omega)
    simp only [initialized, memDogAddr]
    rw [header, MachineWord.add_of_lt (by omega), MachineWord.sub_of_le (by omega) (by omega)]
    unfold headedMemory initialMemory
    rfl
  constructor
  · exact firstUnused_unused found
  · rw [heap]
  · rw [heap]
  · rw [low, high, memory, Nat.add_sub_cancel_left]
    exact {
      live := by
        rw [heap]
        exact Nat.pos_of_ne_zero nonempty
      fits := by
        rw [heap]
        exact fits
      room := by
        rw [low, high]
        omega
      bytes := by
        rw [low, high, heap]
        exact initialMemory_holds (by omega) (by omega) (by omega) atLeast (by omega)
      separated := List.isChain_singleton _
      free := by
        rw [heap, vacantBytes_cons_vacant rfl]
        rfl
      owners := List.Perm.refl _ }
  · rw [high, memory]
    exact writeByte_same _ _ _
  · rw [heap]
  · intro other different
    simp [initialized, HeapSystem.setHeap, different]
  · intro address outside
    rw [low, high] at outside
    rw [memory]
    exact initialMemory_outside atLeast outside
  · rw [heap]
    rfl
  · rfl

theorem memHeapCreate_refused (refused : memHeapCreate system ptr size = (none, after)) :
    Refused system after := by
  unfold memHeapCreate at refused
  split at refused
  · obtain ⟨-, rfl⟩ := Prod.mk.inj refused
    exact ⟨rfl, fun _ => Or.inl rfl, rfl, rfl⟩
  · cases found : firstUnused system with
    | none =>
        rw [found] at refused
        obtain ⟨-, rfl⟩ := Prod.mk.inj refused
        exact ⟨rfl, fun _ => Or.inl rfl, rfl, rfl⟩
    | some unused =>
        rw [found] at refused
        simp only [memHeapInit] at refused
        split at refused
        · simp only [ne_eq, Int.reduceNeg, neg_eq_zero, one_ne_zero, not_false_eq_true, if_true,
            Prod.mk.injEq, true_and] at refused
          rw [← refused]
          refine ⟨rfl, fun slot => ?_, rfl, rfl⟩
          by_cases isSlot : slot = unused
          · subst isSlot
            right
            refine ⟨firstUnused_unused found, ptr, ?_⟩
            simp [HeapSystem.setHeap]
          · left
            simp [HeapSystem.setHeap, isSlot]
        · simp at refused

end Create

end TuyaAdapter.TuyaMemHeap
