import TuyaAdapter.TuyaMemHeap.Heap

/-!
Contract: `mem_chunk_get` on any well-formed free list and for any size.

`WellFormedList` is what the function needs of the list itself: a
null-terminated chain in address order whose blocks do not touch. It says
nothing about what lies between the blocks. The chosen block is the choice of
the bounded best-fit search, and it is the only node that changes: it is cut
short, or taken off the list.

The size may be anything, also less than a header: then the header of the new
block is written past the end of the chosen one, but not into another block of
the list.
-/

namespace TuyaAdapter.TuyaMemHeap

open Foundation Foundation.BestFit Foundation.ByteMemory Foundation.LinkedPath Foundation.Tiling
open Foundation.MachineWord (add sub)

/-! ## Well-formed lists -/

structure WellFormedList (memory : Memory) (freeList : Nat) (nodes : List Nat) : Prop where
  path : Path (blockNext memory) freeList nodes 0
  nonzero : ∀ node ∈ nodes, node ≠ 0
  aligned : ∀ node ∈ nodes, node % 8 = 0 ∧ blockSize memory node % 8 = 0
  large : ∀ node ∈ nodes, 16 ≤ blockSize memory node
  fits : ∀ node ∈ nodes, node + blockSize memory node < 2 ^ 64
  apart : nodes.Pairwise fun earlier later => earlier + blockSize memory earlier < later

section Lists

variable {memory : Memory} {freeList : Nat} {nodes before behind : List Nat} {chosen : Nat}

theorem WellFormedList.length_lt (wellFormed : WellFormedList memory freeList nodes) :
    nodes.length ≤ 2 ^ 64 - 1 := by
  have increasing : nodes.Nodup := by
    apply wellFormed.apart.imp
    intro earlier later ends
    omega
  have inRange : nodes ⊆ List.range (2 ^ 64 - 1) := by
    intro node member
    have fits := wellFormed.fits node member
    have large := wellFormed.large node member
    rw [List.mem_range]
    omega
  have short := (List.subperm_of_subset increasing inRange).length_le
  rwa [List.length_range] at short

theorem mem_beside {node : Nat} (member : node ∈ before ++ chosen :: behind)
    (other : node ≠ chosen) : node ∈ before ++ behind := by
  rcases List.mem_append.mp member with inBefore | atChosen
  · exact List.mem_append_left behind inBefore
  · rcases List.mem_cons.mp atChosen with isChosen | inBehind
    · exact absurd isChosen other
    · exact List.mem_append_right before inBehind

theorem mem_of_beside {node : Nat} (member : node ∈ before ++ behind) :
    node ∈ before ++ chosen :: behind := by
  rcases List.mem_append.mp member with inBefore | inBehind
  · exact List.mem_append_left _ inBefore
  · exact List.mem_append_right before (List.mem_cons_of_mem chosen inBehind)

/-- The other nodes keep eight bytes of distance from a node, on either side. -/
theorem WellFormedList.beside (wellFormed : WellFormedList memory freeList (before ++ chosen :: behind))
    {node : Nat} (member : node ∈ before ++ behind) :
    node + blockSize memory node + 8 ≤ chosen ∨
      chosen + blockSize memory chosen + 8 ≤ node := by
  have parts := List.pairwise_append.mp wellFormed.apart
  have chosenAligned := wellFormed.aligned chosen (by simp)
  rcases List.mem_append.mp member with inBefore | inBehind
  · have aligned := wellFormed.aligned node (by simp [inBefore])
    have ends := parts.2.2 node inBefore chosen (by simp)
    omega
  · have aligned := wellFormed.aligned node (by simp [inBehind])
    have ends := (List.pairwise_cons.mp parts.2.1).1 node inBehind
    omega

theorem WellFormedList.apart_of_ne (wellFormed : WellFormedList memory freeList nodes)
    {one other : Nat} (oneMember : one ∈ nodes) (otherMember : other ∈ nodes)
    (different : one ≠ other) :
    one + blockSize memory one < other ∨ other + blockSize memory other < one := by
  have pairs : nodes.Pairwise fun left right =>
      left + blockSize memory left < right ∨ right + blockSize memory right < left :=
    wellFormed.apart.imp fun ends => Or.inl ends
  have symmetric : Std.Symm fun left right =>
      left + blockSize memory left < right ∨ right + blockSize memory right < left :=
    ⟨fun _ _ => Or.symm⟩
  exact pairs.forall oneMember otherMember different

theorem Arranged.address_aligned {low high : Nat} {layout : List Segment}
    (arranged : Arranged low high layout) {segment : Segment} (member : segment ∈ layout) :
    segment.address % 8 = 0 := by
  have tiled := arranged.contiguous
  have start := arranged.lowAligned
  have aligned := arranged.aligned
  clear arranged
  induction layout generalizing low with
  | nil => simp at member
  | cons first rest inductionHypothesis =>
      obtain ⟨isFirst, tail⟩ := tiled
      have firstAligned := aligned first (by simp)
      rcases List.mem_cons.mp member with isHead | inRest
      · rw [isHead]
        omega
      · exact inductionHypothesis inRest tail (by omega)
          fun other isOther => aligned other (by simp [isOther])

/-- The free list of a heap is well formed. -/
theorem HeapHolds.wellFormedList {heap : MemHeap} {ledger : List Allocation}
    {layout : List Segment} (holds : HeapHolds memory heap ledger layout) :
    WellFormedList memory heap.freeList (freeNodes layout) where
  path := holds.bytes.links
  nonzero := holds.bytes.freeNodes_ne_zero
  aligned := by
    intro node isNode
    obtain ⟨segment, member, -, rfl⟩ := mem_freeNodes.mp isNode
    rw [holds.bytes.blockSize_eq member]
    refine ⟨?_, holds.bytes.aligned segment member⟩
    exact holds.bytes.toArranged.address_aligned member
  large := by
    intro node isNode
    obtain ⟨segment, member, -, rfl⟩ := mem_freeNodes.mp isNode
    rw [holds.bytes.blockSize_eq member]
    exact holds.bytes.large segment member
  fits := by
    intro node isNode
    obtain ⟨segment, member, -, rfl⟩ := mem_freeNodes.mp isNode
    rw [holds.bytes.blockSize_eq member]
    exact lt_of_le_of_lt (holds.bytes.bounds member).2 holds.bytes.highFits
  apart := by
    rw [freeNodes, List.pairwise_map]
    apply (List.Pairwise.filter _ holds.bytes.contiguous.pairwise).imp_of_mem
    intro earlier later isEarlier isLater ends
    obtain ⟨earlierMember, earlierVacant⟩ := List.mem_filter.mp isEarlier
    obtain ⟨laterMember, laterVacant⟩ := List.mem_filter.mp isLater
    have apart := holds.separated.not_touching holds.bytes.contiguous holds.bytes.positive
      earlierMember laterMember earlierVacant laterVacant
    rw [holds.bytes.blockSize_eq earlierMember]
    exact lt_of_le_of_ne ends apart

end Lists

/-! ## The effect on the list -/

/-- What taking `size` bytes from the node `chosen` does to a free list. The first
two parameters are the memory and the head before, the last three what the
call returns. -/
inductive ListEffect (memory : Memory) (freeList size : Nat) (before : List Nat) (chosen : Nat)
    (behind : List Nat) (block : Nat) (memory' : Memory) (freeList' : Nat) : Prop
  | shrunk (room : size + 32 ≤ blockSize memory chosen)
      (isTail : block = chosen + (blockSize memory chosen - size))
      (header : blockSize memory' chosen = blockSize memory chosen - size)
      (path : Path (blockNext memory') freeList' (before ++ chosen :: behind) 0)
      (others : ∀ node ∈ before ++ behind, blockSize memory' node = blockSize memory node)
      (elsewhere : ∀ address, address < chosen ∨
        chosen + blockSize memory chosen + (8 - size) ≤ address →
        memory' address = memory address)
  | unlinked (tight : blockSize memory chosen < size + 32) (isWhole : block = chosen)
      (path : Path (blockNext memory') freeList' (before ++ behind) 0)
      (others : ∀ node ∈ before ++ behind, blockSize memory' node = blockSize memory node)
      (elsewhere : ∀ address, address < chosen ∨ chosen + blockSize memory chosen ≤ address →
        before = [] ∨ address < lastOr before + 8 ∨ lastOr before + 16 ≤ address →
        memory' address = memory address)

section Effects

variable {memory : Memory} {freeList size chosen : Nat} {before behind : List Nat}

/-- A split writes into the block, and past its end when the new block is shorter
than a header. -/
theorem splitMemory_beyond {address rest other : Nat} (restLarge : 32 ≤ rest)
    (outside : other < address ∨ address + (rest + size) + (8 - size) ≤ other) :
    splitMemory memory address rest size other = memory other := by
  unfold splitMemory
  rw [writeByte_other (by omega), writeWord_other (by omega), writeByte_other (by omega),
    writeWord_other (by omega)]

theorem splitMemory_front {address rest other : Nat} (restLarge : 32 ≤ rest)
    (lower : address + 8 ≤ other) (upper : other < address + 16) :
    splitMemory memory address rest size other = memory other := by
  unfold splitMemory
  rw [writeByte_other (by omega), writeWord_other (by omega), writeByte_other (by omega),
    writeWord_other (by omega)]

theorem splitMemory_blockSize {address rest : Nat} (restLarge : 32 ≤ rest)
    (fits : rest < 2 ^ 64) : blockSize (splitMemory memory address rest size) address = rest := by
  unfold blockSize splitMemory
  rw [readWord_writeByte (by omega), readWord_writeWord_other (by omega),
    readWord_writeByte (by omega), readWord_writeWord fits]

/-- Redirecting the predecessor of a node writes its link. -/
theorem redirect_beyond {address : Nat} (target : Nat)
    (outside : before = [] ∨ address < lastOr before + 8 ∨ lastOr before + 16 ≤ address) :
    (redirect memory freeList (lastOr before) target).1 address = memory address := by
  unfold redirect
  by_cases isFirst : lastOr before = 0
  · rw [if_neg (by simpa using isFirst)]
  · rw [if_pos isFirst]
    rcases outside with isEmpty | off
    · exact absurd (by rw [isEmpty]; rfl) isFirst
    · exact writeWord_other (by omega)

variable (wellFormed : WellFormedList memory freeList (before ++ chosen :: behind))
include wellFormed

theorem shrunk_effect (room : size + 32 ≤ blockSize memory chosen) :
    ListEffect memory freeList size before chosen behind
      (chosen + (blockSize memory chosen - size))
      (splitMemory memory chosen (blockSize memory chosen - size) size) freeList := by
  have fits := wellFormed.fits chosen (by simp)
  have elsewhere : ∀ address, address < chosen ∨
      chosen + blockSize memory chosen + (8 - size) ≤ address →
      splitMemory memory chosen (blockSize memory chosen - size) size address = memory address := by
    intro address outside
    exact splitMemory_beyond (by omega) (by omega)
  -- Another node keeps its first 16 bytes.
  have nodeKept : ∀ node ∈ before ++ behind,
      AgreeOn (splitMemory memory chosen (blockSize memory chosen - size) size) memory node
        (node + 16) := by
    intro node member address lower upper
    have large := wellFormed.large node (mem_of_beside member)
    have beside := wellFormed.beside member
    exact elsewhere address (by omega)
  refine ListEffect.shrunk room rfl ?_ ?_ ?_ elsewhere
  · exact splitMemory_blockSize (by omega) (by omega)
  · apply wellFormed.path.congr
    intro node member
    by_cases isChosen : node = chosen
    · subst isChosen
      have linkKept : AgreeOn (splitMemory memory node (blockSize memory node - size) size) memory
          (node + 8) (node + 8 + 8) :=
        fun address lower upper => splitMemory_front (by omega) lower (by omega)
      exact readWord_congr linkKept
    · exact readWord_congr ((nodeKept node (mem_beside member isChosen)).mono (by omega) (by omega))
  · intro node member
    exact readWord_congr ((nodeKept node member).mono (le_refl _) (by omega))

/-- The predecessor of the chosen node is a node, eight bytes or more before it. -/
theorem WellFormedList.previous (notFirst : before ≠ []) :
    lastOr before ∈ before ∧ lastOr before ≠ 0 ∧
      lastOr before + blockSize memory (lastOr before) + 8 ≤ chosen := by
  rcases List.eq_nil_or_concat before with isEmpty | ⟨front, last, isConcat⟩
  · exact absurd isEmpty notFirst
  · rw [List.concat_eq_append] at isConcat
    have isLast : lastOr before = last := by rw [isConcat, lastOr_concat]
    have member : last ∈ before := by simp [isConcat]
    have parts := List.pairwise_append.mp wellFormed.apart
    have ends := parts.2.2 last member chosen (by simp)
    have aligned := wellFormed.aligned last (by simp [member])
    have chosenAligned := wellFormed.aligned chosen (by simp)
    rw [isLast]
    exact ⟨member, wellFormed.nonzero last (by simp [member]), by omega⟩

/-- The list around a node that is taken off. -/
theorem WellFormedList.unlinked_path (memory' : Memory)
    (sameNext : ∀ node ∈ before ++ behind, node ≠ lastOr before →
      blockNext memory' node = blockNext memory node)
    (lastNext : before ≠ [] → blockNext memory' (lastOr before) = blockNext memory chosen) :
    Path (blockNext memory') (redirect memory freeList (lastOr before) (blockNext memory chosen)).2
      (before ++ behind) 0 := by
  have parts := List.pairwise_append.mp wellFormed.apart
  obtain ⟨middle, front, isChosen, tail⟩ := path_append.mp wellFormed.path
  have behindPath : Path (blockNext memory') (blockNext memory chosen) behind 0 := by
    apply tail.congr
    intro node member
    apply sameNext node (by simp [member])
    intro isLast
    -- The predecessor lies before the chosen node, and the rest behind it.
    have ends := (List.pairwise_cons.mp parts.2.1).1 node member
    by_cases isEmpty : before = []
    · rw [isEmpty] at isLast
      exact wellFormed.nonzero node (by simp [member]) isLast
    · have previous := wellFormed.previous isEmpty
      omega
  rcases List.eq_nil_or_concat before with isEmpty | ⟨earlier, last, isConcat⟩
  · subst isEmpty
    exact path_append.mpr ⟨blockNext memory chosen, rfl, behindPath⟩
  · rw [List.concat_eq_append] at isConcat
    have isLast : lastOr before = last := by rw [isConcat, lastOr_concat]
    have notEmpty : before ≠ [] := by simp [isConcat]
    have previous := wellFormed.previous notEmpty
    have isHead : (redirect memory freeList (lastOr before) (blockNext memory chosen)).2 =
        freeList := by
      unfold redirect
      rw [if_pos previous.2.1]
    rw [isHead]
    refine path_append.mpr ⟨blockNext memory chosen, ?_, behindPath⟩
    rw [isConcat] at front ⊢
    refine front.redirect ?_ ?_
    · intro node member
      have inBefore : node ∈ before := by simp [isConcat, member]
      apply sameNext node (by simp [inBefore])
      have increasing := parts.1
      rw [isConcat] at increasing
      have ends := (List.pairwise_append.mp increasing).2.2 node member last (by simp)
      omega
    · rw [← isLast]
      exact lastNext notEmpty

theorem unlinked_effect (fits : size ≤ blockSize memory chosen)
    (tight : blockSize memory chosen < size + 32) :
    takeChunk memory freeList size (lastOr before) chosen =
        (chosen,
          writeByte (redirect memory freeList (lastOr before) (blockNext memory chosen)).1
            (chosen + blockSize memory chosen - 1) memBlockStatUse,
          (redirect memory freeList (lastOr before) (blockNext memory chosen)).2) ∧
      ListEffect memory freeList size before chosen behind chosen
        (writeByte (redirect memory freeList (lastOr before) (blockNext memory chosen)).1
          (chosen + blockSize memory chosen - 1) memBlockStatUse)
        (redirect memory freeList (lastOr before) (blockNext memory chosen)).2 := by
  have noWrap := wellFormed.fits chosen (by simp)
  have large := wellFormed.large chosen (by simp)
  have previous : before = [] ∨ lastOr before + 24 ≤ chosen := by
    by_cases isEmpty : before = []
    · exact Or.inl isEmpty
    · have facts := wellFormed.previous isEmpty
      have itsLarge := wellFormed.large (lastOr before) (by simp [facts.1])
      exact Or.inr (by omega)
  have headerKept : blockSize
      (redirect memory freeList (lastOr before) (blockNext memory chosen)).1 chosen =
        blockSize memory chosen :=
    readWord_congr fun address lower _ =>
      redirect_beyond _ (previous.imp_right fun far => Or.inr (by omega))
  have elsewhere : ∀ address, address < chosen ∨ chosen + blockSize memory chosen ≤ address →
      before = [] ∨ address < lastOr before + 8 ∨ lastOr before + 16 ≤ address →
      writeByte (redirect memory freeList (lastOr before) (blockNext memory chosen)).1
        (chosen + blockSize memory chosen - 1) memBlockStatUse address = memory address := by
    intro address outside offLink
    rw [writeByte_other (by omega)]
    exact redirect_beyond _ offLink
  -- Another node keeps its header, and its link unless it is the predecessor.
  have headKept : ∀ node ∈ before ++ behind, ∀ address, node ≤ address → address < node + 16 →
      node ≠ lastOr before ∨ address < node + 8 →
      writeByte (redirect memory freeList (lastOr before) (blockNext memory chosen)).1
        (chosen + blockSize memory chosen - 1) memBlockStatUse address = memory address := by
    intro node member address lower upper offLink
    have itsLarge := wellFormed.large node (mem_of_beside member)
    have beside := wellFormed.beside member
    apply elsewhere address (by omega)
    by_cases isEmpty : before = []
    · exact Or.inl isEmpty
    right
    have facts := wellFormed.previous isEmpty
    have lastLarge := wellFormed.large (lastOr before) (by simp [facts.1])
    rcases offLink with notLast | inHeader
    · have apart := wellFormed.apart_of_ne (mem_of_beside member)
        (mem_of_beside (List.mem_append_left behind facts.1)) notLast
      omega
    · have apart : node = lastOr before ∨ _ := (eq_or_ne node (lastOr before)).imp id
        (wellFormed.apart_of_ne (mem_of_beside member)
          (mem_of_beside (List.mem_append_left behind facts.1)))
      omega
  refine ⟨takeChunk_unlinks rfl (by omega) fits tight noWrap headerKept,
    ListEffect.unlinked tight rfl ?_ ?_ elsewhere⟩
  · apply wellFormed.unlinked_path
    · intro node member notLast
      exact readWord_congr fun address lower upper =>
        headKept node member address (by omega) (by omega) (Or.inl notLast)
    · intro notEmpty
      have facts := wellFormed.previous notEmpty
      unfold blockNext redirect
      rw [if_pos facts.2.1, readWord_writeByte (by omega)]
      exact readWord_writeWord (readWord_lt _ _)
  · intro node member
    exact readWord_congr fun address lower upper =>
      headKept node member address lower (by omega) (Or.inr upper)

end Effects

/-- On every well-formed free list and for every size `mem_chunk_get` ends. It
returns null, with nothing changed, exactly when no block fits. Otherwise it
works on the choice of the best-fit search that gives up after
`FIT_FIND_DEPTH` moves: that block fits, is no larger than the first fit and,
unless the search gave up, is smallest among those that fit. The block is cut
short or taken off the list; the other nodes keep their order and their sizes. -/
theorem memChunkGet_bestFit {memory : Memory} {freeList : Nat} {nodes : List Nat}
    (wellFormed : WellFormedList memory freeList nodes) (size : Nat) :
    ∃ block memory' freeList',
      memChunkGet memory freeList size = some (block, memory', freeList') ∧
      (block = 0 ↔ ∀ node ∈ nodes, blockSize memory node < size) ∧
      (block = 0 → memory' = memory ∧ freeList' = freeList) ∧
      (block ≠ 0 → ∃ before chosen behind moves, nodes = before ++ chosen :: behind ∧
        search (blockSize memory) size fitFindDepth nodes = some (chosen, moves) ∧
        Chosen (blockSize memory) size fitFindDepth nodes chosen moves ∧
        ListEffect memory freeList size before chosen behind block memory' freeList') := by
  have short := wellFormed.length_lt
  rcases findFit_chosen wellFormed.path wellFormed.nonzero (by omega) with
    ⟨found, isNone⟩ | ⟨before, chosen, behind, moves, found, split, isChoice⟩
  · refine ⟨0, memory, freeList, ?_, ?_, fun _ => ⟨rfl, rfl⟩, fun nonzero => absurd rfl nonzero⟩
    · unfold memChunkGet
      rw [found]
      rfl
    · exact iff_of_true rfl (search_eq_none.mp isNone)
  · have chosenFacts := search_chosen isChoice
    have notAllSmall : ¬ ∀ node ∈ nodes, blockSize memory node < size :=
      fun allSmall => absurd chosenFacts.fits (Nat.not_le.mpr (allSmall chosen chosenFacts.mem))
    have nonzero := wellFormed.nonzero chosen chosenFacts.mem
    have noWrap := wellFormed.fits chosen chosenFacts.mem
    have unfolded : memChunkGet memory freeList size =
        some (takeChunk memory freeList size (lastOr before) chosen) := by
      unfold memChunkGet
      rw [found]
      rfl
    rw [unfolded]
    subst split
    by_cases room : size + 32 ≤ blockSize memory chosen
    · rw [takeChunk_shrinks rfl room noWrap]
      refine ⟨_, _, _, rfl, iff_of_false (by omega) notAllSmall, fun isZero => by omega,
        fun _ => ⟨before, chosen, behind, moves, rfl, isChoice, chosenFacts,
          shrunk_effect wellFormed room⟩⟩
    · have effect := unlinked_effect wellFormed chosenFacts.fits (Nat.lt_of_not_le room)
      rw [effect.1]
      exact ⟨_, _, _, rfl, iff_of_false nonzero notAllSmall,
        fun isZero => absurd isZero nonzero,
        fun _ => ⟨before, chosen, behind, moves, rfl, isChoice, chosenFacts, effect.2⟩⟩

/-- Two free blocks: 96 bytes at 4096 and 64 bytes at 4224. -/
def twoBlocks : Memory :=
  writeWord (writeWord (writeWord (fun _ => 0) 4096 96) 4104 4224) 4224 64

/-- A request of 32 bytes is cut from the second block, the smaller one. -/
theorem memChunkGet_bestFit_twoBlocks :
    (memChunkGet twoBlocks 4096 32).map Prod.fst = some 4256 ∧
      ∃ block memory' freeList',
        memChunkGet twoBlocks 4096 32 = some (block, memory', freeList') ∧
        (block = 0 ↔ ∀ node ∈ [4096, 4224], blockSize twoBlocks node < 32) ∧
        (block = 0 → memory' = twoBlocks ∧ freeList' = 4096) ∧
        (block ≠ 0 → ∃ before chosen behind moves, [4096, 4224] = before ++ chosen :: behind ∧
          search (blockSize twoBlocks) 32 fitFindDepth [4096, 4224] = some (chosen, moves) ∧
          Chosen (blockSize twoBlocks) 32 fitFindDepth [4096, 4224] chosen moves ∧
          ListEffect twoBlocks 4096 32 before chosen behind block memory' freeList') := by
  refine ⟨by decide +kernel, memChunkGet_bestFit ?_ 32⟩
  constructor
  · exact ⟨rfl, by decide +kernel, path_nil.mpr (by decide +kernel)⟩
  · decide
  · decide +kernel
  · decide +kernel
  · decide +kernel
  · decide +kernel

end TuyaAdapter.TuyaMemHeap
