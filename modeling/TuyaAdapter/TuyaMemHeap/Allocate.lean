import TuyaAdapter.TuyaMemHeap.Search

/-!
Contract: `mem_chunk_get` and `MEM_Allocate` on a well-formed heap.

`Carve` is the effect on the layout: a vacant segment gives up its tail, or is
taken whole when less than a minimal heap would remain. `takeChunk_spec` proves
that the stores of the source have this effect and touch nothing else, and
`memChunkGet_spec` adds the search in front of it.
-/

namespace TuyaAdapter.TuyaMemHeap

open Foundation Foundation.ByteMemory Foundation.LinkedPath Foundation.Tiling
open Foundation.MachineWord (add sub)

/-- Taking `size` bytes from a layout for `owner`, who is told the block's
address. The third index is the segment handed out. -/
inductive Carve (size : Nat) (owner : Nat → Allocation) :
    List Segment → Segment → List Segment → Prop
  | split (left : List Segment) (chunk : Segment) (right : List Segment)
      (vacant : chunk.vacant = true) (room : size + 32 ≤ chunk.size) :
      Carve size owner (left ++ chunk :: right)
        ⟨chunk.address + (chunk.size - size), size,
          some (owner (chunk.address + (chunk.size - size)))⟩
        (left ++ [⟨chunk.address, chunk.size - size, none⟩,
          ⟨chunk.address + (chunk.size - size), size,
            some (owner (chunk.address + (chunk.size - size)))⟩] ++ right)
  | whole (left : List Segment) (chunk : Segment) (right : List Segment)
      (vacant : chunk.vacant = true) (fits : size ≤ chunk.size)
      (tight : chunk.size < size + 32) :
      Carve size owner (left ++ chunk :: right)
        ⟨chunk.address, chunk.size, some (owner chunk.address)⟩
        (left ++ [⟨chunk.address, chunk.size, some (owner chunk.address)⟩] ++ right)

section Carve

variable {size : Nat} {owner : Nat → Allocation} {layout layout' : List Segment}
  {segment : Segment} (carve : Carve size owner layout segment layout')
include carve

theorem Carve.mem : segment ∈ layout' := by
  cases carve <;> simp

theorem Carve.owner_eq : segment.owner = some (owner segment.address) := by
  cases carve <;> rfl

theorem Carve.size_le : size ≤ segment.size := by
  cases carve with
  | split => exact le_refl _
  | whole _ _ _ _ fits => exact fits

theorem Carve.vacantBytes_eq : vacantBytes layout = vacantBytes layout' + segment.size := by
  cases carve with
  | split left chunk right vacant room =>
      rw [List.append_assoc, vacantBytes_append, vacantBytes_cons_vacant vacant,
        vacantBytes_append]
      simp only [List.cons_append, List.nil_append]
      rw [vacantBytes_cons_vacant rfl, vacantBytes_cons_owned rfl]
      show _ = vacantBytes left + (chunk.size - size + vacantBytes right) + size
      omega
  | whole left chunk right vacant fits tight =>
      rw [List.append_assoc, vacantBytes_append, vacantBytes_cons_vacant vacant,
        vacantBytes_append]
      simp only [List.cons_append, List.nil_append]
      rw [vacantBytes_cons_owned rfl]
      show _ = vacantBytes left + vacantBytes right + chunk.size
      omega

theorem Carve.allocations_perm :
    (allocations layout').Perm (owner segment.address :: allocations layout) := by
  cases carve with
  | split left chunk right vacant room =>
      simp only [List.append_assoc, allocations_append, List.cons_append, List.nil_append]
      rw [allocations_cons_vacant vacant, allocations_cons_vacant rfl,
        allocations_cons_owned rfl]
      exact List.perm_middle
  | whole left chunk right vacant fits tight =>
      simp only [List.append_assoc, allocations_append, List.cons_append, List.nil_append]
      rw [allocations_cons_vacant vacant, allocations_cons_owned rfl]
      exact List.perm_middle

/-- Carving leaves no two vacant segments side by side. -/
theorem Carve.separated (separated : Separated Segment.vacant layout) :
    Separated Segment.vacant layout' := by
  cases carve with
  | split left chunk right vacant room =>
      have parts := separated.neighbours vacant
      have rightSeparated : Separated Segment.vacant right := separated.back.tail
      have occupiedFirst : ∀ new : Segment, new.vacant = false →
          Separated Segment.vacant ([] ++ new :: right) :=
        fun new owned => separated_occupied List.isChain_nil rightSeparated owned
      rw [List.append_assoc]
      exact separated_vacant separated.front
        (occupiedFirst _ rfl) parts.1
        (by intro other isHead; simp at isHead; rw [← isHead]; rfl)
  | whole left chunk right vacant fits tight =>
      have rightSeparated : Separated Segment.vacant right := separated.back.tail
      rw [List.append_assoc]
      exact separated_occupied separated.front rightSeparated rfl

/-- Segments that have an owner stay where they are. -/
theorem Carve.owned_mem {other : Segment} (member : other ∈ layout)
    (owned : other.vacant = false) : other ∈ layout' := by
  cases carve with
  | split left chunk right vacant room =>
      rcases List.mem_append.mp member with inLeft | inRest
      · simp [inLeft]
      · rcases List.mem_cons.mp inRest with isChunk | inRight
        · rw [isChunk, vacant] at owned
          exact absurd owned (by decide)
        · simp [inRight]
  | whole left chunk right vacant fits tight =>
      rcases List.mem_append.mp member with inLeft | inRest
      · simp [inLeft]
      · rcases List.mem_cons.mp inRest with isChunk | inRight
        · rw [isChunk, vacant] at owned
          exact absurd owned (by decide)
        · simp [inRight]

/-- The segment handed out is new: it overlaps the vacant chunk it came from. -/
theorem Carve.fresh {low high : Nat} (arranged : Arranged low high layout)
    (nonempty : 0 < size) : segment ∉ layout := by
  cases carve with
  | split left chunk right vacant room =>
      intro member
      have isChunk : chunk ∈ left ++ chunk :: right := by simp
      rcases arranged.apart member isChunk with equal | before | after
      · rw [← equal] at vacant
        exact absurd vacant (by simp [Segment.vacant])
      · simp only at before
        omega
      · simp only at after
        omega
  | whole left chunk right vacant fits tight =>
      intro member
      have isChunk : chunk ∈ left ++ chunk :: right := by simp
      have same := arranged.contiguous.eq_of_start arranged.positive member isChunk rfl
      rw [← same] at vacant
      exact absurd vacant (by simp [Segment.vacant])

end Carve

section TakeChunk

variable {memory : Memory} {freeList low high size : Nat} {left right : List Segment}
  {chunk : Segment} {owner : Nat → Allocation}

/-- The memory after a split: the shortened header, its tag, the new header and
its tag. -/
def splitMemory (memory : Memory) (address rest size : Nat) : Memory :=
  writeByte
    (writeWord (writeByte (writeWord memory address rest) (address + rest - 1) memBlockStatFree)
      (address + rest) size)
    (address + rest + size - 1) memBlockStatUse

/-- A block with enough room gives up its tail. -/
theorem takeChunk_shrinks {address whole : Nat} (header : blockSize memory address = whole)
    (room : size + 32 ≤ whole) (fits : address + whole < 2 ^ 64) (freeList pre : Nat) :
    takeChunk memory freeList size pre address =
      (address + (whole - size), splitMemory memory address (whole - size) size, freeList) := by
  have difference : sub 64 whole size = whole - size :=
    MachineWord.sub_of_le (by omega) (by omega)
  unfold takeChunk
  rw [header, difference, if_pos (by
    unfold memHeapMinSize memBlockMinSize memBlockHeadSize
    omega)]
  generalize restIs : whole - size = rest
  -- The source reads the two sizes back through the headers it has just written.
  have restHeader : ∀ base : Memory, blockSize (writeWord base address rest) address = rest :=
    fun base => readWord_writeWord (by omega)
  have dog : memDogAddr (writeWord memory address rest) address = address + rest - 1 := by
    unfold memDogAddr
    rw [restHeader, MachineWord.add_of_lt (by omega),
      MachineWord.sub_of_le (by omega) (by omega)]
  have restKept : blockSize
      (writeByte (writeWord memory address rest) (address + rest - 1) memBlockStatFree)
        address = rest := by
    unfold blockSize
    rw [readWord_writeByte (by omega)]
    exact restHeader memory
  have block : add 64 address rest = address + rest := MachineWord.add_of_lt (by omega)
  simp only [dog, restKept, block]
  have newDog : ∀ base : Memory,
      memDogAddr (writeWord base (address + rest) size) (address + rest) =
        address + rest + size - 1 := by
    intro base
    unfold memDogAddr blockSize
    rw [readWord_writeWord (by omega), MachineWord.add_of_lt (by omega),
      MachineWord.sub_of_le (by omega) (by omega)]
  rw [newDog]
  rfl

theorem takeChunk_split (holds : LayoutHolds memory freeList low high (left ++ chunk :: right))
    (room : size + 32 ≤ chunk.size) (pre : Nat) :
    takeChunk memory freeList size pre chunk.address =
      (chunk.address + (chunk.size - size),
        splitMemory memory chunk.address (chunk.size - size) size, freeList) := by
  have member : chunk ∈ left ++ chunk :: right := by simp
  have inside := holds.bounds member
  have fits := holds.highFits
  exact takeChunk_shrinks (holds.blockSize_eq member) room (by omega) freeList pre

theorem splitMemory_outside {address rest size other : Nat}
    (outside : other < address ∨ address + (rest + size) ≤ other) (sizeLarge : 16 ≤ size)
    (restLarge : 32 ≤ rest) :
    splitMemory memory address rest size other = memory other := by
  unfold splitMemory
  rw [writeByte_other (by omega), writeWord_other (by omega), writeByte_other (by omega),
    writeWord_other (by omega)]

theorem splitMemory_link {address rest size other : Nat} (sizeLarge : 16 ≤ size)
    (restLarge : 32 ≤ rest) (lower : address + 8 ≤ other) (upper : other < address + 16) :
    splitMemory memory address rest size other = memory other := by
  unfold splitMemory
  rw [writeByte_other (by omega), writeWord_other (by omega), writeByte_other (by omega),
    writeWord_other (by omega)]

/-- The shortened block is tagged free again. -/
theorem splitMemory_restTag {address rest size : Nat} (sizeLarge : 16 ≤ size)
    (restLarge : 32 ≤ rest) :
    splitMemory memory address rest size (address + rest - 1) = memBlockStatFree := by
  unfold splitMemory
  rw [writeByte_other (by omega), writeWord_other (by omega), writeByte_same]

theorem splitMemory_restHeader {address rest size : Nat} (sizeLarge : 16 ≤ size)
    (restLarge : 32 ≤ rest) (restFits : rest < 2 ^ 64) :
    readWord (splitMemory memory address rest size) address = rest := by
  unfold splitMemory
  rw [readWord_writeByte (by omega), readWord_writeWord_other (by omega),
    readWord_writeByte (by omega), readWord_writeWord restFits]

theorem splitMemory_header {address rest size : Nat} (sizeLarge : 16 ≤ size)
    (sizeFits : size < 2 ^ 64) :
    readWord (splitMemory memory address rest size) (address + rest) = size := by
  unfold splitMemory
  rw [readWord_writeByte (by omega), readWord_writeWord sizeFits]

/-- A split leaves every link of the free list as it was. -/
theorem splitMemory_links (holds : LayoutHolds memory freeList low high (left ++ chunk :: right))
    (room : size + 32 ≤ chunk.size) (sizeLarge : 16 ≤ size) :
    Path (blockNext (splitMemory memory chunk.address (chunk.size - size) size)) freeList
      (freeNodes (left ++ chunk :: right)) 0 := by
  apply holds.links.congr
  intro node isNode
  obtain ⟨segment, member, -, rfl⟩ := mem_freeNodes.mp isNode
  have large := holds.large segment member
  have chunkMember : chunk ∈ left ++ chunk :: right := by simp
  apply blockNext_congr
  intro address lower upper
  rcases holds.apart member chunkMember with same | before | later
  · subst same
    exact splitMemory_link sizeLarge (by omega) lower upper
  · exact splitMemory_outside (by omega) sizeLarge (by omega)
  · exact splitMemory_outside (by omega) sizeLarge (by omega)

theorem splitMemory_holds (holds : LayoutHolds memory freeList low high (left ++ chunk :: right))
    (vacant : chunk.vacant = true) (room : size + 32 ≤ chunk.size) (sizeLarge : 16 ≤ size)
    (sizeAligned : size % 8 = 0) (pointer : ∀ address, (owner address).pointer = address + 8)
    (footprint : ∀ address, (owner address).footprint ≤ size) :
    LayoutHolds (splitMemory memory chunk.address (chunk.size - size) size) freeList low high
        (left ++ [⟨chunk.address, chunk.size - size, none⟩,
          ⟨chunk.address + (chunk.size - size), size,
            some (owner (chunk.address + (chunk.size - size)))⟩] ++ right) ∧
      ∀ other ∈ left ++ right,
        Kept (splitMemory memory chunk.address (chunk.size - size) size) memory other := by
  have member : chunk ∈ left ++ chunk :: right := by simp
  have inside := holds.bounds member
  have fits := holds.highFits
  have aligned := holds.aligned chunk member
  have kept : ∀ other ∈ left ++ right,
      Kept (splitMemory memory chunk.address (chunk.size - size) size) memory other := by
    apply holds.kept_of_inside
    intro address outside
    exact splitMemory_outside (by omega) sizeLarge (by omega)
  have links := splitMemory_links holds room sizeLarge
  have asMiddle : LayoutHolds memory freeList low high (left ++ [chunk] ++ right) := by
    simpa using holds
  refine ⟨asMiddle.replace kept ?_ ?_ ?_, kept⟩
  · apply asMiddle.toArranged.replace
    · intro start stop body
      obtain ⟨isStart, isStop⟩ := body
      have ends : start + chunk.size = stop := isStop
      refine ⟨isStart, ?_, ?_⟩
      · show chunk.address + (chunk.size - size) = start + (chunk.size - size)
        rw [isStart]
      · show start + (chunk.size - size) + size = stop
        omega
    · simp only [List.mem_cons, List.not_mem_nil, or_false, forall_eq_or_imp, forall_eq]
      omega
    · simp only [List.mem_cons, List.not_mem_nil, or_false, forall_eq_or_imp, forall_eq]
      omega
  · intro other inMiddle
    rcases List.mem_cons.mp inMiddle with isRest | isLast
    · subst isRest
      exact {
        header := splitMemory_restHeader sizeLarge (by omega) (by omega)
        tag := fun owned => absurd owned (by simp [Segment.vacant])
        owned := fun allocation isSome => absurd isSome (by simp) }
    · rw [List.mem_singleton.mp isLast]
      exact {
        header := splitMemory_header sizeLarge (by omega)
        tag := fun _ => writeByte_same _ _ _
        owned := by
          intro allocation isOwner
          have isAllocation := Option.some.inj isOwner
          rw [← isAllocation]
          exact ⟨pointer _, footprint _⟩ }
  · have sameNodes : freeNodes (left ++ [⟨chunk.address, chunk.size - size, none⟩,
        ⟨chunk.address + (chunk.size - size), size,
          some (owner (chunk.address + (chunk.size - size)))⟩] ++ right) =
        freeNodes (left ++ chunk :: right) := by
      rw [List.append_assoc, freeNodes_append, freeNodes_append, freeNodes_append,
        freeNodes_cons_vacant vacant]
      rfl
    rw [sameNodes]
    exact links

/-! ### Taking a whole block -/

/-- Redirect the predecessor, or the head of the list, to `target`. -/
def redirect (memory : Memory) (freeList pre target : Nat) : Memory × Nat :=
  if pre ≠ 0 then (writeWord memory (pre + 8) target, freeList) else (memory, target)

theorem redirect_kept (arranged : Arranged low high (left ++ right)) (memory : Memory)
    (freeList target : Nat) :
    ∀ other ∈ left ++ right,
      Kept (redirect memory freeList (lastOr (freeNodes left)) target).1 memory other := by
  intro other member
  unfold redirect
  rcases List.eq_nil_or_concat (freeNodes left) with none | ⟨nodes, node, isLast⟩
  · rw [none, lastOr_nil, if_neg (by simp)]
    exact Kept.of_agree fun _ _ _ => rfl
  · have isNode : node ∈ freeNodes left := by simp [isLast]
    obtain ⟨segment, inLeft, vacant, rfl⟩ := mem_freeNodes.mp isNode
    have nonzero := arranged.freeNodes_ne_zero segment.address (by simp [isLast])
    rw [isLast, List.concat_eq_append, lastOr_concat, if_pos nonzero]
    exact arranged.kept_writeLink (by simp [inLeft]) vacant member memory target

/-- After the redirection the nodes before the cut lead to `target`. -/
theorem redirect_path {stop target : Nat}
    (arranged : Arranged low high (left ++ right))
    (path : Path (blockNext memory) freeList (freeNodes left) stop) (fits : target < 2 ^ 64) :
    Path (blockNext (redirect memory freeList (lastOr (freeNodes left)) target).1)
      (redirect memory freeList (lastOr (freeNodes left)) target).2 (freeNodes left) target := by
  unfold redirect
  rcases List.eq_nil_or_concat (freeNodes left) with none | ⟨nodes, node, isLast⟩
  · rw [none, lastOr_nil, if_neg (by simp)]
    rfl
  · have isNode : node ∈ freeNodes left := by simp [isLast]
    have nonzero := arranged.freeNodes_ne_zero node (by simp [isLast])
    rw [isLast, List.concat_eq_append, lastOr_concat, if_pos nonzero]
    rw [isLast, List.concat_eq_append] at path
    refine path.redirect ?_ (readWord_writeWord fits)
    intro earlier isEarlier
    -- Nodes of the list are far enough apart for their links not to overlap.
    have earlierNode : earlier ∈ freeNodes left := by simp [isLast, isEarlier]
    have before : earlier < node := by
      have increasing := arranged.freeNodes_pairwise
      rw [freeNodes_append, isLast, List.concat_eq_append] at increasing
      exact (List.pairwise_append.mp (List.pairwise_append.mp increasing).1).2.2
        earlier isEarlier node (by simp)
    obtain ⟨one, inOne, -, rfl⟩ := mem_freeNodes.mp earlierNode
    obtain ⟨other, inOther, -, rfl⟩ := mem_freeNodes.mp isNode
    have oneMember : one ∈ left ++ right := by simp [inOne]
    have otherMember : other ∈ left ++ right := by simp [inOther]
    have oneLarge := arranged.large one oneMember
    have otherLarge := arranged.large other otherMember
    have apart := arranged.apart oneMember otherMember
    apply readWord_writeWord_other
    rcases apart with same | oneFirst | otherFirst
    · rw [same] at before
      omega
    · omega
    · omega

/-- The redirection changes nothing outside the segments before the cut. -/
theorem redirect_outside (arranged : Arranged low high (left ++ right)) {target address : Nat}
    (outside : ∀ segment ∈ left,
      address < segment.address ∨ segment.address + segment.size ≤ address) :
    (redirect memory freeList (lastOr (freeNodes left)) target).1 address = memory address := by
  unfold redirect
  rcases List.eq_nil_or_concat (freeNodes left) with none | ⟨nodes, node, isLast⟩
  · rw [none, lastOr_nil, if_neg (by simp)]
  · have isNode : node ∈ freeNodes left := by simp [isLast]
    obtain ⟨segment, inLeft, -, rfl⟩ := mem_freeNodes.mp isNode
    have nonzero := arranged.freeNodes_ne_zero segment.address (by simp [isLast])
    have large := arranged.large segment (by simp [inLeft])
    have apart := outside segment inLeft
    rw [isLast, List.concat_eq_append, lastOr_concat, if_pos nonzero]
    exact writeWord_other (by omega)

/-- The memory after a whole block is taken: the link around it, then its tag. -/
def wholeMemory (memory : Memory) (freeList pre : Nat) (chunk : Segment) : Memory :=
  writeByte (redirect memory freeList pre (blockNext memory chunk.address)).1
    (chunk.address + chunk.size - 1) memBlockStatUse

/-- A block without room for another one is taken off the list. -/
theorem takeChunk_unlinks {address whole pre : Nat} (header : blockSize memory address = whole)
    (positive : 0 < whole) (fits : size ≤ whole) (tight : whole < size + 32)
    (noWrap : address + whole < 2 ^ 64)
    (headerKept : blockSize (redirect memory freeList pre (blockNext memory address)).1 address =
      whole) :
    takeChunk memory freeList size pre address =
      (address,
        writeByte (redirect memory freeList pre (blockNext memory address)).1
          (address + whole - 1) memBlockStatUse,
        (redirect memory freeList pre (blockNext memory address)).2) := by
  have difference : sub 64 whole size = whole - size := MachineWord.sub_of_le (by omega) fits
  have dog : memDogAddr (redirect memory freeList pre (blockNext memory address)).1 address =
      address + whole - 1 := by
    unfold memDogAddr
    rw [headerKept, MachineWord.add_of_lt noWrap, MachineWord.sub_of_le (by omega) (by omega)]
  unfold takeChunk
  rw [header, difference, if_neg (by
    unfold memHeapMinSize memBlockMinSize memBlockHeadSize
    omega)]
  rw [← dog]
  rfl

theorem takeChunk_whole (holds : LayoutHolds memory freeList low high (left ++ chunk :: right))
    (fits : size ≤ chunk.size) (tight : chunk.size < size + 32) :
    takeChunk memory freeList size (lastOr (freeNodes left)) chunk.address =
      (chunk.address, wholeMemory memory freeList (lastOr (freeNodes left)) chunk,
        (redirect memory freeList (lastOr (freeNodes left))
          (blockNext memory chunk.address)).2) := by
  have member : chunk ∈ left ++ chunk :: right := by simp
  have inside := holds.bounds member
  have highFits := holds.highFits
  have large := holds.large chunk member
  have kept := redirect_kept holds.toArranged memory freeList (blockNext memory chunk.address) chunk
    member
  exact takeChunk_unlinks (holds.blockSize_eq member) (by omega) fits tight (by omega)
    (kept.segmentHolds (holds.segments chunk member) large).header

theorem wholeMemory_kept (holds : LayoutHolds memory freeList low high (left ++ chunk :: right)) :
    ∀ other ∈ left ++ right,
      Kept (wholeMemory memory freeList (lastOr (freeNodes left)) chunk) memory other := by
  intro other member
  have inLayout : other ∈ left ++ chunk :: right := by
    rcases List.mem_append.mp member with inLeft | inRight
    · simp [inLeft]
    · simp [inRight]
  have linked := redirect_kept holds.toArranged memory freeList (blockNext memory chunk.address)
    other inLayout
  have chunkLarge := holds.large chunk (by simp)
  refine Kept.trans (Kept.of_agree ?_) linked
  intro address lower upper
  apply writeByte_other
  rcases List.mem_append.mp member with inLeft | inRight
  · have before := holds.left_before other inLeft
    omega
  · have later := holds.right_after other inRight
    omega

theorem wholeMemory_holds (holds : LayoutHolds memory freeList low high (left ++ chunk :: right))
    (vacant : chunk.vacant = true) (pointer : (owner chunk.address).pointer = chunk.address + 8)
    (footprint : (owner chunk.address).footprint ≤ chunk.size) :
    LayoutHolds (wholeMemory memory freeList (lastOr (freeNodes left)) chunk)
      (redirect memory freeList (lastOr (freeNodes left)) (blockNext memory chunk.address)).2
      low high
      (left ++ [⟨chunk.address, chunk.size, some (owner chunk.address)⟩] ++ right) := by
  have member : chunk ∈ left ++ chunk :: right := by simp
  have chunkHolds := holds.segments chunk member
  have large := holds.large chunk member
  have asMiddle : LayoutHolds memory freeList low high (left ++ [chunk] ++ right) := by
    simpa using holds
  -- The links of the list, cut at the block that is taken.
  have links := holds.links
  rw [freeNodes_append, freeNodes_cons_vacant vacant, path_append] at links
  obtain ⟨stop, front, -, back⟩ := links
  have backKept : Path
      (blockNext (wholeMemory memory freeList (lastOr (freeNodes left)) chunk))
      (blockNext memory chunk.address) (freeNodes right) 0 := by
    apply back.congr
    intro node isNode
    obtain ⟨segment, inRight, -, rfl⟩ := mem_freeNodes.mp isNode
    have later := holds.right_after segment inRight
    apply blockNext_congr
    intro address lower upper
    unfold wholeMemory
    rw [writeByte_other (by omega)]
    apply redirect_outside holds.toArranged
    intro previous inLeft
    have before := holds.left_before previous inLeft
    omega
  have frontKept : Path
      (blockNext (wholeMemory memory freeList (lastOr (freeNodes left)) chunk))
      (redirect memory freeList (lastOr (freeNodes left)) (blockNext memory chunk.address)).2
      (freeNodes left) (blockNext memory chunk.address) := by
    apply (redirect_path holds.toArranged front (readWord_lt memory (chunk.address + 8))).congr
    intro node isNode
    obtain ⟨segment, inLeft, -, rfl⟩ := mem_freeNodes.mp isNode
    have before := holds.left_before segment inLeft
    have segmentLarge := holds.large segment (by simp [inLeft])
    exact readWord_writeByte (by omega)
  apply asMiddle.replace (wholeMemory_kept holds)
  · apply asMiddle.toArranged.replace
    · intro start stop body
      exact body
    · simpa using large
    · simpa using holds.aligned chunk member
  · intro other inMiddle
    rw [List.mem_singleton.mp inMiddle]
    exact {
      header := by
        have linked := redirect_kept holds.toArranged memory freeList
          (blockNext memory chunk.address) chunk member
        unfold wholeMemory
        rw [readWord_writeByte (by show chunk.address + 8 ≤ _ ∨ _; omega)]
        exact (linked.segmentHolds chunkHolds large).header
      tag := fun _ => writeByte_same _ _ _
      owned := by
        intro allocation isOwner
        have isAllocation := Option.some.inj isOwner
        rw [← isAllocation]
        exact ⟨pointer, footprint⟩ }
  · have nodes : freeNodes (left ++
        [⟨chunk.address, chunk.size, some (owner chunk.address)⟩] ++ right) =
        freeNodes left ++ freeNodes right := by
      rw [freeNodes_append, freeNodes_append]
      simp [freeNodes, Segment.vacant]
    rw [nodes, path_append]
    exact ⟨_, frontKept, backKept⟩

/-! ### Both branches -/

/-- What a call that takes a block guarantees: the layout is carved, and the
memory changed only inside the heap and, in the other segments, only in links
of the free list. The block is handed out with whatever its payload held. -/
structure Carved (before : Memory) (size low high : Nat) (owner : Nat → Allocation)
    (layout : List Segment) (segment : Segment) (after : Memory) (freeList : Nat)
    (layout' : List Segment) : Prop where
  carve : Carve size owner layout segment layout'
  holds : LayoutHolds after freeList low high layout'
  kept : ∀ other ∈ layout, other ∈ layout' → Kept after before other
  freshTag : ∀ other ∈ layout', other ∉ layout → other.vacant = true →
    after (other.address + other.size - 1) = memBlockStatFree
  outside : ∀ address, address < low ∨ high ≤ address → after address = before address
  payload : AgreeOn after before (segment.address + 8) (segment.address + segment.size - 1)

theorem splitMemory_payload {address rest size : Nat} (restLarge : 32 ≤ rest) :
    AgreeOn (splitMemory memory address rest size) memory (address + rest + 8)
      (address + rest + size - 1) := by
  intro other lower upper
  unfold splitMemory
  rw [writeByte_other (by omega), writeWord_other (by omega), writeByte_other (by omega),
    writeWord_other (by omega)]

theorem wholeMemory_payload (holds : LayoutHolds memory freeList low high (left ++ chunk :: right)) :
    AgreeOn (wholeMemory memory freeList (lastOr (freeNodes left)) chunk) memory
      (chunk.address + 8) (chunk.address + chunk.size - 1) := by
  intro other lower upper
  unfold wholeMemory
  rw [writeByte_other (by omega)]
  apply redirect_outside holds.toArranged
  intro previous inLeft
  have before := holds.left_before previous inLeft
  omega

theorem takeChunk_spec (holds : LayoutHolds memory freeList low high (left ++ chunk :: right))
    (vacant : chunk.vacant = true) (fits : size ≤ chunk.size) (sizeLarge : 16 ≤ size)
    (sizeAligned : size % 8 = 0) (pointer : ∀ address, (owner address).pointer = address + 8)
    (footprint : ∀ address, (owner address).footprint ≤ size) :
    ∃ segment after freeList' layout',
      takeChunk memory freeList size (lastOr (freeNodes left)) chunk.address =
        (segment.address, after, freeList') ∧
      Carved memory size low high owner (left ++ chunk :: right) segment after freeList'
        layout' := by
  have member : chunk ∈ left ++ chunk :: right := by simp
  have inside := holds.bounds member
  by_cases room : size + 32 ≤ chunk.size
  · refine ⟨_, _, _, _, takeChunk_split holds room _,
      Carve.split left chunk right vacant room, ?_, ?_, ?_, ?_, ?_⟩
    · exact (splitMemory_holds holds vacant room sizeLarge sizeAligned pointer footprint).1
    · intro other inOld inNew
      apply (splitMemory_holds holds vacant room sizeLarge sizeAligned pointer footprint).2
      -- The chunk itself is not a segment of the new layout.
      simp only [List.mem_append, List.mem_cons, List.not_mem_nil, or_false] at inOld inNew ⊢
      rcases inOld with inLeft | isChunk | inRight
      · exact Or.inl inLeft
      · rcases inNew with (inLeft | isRest | isNew) | inRight
        · exact Or.inl inLeft
        · rw [isRest] at isChunk
          have sizes := congrArg Segment.size isChunk
          simp only at sizes
          omega
        · rw [← isChunk, isNew] at vacant
          exact absurd vacant (by simp [Segment.vacant])
        · exact Or.inr inRight
      · exact Or.inr inRight
    · intro other inNew notOld isVacant
      simp only [List.mem_append, List.mem_cons, List.not_mem_nil, or_false, not_or]
        at inNew notOld
      rcases inNew with (inLeft | isRest | isNew) | inRight
      · exact absurd inLeft notOld.1
      · rw [isRest]
        exact splitMemory_restTag sizeLarge (by omega)
      · rw [isNew] at isVacant
        exact absurd isVacant (by simp [Segment.vacant])
      · exact absurd inRight notOld.2.2
    · intro address outside
      exact splitMemory_outside (by omega) sizeLarge (by omega)
    · exact splitMemory_payload (by omega)
  · refine ⟨⟨chunk.address, chunk.size, some (owner chunk.address)⟩, _, _, _,
      takeChunk_whole holds fits (by omega),
      Carve.whole left chunk right vacant fits (by omega), ?_, ?_, ?_, ?_,
      wholeMemory_payload holds⟩
    · exact wholeMemory_holds holds vacant (pointer _) (le_trans (footprint _) fits)
    · intro other inOld inNew
      apply wholeMemory_kept holds
      simp only [List.mem_append, List.mem_cons, List.not_mem_nil, or_false] at inOld inNew ⊢
      rcases inOld with inLeft | isChunk | inRight
      · exact Or.inl inLeft
      · rcases inNew with (inLeft | isNew) | inRight
        · exact Or.inl inLeft
        · rw [← isChunk, isNew] at vacant
          exact absurd vacant (by simp [Segment.vacant])
        · exact Or.inr inRight
      · exact Or.inr inRight
    · intro other inNew notOld isVacant
      simp only [List.mem_append, List.mem_cons, List.not_mem_nil, or_false, not_or]
        at inNew notOld
      rcases inNew with (inLeft | isNew) | inRight
      · exact absurd inLeft notOld.1
      · rw [isNew] at isVacant
        exact absurd isVacant (by simp [Segment.vacant])
      · exact absurd inRight notOld.2.2
    · intro address outside
      have large := holds.large chunk member
      unfold wholeMemory
      rw [writeByte_other (by omega)]
      apply redirect_outside holds.toArranged
      intro previous inLeft
      have inLayout : previous ∈ left ++ chunk :: right := by simp [inLeft]
      have previousInside := holds.bounds inLayout
      omega

end TakeChunk

/-! ## `mem_chunk_get` -/

/-- A node of the free list is a vacant segment, at the same position. -/
theorem freeNodes_eq_append_cons {layout : List Segment} {before after : List Nat} {node : Nat}
    (split : freeNodes layout = before ++ node :: after) :
    ∃ left chunk right, layout = left ++ chunk :: right ∧ chunk.vacant = true ∧
      chunk.address = node ∧ freeNodes left = before := by
  unfold freeNodes at split
  obtain ⟨left, middle, isAppend, isLeft, isMiddle⟩ := List.map_eq_append_iff.mp split
  obtain ⟨chunk, others, isCons, isNode, -⟩ := List.map_eq_cons_iff.mp isMiddle
  rw [isCons] at isAppend
  obtain ⟨front, back, isLayout, isFront, isBack⟩ := List.filter_eq_append_iff.mp isAppend
  obtain ⟨skipped, right, isChunk, allOwned, vacant, -⟩ := List.filter_eq_cons_iff.mp isBack
  refine ⟨front ++ skipped, chunk, right, by rw [isLayout, isChunk]; simp, vacant, isNode, ?_⟩
  have noneVacant : skipped.filter Segment.vacant = [] :=
    List.filter_eq_nil_iff.mpr allOwned
  rw [freeNodes, List.filter_append, noneVacant, List.append_nil, isFront, isLeft]

/-- `mem_chunk_get` ends. It returns null and changes nothing when no vacant
segment is large enough; otherwise it carves a block out of one. -/
theorem memChunkGet_spec {memory : Memory} {freeList low high size : Nat}
    {layout : List Segment} {owner : Nat → Allocation}
    (holds : LayoutHolds memory freeList low high layout) (sizeLarge : 16 ≤ size)
    (sizeAligned : size % 8 = 0) (pointer : ∀ address, (owner address).pointer = address + 8)
    (footprint : ∀ address, (owner address).footprint ≤ size) :
    (memChunkGet memory freeList size = some (0, memory, freeList) ∧
        ∀ segment ∈ layout, segment.vacant = true → segment.size < size) ∨
      ∃ segment after freeList' layout',
        memChunkGet memory freeList size = some (segment.address, after, freeList') ∧
        Carved memory size low high owner layout segment after freeList' layout' := by
  rcases findFit_spec holds.links holds.freeNodes_ne_zero holds.freeNodes_length with
    ⟨found, tooSmall⟩ | ⟨before, this, after, found, split, fits⟩
  · left
    refine ⟨by unfold memChunkGet; rw [found]; rfl, ?_⟩
    intro segment member vacant
    have small := tooSmall segment.address (mem_freeNodes.mpr ⟨segment, member, vacant, rfl⟩)
    rwa [holds.blockSize_eq member] at small
  · right
    obtain ⟨left, chunk, right, rfl, vacant, rfl, isBefore⟩ := freeNodes_eq_append_cons split
    rw [holds.blockSize_eq (by simp)] at fits
    obtain ⟨segment, memory', freeList', layout', taken, carved⟩ :=
      takeChunk_spec holds vacant fits sizeLarge sizeAligned pointer footprint
    refine ⟨segment, memory', freeList', layout', ?_, carved⟩
    unfold memChunkGet
    rw [found, ← isBefore, Option.map_some]
    exact congrArg some taken

end TuyaAdapter.TuyaMemHeap
