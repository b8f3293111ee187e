import TuyaAdapter.TuyaMemHeap.Allocate

/-!
Contract: the list part of `MEM_Deallocate` on a well-formed heap.

A freed segment becomes vacant, joins the vacant segment that ends where it
starts, and then takes in the vacant segment that starts where it ends.
`JoinLeft` and `JoinRight` are these two effects on the layout;
`linkFree_spec` and `mergeNext_spec` prove that the stores of the source have
them.

The freed block is tagged before its link is written. In a 16-byte block the
last byte of the link is the tag byte, so the tag is lost unless the segment
after the block is vacant and its tag takes over (`Released.tagAlone`,
`Released.tagJoined`).
-/

namespace TuyaAdapter.TuyaMemHeap

open Foundation Foundation.ByteMemory Foundation.LinkedPath Foundation.Tiling
open Foundation.MachineWord (add sub)

/-- The freed block joins a vacant segment that ends where it starts. -/
inductive JoinLeft (block : Segment) : List Segment → List Segment → Segment → Prop
  | alone (left : List Segment) (owned : ∀ other ∈ left.getLast?, other.vacant = false) :
      JoinLeft block left left ⟨block.address, block.size, none⟩
  | joined (front : List Segment) (previous : Segment) (vacant : previous.vacant = true) :
      JoinLeft block (front ++ [previous]) front
        ⟨previous.address, previous.size + block.size, none⟩

/-- A vacant segment takes in the vacant segment that starts where it ends. -/
inductive JoinRight (joined : Segment) : List Segment → Segment → List Segment → Prop
  | alone (right : List Segment) (owned : ∀ other ∈ right.head?, other.vacant = false) :
      JoinRight joined right joined right
  | joined (next : Segment) (rest : List Segment) (vacant : next.vacant = true) :
      JoinRight joined (next :: rest) ⟨joined.address, joined.size + next.size, none⟩ rest

section Release

variable {memory : Memory} {freeList low high : Nat} {left right : List Segment}
  {block : Segment}

/-! ### The freed block itself -/

/-- The memory after the tag and the link of the freed block are written. -/
def freedMemory (memory : Memory) (block : Segment) (next : Nat) : Memory :=
  writeWord (writeByte memory (block.address + block.size - 1) memBlockStatFree)
    (block.address + 8) next

theorem freedMemory_outside {next address : Nat} (large : 16 ≤ block.size)
    (outside : address < block.address ∨ block.address + block.size ≤ address) :
    freedMemory memory block next address = memory address := by
  unfold freedMemory
  rw [writeWord_other (by omega), writeByte_other (by omega)]

theorem freedMemory_header {next : Nat} (large : 16 ≤ block.size) :
    readWord (freedMemory memory block next) block.address = readWord memory block.address := by
  unfold freedMemory
  rw [readWord_writeWord_other (by omega), readWord_writeByte (by omega)]

theorem freedMemory_link {next : Nat} (fits : next < 2 ^ 64) :
    blockNext (freedMemory memory block next) block.address = next :=
  readWord_writeWord fits

/-- The tag survives the link except in a 16-byte block. -/
theorem freedMemory_tag {next : Nat} (_large : 16 ≤ block.size) (aligned : block.size % 8 = 0) :
    freedMemory memory block next (block.address + block.size - 1) =
      if block.size = 16 then digit next 7 else memBlockStatFree := by
  unfold freedMemory
  by_cases smallest : block.size = 16
  · rw [if_pos smallest, smallest]
    exact writeWord_last _ (block.address + 8) next
  · rw [if_neg smallest, writeWord_other (by omega), writeByte_same]

theorem freedMemory_kept (arranged : Arranged low high (left ++ block :: right)) (memory : Memory)
    (next : Nat) : ∀ other ∈ left ++ right, Kept (freedMemory memory block next) memory other := by
  apply arranged.kept_of_inside
  intro address outside
  exact freedMemory_outside (arranged.large block (by simp)) outside

/-- Links in the other segments do not change. -/
theorem freedMemory_path {head stop next : Nat} {segments : List Segment}
    (arranged : Arranged low high (left ++ block :: right))
    (others : ∀ segment ∈ segments, segment ∈ left ++ right)
    (path : Path (blockNext memory) head (freeNodes segments) stop) :
    Path (blockNext (freedMemory memory block next)) head (freeNodes segments) stop := by
  apply path.congr
  intro node isNode
  obtain ⟨segment, member, -, rfl⟩ := mem_freeNodes.mp isNode
  have inRest := others segment member
  have blockLarge := arranged.large block (by simp)
  apply blockNext_congr
  intro address lower upper
  apply freedMemory_outside blockLarge
  rcases List.mem_append.mp inRest with inLeft | inRight
  · have before := arranged.left_before segment inLeft
    have large := arranged.large segment (by simp [inLeft])
    omega
  · have later := arranged.right_after segment inRight
    omega

/-! ### The free block before it -/

/-- The segment before the block touches it. -/
theorem Arranged.previous_end {previous : Segment} {front : List Segment}
    (arranged : Arranged low high (front ++ [previous] ++ block :: right)) :
    previous.address + previous.size = block.address := by
  obtain ⟨cut, before, isCut, -⟩ := contiguous_append.mp arranged.contiguous
  obtain ⟨start, -, isStart, ends⟩ := contiguous_append.mp before
  have isEnd : start + previous.size = cut := ends
  omega

theorem linkFree_alone (holds : LayoutHolds memory freeList low high (left ++ block :: right))
    (owned : ∀ other ∈ left.getLast?, other.vacant = false) (next : Nat) :
    linkFree (writeByte memory (block.address + block.size - 1) memBlockStatFree) freeList
        block.address (lastOr (freeNodes left)) next =
      (block.address,
        (redirect (freedMemory memory block next) freeList (lastOr (freeNodes left))
          block.address).1,
        (redirect (freedMemory memory block next) freeList (lastOr (freeNodes left))
          block.address).2) := by
  have fold : writeWord (writeByte memory (block.address + block.size - 1) memBlockStatFree)
      (block.address + 8) next = freedMemory memory block next := rfl
  unfold linkFree redirect
  rw [fold]
  by_cases isNull : lastOr (freeNodes left) = 0
  · simp [isNull]
  · simp only [isNull, ↓reduceIte, ne_eq, not_false_eq_true]
    rw [if_neg]
    -- The last free node before the block is not the segment that touches it.
    rcases List.eq_nil_or_concat (freeNodes left) with none | ⟨nodes, node, isLast⟩
    · rw [none] at isNull
      exact absurd rfl isNull
    · have isNode : node ∈ freeNodes left := by simp [isLast]
      obtain ⟨segment, inLeft, vacant, rfl⟩ := mem_freeNodes.mp isNode
      rw [isLast, List.concat_eq_append, lastOr_concat]
      have inLayout : segment ∈ left ++ block :: right := by simp [inLeft]
      have before := holds.left_before segment inLeft
      have large := holds.large segment inLayout
      have blockLarge := holds.large block (by simp)
      have inside := holds.bounds inLayout
      have fits := holds.highFits
      have header : blockSize (freedMemory memory block next) segment.address = segment.size := by
        rw [← holds.blockSize_eq inLayout]
        apply readWord_congr
        intro address lower upper
        exact freedMemory_outside blockLarge (by omega)
      rw [header, MachineWord.add_of_lt (by omega)]
      rcases List.eq_nil_or_concat left with empty | ⟨front, previous, isFront⟩
      · rw [empty] at inLeft
        exact absurd inLeft (by simp)
      · rw [List.concat_eq_append] at isFront
        subst isFront
        have previousOwned := owned previous (by simp)
        have touches := holds.toArranged.previous_end
        have previousLarge := holds.large previous (by simp)
        rcases holds.apart inLayout (show previous ∈ front ++ [previous] ++ block :: right by
          simp) with same | first | second
        · rw [same, previousOwned] at vacant
          exact absurd vacant (by decide)
        · omega
        · omega

theorem linkFree_joined {front : List Segment} {previous : Segment}
    (holds : LayoutHolds memory freeList low high (front ++ [previous] ++ block :: right))
    (vacant : previous.vacant = true) (next : Nat) :
    linkFree (writeByte memory (block.address + block.size - 1) memBlockStatFree) freeList
        block.address (lastOr (freeNodes (front ++ [previous]))) next =
      (previous.address,
        writeWord (freedMemory memory block next) previous.address (previous.size + block.size),
        freeList) := by
  have inLayout : previous ∈ front ++ [previous] ++ block :: right := by simp
  have blockMember : block ∈ front ++ [previous] ++ block :: right := by simp
  have inside := holds.bounds inLayout
  have blockInside := holds.bounds blockMember
  have fits := holds.highFits
  have positive := holds.lowPositive
  have touches := holds.toArranged.previous_end
  have large := holds.large previous inLayout
  have blockLarge := holds.large block blockMember
  have fold : writeWord (writeByte memory (block.address + block.size - 1) memBlockStatFree)
      (block.address + 8) next = freedMemory memory block next := rfl
  have isPre : lastOr (freeNodes (front ++ [previous])) = previous.address := by
    rw [freeNodes_append, freeNodes_cons_vacant vacant]
    exact lastOr_concat _ _
  have header : blockSize (freedMemory memory block next) previous.address = previous.size := by
    rw [← holds.blockSize_eq inLayout]
    apply readWord_congr
    intro address lower upper
    exact freedMemory_outside blockLarge (by omega)
  have blockHeader : blockSize (freedMemory memory block next) block.address = block.size := by
    rw [← holds.blockSize_eq blockMember]
    exact freedMemory_header blockLarge
  unfold linkFree
  rw [fold, isPre]
  simp only [header, blockHeader]
  rw [if_neg (by omega), MachineWord.add_of_lt (by omega), if_pos touches,
    MachineWord.add_of_lt (by omega)]

/-- The nodes on the two sides of an owned block, and the link between them. -/
theorem LayoutHolds.links_around
    (holds : LayoutHolds memory freeList low high (left ++ block :: right))
    (owned : block.vacant = false) :
    Path (blockNext memory) freeList (freeNodes left) ((freeNodes right).headD 0) ∧
      Path (blockNext memory) ((freeNodes right).headD 0) (freeNodes right) 0 := by
  have links := holds.links
  rw [freeNodes_append, freeNodes_cons_owned owned, path_append] at links
  obtain ⟨stop, front, back⟩ := links
  rw [← back.head_eq]
  exact ⟨front, back⟩

theorem LayoutHolds.next_lt (holds : LayoutHolds memory freeList low high (left ++ block :: right)) :
    (freeNodes right).headD 0 < high := by
  have inside := holds.contiguous.le
  have positive := holds.lowPositive
  cases isRight : freeNodes right with
  | nil =>
      show 0 < high
      omega
  | cons node rest =>
      obtain ⟨segment, inRight, -, isNode⟩ := mem_freeNodes.mp
        (show node ∈ freeNodes right by simp [isRight])
      have inLayout : segment ∈ left ++ block :: right := by simp [inRight]
      have bounds := holds.bounds inLayout
      have large := holds.large segment inLayout
      show node < high
      omega

/-- The state after the block has been put on the list: `joined` is vacant and
holds it, and the tag byte at its end is the one the link left there. -/
structure Linked (before : Memory) (low high : Nat) (left : List Segment) (block : Segment)
    (right : List Segment) (after : Memory) (freeList : Nat) (left' : List Segment)
    (joined : Segment) : Prop where
  join : JoinLeft block left left' joined
  holds : LayoutHolds after freeList low high (left' ++ joined :: right)
  kept : ∀ other ∈ left' ++ right, Kept after before other
  tag : after (block.address + block.size - 1) =
    if block.size = 16 then digit ((freeNodes right).headD 0) 7 else memBlockStatFree
  beyond : ∀ address, block.address + block.size ≤ address → after address = before address
  outside : ∀ address, address < low ∨ high ≤ address → after address = before address

/-- Putting the block on the list alone changes a link before it, and the block. -/
theorem relinked_beyond (arranged : Arranged low high (left ++ block :: right)) (memory : Memory)
    (freeList : Nat) {address : Nat} (beyond : block.address ≤ address) :
    (redirect memory freeList (lastOr (freeNodes left)) block.address).1 address =
      memory address := by
  apply redirect_outside arranged
  intro segment inLeft
  have before := arranged.left_before segment inLeft
  omega

theorem relinked_kept (arranged : Arranged low high (left ++ block :: right)) (memory : Memory)
    (freeList next : Nat) : ∀ other ∈ left ++ right,
      Kept (redirect (freedMemory memory block next) freeList (lastOr (freeNodes left))
        block.address).1 memory other := by
  intro other inRest
  have inLayout : other ∈ left ++ block :: right := by
    rcases List.mem_append.mp inRest with inLeft | inRight
    · simp [inLeft]
    · simp [inRight]
  have freed := freedMemory_kept arranged memory next other inRest
  exact (redirect_kept arranged _ _ _ other inLayout).trans freed

/-- The list goes through the free blocks before the block, the block, and those
after it. -/
theorem relinked_path (holds : LayoutHolds memory freeList low high (left ++ block :: right))
    (blockOwned : block.vacant = false) :
    Path (blockNext (redirect (freedMemory memory block ((freeNodes right).headD 0)) freeList
        (lastOr (freeNodes left)) block.address).1)
      (redirect (freedMemory memory block ((freeNodes right).headD 0)) freeList
        (lastOr (freeNodes left)) block.address).2
      (freeNodes left ++ block.address :: freeNodes right) 0 := by
  have inside := holds.bounds (show block ∈ left ++ block :: right by simp)
  have fits := holds.highFits
  have nextLt := holds.next_lt
  have around := holds.links_around blockOwned
  have front : Path (blockNext (freedMemory memory block ((freeNodes right).headD 0))) freeList
      (freeNodes left) ((freeNodes right).headD 0) :=
    freedMemory_path holds.toArranged (fun segment inLeft => by simp [inLeft]) around.1
  have back : Path (blockNext (redirect (freedMemory memory block ((freeNodes right).headD 0))
      freeList (lastOr (freeNodes left)) block.address).1)
      block.address (block.address :: freeNodes right) 0 := by
    have sameLinks : ∀ node, block.address ≤ node →
        blockNext (redirect (freedMemory memory block ((freeNodes right).headD 0)) freeList
          (lastOr (freeNodes left)) block.address).1 node =
        blockNext (freedMemory memory block ((freeNodes right).headD 0)) node := by
      intro node later
      exact blockNext_congr fun address lower _ =>
        relinked_beyond holds.toArranged _ _ (by omega)
    refine ⟨rfl, ?_⟩
    rw [sameLinks _ (le_refl _), freedMemory_link (by omega)]
    apply (freedMemory_path holds.toArranged (fun segment inRight => by simp [inRight])
      around.2).congr
    intro node isNode
    obtain ⟨segment, inRight, -, rfl⟩ := mem_freeNodes.mp isNode
    have later := holds.right_after segment inRight
    exact sameLinks _ (by omega)
  exact path_append.mpr ⟨_, redirect_path holds.toArranged front (by omega), back⟩

theorem linked_alone (holds : LayoutHolds memory freeList low high (left ++ block :: right))
    (blockOwned : block.vacant = false)
    (owned : ∀ other ∈ left.getLast?, other.vacant = false) :
    Linked memory low high left block right
      (redirect (freedMemory memory block ((freeNodes right).headD 0)) freeList
        (lastOr (freeNodes left)) block.address).1
      (redirect (freedMemory memory block ((freeNodes right).headD 0)) freeList
        (lastOr (freeNodes left)) block.address).2
      left ⟨block.address, block.size, none⟩ := by
  have member : block ∈ left ++ block :: right := by simp
  have inside := holds.bounds member
  have large := holds.large block member
  have aligned := holds.aligned block member
  have redirected : ∀ address, block.address ≤ address →
      (redirect (freedMemory memory block ((freeNodes right).headD 0)) freeList
        (lastOr (freeNodes left)) block.address).1 address =
      freedMemory memory block ((freeNodes right).headD 0) address :=
    fun address beyond => relinked_beyond holds.toArranged _ _ beyond
  have kept := relinked_kept holds.toArranged memory freeList ((freeNodes right).headD 0)
  have blockHolds : SegmentHolds (redirect (freedMemory memory block
      ((freeNodes right).headD 0)) freeList (lastOr (freeNodes left)) block.address).1
      ⟨block.address, block.size, none⟩ := {
    header := by
      have agree : AgreeOn (redirect (freedMemory memory block ((freeNodes right).headD 0))
          freeList (lastOr (freeNodes left)) block.address).1
          (freedMemory memory block ((freeNodes right).headD 0))
          block.address (block.address + 8) :=
        fun address lower _ => redirected address lower
      show readWord _ block.address = block.size
      rw [readWord_congr agree, freedMemory_header large]
      exact holds.blockSize_eq member
    tag := fun isOwned => absurd isOwned (by simp [Segment.vacant])
    owned := fun allocation isSome => absurd isSome (by simp) }
  have asMiddle : LayoutHolds memory freeList low high (left ++ [block] ++ right) := by
    simpa using holds
  have nodes : freeNodes (left ++ [⟨block.address, block.size, none⟩] ++ right) =
      freeNodes left ++ block.address :: freeNodes right := by
    rw [List.append_assoc, freeNodes_append]
    rfl
  refine ⟨JoinLeft.alone left owned, ?_, kept, ?_, ?_, ?_⟩
  · rw [List.append_cons]
    apply asMiddle.replace kept
    · apply asMiddle.toArranged.replace
      · intro start stop body
        exact body
      · simpa using large
      · simpa using aligned
    · intro other inMiddle
      rw [List.mem_singleton.mp inMiddle]
      exact blockHolds
    · rw [nodes]
      exact relinked_path holds blockOwned
  · rw [redirected _ (by omega)]
    exact freedMemory_tag large aligned
  · intro address beyond
    rw [redirected _ (by omega)]
    exact freedMemory_outside large (Or.inr beyond)
  · intro address outside
    rw [redirect_outside holds.toArranged (by
      intro segment inLeft
      have inLayout : segment ∈ left ++ block :: right := by simp [inLeft]
      have bounds := holds.bounds inLayout
      omega)]
    exact freedMemory_outside large (by omega)

/-- The memory after the free block before the block has taken it in. -/
def widenedMemory (memory : Memory) (previous block : Segment) (next : Nat) : Memory :=
  writeWord (freedMemory memory block next) previous.address (previous.size + block.size)

/-- Outside the header of `previous` only the block itself has changed. -/
theorem widenedMemory_other {previous : Segment} {next address : Nat}
    (outside : address < previous.address ∨ previous.address + 8 ≤ address) :
    widenedMemory memory previous block next address = freedMemory memory block next address :=
  writeWord_other outside

theorem widenedMemory_kept {front : List Segment} {previous : Segment}
    (holds : LayoutHolds memory freeList low high (front ++ [previous] ++ block :: right))
    (next : Nat) : ∀ other ∈ front ++ right,
      Kept (widenedMemory memory previous block next) memory other := by
  have large := holds.large previous (show previous ∈ front ++ [previous] ++ block :: right by simp)
  have touches := holds.toArranged.previous_end
  have beside : LayoutHolds memory freeList low high (front ++ previous :: block :: right) := by
    simpa using holds
  intro other inRest
  have freed := freedMemory_kept holds.toArranged memory next other (by
    rcases List.mem_append.mp inRest with inFront | inRight
    · simp [inFront]
    · simp [inRight])
  refine Kept.trans (Kept.of_agree ?_) freed
  intro address lower upper
  apply widenedMemory_other
  rcases List.mem_append.mp inRest with inFront | inRight
  · have before := beside.left_before other inFront
    omega
  · have later := holds.right_after other inRight
    omega

/-- The list is the one around the block: `previous` is already on it. -/
theorem widenedMemory_path {front : List Segment} {previous : Segment}
    (holds : LayoutHolds memory freeList low high (front ++ [previous] ++ block :: right))
    (blockOwned : block.vacant = false) :
    Path (blockNext (widenedMemory memory previous block ((freeNodes right).headD 0))) freeList
      (freeNodes (front ++ [previous]) ++ freeNodes right) 0 := by
  have inLayout : previous ∈ front ++ [previous] ++ block :: right := by simp
  have large := holds.large previous inLayout
  have around := holds.links_around blockOwned
  have freed : Path (blockNext (freedMemory memory block ((freeNodes right).headD 0))) freeList
      (freeNodes (front ++ [previous]) ++ freeNodes right) 0 :=
    path_append.mpr ⟨_,
      freedMemory_path holds.toArranged (fun segment inLeft => by simp at inLeft ⊢; tauto)
        around.1,
      freedMemory_path holds.toArranged (fun segment inRight => by simp [inRight]) around.2⟩
  apply freed.congr
  intro node isNode
  rw [← freeNodes_append] at isNode
  obtain ⟨segment, member, -, rfl⟩ := mem_freeNodes.mp isNode
  have inWhole : segment ∈ front ++ [previous] ++ block :: right := by
    simp only [List.mem_append, List.mem_cons] at member ⊢
    tauto
  have segmentLarge := holds.large segment inWhole
  apply blockNext_congr
  intro address lower upper
  apply widenedMemory_other
  rcases holds.apart inWhole inLayout with same | before | after
  · rw [same] at lower
    omega
  · omega
  · omega

theorem linked_joined {front : List Segment} {previous : Segment}
    (holds : LayoutHolds memory freeList low high (front ++ [previous] ++ block :: right))
    (blockOwned : block.vacant = false) (vacant : previous.vacant = true) :
    Linked memory low high (front ++ [previous]) block right
      (widenedMemory memory previous block ((freeNodes right).headD 0)) freeList
      front ⟨previous.address, previous.size + block.size, none⟩ := by
  have inLayout : previous ∈ front ++ [previous] ++ block :: right := by simp
  have blockMember : block ∈ front ++ [previous] ++ block :: right := by simp
  have inside := holds.bounds inLayout
  have blockInside := holds.bounds blockMember
  have fits := holds.highFits
  have large := holds.large previous inLayout
  have blockLarge := holds.large block blockMember
  have aligned := holds.aligned previous inLayout
  have blockAligned := holds.aligned block blockMember
  have touches := holds.toArranged.previous_end
  have kept := widenedMemory_kept holds ((freeNodes right).headD 0)
  have asMiddle : LayoutHolds memory freeList low high (front ++ [previous, block] ++ right) := by
    simpa using holds
  have nodes : freeNodes (front ++ [⟨previous.address, previous.size + block.size, none⟩] ++
      right) = freeNodes (front ++ [previous]) ++ freeNodes right := by
    rw [freeNodes_append, freeNodes_append, freeNodes_append, freeNodes_cons_vacant vacant]
    rfl
  refine ⟨JoinLeft.joined front previous vacant, ?_, kept, ?_, ?_, ?_⟩
  · rw [List.append_cons]
    apply asMiddle.replace kept
    · apply asMiddle.toArranged.replace
      · intro start stop body
        obtain ⟨isStart, -, ends⟩ := body
        have isStop : start + previous.size + block.size = stop := ends
        refine ⟨isStart, ?_⟩
        show start + (previous.size + block.size) = stop
        omega
      · simp only [List.mem_singleton, forall_eq]
        omega
      · simp only [List.mem_singleton, forall_eq]
        omega
    · intro other inMiddle
      rw [List.mem_singleton.mp inMiddle]
      exact {
        header := readWord_writeWord (by omega)
        tag := fun isOwned => absurd isOwned (by simp [Segment.vacant])
        owned := fun allocation isSome => absurd isSome (by simp) }
    · rw [nodes]
      exact widenedMemory_path holds blockOwned
  · rw [widenedMemory_other (by omega)]
    exact freedMemory_tag blockLarge blockAligned
  · intro address beyond
    rw [widenedMemory_other (by omega)]
    exact freedMemory_outside blockLarge (Or.inr beyond)
  · intro address outside
    rw [widenedMemory_other (by omega)]
    exact freedMemory_outside blockLarge (by omega)

/-- Putting a freed block on the list, with or without a free block before it. -/
theorem linkFree_spec (holds : LayoutHolds memory freeList low high (left ++ block :: right))
    (blockOwned : block.vacant = false) :
    ∃ after freeList' left' joined,
      linkFree (writeByte memory (block.address + block.size - 1) memBlockStatFree) freeList
        block.address (lastOr (freeNodes left)) ((freeNodes right).headD 0) =
          (joined.address, after, freeList') ∧
      Linked memory low high left block right after freeList' left' joined := by
  rcases List.eq_nil_or_concat left with empty | ⟨front, previous, isFront⟩
  · have owned : ∀ other ∈ left.getLast?, other.vacant = false := by simp [empty]
    exact ⟨_, _, _, ⟨block.address, block.size, none⟩, linkFree_alone holds owned _,
      linked_alone holds blockOwned owned⟩
  · rw [List.concat_eq_append] at isFront
    subst isFront
    cases isVacant : previous.vacant with
    | false =>
        have owned : ∀ other ∈ (front ++ [previous]).getLast?, other.vacant = false := by
          simpa using isVacant
        exact ⟨_, _, _, ⟨block.address, block.size, none⟩, linkFree_alone holds owned _,
          linked_alone holds blockOwned owned⟩
    | true =>
        exact ⟨_, _, _, ⟨previous.address, previous.size + block.size, none⟩,
          linkFree_joined holds isVacant _, linked_joined holds blockOwned isVacant⟩

/-! ### The free block after it -/

/-- The segment after a segment touches it. -/
theorem Arranged.next_start {joined next : Segment} {rest : List Segment}
    (arranged : Arranged low high (left ++ joined :: next :: rest)) :
    joined.address + joined.size = next.address := by
  obtain ⟨cut, -, isCut, isNext, -⟩ := contiguous_append.mp arranged.contiguous
  omega

theorem mergeNext_alone {joined : Segment}
    (holds : LayoutHolds memory freeList low high (left ++ joined :: right))
    (owned : ∀ other ∈ right.head?, other.vacant = false) :
    mergeNext memory joined.address ((freeNodes right).headD 0) = memory := by
  unfold mergeNext
  rw [if_neg]
  rintro ⟨nonzero, touches⟩
  have joinedMember : joined ∈ left ++ joined :: right := by simp
  have inside := holds.bounds joinedMember
  have fits := holds.highFits
  rw [holds.blockSize_eq joinedMember, MachineWord.add_of_lt (by omega)] at touches
  cases isRight : freeNodes right with
  | nil =>
      rw [isRight] at nonzero
      exact absurd rfl nonzero
  | cons node others =>
      rw [isRight] at touches
      have isNode : node ∈ freeNodes right := by simp [isRight]
      obtain ⟨segment, inRight, vacant, rfl⟩ := mem_freeNodes.mp isNode
      cases right with
      | nil => simp at inRight
      | cons next rest =>
          have nextOwned := owned next (by simp)
          have follows := holds.toArranged.next_start
          have starts : next.address = segment.address := by
            rw [← follows]
            exact touches
          have inWhole : segment ∈ left ++ joined :: next :: rest := by
            simp only [List.mem_append, List.mem_cons] at inRight ⊢
            tauto
          have same := holds.contiguous.eq_of_start holds.positive
            (show next ∈ left ++ joined :: next :: rest by simp) inWhole starts
          rw [← same, nextOwned] at vacant
          exact absurd vacant (by decide)

/-- The memory after a segment has taken in the next one. -/
def mergedMemory (memory : Memory) (joined next : Segment) : Memory :=
  writeWord (writeWord memory joined.address (joined.size + next.size)) (joined.address + 8)
    (blockNext memory next.address)

theorem mergeNext_joined {joined next : Segment} {rest : List Segment}
    (holds : LayoutHolds memory freeList low high (left ++ joined :: next :: rest))
    (vacant : next.vacant = true) :
    mergeNext memory joined.address ((freeNodes (next :: rest)).headD 0) =
      mergedMemory memory joined next := by
  have joinedMember : joined ∈ left ++ joined :: next :: rest := by simp
  have nextMember : next ∈ left ++ joined :: next :: rest := by simp
  have inside := holds.bounds nextMember
  have joinedInside := holds.bounds joinedMember
  have fits := holds.highFits
  have positive := holds.lowPositive
  have large := holds.large joined joinedMember
  have follows := holds.toArranged.next_start
  have link : blockNext (writeWord memory joined.address (joined.size + next.size)) next.address =
      blockNext memory next.address :=
    readWord_writeWord_other (by omega)
  unfold mergeNext mergedMemory
  rw [freeNodes_cons_vacant vacant, List.headD_cons]
  simp only [holds.blockSize_eq joinedMember, holds.blockSize_eq nextMember]
  rw [MachineWord.add_of_lt (by omega), if_pos ⟨by omega, follows⟩,
    MachineWord.add_of_lt (by omega), link]

theorem mergedMemory_outside {joined next : Segment} {address : Nat}
    (outside : address < joined.address ∨ joined.address + 16 ≤ address) :
    mergedMemory memory joined next address = memory address := by
  unfold mergedMemory
  rw [writeWord_other (by omega), writeWord_other (by omega)]

theorem mergedMemory_holds {joined next : Segment} {rest : List Segment}
    (holds : LayoutHolds memory freeList low high (left ++ joined :: next :: rest))
    (joinedVacant : joined.vacant = true) (vacant : next.vacant = true) :
    LayoutHolds (mergedMemory memory joined next) freeList low high
      (left ++ ⟨joined.address, joined.size + next.size, none⟩ :: rest) := by
  have joinedMember : joined ∈ left ++ joined :: next :: rest := by simp
  have nextMember : next ∈ left ++ joined :: next :: rest := by simp
  have inside := holds.bounds nextMember
  have joinedInside := holds.bounds joinedMember
  have fits := holds.highFits
  have large := holds.large joined joinedMember
  have aligned := holds.aligned joined joinedMember
  have nextAligned := holds.aligned next nextMember
  have follows := holds.toArranged.next_start
  have asMiddle : LayoutHolds memory freeList low high (left ++ [joined, next] ++ rest) := by
    simpa using holds
  have around : ∀ other ∈ left ++ rest, other.address + other.size ≤ joined.address ∨
      joined.address + 16 ≤ other.address := by
    intro other member
    rcases List.mem_append.mp member with inLeft | inRest
    · exact Or.inl (holds.left_before other inLeft)
    · have later := holds.right_after other (by simp [inRest])
      omega
  have kept : ∀ other ∈ left ++ rest, Kept (mergedMemory memory joined next) memory other := by
    intro other member
    have apart := around other member
    apply Kept.of_agree
    intro address lower upper
    exact mergedMemory_outside (by omega)
  have nodes : freeNodes (left ++ [⟨joined.address, joined.size + next.size, none⟩] ++ rest) =
      freeNodes left ++ joined.address :: freeNodes rest := by
    rw [List.append_assoc, freeNodes_append]
    rfl
  -- The old path visits `joined` and then `next`; the new link skips `next`.
  have links := holds.links
  rw [freeNodes_append, freeNodes_cons_vacant joinedVacant, freeNodes_cons_vacant vacant,
    path_append] at links
  obtain ⟨stop, front, isJoined, -, back⟩ := links
  have unchanged : ∀ node ∈ freeNodes left ++ freeNodes rest,
      blockNext (mergedMemory memory joined next) node = blockNext memory node := by
    intro node isNode
    rw [← freeNodes_append] at isNode
    obtain ⟨segment, member, -, rfl⟩ := mem_freeNodes.mp isNode
    have apart := around segment member
    have segmentLarge := holds.large segment (by
      simp only [List.mem_append, List.mem_cons] at member ⊢
      tauto)
    apply blockNext_congr
    intro address lower upper
    exact mergedMemory_outside (by omega)
  have newLink : blockNext (mergedMemory memory joined next) joined.address =
      blockNext memory next.address :=
    readWord_writeWord (readWord_lt _ _)
  rw [List.append_cons]
  apply asMiddle.replace kept
  · apply asMiddle.toArranged.replace
    · intro start stop body
      obtain ⟨isStart, -, ends⟩ := body
      have isStop : start + joined.size + next.size = stop := ends
      refine ⟨isStart, ?_⟩
      show start + (joined.size + next.size) = stop
      omega
    · simp only [List.mem_singleton, forall_eq]
      omega
    · simp only [List.mem_singleton, forall_eq]
      omega
  · intro other inMiddle
    rw [List.mem_singleton.mp inMiddle]
    exact {
      header := by
        show readWord _ joined.address = joined.size + next.size
        unfold mergedMemory
        rw [readWord_writeWord_other (by omega), readWord_writeWord (by omega)]
      tag := fun isOwned => absurd isOwned (by simp [Segment.vacant])
      owned := fun allocation isSome => absurd isSome (by simp) }
  · rw [nodes, path_append]
    refine ⟨stop, front.congr (fun node isNode => unchanged node (by simp [isNode])),
      isJoined, ?_⟩
    rw [newLink]
    exact back.congr (fun node isNode => unchanged node (by simp [isNode]))

/-! ### Both steps -/

/-- What freeing a block guarantees. `joined` is the vacant segment that now
holds the block's bytes. -/
structure Released (before : Memory) (low high : Nat) (left : List Segment) (block : Segment)
    (right : List Segment) (after : Memory) (freeList : Nat) (left' : List Segment)
    (joined : Segment) (right' : List Segment) : Prop where
  joinLeft : ∃ middle, JoinLeft block left left' middle ∧ JoinRight middle right joined right'
  holds : LayoutHolds after freeList low high (left' ++ joined :: right')
  kept : ∀ other ∈ left' ++ right', Kept after before other
  tagAlone : (∀ other ∈ right.head?, other.vacant = false) →
    after (block.address + block.size - 1) =
      if block.size = 16 then digit ((freeNodes right).headD 0) 7 else memBlockStatFree
  tagJoined : ∀ next ∈ right.head?, next.vacant = true →
    after (next.address + next.size - 1) = before (next.address + next.size - 1)
  outside : ∀ address, address < low ∨ high ≤ address → after address = before address

theorem JoinLeft.vacant {left' : List Segment} {joined : Segment}
    (join : JoinLeft block left left' joined) : joined.vacant = true := by
  cases join <;> rfl

/-- The joined segment ends where the block ends. -/
theorem JoinLeft.end_eq {left' : List Segment} {joined : Segment}
    (join : JoinLeft block left left' joined)
    (arranged : Arranged low high (left ++ block :: right)) :
    joined.address + joined.size = block.address + block.size := by
  cases join with
  | alone => rfl
  | joined front previous vacant =>
      have touches := arranged.previous_end
      show previous.address + (previous.size + block.size) = _
      omega

/-- The list part of `MEM_Deallocate`. -/
theorem release_spec (holds : LayoutHolds memory freeList low high (left ++ block :: right))
    (blockOwned : block.vacant = false) :
    ∃ pre linked freeList' left' joined right',
      linkFree (writeByte memory (block.address + block.size - 1) memBlockStatFree) freeList
        block.address (lastOr (freeNodes left)) ((freeNodes right).headD 0) =
          (pre, linked, freeList') ∧
      Released memory low high left block right
        (mergeNext linked pre ((freeNodes right).headD 0)) freeList' left' joined right' := by
  obtain ⟨linked, freeList', left', middle, isLinked, link⟩ := linkFree_spec holds blockOwned
  have middleVacant := link.join.vacant
  have ends := link.join.end_eq holds.toArranged
  have middleLarge := link.holds.large middle (by simp)
  have blockLarge := holds.large block (by simp)
  have middleInside := link.holds.bounds (show middle ∈ left' ++ middle :: right by simp)
  have isAlone : (∀ other ∈ right.head?, other.vacant = false) →
      ∃ pre linked freeList' left' joined right',
        linkFree (writeByte memory (block.address + block.size - 1) memBlockStatFree) freeList
          block.address (lastOr (freeNodes left)) ((freeNodes right).headD 0) =
            (pre, linked, freeList') ∧
        Released memory low high left block right
          (mergeNext linked pre ((freeNodes right).headD 0)) freeList' left' joined right' := by
    intro owned
    refine ⟨middle.address, linked, freeList', left', middle, right, isLinked, ?_⟩
    rw [mergeNext_alone link.holds owned]
    refine ⟨⟨middle, link.join, JoinRight.alone right owned⟩, link.holds, link.kept,
      fun _ => link.tag, ?_, link.outside⟩
    intro next isNext vacant
    rw [owned next isNext] at vacant
    exact absurd vacant (by decide)
  cases right with
  | nil => exact isAlone (by simp)
  | cons next rest =>
      cases isVacant : next.vacant with
      | false => exact isAlone (by simpa using isVacant)
      | true =>
          have nextLarge := link.holds.large next (by simp)
          have follows := link.holds.toArranged.next_start
          refine ⟨middle.address, linked, freeList', left',
            ⟨middle.address, middle.size + next.size, none⟩, rest, isLinked, ?_⟩
          rw [mergeNext_joined link.holds isVacant]
          refine ⟨⟨middle, link.join, JoinRight.joined next rest isVacant⟩,
            mergedMemory_holds link.holds middleVacant isVacant, ?_, ?_, ?_, ?_⟩
          · intro other member
            have early := link.kept other (by
              simp only [List.mem_append, List.mem_cons] at member ⊢
              tauto)
            refine Kept.trans (Kept.of_agree ?_) early
            intro address lower upper
            apply mergedMemory_outside
            rcases List.mem_append.mp member with inLeft | inRest
            · have before := link.holds.left_before other inLeft
              omega
            · have later := link.holds.right_after other (by simp [inRest])
              omega
          · intro owned
            have nextOwned := owned next (by simp)
            rw [nextOwned] at isVacant
            exact absurd isVacant (by decide)
          · intro other isNext vacant
            have isOther : next = other := by simpa using isNext
            subst isOther
            rw [mergedMemory_outside (by omega)]
            exact link.beyond _ (by omega)
          · intro address outside
            rw [mergedMemory_outside (by omega)]
            exact link.outside address outside

end Release

end TuyaAdapter.TuyaMemHeap
