import TuyaAdapter.TuyaMemHeap.FreeTags

/-!
Contract: freeing a pointer a second time while nothing is allocated.

`MEM_Deallocate` looks at the tag byte that the header in front of the pointer
leads to. After a free that header is the one of a free block, or it is a stale
word inside a larger free block that has taken the block in. `RetiredIn` covers
both: in the second case the header still leads to the end of a block that was
freed earlier. Frees and stores keep it, because a free writes only into the
freed block and into the first 16 bytes of free blocks before it.
-/

namespace TuyaAdapter.TuyaMemHeap

open Foundation Foundation.ByteMemory Foundation.LinkedPath Foundation.Tiling Foundation.Run
open Foundation.MachineWord (add sub)

/-! ## Where a free writes -/

section Writes

variable {memory : Memory} {freeList block pre next address : Nat}

theorem linkFree_frame (offBlock : address < block + 8 ∨ block + 16 ≤ address)
    (offPre : pre = 0 ∨ address < pre ∨ pre + 16 ≤ address) :
    (linkFree memory freeList block pre next).2.1 address = memory address := by
  unfold linkFree
  dsimp only
  by_cases isFirst : pre = 0
  · rw [if_pos isFirst]
    exact writeWord_other (by omega)
  · rw [if_neg isFirst]
    split
    · dsimp only
      rw [writeWord_other (by omega), writeWord_other (by omega)]
    · dsimp only
      rw [writeWord_other (by omega), writeWord_other (by omega)]

/-- The block that holds the freed one afterwards. -/
theorem linkFree_fst :
    (linkFree memory freeList block pre next).1 = block ∨
      pre ≠ 0 ∧ (linkFree memory freeList block pre next).1 = pre := by
  unfold linkFree
  dsimp only
  by_cases isFirst : pre = 0
  · rw [if_pos isFirst]
    exact Or.inl rfl
  · rw [if_neg isFirst]
    split
    · exact Or.inr ⟨isFirst, rfl⟩
    · exact Or.inl rfl

theorem mergeNext_frame (offPre : address < pre ∨ pre + 16 ≤ address) :
    mergeNext memory pre next address = memory address := by
  unfold mergeNext
  split
  · dsimp only
    rw [writeWord_other (by omega), writeWord_other (by omega)]
  · rfl

end Writes

section Frame

variable {system after : HeapSystem} {slot : Slot} {ledger : List Allocation}
  {left right : List Segment} {block : Segment}
  (holds : HeapHolds system.memory (system.heapList slot) ledger (left ++ block :: right))
  (owned : block.vacant = false)
  (isFreed : memDeallocate system slot (block.address + 8) = some after)
include holds owned isFreed

/-- Freeing a block writes into the block and into the first 16 bytes of the
free block before it. -/
theorem memDeallocate_frame {address : Nat}
    (offBlock : address < block.address ∨ block.address + block.size ≤ address)
    (offNodes : ∀ node ∈ freeNodes left, address < node ∨ node + 16 ≤ address) :
    after.memory address = system.memory address := by
  have large := holds.bytes.large block (by simp)
  have offPre : lastOr (freeNodes left) = 0 ∨ address < lastOr (freeNodes left) ∨
      lastOr (freeNodes left) + 16 ≤ address := by
    rcases List.eq_nil_or_concat (freeNodes left) with isNil | ⟨front, last, isConcat⟩
    · rw [isNil]
      exact Or.inl rfl
    · rw [List.concat_eq_append] at isConcat
      rw [isConcat, lastOr_concat]
      exact Or.inr (offNodes last (by simp [isConcat]))
  rw [memDeallocate_eq holds owned] at isFreed
  rw [← Option.some.inj isFreed]
  dsimp only
  rw [mergeNext_frame, linkFree_frame (by omega) offPre, writeByte_other (by omega)]
  rcases linkFree_fst with isBlock | ⟨nonzero, isPre⟩
  · rw [isBlock]
    omega
  · rw [isPre]
    omega

/-- A segment after the block is not touched at all. -/
theorem memDeallocate_right {segment : Segment} (member : segment ∈ right) :
    AgreeOn after.memory system.memory segment.address (segment.address + segment.size) := by
  intro address lower upper
  have behind := holds.bytes.toArranged.right_after segment member
  have blockLarge := holds.bytes.large block (by simp)
  apply memDeallocate_frame holds owned isFreed (by omega)
  intro node isNode
  obtain ⟨other, inLeft, -, rfl⟩ := mem_freeNodes.mp isNode
  have before := holds.bytes.toArranged.left_before other inLeft
  have large := holds.bytes.large other (by simp [inLeft])
  omega

/-- A segment before the block is touched in its first 16 bytes at most. -/
theorem memDeallocate_left {segment : Segment} (member : segment ∈ left) :
    AgreeOn after.memory system.memory (segment.address + 16) (segment.address + segment.size) := by
  intro address lower upper
  have before := holds.bytes.toArranged.left_before segment member
  apply memDeallocate_frame holds owned isFreed (by omega)
  intro node isNode
  obtain ⟨other, inLeft, -, rfl⟩ := mem_freeNodes.mp isNode
  have large := holds.bytes.large other (by simp [inLeft])
  have apart := holds.bytes.apart (show segment ∈ left ++ block :: right by simp [member])
    (show other ∈ left ++ block :: right by simp [inLeft])
  rcases apart with same | earlier | later
  · rw [← same]
    omega
  · omega
  · omega

/-- A block that the free block before it takes in keeps its header, and its last
byte is not the use tag. -/
theorem memDeallocate_absorbed {front : List Segment} {previous : Segment}
    (isLeft : left = front ++ [previous]) (vacant : previous.vacant = true) :
    blockSize after.memory block.address = block.size ∧
      after.memory (block.address + block.size - 1) ≠ memBlockStatUse := by
  subst isLeft
  have blockLarge := holds.bytes.large block (by simp)
  have blockAligned := holds.bytes.aligned block (by simp)
  have previousLarge := holds.bytes.large previous (by simp)
  have touches := holds.bytes.toArranged.previous_end
  rw [memDeallocate_eq holds owned, linkFree_joined holds.bytes vacant] at isFreed
  have behind : ∀ address, block.address ≤ address → after.memory address =
      freedMemory system.memory block ((freeNodes right).headD 0) address := by
    intro address beyond
    rw [← Option.some.inj isFreed]
    dsimp only
    rw [mergeNext_frame (by omega), writeWord_other (by omega)]
  constructor
  · rw [← holds.bytes.blockSize_eq (show block ∈ front ++ [previous] ++ block :: right by simp)]
    exact (readWord_congr fun address lower _ => behind address lower).trans
      (freedMemory_header blockLarge)
  · rw [behind _ (by omega), freedMemory_tag blockLarge blockAligned, holds.link_last]
    split
    · decide
    · decide

end Frame

/-! ## Retired blocks -/

/-- A block that was freed: it starts a free block, or it lies behind the link of
one and its stale header leads to a byte of it that is not the use tag. -/
def RetiredIn (memory : Memory) (layout : List Segment) (block : Nat) : Prop :=
  ∃ segment ∈ layout, segment.vacant = true ∧
    (block = segment.address ∨
      segment.address + 16 ≤ block ∧ 16 ≤ blockSize memory block ∧
        block + blockSize memory block ≤ segment.address + segment.size ∧
        memory (block + blockSize memory block - 1) ≠ memBlockStatUse)

section Retired

variable {memory after : Memory} {layout : List Segment} {segment : Segment} {block : Nat}

/-- A block stays retired in a segment that grows around it, as long as the bytes
behind the link of the old segment are the same. -/
theorem RetiredIn.behind {larger : Segment} (member : larger ∈ layout)
    (vacant : larger.vacant = true) (starts : larger.address ≤ segment.address)
    (ends : segment.address + segment.size ≤ larger.address + larger.size)
    (agree : AgreeOn after memory (segment.address + 16) (segment.address + segment.size))
    (inside : segment.address + 16 ≤ block ∧ 16 ≤ blockSize memory block ∧
      block + blockSize memory block ≤ segment.address + segment.size ∧
      memory (block + blockSize memory block - 1) ≠ memBlockStatUse) :
    RetiredIn after layout block := by
  obtain ⟨lower, large, upper, tag⟩ := inside
  have sameSize : blockSize after block = blockSize memory block :=
    readWord_congr (agree.mono (by omega) (by omega))
  refine ⟨larger, member, vacant, Or.inr ?_⟩
  rw [sameSize, agree _ (by omega) (by omega)]
  exact ⟨by omega, large, by omega, tag⟩

/-- The same for a segment that grows at its end, wherever in it the block lies. -/
theorem RetiredIn.grown {larger : Segment} (member : larger ∈ layout)
    (vacant : larger.vacant = true) (starts : larger.address = segment.address)
    (ends : segment.address + segment.size ≤ larger.address + larger.size)
    (agree : AgreeOn after memory (segment.address + 16) (segment.address + segment.size))
    (place : block = segment.address ∨
      segment.address + 16 ≤ block ∧ 16 ≤ blockSize memory block ∧
        block + blockSize memory block ≤ segment.address + segment.size ∧
        memory (block + blockSize memory block - 1) ≠ memBlockStatUse) :
    RetiredIn after layout block := by
  rcases place with atStart | inside
  · exact ⟨larger, member, vacant, Or.inl (atStart.trans starts.symm)⟩
  · exact RetiredIn.behind member vacant (le_of_eq starts) ends agree inside

/-- A block stays retired when the vacant segments are the same and keep their
bytes. -/
theorem RetiredIn.of_agree (retired : RetiredIn memory layout block)
    (agree : ∀ segment ∈ layout, segment.vacant = true →
      AgreeOn after memory segment.address (segment.address + segment.size)) :
    RetiredIn after layout block := by
  obtain ⟨segment, member, vacant, place⟩ := retired
  have behind := (agree segment member vacant).mono
    (show segment.address ≤ segment.address + 16 by omega) (le_refl _)
  exact RetiredIn.grown member vacant rfl (le_refl _) behind place

/-- The header of a retired block does not lead to the use tag. -/
theorem RetiredIn.tag {heap : MemHeap} {ledger : List Allocation}
    (retired : RetiredIn memory layout block) (holds : HeapHolds memory heap ledger layout)
    (clear : LayoutClear memory layout) : memory (memDogAddr memory block) ≠ memBlockStatUse := by
  obtain ⟨segment, member, vacant, starts | ⟨lower, large, upper, tag⟩⟩ := retired
  · rw [starts, holds.bytes.memDogAddr_eq member]
    exact clear segment member vacant
  · have fits := holds.bytes.highFits
    have bounds := holds.bytes.bounds member
    unfold memDogAddr
    rw [MachineWord.add_of_lt (by omega), MachineWord.sub_of_le (by omega) (by omega)]
    exact tag

end Retired

section Steps

variable {system after : HeapSystem} {slot : Slot} {ledger : List Allocation}
  {left right left' right' : List Segment} {block joined : Segment}
  (holds : HeapHolds system.memory (system.heapList slot) ledger (left ++ block :: right))
  (owned : block.vacant = false)
  (isFreed : memDeallocate system slot (block.address + 8) = some after)
  (surrendered : Surrendered system slot ledger left block right after left' joined right')
include holds owned isFreed surrendered

/-- The freed block is retired. -/
theorem Surrendered.retires : RetiredIn after.memory (left' ++ joined :: right') block.address := by
  obtain ⟨middle, joinLeft, joinRight⟩ := surrendered.released.joinLeft
  have joinedVacant : joined.vacant = true := joinRight.vacant joinLeft.vacant
  have large := holds.bytes.large block (by simp)
  have sameStart : joined.address = middle.address := by
    cases joinRight with
    | alone => rfl
    | joined => rfl
  have middleEnds : middle.address + middle.size ≤ joined.address + joined.size := by
    cases joinRight with
    | alone => exact le_refl _
    | joined => dsimp only; omega
  have ends := joinLeft.end_eq holds.bytes.toArranged
  refine ⟨joined, by simp, joinedVacant, ?_⟩
  cases joinLeft with
  | alone => exact Or.inl sameStart.symm
  | joined front previous vacant =>
      have previousLarge := holds.bytes.large previous (by simp)
      have touches := holds.bytes.toArranged.previous_end
      obtain ⟨header, tag⟩ := memDeallocate_absorbed holds owned isFreed rfl vacant
      dsimp only at sameStart middleEnds ends
      rw [header]
      exact Or.inr ⟨by omega, large, by omega, tag⟩

omit owned isFreed in
/-- A segment before the block is still there, or has taken the block in. -/
theorem Surrendered.left_place {segment : Segment} (member : segment ∈ left) :
    segment ∈ left' ∨ joined.address = segment.address ∧
      segment.address + segment.size ≤ joined.address + joined.size := by
  obtain ⟨middle, joinLeft, joinRight⟩ := surrendered.released.joinLeft
  cases joinLeft with
  | alone => exact Or.inl member
  | joined front previous _ =>
      rcases List.mem_append.mp member with inFront | isLast
      · exact Or.inl inFront
      · have isPrevious : segment = previous := List.mem_singleton.mp isLast
        right
        rw [isPrevious]
        cases joinRight with
        | alone => dsimp only; omega
        | joined => dsimp only; omega

omit owned isFreed in
/-- A segment after the block is still there, or was taken in at the end. -/
theorem Surrendered.right_place {segment : Segment} (member : segment ∈ right) :
    segment ∈ right' ∨ joined.address + 16 ≤ segment.address ∧
      segment.address + segment.size = joined.address + joined.size := by
  obtain ⟨middle, joinLeft, joinRight⟩ := surrendered.released.joinLeft
  have ends := joinLeft.end_eq holds.bytes.toArranged
  have blockLarge := holds.bytes.large block (by simp)
  have middleLarge : 16 ≤ middle.size := by
    cases joinLeft with
    | alone => exact blockLarge
    | joined => dsimp only; omega
  cases joinRight with
  | alone => exact Or.inl member
  | joined following rest _ =>
      rcases List.mem_cons.mp member with isFollowing | inRest
      · have touches := holds.bytes.toArranged.next_start
        right
        rw [isFollowing]
        dsimp only
        omega
      · exact Or.inl inRest

/-- A block retired before stays retired. -/
theorem Surrendered.retired {retiree : Nat} (clear : LayoutClear system.memory
    (left ++ block :: right)) (retired : RetiredIn system.memory (left ++ block :: right) retiree) :
    RetiredIn after.memory (left' ++ joined :: right') retiree := by
  have joinedVacant : joined.vacant = true := by
    obtain ⟨middle, joinLeft, joinRight⟩ := surrendered.released.joinLeft
    exact joinRight.vacant joinLeft.vacant
  obtain ⟨segment, member, vacant, place⟩ := retired
  have large := holds.bytes.large segment member
  rcases List.mem_append.mp member with inLeft | atBlock
  · have agree := memDeallocate_left holds owned isFreed inLeft
    rcases surrendered.left_place holds inLeft with stays | ⟨starts, ends⟩
    · exact RetiredIn.grown (by simp [stays]) vacant rfl (le_refl _) agree place
    · exact RetiredIn.grown (by simp) joinedVacant starts ends agree place
  rcases List.mem_cons.mp atBlock with isBlock | inRight
  · rw [isBlock, owned] at vacant
    exact absurd vacant (by decide)
  · have agree := memDeallocate_right holds owned isFreed inRight
    have behind := agree.mono (show segment.address ≤ segment.address + 16 by omega) (le_refl _)
    rcases surrendered.right_place holds inRight with stays | ⟨starts, ends⟩
    · exact RetiredIn.grown (by simp [stays]) vacant rfl (le_refl _) behind place
    · -- The segment was taken in: its header is stale from now on.
      rcases place with atStart | inside
      · have header : blockSize after.memory segment.address = segment.size := by
          rw [← holds.bytes.blockSize_eq member]
          exact readWord_congr (agree.mono (le_refl _) (by omega))
        refine ⟨joined, by simp, joinedVacant, Or.inr ?_⟩
        rw [atStart, header, agree _ (by omega) (by omega)]
        exact ⟨starts, large, by omega, clear segment member vacant⟩
      · exact RetiredIn.behind (by simp) joinedVacant (by omega) (by omega) behind inside

end Steps

/-! ## Runs without allocations -/

/-- The calls that give nothing out. -/
def NoAllocation : Call → Prop
  | .free _ _ => True
  | .store _ _ => True
  | _ => False

instance : ∀ call, Decidable (NoAllocation call)
  | .free _ _ => isTrue trivial
  | .store _ _ => isTrue trivial
  | .create _ _ => isFalse id
  | .delete _ => isFalse id
  | .malloc _ _ => isFalse id
  | .calloc _ _ => isFalse id
  | .debugMalloc _ _ _ _ => isFalse id
  | .realloc _ _ _ => isFalse id

/-- The block before a pointer of a slot has been freed, and nothing was
allocated since. -/
structure Retired (slot : Slot) (block : Nat) (state : ClientState) : Prop where
  allHold : AllHold state
  clear : Clear state.system
  isIn : ∃ layout, HeapHolds state.system.memory (state.system.heapList slot) (state.ledger slot)
    layout ∧ RetiredIn state.system.memory layout block

section Runs

variable {state : ClientState} {slot other : Slot} {block : Nat}

/-- What is confined to another slot does not reach a retired block. -/
theorem Retired.elsewhere (retired : Retired slot block state) {after : HeapSystem}
    (confined : Confined state.system after other)
    (isLive : 0 < (state.system.heapList other).size) (different : slot ≠ other) :
    ∃ layout, HeapHolds after.memory (after.heapList slot) (state.ledger slot) layout ∧
      RetiredIn after.memory layout block := by
  obtain ⟨layout, holds, isIn⟩ := retired.isIn
  refine ⟨layout, retired.allHold.elsewhere confined isLive different holds, isIn.of_agree ?_⟩
  intro segment member _
  have bounds := holds.bytes.bounds member
  exact (retired.allHold.agree_elsewhere confined isLive different holds).mono bounds.1 bounds.2

theorem Retired.freed (retired : Retired slot block state) {handle : Option Slot} {ptr : Nat}
    (through : Through handle other) (live : LivePointer state other ptr) {after : HeapSystem}
    (isFreed : tuyaMemHeapFree state.system handle ptr = some after) :
    ∃ layout, HeapHolds after.memory (after.heapList slot)
        ((state.leave (freeTarget state.system handle ptr) after ptr).ledger slot) layout ∧
      RetiredIn after.memory layout block := by
  rw [tuyaMemHeapFree_eq, retired.allHold.freeTarget_eq through live] at isFreed
  rw [retired.allHold.freeTarget_eq through live]
  by_cases stopped : handle = none ∧ ¬ Reached state.system other
  · rw [if_pos stopped] at isFreed ⊢
    rw [← Option.some.inj isFreed]
    exact retired.isIn
  · rw [if_neg stopped] at isFreed ⊢
    by_cases isSlot : slot = other
    · subst isSlot
      obtain ⟨layout, holds, isIn⟩ := retired.isIn
      obtain ⟨left, freed, right, allocation, isLayout, owned, rfl⟩ := holds.block_of_live live
      subst isLayout
      obtain ⟨final, left', joined, right', isFinal, surrendered⟩ := memDeallocate_spec holds owned
      have isAfter : final = after := Option.some.inj (isFinal.symm.trans isFreed)
      subst isAfter
      refine ⟨left' ++ joined :: right', ?_, ?_⟩
      · simpa [ClientState.leave] using surrendered.holds
      · exact surrendered.retired holds (vacant_of_owner owned) isFreed
          (holds.freeTagsClear_iff.mp (retired.clear slot)) isIn
    · obtain ⟨layout, holds⟩ :=
        retired.allHold.live other (retired.allHold.inRegion_of_live live).1
      obtain ⟨final, isFinal, given⟩ := retired.allHold.memDeallocate_live live
      have isAfter : final = after := Option.some.inj (isFinal.symm.trans isFreed)
      subst isAfter
      have elsewhere := retired.elsewhere given.transfer.confined holds.live isSlot
      simpa [ClientState.leave, isSlot] using elsewhere

theorem Retired.stored (retired : Retired slot block state) {address : Nat} (value : UInt8)
    (requested : RequestedByte state other address) :
    ∃ layout, HeapHolds (writeByte state.system.memory address value)
        (state.system.heapList slot) (state.ledger slot) layout ∧
      RetiredIn (writeByte state.system.memory address value) layout block := by
  by_cases isSlot : slot = other
  · subst isSlot
    obtain ⟨layout, holds, isIn⟩ := retired.isIn
    obtain ⟨holder, member, owned, same⟩ := holds.storedBlock requested value
    refine ⟨layout, holds.writeInside member owned same, isIn.of_agree ?_⟩
    intro segment inLayout vacant spot above below
    apply same
    rcases holds.bytes.apart inLayout member with isHolder | earlier | later
    · rw [isHolder, owned] at vacant
      exact absurd vacant (by decide)
    · omega
    · omega
  · obtain ⟨layout, holds⟩ := retired.allHold.live other
      (retired.allHold.live_of_requested requested)
    obtain ⟨holder, member, owned, same⟩ := holds.storedBlock requested value
    exact retired.elsewhere (holds.rewrite_transfer member owned same).confined holds.live isSlot

/-- Frees of live pointers and stores into requested bytes keep a block
retired. -/
theorem step_retired {call : Call} (retired : Retired slot block state)
    (legal : LegalCall state call) (noAllocation : NoAllocation call) :
    ∃ next, step state call = some next ∧ Retired slot block next := by
  have roomy : Roomy state call := by
    cases call with
    | free | store => exact trivial
    | create | delete | malloc | calloc | debugMalloc | realloc => exact absurd noAllocation id
  obtain ⟨next, stepped, allHold, clear⟩ := step_clear retired.allHold retired.clear legal roomy
  refine ⟨next, stepped, allHold, clear, ?_⟩
  cases call with
  | free handle ptr =>
      rcases legal with rfl | ⟨other, through, live⟩
      · rw [← Option.some.inj ((retired.allHold.free_null handle).symm.trans stepped)]
        exact retired.isIn
      · obtain ⟨after, isFreed, rfl⟩ := Option.map_eq_some_iff.mp stepped
        rw [ClientState.leave_system]
        exact retired.freed through live isFreed
  | store address value =>
      obtain ⟨other, requested⟩ := legal
      rw [← Option.some.inj stepped]
      exact retired.stored value requested
  | create | delete | malloc | calloc | debugMalloc | realloc => exact absurd noAllocation id

/-- Freeing a live pointer retires its block. -/
theorem free_retires {ptr : Nat} (allHold : AllHold state) (clear : Clear state.system)
    (live : LivePointer state slot ptr) :
    ∃ freed, step state (.free (some slot) ptr) = some freed ∧ 8 ≤ ptr ∧
      Retired slot (ptr - 8) freed := by
  have legal : LegalCall state (.free (some slot) ptr) := Or.inr ⟨slot, Or.inr rfl, live⟩
  obtain ⟨freed, stepped, freedHold, freedClear⟩ := step_clear allHold clear legal trivial
  refine ⟨freed, stepped, allHold.live_ge live, freedHold, freedClear, ?_⟩
  obtain ⟨layout, holds⟩ := allHold.live slot (allHold.inRegion_of_live live).1
  obtain ⟨left, block, right, allocation, isLayout, owned, rfl⟩ := holds.block_of_live live
  subst isLayout
  obtain ⟨after, left', joined, right', isFreed, surrendered⟩ := memDeallocate_spec holds owned
  have isNext : state.leave (some slot) after (block.address + 8) = freed := by
    simp only [step, tuyaMemHeapFree, isFreed, Option.map_some, Option.some.injEq] at stepped
    exact stepped
  subst isNext
  refine ⟨left' ++ joined :: right', ?_, ?_⟩
  · simpa [ClientState.leave] using surrendered.holds
  · rw [Nat.add_sub_cancel]
    exact surrendered.retires holds (vacant_of_owner owned) isFreed

/-- A free of a retired block finds no use tag and changes nothing. -/
theorem Retired.free_again {ptr : Nat} (retired : Retired slot (ptr - 8) state) (above : 8 ≤ ptr)
    (fits : ptr < 2 ^ 64) :
    tuyaMemHeapFree state.system (some slot) ptr = some state.system := by
  obtain ⟨layout, holds, isIn⟩ := retired.isIn
  have isBack : sub 64 ptr memBlockHeadSize = ptr - 8 :=
    MachineWord.sub_of_le fits (by unfold memBlockHeadSize; omega)
  have tag := isIn.tag holds (holds.freeTagsClear_iff.mp (retired.clear slot))
  unfold tuyaMemHeapFree memDeallocate
  simp only [if_neg (by omega : ptr ≠ 0), isBack, ne_eq, tag, not_false_eq_true, if_true]

end Runs

/-- After any run of the public interface: when a live pointer is freed through
its handle, and then live pointers are freed and requested bytes stored in any
order, a second free of the pointer changes neither the memory nor any of the
static variables. -/
theorem doubleFree_harmless (memory : Memory) {calls : List Call}
    (legal : EveryStep step LegalCall ⟨HeapSystem.initial memory, fun _ => []⟩ calls)
    (roomy : EveryStep step Roomy ⟨HeapSystem.initial memory, fun _ => []⟩ calls) :
    ∃ state, run step ⟨HeapSystem.initial memory, fun _ => []⟩ calls = some state ∧
      ∀ slot ptr, LivePointer state slot ptr →
        ∃ freed, step state (.free (some slot) ptr) = some freed ∧
          ∀ others, EveryStep step (fun state call => LegalCall state call ∧ NoAllocation call)
              freed others →
            ∃ last, run step freed others = some last ∧
              tuyaMemHeapFree last.system (some slot) ptr = some last.system := by
  obtain ⟨state, ran, allHold, clear⟩ := run_clear memory legal roomy
  refine ⟨state, ran, fun slot ptr live => ?_⟩
  obtain ⟨freed, stepped, above, retired⟩ := free_retires allHold clear live
  refine ⟨freed, stepped, fun others admitted => ?_⟩
  have progress : ∀ state call, Retired slot (ptr - 8) state →
      LegalCall state call ∧ NoAllocation call →
      ∃ next, step state call = some next ∧ Retired slot (ptr - 8) next :=
    fun state call retired admitted => step_retired retired admitted.1 admitted.2
  obtain ⟨last, lastRan, lastRetired⟩ := run_total progress retired admitted
  have inRegion := allHold.inRegion_of_live live
  obtain ⟨layout, holds⟩ := allHold.live slot inRegion.1
  have fits := holds.fits
  unfold addressLimit at fits
  refine ⟨last, lastRan, lastRetired.free_again above ?_⟩
  have below := inRegion.2.2
  omega

/-- The middle one of three blocks is freed, its neighbours after it, so that it
is taken in from both sides; then it is freed again. -/
theorem doubleFree_harmless_merged :
    ∃ state freed last,
      run step ⟨HeapSystem.initial fun _ => 0, fun _ => []⟩
        [.create 4096 256, .malloc (some 0) 1, .malloc (some 0) 1, .malloc (some 0) 1] =
          some state ∧
      step state (.free (some 0) 4328) = some freed ∧
      run step freed [.free (some 0) 4344, .free (some 0) 4312] = some last ∧
      tuyaMemHeapFree last.system (some 0) 4328 = some last.system := by
  obtain ⟨state, ran, harmless⟩ := doubleFree_harmless (fun _ => 0)
    (by decide +kernel : EveryStep step LegalCall _
      [.create 4096 256, .malloc (some 0) 1, .malloc (some 0) 1, .malloc (some 0) 1])
    (by decide +kernel)
  have facts : (run step ⟨HeapSystem.initial fun _ => 0, fun _ => []⟩
      [.create 4096 256, .malloc (some 0) 1, .malloc (some 0) 1, .malloc (some 0) 1]).map
        (fun state => decide (LivePointer state 0 4328) &&
          (step state (.free (some 0) 4328)).all fun freed =>
            decide (EveryStep step (fun state call => LegalCall state call ∧ NoAllocation call)
              freed [.free (some 0) 4344, .free (some 0) 4312])) = some true := by
    decide +kernel
  rw [ran, Option.map_some, Option.some.injEq, Bool.and_eq_true, decide_eq_true_eq] at facts
  obtain ⟨freed, stepped, again⟩ := harmless 0 4328 facts.1
  have admitted := facts.2
  rw [stepped, Option.all_some, decide_eq_true_eq] at admitted
  obtain ⟨last, lastRan, unchanged⟩ := again _ admitted
  exact ⟨state, freed, last, ran, stepped, lastRan, unchanged⟩

end TuyaAdapter.TuyaMemHeap
