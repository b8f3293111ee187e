import TuyaAdapter.TuyaMemHeap.Status

/-!
Contract: the leak records that `MEM_AllocateDebug` leaves behind.

The record of a debug allocation lies between the requested bytes and the tag of
its block, where no store of a client and no other call reaches it. So it is
intact for as long as the allocation lives.

The walk recognises a record by one word near the end of a block and by nothing
else. A plain block is told apart as long as that word is not the magic, and the
word may come from a client or from what the block was used for before.
`Recorded` says that the walk reads an allocation for what it is, and
`step_records` which allocations keep this through a call.
-/

namespace TuyaAdapter.TuyaMemHeap

open Foundation Foundation.ByteMemory Foundation.LinkedPath Foundation.Tiling Foundation.Run
open Foundation.MachineWord (add sub)

/-- The lines that the walk ought to print for a live allocation. -/
def expectedLines (allocation : Allocation) : List LeakLine :=
  match allocation.site with
  | none => []
  | some site =>
      [⟨site.filename % 2 ^ 64, wordOfInt site.line, allocation.pointer - 8,
        allocation.requested⟩]

/-- The walk reads the block of an allocation for what it is. -/
def Recorded (memory : Memory) (allocation : Allocation) : Prop :=
  leakLines memory (allocation.pointer - 8) = expectedLines allocation

instance (memory : Memory) (allocation : Allocation) : Decidable (Recorded memory allocation) :=
  inferInstanceAs (Decidable (_ = _))

/-! ## What the walk reads in a block -/

section Lines

variable {memory after before : Memory} {block size : Nat}

/-- The word that decides whether a block has a record. In a block of 16 bytes it
is the header. -/
theorem leakLines_eq_nil_iff (header : blockSize memory block = size) (large : 16 ≤ size)
    (fits : block + size < 2 ^ 64) :
    leakLines memory block = [] ↔ readWord memory (block + size - 16) ≠ memDbgLeakMagic := by
  have word : add 64 (memLeakDbgAddr memory block) 24 = block + size - 16 := by
    unfold memLeakDbgAddr
    rw [header]
    unfold add sub dbgLeakSize memAlignNum
    omega
  unfold leakLines
  simp only [word]
  split
  · rename_i isMagic
    simp [isMagic]
  · rename_i noMagic
    simpa using noMagic

/-- Whether a block has a record depends on its own bytes only. -/
theorem leakLines_nil_congr (header : blockSize before block = size) (large : 16 ≤ size)
    (fits : block + size < 2 ^ 64) (agree : AgreeOn after before block (block + size)) :
    leakLines after block = [] ↔ leakLines before block = [] := by
  have sameHeader : blockSize after block = size := by
    rw [← header]
    exact readWord_congr (agree.mono (le_refl _) (by omega))
  rw [leakLines_eq_nil_iff sameHeader large fits, leakLines_eq_nil_iff header large fits,
    readWord_congr (agree.mono (by omega) (by omega))]

/-- The record of a block that has room for one is read from its own bytes. -/
theorem leakLines_congr (header : blockSize before block = size) (large : 40 ≤ size)
    (fits : block + size < 2 ^ 64) (sameHeader : blockSize after block = size)
    (agree : AgreeOn after before (block + size - 40) (block + size - 8)) :
    leakLines after block = leakLines before block := by
  rw [leakLines_of_room sameHeader large fits, leakLines_of_room header large fits,
    readWord_congr (agree.mono (by omega) (by omega)),
    readWord_congr (agree.mono (by omega) (by omega)),
    readWord_congr (agree.mono (by omega) (by omega)),
    readWord_congr (agree.mono (by omega) (by omega))]

end Lines

section Owned

variable {after before : Memory} {heap : MemHeap} {ledger : List Allocation}
  {layout : List Segment} {segment : Segment} {allocation : Allocation}
  (holds : HeapHolds before heap ledger layout) (member : segment ∈ layout)
  (owned : segment.owner = some allocation)
include holds member owned

/-- An allocation whose block is the same byte for byte is read as before. -/
theorem Recorded.of_agree
    (agree : AgreeOn after before segment.address (segment.address + segment.size))
    (recorded : Recorded before allocation) : Recorded after allocation := by
  have header := holds.bytes.blockSize_eq member
  have large := holds.bytes.large segment member
  have inside := holds.bytes.bounds member
  have fits := holds.bytes.highFits
  obtain ⟨pointer, footprint⟩ := (holds.bytes.segments segment member).owned allocation owned
  unfold Recorded at recorded ⊢
  rw [pointer, Nat.add_sub_cancel] at recorded ⊢
  unfold Allocation.footprint at footprint
  cases isSite : allocation.site with
  | none =>
      have expected : expectedLines allocation = [] := by simp [expectedLines, isSite]
      rw [expected] at recorded ⊢
      exact (leakLines_nil_congr header large (by omega) agree).mpr recorded
  | some site =>
      simp only [isSite] at footprint
      have sameHeader : blockSize after segment.address = segment.size := by
        rw [← header]
        exact readWord_congr (agree.mono (le_refl _) (by omega))
      rw [← recorded]
      exact leakLines_congr header (by omega) (by omega) sameHeader
        (agree.mono (by omega) (by omega))

end Owned

/-! ## New blocks -/

/-- The block handed out ends where the vacant segment it came from ended. -/
theorem Carve.chunk_end {size : Nat} {owner : Nat → Allocation} {layout layout' : List Segment}
    {segment : Segment} (carve : Carve size owner layout segment layout') :
    ∃ chunk ∈ layout, chunk.vacant = true ∧
      chunk.address + chunk.size = segment.address + segment.size := by
  cases carve with
  | split left chunk right vacant room =>
      refine ⟨chunk, by simp, vacant, ?_⟩
      show chunk.address + chunk.size = chunk.address + (chunk.size - size) + size
      omega
  | whole left chunk right vacant fits tight => exact ⟨chunk, by simp, vacant, rfl⟩

/-- No block of the free list ends in what the walk takes for a record. -/
def NoStaleRecord (system : HeapSystem) (slot : Slot) : Prop :=
  ∀ node ∈ freeListNodes system slot, leakLines system.memory node = []

instance (system : HeapSystem) (slot : Slot) : Decidable (NoStaleRecord system slot) :=
  inferInstanceAs (Decidable (∀ node ∈ freeListNodes system slot, _ = _))

section NewBlocks

variable {state : ClientState} {slot : Slot} {layout layout' : List Segment} {size : Nat}
  {owner : Nat → Allocation} {after : HeapSystem} {segment : Segment}

/-- A block taken from a free list without stale records has none. Its deciding
word is the one of the free block, or its own header. -/
theorem Granted.unrecorded
    (holds : HeapHolds state.system.memory (state.system.heapList slot) (state.ledger slot)
      layout)
    (granted : Granted state.system slot (state.ledger slot) layout size owner after segment
      layout')
    (payload : AgreeOn after.memory state.system.memory (segment.address + 8)
      (segment.address + segment.size - 1))
    (noStale : NoStaleRecord state.system slot) :
    leakLines after.memory segment.address = [] := by
  have member := granted.carve.mem
  have header := granted.holds.bytes.blockSize_eq member
  have large := granted.holds.bytes.large segment member
  have aligned := granted.holds.bytes.aligned segment member
  have inside := granted.holds.bytes.bounds member
  have fits := granted.holds.bytes.highFits
  rw [leakLines_eq_nil_iff header large (by omega)]
  by_cases isSixteen : segment.size = 16
  · rw [isSixteen, Nat.add_sub_cancel]
    show blockSize after.memory segment.address ≠ memDbgLeakMagic
    rw [header, isSixteen]
    decide
  · obtain ⟨chunk, inLayout, vacant, sameEnd⟩ := granted.carve.chunk_end
    have isNode : chunk.address ∈ freeListNodes state.system slot := by
      rw [holds.freeListNodes_eq]
      exact mem_freeNodes.mpr ⟨chunk, inLayout, vacant, rfl⟩
    have clean := noStale chunk.address isNode
    rw [leakLines_eq_nil_iff (holds.bytes.blockSize_eq inLayout)
      (holds.bytes.large chunk inLayout) (by omega), sameEnd] at clean
    rwa [readWord_congr (payload.mono (by omega) (by omega))]

/-- Clearing the payload of a block without a record gives it none. -/
theorem Granted.cleared_unrecorded {requested : Nat}
    (granted : Granted state.system slot (state.ledger slot) layout size (plainOwner requested)
      after segment layout')
    (unrecorded : leakLines after.memory segment.address = []) :
    leakLines (writeBytes after.memory (segment.address + 8) requested fun _ => 0)
      segment.address = [] := by
  have member := granted.carve.mem
  have header := granted.holds.bytes.blockSize_eq member
  have large := granted.holds.bytes.large segment member
  have aligned := granted.holds.bytes.aligned segment member
  have inside := granted.holds.bytes.bounds member
  have fits := granted.holds.bytes.highFits
  have sameHeader : blockSize (writeBytes after.memory (segment.address + 8) requested fun _ => 0)
      segment.address = segment.size := by
    rw [← header]
    exact readWord_writeBytes (Or.inl (le_refl _))
  rw [leakLines_eq_nil_iff header large (by omega)] at unrecorded
  rw [leakLines_eq_nil_iff sameHeader large (by omega)]
  by_cases covered : segment.address + 8 ≤ segment.address + segment.size - 16 ∧
      segment.address + segment.size - 16 < segment.address + 8 + requested
  · -- The first byte of the word is cleared, and that of the magic is not zero.
    intro isMagic
    have first : digit memDbgLeakMagic 0 = 0 := by
      rw [← isMagic]
      refine (digit_valueOf _ (by omega)).trans ?_
      rw [Nat.add_zero]
      exact writeBytes_inside covered.1 covered.2
    exact absurd first (by decide)
  · rwa [readWord_writeBytes (by omega)]

end NewBlocks

/-! ## One call -/

/-- A call that lets the walk tell records from other data afterwards: a free
that keeps a free tag, a plain request while no free block ends in a stale
record, and a store that does not put the magic at the end of a plain block. -/
def KeepsRecords (slot : Slot) (state : ClientState) : Call → Prop
  | .malloc _ _ => NoStaleRecord state.system slot
  | .calloc _ _ => NoStaleRecord state.system slot
  | .free handle ptr => KeepsTag slot state (.free handle ptr)
  | .store address value =>
      ∀ allocation ∈ state.ledger slot, allocation.site = none →
        leakLines (writeByte state.system.memory address value) (allocation.pointer - 8) = []
  | _ => True

instance (slot : Slot) (state : ClientState) : ∀ call, Decidable (KeepsRecords slot state call)
  | .malloc _ _ => inferInstanceAs (Decidable (NoStaleRecord state.system slot))
  | .calloc _ _ => inferInstanceAs (Decidable (NoStaleRecord state.system slot))
  | .free handle ptr => inferInstanceAs (Decidable (KeepsTag slot state (.free handle ptr)))
  | .store _ _ => inferInstanceAs (Decidable
      (∀ allocation ∈ state.ledger slot, allocation.site = none → _ = _))
  | .create _ _ => isTrue trivial
  | .delete _ => isTrue trivial
  | .debugMalloc _ _ _ _ => isTrue trivial
  | .realloc _ _ _ => isTrue trivial

theorem KeepsRecords.keepsTag {slot : Slot} {state : ClientState} {call : Call}
    (keeps : KeepsRecords slot state call) : KeepsTag slot state call := by
  cases call with
  | free handle ptr => exact keeps
  | _ => exact trivial

theorem ClientState.enter_ledger {state : ClientState} {slot : Slot} {after : HeapSystem}
    {allocation : Allocation} (nonzero : allocation.pointer ≠ 0) :
    (state.enter (some slot) after allocation).ledger slot = allocation :: state.ledger slot := by
  unfold ClientState.enter
  rw [if_neg nonzero]
  exact Function.update_self ..

section Calls

variable {state next : ClientState} {slot : Slot} {layout : List Segment}
  {select : Allocation → Prop}
  (holds : HeapHolds state.system.memory (state.system.heapList slot) (state.ledger slot) layout)
  (before : ∀ allocation ∈ state.ledger slot, select allocation →
    Recorded state.system.memory allocation)
include holds before

theorem Granted.records {size : Nat} {owner : Nat → Allocation} {after : HeapSystem}
    {segment : Segment} {layout' : List Segment}
    (granted : Granted state.system slot (state.ledger slot) layout size owner after segment
      layout')
    (new : select (owner segment.address) → Recorded after.memory (owner segment.address)) :
    ∀ allocation ∈ owner segment.address :: state.ledger slot, select allocation →
      Recorded after.memory allocation := by
  intro allocation member selected
  rcases List.mem_cons.mp member with isNew | isOld
  · rw [isNew] at selected ⊢
    exact new selected
  · obtain ⟨left, block, right, isLayout, owned, -, -⟩ := holds.split isOld
    have inLayout : block ∈ layout := by simp [isLayout]
    exact (before allocation isOld selected).of_agree holds inLayout owned
      (granted.agreeOn inLayout (vacant_of_owner owned))

/-- A plain request keeps the records, and its own block has none when no free
block ends in a stale one. -/
theorem malloc_records {size : UInt32} (stepped : step state (.malloc (some slot) size) = some next)
    (plain : ∀ allocation, select allocation → allocation.site = none →
      NoStaleRecord state.system slot) :
    ∀ allocation ∈ next.ledger slot, select allocation →
      Recorded next.system.memory allocation := by
  have small : size.toNat ≤ 2 ^ 40 := by
    have bound := size.toNat_lt
    omega
  rcases memAllocate_spec holds small (fun _ => rfl) (plainOwner_footprint small) with
    ⟨isNull, -⟩ | ⟨-, after, segment, layout', isBlock, granted, payload⟩
  · simp only [step, tuyaMemHeapMalloc, isNull, Option.map_some, home] at stepped
    rw [← Option.some.inj stepped]
    exact before
  · simp only [step, tuyaMemHeapMalloc, isBlock, Option.map_some, home] at stepped
    have isNext := (Option.some.inj stepped).symm
    subst isNext
    rw [ClientState.enter_system, ClientState.enter_ledger (by simp)]
    apply granted.records holds before
    intro selected
    exact granted.unrecorded holds payload (plain _ selected rfl)

theorem calloc_records {size : UInt32} (stepped : step state (.calloc (some slot) size) = some next)
    (plain : ∀ allocation, select allocation → allocation.site = none →
      NoStaleRecord state.system slot) :
    ∀ allocation ∈ next.ledger slot, select allocation →
      Recorded next.system.memory allocation := by
  have small : size.toNat ≤ 2 ^ 40 := by
    have bound := size.toNat_lt
    omega
  rcases memAllocate_spec holds small (fun _ => rfl) (plainOwner_footprint small) with
    ⟨isNull, -⟩ | ⟨-, after, segment, layout', isBlock, granted, payload⟩
  · simp only [step, tuyaMemHeapCalloc, tuyaMemHeapMalloc, isNull, Option.map_some, home,
      clearAllocation, if_true] at stepped
    rw [← Option.some.inj stepped]
    exact before
  · have nonzero : segment.address + 8 ≠ 0 := by omega
    simp only [step, tuyaMemHeapCalloc, tuyaMemHeapMalloc, isBlock, Option.map_some, home,
      clearAllocation, if_neg nonzero] at stepped
    have isNext := (Option.some.inj stepped).symm
    subst isNext
    rw [ClientState.enter_system, ClientState.enter_ledger nonzero]
    apply granted.cleared.records holds before
    intro selected
    exact granted.cleared_unrecorded (granted.unrecorded holds payload (plain _ selected rfl))

/-- A debug request keeps the records and leaves its own. -/
theorem debugMalloc_records {size : UInt32} {filename : Nat} {line : Int}
    (stepped : step state (.debugMalloc (some slot) size filename line) = some next) :
    ∀ allocation ∈ next.ledger slot, select allocation →
      Recorded next.system.memory allocation := by
  have small : size.toNat ≤ 2 ^ 32 := le_of_lt size.toNat_lt
  rcases memAllocateDebug_spec holds small filename line with
    isNull | ⟨after, segment, layout', isBlock, granted, recorded⟩
  · simp only [step, tuyaMemHeapDebugMalloc, isNull, Option.map_some, home] at stepped
    rw [← Option.some.inj stepped]
    exact before
  · simp only [step, tuyaMemHeapDebugMalloc, isBlock, Option.map_some, home] at stepped
    have isNext := (Option.some.inj stepped).symm
    subst isNext
    rw [ClientState.enter_system, ClientState.enter_ledger (by simp)]
    apply granted.records holds before
    intro _
    exact recorded

/-- A free keeps the records of the other blocks. -/
theorem free_records {ptr : Nat} (known : ptr = 0 ∨ LivePointer state slot ptr)
    (stepped : step state (.free (some slot) ptr) = some next) :
    ∀ allocation ∈ next.ledger slot, select allocation →
      Recorded next.system.memory allocation := by
  rcases known with isNull | live
  · rw [isNull, holds.free_null] at stepped
    rw [← Option.some.inj stepped]
    exact before
  · obtain ⟨other, left, block, right, left', joined, right', isStep, isLayout, rfl, owned,
      surrendered, ledger⟩ := free_surrenders holds live
    have isNext : other = next := Option.some.inj (isStep.symm.trans stepped)
    subst isNext isLayout
    rw [ledger]
    intro allocation member selected
    obtain ⟨inLedger, isOther⟩ := List.mem_filter.mp member
    obtain ⟨front, its, back, itsLayout, itsOwned, pointer, -⟩ := holds.split inLedger
    have inLayout : its ∈ left ++ block :: right := by simp [itsLayout]
    have different : its ≠ block := by
      intro same
      rw [same] at pointer
      simp [pointer] at isOther
    exact (before allocation inLedger selected).of_agree holds inLayout itsOwned
      (surrendered.released.agreeOn inLayout (vacant_of_owner itsOwned) different)

/-- A store into requested bytes reaches no record. -/
theorem store_records {address : Nat} {value : UInt8} (legal : RequestedByte state slot address)
    (stepped : step state (.store address value) = some next)
    (plain : ∀ allocation, select allocation → allocation.site = none →
      KeepsRecords slot state (.store address value)) :
    ∀ allocation ∈ next.ledger slot, select allocation →
      Recorded next.system.memory allocation := by
  rw [← Option.some.inj stepped]
  intro allocation inLedger selected
  cases isSite : allocation.site with
  | none =>
      have unrecorded := plain allocation selected isSite allocation inLedger isSite
      simpa [Recorded, expectedLines, isSite] using unrecorded
  | some site =>
      obtain ⟨user, isUser, lower, upper⟩ := legal
      obtain ⟨left, block, right, isLayout, owned, pointer, footprint⟩ := holds.split inLedger
      obtain ⟨left', used, right', isLayout', usedOwned, usedPointer, usedFootprint⟩ :=
        holds.split isUser
      have member : block ∈ layout := by simp [isLayout]
      have usedMember : used ∈ layout := by simp [isLayout']
      have inside := holds.bytes.bounds member
      have fits := holds.bytes.highFits
      have header := holds.bytes.blockSize_eq member
      have enough := user.requested_le_footprint
      unfold Allocation.footprint at footprint
      simp only [isSite] at footprint
      -- The address lies in the requested bytes of this block or in another block.
      have beside : address < block.address ∨ block.address + block.size ≤ address ∨
          block.address + 8 ≤ address ∧ address < block.address + block.size - 40 := by
        rcases holds.bytes.apart member usedMember with same | earlier | later
        · rw [← same, owned] at usedOwned
          rw [← Option.some.inj usedOwned] at lower upper
          omega
        · omega
        · omega
      have sameHeader : blockSize (writeByte state.system.memory address value) block.address =
          block.size := by
        rw [← header]
        exact readWord_writeByte (by omega)
      have recorded := before allocation inLedger selected
      unfold Recorded at recorded ⊢
      rw [← recorded, pointer, Nat.add_sub_cancel]
      apply leakLines_congr header (by omega) (by omega) sameHeader
      intro other above below
      exact writeByte_other (by omega)

end Calls

/-- A call through the handle keeps the walk right about the allocations it was
right about, and makes it right about new ones. About plain allocations this
needs a call that keeps records. -/
theorem step_records {state next : ClientState} {slot : Slot} {base size : Nat}
    {select : Allocation → Prop} {call : Call} (sound : Sound slot base size state)
    (legal : ThroughHandle slot state call) (stepped : step state call = some next)
    (plain : ∀ allocation, select allocation → allocation.site = none →
      KeepsRecords slot state call)
    (before : ∀ allocation ∈ state.ledger slot, select allocation →
      Recorded state.system.memory allocation) :
    ∀ allocation ∈ next.ledger slot, select allocation →
      Recorded next.system.memory allocation := by
  obtain ⟨layout, holds⟩ := sound.holds
  cases call with
  | create | delete | realloc => exact absurd legal (by simp [ThroughHandle])
  | malloc handle size =>
      have isHandle : handle = some slot := legal
      subst isHandle
      exact malloc_records holds before stepped plain
  | calloc handle size =>
      have isHandle : handle = some slot := legal
      subst isHandle
      exact calloc_records holds before stepped plain
  | debugMalloc handle size filename line =>
      have isHandle : handle = some slot := legal
      subst isHandle
      exact debugMalloc_records holds before stepped
  | free handle ptr =>
      obtain ⟨isHandle, known⟩ : handle = some slot ∧ (ptr = 0 ∨ _) := legal
      subst isHandle
      exact free_records holds before known stepped
  | store address value => exact store_records holds before legal stepped plain

end TuyaAdapter.TuyaMemHeap
