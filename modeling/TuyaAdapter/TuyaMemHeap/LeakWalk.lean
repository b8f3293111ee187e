import TuyaAdapter.TuyaMemHeap.LeakRecords
import Mathlib.Data.List.Perm.Basic

/-!
Contract: the lines that `MEM_HeapStatus` prints against the live debug
allocations.

The walk prints one line for every block in which it finds a record, up to the
first free block that has lost its tag (`memHeapStatus_leaks`). So it prints the
live debug allocations and nothing else exactly when no lost tag lies below one
of them and no plain block on its way looks recorded (`HeapHolds.exact_iff`).

A run stays exact when every call keeps tags and records apart from other data
(`leakWalk_exact_iff_clear`).
-/

namespace TuyaAdapter.TuyaMemHeap

open Foundation Foundation.ByteMemory Foundation.LinkedPath Foundation.Tiling Foundation.Run
open Foundation.MachineWord (add sub)

/-! ## The lines of a walk -/

/-- The lines printed for the blocks of a list of allocations. -/
def linesOf (memory : Memory) (ledger : List Allocation) : List LeakLine :=
  ledger.flatMap fun allocation => leakLines memory (allocation.pointer - 8)

/-- What the walk over a list of segments prints: the lines of the blocks in
front of the first vacant segment without its free tag. -/
structure Printed (memory : Memory) (layout front back : List Segment) (lines : List LeakLine) :
    Prop where
  split : layout = front ++ back
  tagged : Tagged memory front
  lost : ∀ segment ∈ back.head?, segment.vacant = true ∧
    memory (segment.address + segment.size - 1) ≠ memBlockStatFree
  lines : lines = linesOf memory (allocations front)

section Walk

variable {memory : Memory} {freeList low high : Nat} {layout : List Segment}

theorem Printed.cons_owned {segment : Segment} {rest front back : List Segment}
    {lines : List LeakLine} {allocation : Allocation} (printed : Printed memory rest front back lines)
    (owned : segment.owner = some allocation) (pointer : allocation.pointer = segment.address + 8) :
    Printed memory (segment :: rest) (segment :: front) back
      (leakLines memory segment.address ++ lines) where
  split := by rw [printed.split, List.cons_append]
  tagged := by
    intro other member vacant
    rcases List.mem_cons.mp member with isFirst | later
    · rw [isFirst, vacant_of_owner owned] at vacant
      exact absurd vacant (by decide)
    · exact printed.tagged other later vacant
  lost := printed.lost
  lines := by
    rw [printed.lines, allocations_cons_owned owned, linesOf, linesOf, List.flatMap_cons, pointer,
      Nat.add_sub_cancel]

theorem Printed.cons_vacant {segment : Segment} {rest front back : List Segment}
    {lines : List LeakLine} (printed : Printed memory rest front back lines)
    (vacant : segment.vacant = true)
    (tag : memory (segment.address + segment.size - 1) = memBlockStatFree) :
    Printed memory (segment :: rest) (segment :: front) back lines where
  split := by rw [printed.split, List.cons_append]
  tagged := by
    intro other member isVacant
    rcases List.mem_cons.mp member with isFirst | later
    · rw [isFirst]
      exact tag
    · exact printed.tagged other later isVacant
  lost := printed.lost
  lines := by rw [printed.lines, allocations_cons_vacant vacant]

/-- The loop from any segment on: it ends, and it adds the lines of the blocks it
passes. -/
theorem statusLoop_leaks (rest : List Segment) :
    ∀ (before : List Segment) (fuel addr freeBlockp : Nat) (status : MemHeapStatus)
        (leaks : List LeakLine),
      LayoutHolds memory freeList low high (before ++ rest) → rest.length < fuel →
      Contiguous Segment.address Segment.size rest addr high →
      Path (blockNext memory) freeBlockp (freeNodes rest) 0 →
      ∃ code walk front back lines,
        statusLoop memory high fuel ⟨addr, freeBlockp, status, leaks⟩ = some (code, walk) ∧
        walk.leaks = leaks ++ lines ∧ Printed memory rest front back lines := by
  induction rest with
  | nil =>
      intro before fuel addr freeBlockp status leaks holds enough contiguous path
      obtain ⟨fuel, rfl⟩ := Nat.exists_eq_succ_of_ne_zero (by omega : fuel ≠ 0)
      have atEnd : addr = high := contiguous
      refine ⟨0, ⟨addr, freeBlockp, status, leaks⟩, [], [], [], ?_, by simp, rfl, ?_, ?_, rfl⟩
      · simp [statusLoop, atEnd]
      · intro other member
        exact absurd member (by simp)
      · intro other member
        exact absurd member (by simp)
  | cons segment rest inductionHypothesis =>
      intro before fuel addr freeBlockp status leaks holds enough contiguous path
      obtain ⟨fuel, rfl⟩ := Nat.exists_eq_succ_of_ne_zero (by omega : fuel ≠ 0)
      obtain ⟨atSegment, tail⟩ := contiguous
      subst atSegment
      have whole : LayoutHolds memory freeList low high ((before ++ [segment]) ++ rest) := by
        simpa using holds
      rw [List.length_cons] at enough
      cases isOwner : segment.owner with
      | some allocation =>
          have owned := vacant_of_owner isOwner
          have pointer := ((holds.segments segment (by simp)).owned allocation isOwner).1
          rw [freeNodes_cons_owned owned] at path
          rw [statusLoop_used holds fuel status leaks owned path]
          obtain ⟨code, walk, front, back, lines, walked, isLeaks, printed⟩ :=
            inductionHypothesis (before ++ [segment]) fuel (segment.address + segment.size)
              freeBlockp _ (leaks ++ leakLines memory segment.address) whole (by omega) tail path
          refine ⟨code, walk, segment :: front, back, _, walked, ?_,
            printed.cons_owned isOwner pointer⟩
          rw [isLeaks, List.append_assoc]
      | none =>
          have vacant : segment.vacant = true := by simp [Segment.vacant, isOwner]
          rw [freeNodes_cons_vacant vacant] at path
          obtain ⟨isFree, after⟩ := path
          subst isFree
          by_cases tag : memory (segment.address + segment.size - 1) = memBlockStatFree
          · obtain ⟨status', -, -, -, walks⟩ := statusLoop_free holds fuel status leaks tag
            rw [walks]
            obtain ⟨code, walk, front, back, lines, walked, isLeaks, printed⟩ :=
              inductionHypothesis (before ++ [segment]) fuel (segment.address + segment.size)
                (blockNext memory segment.address) status' leaks whole (by omega) tail after
            exact ⟨code, walk, segment :: front, back, lines, walked, isLeaks,
              printed.cons_vacant vacant tag⟩
          · obtain ⟨code, -, stops⟩ := statusLoop_lost holds fuel status leaks tag
            refine ⟨code, _, [], segment :: rest, [], stops, by simp, rfl, ?_, ?_, rfl⟩
            · intro other member
              exact absurd member (by simp)
            · intro other member
              have isFirst : segment = other := by simpa using member
              rw [← isFirst]
              exact ⟨vacant, tag⟩

theorem memHeapStatus_leaks {heap : MemHeap} {ledger : List Allocation}
    (holds : HeapHolds memory heap ledger layout) :
    ∃ status front back lines, memHeapStatus memory heap = some (status, lines) ∧
      Printed memory layout front back lines := by
  have short := holds.bytes.toArranged.length_lt
  obtain ⟨code, walk, front, back, lines, walked, isLeaks, printed⟩ :=
    statusLoop_leaks layout [] loopBound (alignUp heap.base) heap.freeList
      ⟨heap.size, 0, 0, 0, 0, 0⟩ [] holds.bytes (by unfold loopBound; omega)
      holds.bytes.contiguous holds.bytes.links
  rw [List.nil_append] at isLeaks
  unfold memHeapStatus
  simp only [show alignDown (add 64 heap.base heap.size) = heap.high from rfl]
  rw [walked, Option.map_some]
  dsimp only
  split
  · exact ⟨_, front, back, lines, by rw [isLeaks], printed⟩
  · exact ⟨_, front, back, lines, by rw [isLeaks], printed⟩

end Walk

/-! ## Exact walks -/

/-- The walk prints the live debug allocations, each with the file, the line and
the size it was made with, and nothing else. -/
def LeakWalkExact (slot : Slot) (state : ClientState) : Prop :=
  ∃ status lines,
    memHeapStatus state.system.memory (state.system.heapList slot) = some (status, lines) ∧
    lines.Perm ((state.ledger slot).flatMap expectedLines)

/-- No block of the free list below this address has lost its tag. -/
def WalkReaches (slot : Slot) (state : ClientState) (block : Nat) : Prop :=
  ∀ node ∈ freeListNodes state.system slot, node < block →
    state.system.memory (node + blockSize state.system.memory node - 1) = memBlockStatFree

/-- The walk reaches every debug allocation, and the plain ones that it reaches
do not look recorded. -/
def WalkClear (slot : Slot) (state : ClientState) : Prop :=
  ∀ allocation ∈ state.ledger slot,
    (allocation.site ≠ none → WalkReaches slot state (allocation.pointer - 8)) ∧
      (allocation.site = none → WalkReaches slot state (allocation.pointer - 8) →
        leakLines state.system.memory (allocation.pointer - 8) = [])

/-- The record of a debug allocation is intact and lies inside its block, behind
the requested bytes and before the tag. -/
def RecordsInside (slot : Slot) (state : ClientState) : Prop :=
  ∀ allocation ∈ state.ledger slot, allocation.site ≠ none →
    allocation.pointer + allocation.requested ≤
        memLeakDbgAddr state.system.memory (allocation.pointer - 8) ∧
      memLeakDbgAddr state.system.memory (allocation.pointer - 8) + dbgLeakSize ≤
        allocation.pointer - 8 + blockSize state.system.memory (allocation.pointer - 8) - 1 ∧
      Recorded state.system.memory allocation

/-- A printed line names the block it was read from. -/
theorem block_of_leakLines {memory : Memory} {block : Nat} {line : LeakLine}
    (member : line ∈ leakLines memory block) : line.block = block := by
  unfold leakLines at member
  dsimp only at member
  split at member
  · rw [List.mem_singleton.mp member]
  · exact absurd member (by simp)

theorem block_of_expectedLines {allocation : Allocation} {line : LeakLine}
    (member : line ∈ expectedLines allocation) :
    line.block = allocation.pointer - 8 ∧ allocation.site ≠ none := by
  unfold expectedLines at member
  split at member
  · exact absurd member (by simp)
  · rename_i site isSite
    rw [List.mem_singleton.mp member, isSite]
    exact ⟨rfl, by simp⟩

theorem expectedLines_of_plain {allocation : Allocation} (plain : allocation.site = none) :
    expectedLines allocation = [] := by
  unfold expectedLines
  rw [plain]

section Exact

variable {slot : Slot} {state : ClientState} {layout front back : List Segment}
  {lines : List LeakLine}
  (holds : HeapHolds state.system.memory (state.system.heapList slot) (state.ledger slot) layout)
include holds

/-- Live allocations with the same block are the same. -/
theorem HeapHolds.allocation_unique {one other : Allocation} (isOne : one ∈ state.ledger slot)
    (isOther : other ∈ state.ledger slot) (sameBlock : one.pointer - 8 = other.pointer - 8) :
    one = other := by
  obtain ⟨segment, member, owned⟩ := holds.mem_ledger.mp isOne
  obtain ⟨segment', member', owned'⟩ := holds.mem_ledger.mp isOther
  have pointer := ((holds.bytes.segments segment member).owned one owned).1
  have pointer' := ((holds.bytes.segments segment' member').owned other owned').1
  have same := holds.bytes.contiguous.eq_of_start holds.bytes.positive member member' (by omega)
  rw [same, owned'] at owned
  exact (Option.some.inj owned).symm

variable (printed : Printed state.system.memory layout front back lines)
include printed

/-- The walk passes the blocks in front of the first lost tag, and these are the
ones it reaches. -/
theorem Printed.reaches_iff {allocation : Allocation} (isLive : allocation ∈ state.ledger slot) :
    WalkReaches slot state (allocation.pointer - 8) ↔ allocation ∈ allocations front := by
  obtain ⟨segment, member, owned⟩ := holds.mem_ledger.mp isLive
  have pointer := ((holds.bytes.segments segment member).owned allocation owned).1
  have ordered := holds.bytes.contiguous.pairwise
  have isOwned := vacant_of_owner owned
  unfold WalkReaches
  rw [holds.freeListNodes_eq, pointer, Nat.add_sub_cancel]
  have isSplit := printed.split
  subst isSplit
  obtain ⟨-, backOrdered, across⟩ := List.pairwise_append.mp ordered
  constructor
  · intro reaches
    rcases List.mem_append.mp member with inFront | inBack
    · exact List.mem_filterMap.mpr ⟨segment, inFront, owned⟩
    · cases back with
      | nil => exact absurd inBack (by simp)
      | cons lost rest =>
          obtain ⟨vacant, untagged⟩ := printed.lost lost (by simp)
          have inLayout : lost ∈ front ++ lost :: rest := by simp
          have behind : segment ∈ rest := by
            rcases List.mem_cons.mp inBack with isLost | later
            · rw [isLost, vacant] at isOwned
              exact absurd isOwned (by decide)
            · exact later
          have below := (List.pairwise_cons.mp backOrdered).1 segment behind
          have large := holds.bytes.large lost inLayout
          have tag := reaches lost.address (mem_freeNodes.mpr ⟨lost, inLayout, vacant, rfl⟩)
            (by omega)
          rw [holds.bytes.blockSize_eq inLayout] at tag
          exact absurd tag untagged
  · intro inFront node isNode below
    obtain ⟨its, itsMember, itsOwned⟩ := List.mem_filterMap.mp inFront
    have itsPointer := ((holds.bytes.segments its (by simp [itsMember])).owned allocation
      itsOwned).1
    obtain ⟨free, freeMember, vacant, rfl⟩ := mem_freeNodes.mp isNode
    rw [holds.bytes.blockSize_eq freeMember]
    rcases List.mem_append.mp freeMember with freeFront | freeBack
    · exact printed.tagged free freeFront vacant
    · have apart := across its itsMember free freeBack
      have large := holds.bytes.large its (by simp [itsMember])
      omega

/-- In a state whose records are intact the lines are those of the debug
allocations exactly when the way of the walk is clear. -/
theorem Printed.perm_iff
    (intact : ∀ allocation ∈ state.ledger slot, allocation.site ≠ none →
      Recorded state.system.memory allocation) :
    lines.Perm ((state.ledger slot).flatMap expectedLines) ↔ WalkClear slot state := by
  have owners : (allocations front ++ allocations back).Perm (state.ledger slot) := by
    rw [← allocations_append, ← printed.split]
    exact holds.owners.symm
  have inLedger : ∀ allocation ∈ allocations front, allocation ∈ state.ledger slot := by
    intro allocation inFront
    exact owners.mem_iff.mp (List.mem_append_left _ inFront)
  constructor
  · intro exact_ allocation isLive
    constructor
    · intro isDebug
      -- The line of the allocation was printed for a block on the way: its own.
      obtain ⟨site, isSite⟩ := Option.ne_none_iff_exists'.mp isDebug
      have due : (⟨site.filename % 2 ^ 64, wordOfInt site.line, allocation.pointer - 8,
          allocation.requested⟩ : LeakLine) ∈ lines := by
        apply exact_.mem_iff.mpr
        exact List.mem_flatMap.mpr ⟨allocation, isLive, by simp [expectedLines, isSite]⟩
      rw [printed.lines, linesOf] at due
      obtain ⟨source, isSource, inSource⟩ := List.mem_flatMap.mp due
      have same := holds.allocation_unique isLive (inLedger source isSource)
        (block_of_leakLines inSource)
      rw [printed.reaches_iff holds isLive, same]
      exact isSource
    · intro isPlain reaches
      have inFront := (printed.reaches_iff holds isLive).mp reaches
      by_contra notEmpty
      obtain ⟨line, isLine⟩ := List.exists_mem_of_ne_nil _ notEmpty
      have isPrinted : line ∈ lines := by
        rw [printed.lines, linesOf]
        exact List.mem_flatMap.mpr ⟨allocation, inFront, isLine⟩
      obtain ⟨source, isSource, inSource⟩ := List.mem_flatMap.mp (exact_.mem_iff.mp isPrinted)
      obtain ⟨isBlock, isDebug⟩ := block_of_expectedLines inSource
      have same := holds.allocation_unique isLive isSource
        ((block_of_leakLines isLine).symm.trans isBlock)
      rw [same] at isPlain
      exact isDebug isPlain
  · intro clear
    have onTheWay : linesOf state.system.memory (allocations front) =
        (allocations front).flatMap expectedLines := by
      apply List.flatMap_congr
      intro allocation inFront
      have isLive := inLedger allocation inFront
      by_cases isPlain : allocation.site = none
      · rw [expectedLines_of_plain isPlain]
        exact (clear allocation isLive).2 isPlain
          ((printed.reaches_iff holds isLive).mpr inFront)
      · exact intact allocation isLive isPlain
    have behind : (allocations back).flatMap expectedLines = [] := by
      rw [List.flatMap_eq_nil_iff]
      intro allocation inBack
      apply expectedLines_of_plain
      by_contra isDebug
      have isLive := owners.mem_iff.mp (List.mem_append_right (allocations front) inBack)
      have inFront := (printed.reaches_iff holds isLive).mp ((clear allocation isLive).1 isDebug)
      have distinct : (allocations front ++ allocations back).Nodup :=
        owners.nodup_iff.mpr holds.pointers_nodup.of_map
      exact (List.nodup_append.mp distinct).2.2 allocation inFront allocation inBack rfl
    rw [printed.lines, onTheWay]
    have whole := owners.flatMap_right expectedLines
    rwa [List.flatMap_append, behind, List.append_nil] at whole

end Exact

section Reading

variable {slot : Slot} {state : ClientState} {layout : List Segment}
  (holds : HeapHolds state.system.memory (state.system.heapList slot) (state.ledger slot) layout)
  (intact : ∀ allocation ∈ state.ledger slot, allocation.site ≠ none →
    Recorded state.system.memory allocation)
include holds intact

theorem HeapHolds.exact_iff : LeakWalkExact slot state ↔ WalkClear slot state := by
  obtain ⟨status, front, back, lines, isStatus, printed⟩ := memHeapStatus_leaks holds
  rw [← printed.perm_iff holds intact]
  constructor
  · intro exact_
    obtain ⟨other, others, isOther, perm⟩ := exact_
    rw [isStatus] at isOther
    have same : lines = others := congrArg Prod.snd (Option.some.inj isOther)
    rwa [same]
  · intro perm
    exact ⟨status, lines, isStatus, perm⟩

theorem HeapHolds.recordsInside : RecordsInside slot state := by
  intro allocation isLive isDebug
  obtain ⟨left, block, right, isLayout, owned, pointer, footprint⟩ := holds.split isLive
  have member : block ∈ layout := by simp [isLayout]
  have header := holds.bytes.blockSize_eq member
  have inside := holds.bytes.bounds member
  have fits := holds.bytes.highFits
  obtain ⟨site, isSite⟩ := Option.ne_none_iff_exists'.mp isDebug
  unfold Allocation.footprint at footprint
  simp only [isSite] at footprint
  refine ⟨?_, ?_, intact allocation isLive isDebug⟩
  · rw [pointer, Nat.add_sub_cancel, memLeakDbgAddr_eq header (by omega) (by omega)]
    omega
  · rw [pointer, Nat.add_sub_cancel, memLeakDbgAddr_eq header (by omega) (by omega), header]
    unfold dbgLeakSize
    omega

end Reading

/-! ## Runs -/

/-- The invariant of every run: the heap is sound and the records of the live
debug allocations are intact. -/
structure RecordsIntact (slot : Slot) (base size : Nat) (state : ClientState) : Prop where
  sound : Sound slot base size state
  recorded : ∀ allocation ∈ state.ledger slot, allocation.site ≠ none →
    Recorded state.system.memory allocation

/-- The invariant of a run whose calls keep the records: the free tags are in
place and the walk is right about every allocation. -/
structure RecordsClear (slot : Slot) (base size : Nat) (state : ClientState) : Prop where
  sound : Sound slot base size state
  tags : TagsIntact slot state
  recorded : ∀ allocation ∈ state.ledger slot, Recorded state.system.memory allocation

section Steps

variable {slot : Slot} {base size : Nat} {state : ClientState} {call : Call}

theorem RecordsIntact.step (intact : RecordsIntact slot base size state)
    (legal : ThroughHandle slot state call) :
    ∃ next, TuyaMemHeap.step state call = some next ∧ RecordsIntact slot base size next := by
  obtain ⟨next, stepped, sound, -⟩ := step_sound intact.sound legal
  refine ⟨next, stepped, sound, ?_⟩
  apply step_records intact.sound legal stepped _ intact.recorded
  intro allocation isDebug isPlain
  exact absurd isPlain isDebug

theorem RecordsClear.step {next : ClientState} (clear : RecordsClear slot base size state)
    (legal : ThroughHandle slot state call) (keeps : KeepsRecords slot state call)
    (stepped : TuyaMemHeap.step state call = some next) : RecordsClear slot base size next := by
  obtain ⟨other, isOther, sound, -⟩ := step_sound clear.sound legal
  have isNext : other = next := Option.some.inj (isOther.symm.trans stepped)
  subst isNext
  refine ⟨sound, (step_tagged clear.sound legal stepped clear.tags).mpr keeps.keepsTag, ?_⟩
  intro allocation inLedger
  exact @step_records _ _ _ _ _ (fun _ => True) _ clear.sound legal stepped (fun _ _ _ => keeps)
    (fun allocation inLedger _ => clear.recorded allocation inLedger) allocation inLedger trivial

theorem RecordsClear.exact_ (clear : RecordsClear slot base size state) :
    LeakWalkExact slot state := by
  obtain ⟨layout, holds⟩ := clear.sound.holds
  rw [holds.exact_iff fun allocation inLedger _ => clear.recorded allocation inLedger]
  intro allocation inLedger
  constructor
  · intro _ node isNode _
    exact clear.tags.2 node isNode
  · intro isPlain _
    rw [← expectedLines_of_plain isPlain]
    exact clear.recorded allocation inLedger

end Steps

/-- A heap through whose handle clients allocate, free and store into the bytes
they asked for. In every state of the run the record of each live debug
allocation is intact and lies inside its block, clear of the requested bytes and
the tag; and the walk prints exactly the live debug allocations if and only if
its way is clear. It is clear in every state when every call of the run keeps
the records. -/
theorem leakWalk_exact_iff_clear {system after : HeapSystem} {slot : Slot} {startAddr : Nat}
    {size : UInt32} (created : tuyaMemHeapCreate system startAddr size = (some slot, after))
    (below : startAddr + size.toNat ≤ addressLimit)
    (padded : alignUp startAddr ≤ startAddr + size.toNat) {calls : List Call}
    (legal : EveryStep step (ThroughHandle slot) ⟨after, fun _ => []⟩ calls) :
    (∃ final, run step ⟨after, fun _ => []⟩ calls = some final) ∧
      EveryState step
        (fun state => RecordsInside slot state ∧ (LeakWalkExact slot state ↔ WalkClear slot state))
        ⟨after, fun _ => []⟩ calls ∧
      (EveryStep step (KeepsRecords slot) ⟨after, fun _ => []⟩ calls →
        EveryState step (LeakWalkExact slot) ⟨after, fun _ => []⟩ calls) := by
  have sound := created_sound created below padded
  have intact : RecordsIntact slot startAddr size.toNat ⟨after, fun _ => []⟩ := by
    refine ⟨sound, ?_⟩
    intro allocation inLedger
    exact absurd inLedger (by simp)
  have clear : RecordsClear slot startAddr size.toNat ⟨after, fun _ => []⟩ := by
    refine ⟨sound, created_tagsIntact created below padded, ?_⟩
    intro allocation inLedger
    exact absurd inLedger (by simp)
  have progress : ∀ state call, RecordsIntact slot startAddr size.toNat state →
      ThroughHandle slot state call →
      ∃ next, step state call = some next ∧ RecordsIntact slot startAddr size.toNat next :=
    fun state call intact legal => intact.step legal
  refine ⟨?_, ?_, ?_⟩
  · obtain ⟨final, ran, -⟩ := run_total progress intact legal
    exact ⟨final, ran⟩
  · apply EveryState.mono _ (everyState_of_progress progress intact legal)
    intro state kept
    obtain ⟨layout, holds⟩ := kept.sound.holds
    exact ⟨holds.recordsInside kept.recorded, holds.exact_iff kept.recorded⟩
  · intro keeps
    apply EveryState.mono (fun state => RecordsClear.exact_)
    exact everyState_of_everyStep
      (fun state call next kept legal keeps stepped => kept.step legal keeps stepped) clear legal
      keeps

instance (slot : Slot) (state : ClientState) : Decidable (LeakWalkExact slot state) :=
  match isStatus : memHeapStatus state.system.memory (state.system.heapList slot) with
  | none => isFalse (by
      rintro ⟨status, lines, isOther, -⟩
      rw [isStatus] at isOther
      exact absurd isOther (by simp))
  | some (status, lines) =>
      decidable_of_iff (lines.Perm ((state.ledger slot).flatMap expectedLines))
        ⟨fun perm => ⟨status, lines, isStatus, perm⟩, by
          rintro ⟨other, others, isOther, perm⟩
          rw [isStatus] at isOther
          have same : lines = others := congrArg Prod.snd (Option.some.inj isOther)
          rwa [same]⟩

/-- A debug allocation and a plain one that is freed again: the walk prints the
debug allocation in every state. -/
theorem leakWalk_exact_two_blocks :
    let after := (tuyaMemHeapCreate (HeapSystem.initial fun _ => 0) 4096 256).2
    EveryState step (LeakWalkExact 0) ⟨after, fun _ => []⟩
      [.debugMalloc (some 0) 16 1000 7, .malloc (some 0) 40, .store 4240 104,
        .free (some 0) 4240] := by
  have created : tuyaMemHeapCreate (HeapSystem.initial fun _ => 0) 4096 256 =
      (some 0, (tuyaMemHeapCreate (HeapSystem.initial fun _ => 0) 4096 256).2) :=
    Prod.ext (by decide +kernel) rfl
  exact (leakWalk_exact_iff_clear created (by decide) (by decide) (by decide +kernel)).2.2
    (by decide +kernel)

/-- A debug allocation is freed and a plain request of 48 bytes takes its block
over. The magic is still there, so the walk prints the freed allocation. In a
second run the free of a 16-byte block stops the walk below a live debug
allocation. -/
theorem leakWalk_prints_freed_allocation :
    let after := (tuyaMemHeapCreate (HeapSystem.initial fun _ => 0) 4096 256).2
    let stale : List Call :=
      [.debugMalloc (some 0) 16 1000 7, .free (some 0) 4296, .malloc (some 0) 48]
    let hidden : List Call :=
      [.debugMalloc (some 0) 16 1000 7, .malloc (some 0) 1, .malloc (some 0) 1,
        .free (some 0) 4280]
    EveryStep step (ThroughHandle 0) ⟨after, fun _ => []⟩ stale ∧
      ¬ EveryState step (LeakWalkExact 0) ⟨after, fun _ => []⟩ stale ∧
      EveryStep step (ThroughHandle 0) ⟨after, fun _ => []⟩ hidden ∧
      ¬ EveryState step (LeakWalkExact 0) ⟨after, fun _ => []⟩ hidden := by
  decide +kernel

end TuyaAdapter.TuyaMemHeap
