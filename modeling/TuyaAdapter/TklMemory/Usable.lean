import TuyaAdapter.TklMemory.Model

/-!
Contract: how many bytes an allocation of `tkl_memory.c` really has.

A request of 4 GiB or more reaches the heap manager as its low 32 bits, so it is
answered with a block of that size. A resize adds one to the 32-bit size before
it compares, so the largest 32-bit size passes for none at all. The equivalences
hold in every state that legal calls reach.
-/

namespace TuyaAdapter.TklMemory

open Foundation Foundation.ByteMemory Foundation.Run
open TuyaMemHeap

/-- The bytes of a block between its header and its tag. -/
def usable (heap : HeapSystem) (ptr : Nat) : Nat := blockSize heap.memory (ptr - 8) - 9

/-- A resize stays below the largest 32-bit size, or fails: the block of the
pointer is too small and no other block is found. -/
def ResizesHonestly (memory : SystemMemory) (ptr : Nat) (size : UInt64) : Prop :=
  if ptr = 0 then
    size.toNat < 2 ^ 32 ∨ ¬ Serves memory.heap memory.sHeapHandle size.toUInt32
  else
    size.toNat < 2 ^ 32 - 1 ∨
      (blockSize memory.heap.memory (ptr - 8) < reallocBlock size.toUInt32 ∧
        ¬ Serves memory.heap memory.sHeapHandle (reallocSize size.toUInt32))

instance (memory : SystemMemory) (ptr : Nat) (size : UInt64) :
    Decidable (ResizesHonestly memory ptr size) :=
  inferInstanceAs (Decidable (if ptr = 0 then _ else _))

/-! ## Reachable states -/

section Reachable

variable {state : MemoryState}

theorem maxHeapSize_toNat : maxHeapSize.toNat = 2 ^ 29 := rfl

theorem ready_allHold (allHold : AllHold state.client) {buf : Nat}
    (fresh : buf = 0 ∨ FreeRegion state.memory.heap buf maxHeapSize.toNat) :
    AllHold ⟨(ready state.memory buf).heap, state.ledger⟩ := by
  unfold ready
  split
  · unfold heapInit
    rcases fresh with rfl | region
    · have refused : tuyaMemHeapCreate state.memory.heap 0 maxHeapSize = (none, state.memory.heap) := by
        unfold tuyaMemHeapCreate memHeapCreate
        rw [if_pos (Or.inl rfl)]
      rw [refused]
      exact allHold
    · have padded : alignUp buf ≤ buf + maxHeapSize.toNat := by
        have below := region.1
        rw [maxHeapSize_toNat] at below ⊢
        rw [alignUp_of_small (by omega)]
        omega
      cases isCreate : tuyaMemHeapCreate state.memory.heap buf maxHeapSize with
      | mk handle after =>
          cases handle with
          | none =>
              have failed : Refused state.client.system after := memHeapCreate_refused isCreate
              exact failed.allHold allHold
          | some slot =>
              have made : Created state.client.system slot buf maxHeapSize.toNat after :=
                memHeapCreate_spec isCreate region.1 padded
              have nothing : state.ledger slot = [] := (allHold.unused slot made.unused).2.2
              have created := made.allHold (by decide) region allHold
              have same : Function.update state.client.ledger slot [] = state.ledger := by
                rw [← nothing]
                exact Function.update_eq_self _ _
              rw [same] at created
              exact created
  · exact allHold

/-- The state after a call of the heap manager. -/
def MemoryState.after (handle : Option Slot) (client : ClientState) : MemoryState :=
  ⟨⟨client.system, handle⟩, client.ledger⟩

theorem enter_system (client : ClientState) (slot : Option Slot) (after : HeapSystem)
    (allocation : Allocation) : (client.enter slot after allocation).system = after := by
  unfold ClientState.enter
  split
  · rfl
  · cases slot <;> rfl

theorem enter_ledger (before other after : HeapSystem) (ledger : Slot → List Allocation)
    (slot : Option Slot) (allocation : Allocation) :
    ((ClientState.mk before ledger).enter slot after allocation).ledger =
      ((ClientState.mk other ledger).enter slot after allocation).ledger := by
  unfold ClientState.enter
  split
  · rfl
  · cases slot <;> rfl

theorem leave_system (client : ClientState) (slot : Option Slot) (after : HeapSystem) (ptr : Nat) :
    (client.leave slot after ptr).system = after := by
  cases slot <;> rfl

theorem leave_ledger_eq (client : ClientState) (slot : Option Slot) (after other : HeapSystem)
    (ptr : Nat) : (client.leave slot after ptr).ledger = (client.leave slot other ptr).ledger := by
  cases slot <;> rfl

theorem reallocated_system (client : ClientState) (handle : Option Slot) (ptr : Nat)
    (size : UInt32) (new : Nat) (after : HeapSystem) :
    (client.reallocated handle ptr size new after).system = after := by
  unfold ClientState.reallocated
  split
  · rfl
  · split
    · exact enter_system _ _ _ _
    · split
      · rfl
      · exact enter_system _ _ _ _

/-- The heap manager's ledger of a request is the ledger of the call. -/
theorem request_step (memory : SystemMemory) (before : HeapSystem)
    (ledger : Slot → List Allocation) {result : Option (Nat × HeapSystem)} {requested : Nat}
    {next : ClientState}
    (stepped : (result.map fun (ptr, after) => (ClientState.mk memory.heap ledger).enter
      (home after memory.sHeapHandle ptr) after ⟨ptr, requested, none⟩) = some next) :
    ((result.map fun (ptr, after) => (ptr, { memory with heap := after })).map
      fun (ptr, after) => (MemoryState.mk after ((ClientState.mk before ledger).enter
        (home after.heap after.sHeapHandle ptr) after.heap ⟨ptr, requested, none⟩).ledger)) =
      some (MemoryState.after memory.sHeapHandle next) := by
  cases result with
  | none => exact absurd stepped nofun
  | some pair =>
      obtain ⟨ptr, after⟩ := pair
      obtain rfl := Option.some.inj stepped
      simp only [Option.map_some, MemoryState.after, enter_system]
      rw [enter_ledger before memory.heap]

theorem calloc_result (allHold : AllHold state.client) (size : UInt32) :
    tuyaMemHeapCalloc state.memory.heap state.memory.sHeapHandle size =
        some (0, state.memory.heap) ∨
      ∃ slot ptr after, Through state.memory.sHeapHandle slot ∧
        tuyaMemHeapCalloc state.memory.heap state.memory.sHeapHandle size = some (ptr, after) ∧
        Taken state.client slot (chunkSize size.toNat) (plainOwner size.toNat) ptr after := by
  rcases allHold.calloc_cases state.memory.sHeapHandle size with
    ⟨-, isNull⟩ | ⟨-, slot, ptr, after, through, isBlock, -, taken⟩
  · exact Or.inl isNull
  · exact Or.inr ⟨slot, ptr, after, through, isBlock, taken⟩

/-- Every legal call returns and keeps the heaps well formed. -/
theorem step_allHold (allHold : AllHold state.client) {call : MemoryCall}
    (legal : Legal state call) :
    ∃ next, step state call = some next ∧ AllHold next.client := by
  cases call with
  | malloc size buf =>
      have readyHold := ready_allHold allHold legal
      obtain ⟨next, stepped, transfers⟩ := readyHold.request_transfers
        ((readyHold.malloc_cases (ready state.memory buf).sHeapHandle size.toUInt32
          (le_refl _)).imp And.right And.right)
      exact ⟨_, request_step (ready state.memory buf) state.memory.heap state.ledger stepped,
        transfers.allHold readyHold⟩
  | calloc nitems size =>
      obtain ⟨next, stepped, transfers⟩ := allHold.request_transfers
        (calloc_result allHold (nitems * size).toUInt32)
      exact ⟨_, request_step state.memory state.memory.heap state.ledger stepped,
        transfers.allHold allHold⟩
  | realloc ptr size =>
      have managed : LegalCall state.client
          (.realloc state.memory.sHeapHandle ptr size.toUInt32) := legal
      obtain ⟨next, stepped, result⟩ := step_result allHold managed trivial
      refine ⟨MemoryState.after state.memory.sHeapHandle next, ?_, result.allHold managed allHold⟩
      obtain ⟨⟨new, after⟩, isResult, rfl⟩ := Option.map_eq_some_iff.mp stepped
      have isRealloc : tuyaMemHeapRealloc state.memory.heap state.memory.sHeapHandle ptr
          size.toUInt32 = some (new, after) := isResult
      simp only [step, tklSystemRealloc, isRealloc, Option.map_some, MemoryState.after,
        reallocated_system]
  | free ptr =>
      have managed : LegalCall state.client (.free state.memory.sHeapHandle ptr) := legal
      obtain ⟨next, stepped, result⟩ := step_result allHold managed trivial
      have nextHold := result.allHold managed allHold
      obtain ⟨after, isResult, rfl⟩ := Option.map_eq_some_iff.mp stepped
      have isFree : tuyaMemHeapFree state.memory.heap state.memory.sHeapHandle ptr = some after :=
        isResult
      by_cases isNull : ptr = 0
      · -- The call does nothing, as the heap manager would.
        subst isNull
        have unchanged := allHold.free_null state.memory.sHeapHandle
        rw [stepped] at unchanged
        have sameLedger : (state.client.leave (freeTarget state.memory.heap
            state.memory.sHeapHandle 0) state.memory.heap 0).ledger = state.ledger := by
          have isState := congrArg ClientState.ledger (Option.some.inj unchanged)
          rw [← leave_ledger_eq _ _ after]
          exact isState
        refine ⟨state, ?_, allHold⟩
        simp only [step, tklSystemFree, ne_eq, not_true_eq_false, if_false, Option.map_some,
          sameLedger]
      · refine ⟨MemoryState.after state.memory.sHeapHandle (state.client.leave
          (freeTarget state.memory.heap state.memory.sHeapHandle ptr) after ptr), ?_, nextHold⟩
        simp only [step, tklSystemFree, ne_eq, isNull, not_false_eq_true, if_true, isFree,
          Option.map_some, MemoryState.after, leave_system]
  | store address value =>
      have managed : LegalCall state.client (.store address value) := legal
      obtain ⟨next, stepped, result⟩ := step_result allHold managed trivial
      have nextHold := result.allHold managed allHold
      obtain rfl := Option.some.inj stepped
      exact ⟨_, rfl, nextHold⟩

theorem run_client {calls : List MemoryCall} (allHold : AllHold state.client)
    (legal : EveryStep step Legal state calls) :
    ∃ final, run step state calls = some final ∧ AllHold final.client :=
  run_total (fun _ _ isHeld isLegal => step_allHold isHeld isLegal) allHold legal

end Reachable

/-! ## Sizes -/

section Sizes

variable {client : ClientState} {slot : Slot} {ptr : Nat}

theorem toUInt32_of_small {size : UInt64} (small : size.toNat < 2 ^ 32) :
    size.toUInt32.toNat = size.toNat := by
  rw [UInt64.toNat_toUInt32]
  exact Nat.mod_eq_of_lt small

theorem product_of_small {nitems size : UInt64} (small : nitems.toNat * size.toNat < 2 ^ 32) :
    (nitems * size).toUInt32.toNat = nitems.toNat * size.toNat := by
  have isProduct : (nitems * size).toNat = nitems.toNat * size.toNat := by
    rw [UInt64.toNat_mul]
    exact Nat.mod_eq_of_lt (by omega)
  rw [← isProduct]
  exact toUInt32_of_small (by omega)

/-- A taken block has the bytes of the request and fewer than 4 GiB. -/
theorem taken_usable {size : Nat} {owner : Nat → Allocation} {after : HeapSystem}
    (allHold : AllHold client) (small : size ≤ 2 ^ 40)
    (taken : Taken client slot (chunkSize size) owner ptr after) :
    size ≤ usable after ptr ∧ usable after ptr + 9 < 2 ^ 32 := by
  obtain ⟨layout, segment, layout', rfl, holds, granted⟩ := taken
  have enough := granted.carve.size_le
  have bounds := granted.holds.bytes.bounds granted.carve.mem
  have inside := granted.holds.inside
  have heapSmall := allHold.small slot
  have sameSize := granted.confined.size
  unfold usable
  rw [Nat.add_sub_cancel, granted.holds.bytes.blockSize_eq granted.carve.mem]
  rw [chunkSize_eq small] at enough
  omega

/-- A live block has the bytes its client was promised and fewer than 4 GiB. -/
theorem live_usable (allHold : AllHold client) {allocation : Allocation}
    (inLedger : allocation ∈ client.ledger slot) :
    allocation.requested ≤ usable client.system allocation.pointer ∧
      usable client.system allocation.pointer + 9 < 2 ^ 32 := by
  have live : LivePointer client slot allocation.pointer := ⟨allocation, inLedger, rfl⟩
  have sizes := allHold.blockSize_bounds live
  obtain ⟨layout, holds⟩ := allHold.live slot (allHold.inRegion_of_live live).1
  obtain ⟨left, block, right, isLayout, owned, pointer, footprint⟩ := holds.split inLedger
  have enough := allocation.requested_le_footprint
  have size := holds.bytes.blockSize_eq (show block ∈ layout by simp [isLayout])
  unfold usable
  rw [pointer, Nat.add_sub_cancel] at sizes ⊢
  rw [size] at sizes ⊢
  omega

/-- A request of the heap manager for the low half of a 64-bit size. -/
theorem request_enough_iff (allHold : AllHold client) (handle : Option Slot) (size : UInt64) :
    ∃ ptr after, tuyaMemHeapMalloc client.system handle size.toUInt32 = some (ptr, after) ∧
      ((ptr ≠ 0 → size.toNat ≤ usable after ptr) ↔
        (size.toNat < 2 ^ 32 ∨ ¬ Serves client.system handle size.toUInt32)) := by
  have small : size.toUInt32.toNat ≤ 2 ^ 40 := by
    have bound := size.toUInt32.toNat_lt
    omega
  rcases allHold.malloc_cases handle size.toUInt32 (le_refl _) with
    ⟨refuses, isNull⟩ | ⟨serves, slot, ptr, after, -, isBlock, taken⟩
  · refine ⟨0, client.system, isNull, fun _ => Or.inr refuses, fun _ nonzero => ?_⟩
    exact absurd rfl nonzero
  · refine ⟨ptr, after, isBlock, ?_⟩
    obtain ⟨enough, below⟩ := taken_usable allHold small taken
    constructor
    · intro honest
      left
      have least := honest taken.ptr_ne_zero
      omega
    · rintro (isSmall | refuses) _
      · rw [toUInt32_of_small isSmall] at enough
        exact enough
      · exact absurd serves refuses

theorem malloc_enough_iff {state : MemoryState} (allHold : AllHold state.client) (size : UInt64)
    {buf : Nat} (legal : Legal state (.malloc size buf)) :
    ∃ ptr after, tklSystemMalloc state.memory size buf = some (ptr, after) ∧
      ((ptr ≠ 0 → size.toNat ≤ usable after.heap ptr) ↔
        (size.toNat < 2 ^ 32 ∨ ¬ Serves (ready state.memory buf).heap
          (ready state.memory buf).sHeapHandle size.toUInt32)) := by
  obtain ⟨ptr, after, isResult, iff_⟩ := request_enough_iff (ready_allHold allHold legal)
    (ready state.memory buf).sHeapHandle size
  refine ⟨ptr, { ready state.memory buf with heap := after }, ?_, iff_⟩
  unfold tklSystemMalloc
  simp only [isResult, Option.map_some]

theorem calloc_enough_iff {state : MemoryState} (allHold : AllHold state.client)
    (nitems size : UInt64) :
    ∃ ptr after, tklSystemCalloc state.memory nitems size = some (ptr, after) ∧
      ((ptr ≠ 0 → nitems.toNat * size.toNat ≤ usable after.heap ptr ∧
          ∀ i < nitems.toNat * size.toNat, after.heap.memory (ptr + i) = 0) ↔
        (nitems.toNat * size.toNat < 2 ^ 32 ∨ ¬ Serves state.memory.heap
          state.memory.sHeapHandle (nitems * size).toUInt32)) := by
  have small : (nitems * size).toUInt32.toNat ≤ 2 ^ 40 := by
    have bound := (nitems * size).toUInt32.toNat_lt
    omega
  unfold tklSystemCalloc
  rcases allHold.calloc_cases state.memory.sHeapHandle (nitems * size).toUInt32 with
    ⟨refuses, isNull⟩ | ⟨serves, slot, ptr, after, -, isBlock, cleared, taken⟩
  · have isCalloc : tuyaMemHeapCalloc state.memory.heap state.memory.sHeapHandle
        (nitems * size).toUInt32 = some (0, state.memory.heap) := isNull
    refine ⟨0, state.memory, ?_, fun _ => Or.inr refuses, fun _ nonzero => ?_⟩
    · simp only [isCalloc, Option.map_some]
    · exact absurd rfl nonzero
  · have isCalloc : tuyaMemHeapCalloc state.memory.heap state.memory.sHeapHandle
        (nitems * size).toUInt32 = some (ptr, after) := isBlock
    refine ⟨ptr, _, by simp only [isCalloc, Option.map_some]; rfl, ?_⟩
    obtain ⟨enough, below⟩ := taken_usable allHold small taken
    constructor
    · intro honest
      left
      have least : nitems.toNat * size.toNat ≤ usable after ptr := (honest taken.ptr_ne_zero).1
      omega
    · rintro (isSmall | refuses) _
      · rw [product_of_small isSmall] at enough cleared
        exact ⟨enough, cleared⟩
      · exact absurd serves refuses

theorem realloc_enough_iff {state : MemoryState} (allHold : AllHold state.client) {ptr : Nat}
    {size : UInt64} (legal : Legal state (.realloc ptr size)) :
    ∃ new after, tklSystemRealloc state.memory ptr size = some (new, after) ∧
      ((new ≠ 0 → size.toNat ≤ usable after.heap new) ↔
        ResizesHonestly state.memory ptr size) := by
  unfold tklSystemRealloc ResizesHonestly
  rcases legal with rfl | ⟨slot, through, live⟩
  · obtain ⟨new, after, isResult, iff_⟩ :=
      request_enough_iff allHold state.memory.sHeapHandle size
    have isRealloc : tuyaMemHeapRealloc state.memory.heap state.memory.sHeapHandle 0
        size.toUInt32 = some (new, after) := isResult
    refine ⟨new, { state.memory with heap := after }, ?_, ?_⟩
    · simp only [isRealloc, Option.map_some]
    · rw [if_pos rfl]
      exact iff_
  · have nonzero : ptr ≠ 0 := by
      obtain ⟨-, block, -, -, rfl, -⟩ := allHold.block live
      omega
    have sizes := allHold.blockSize_bounds live
    have sameHeap : state.client.system = state.memory.heap := rfl
    rw [if_neg nonzero]
    rw [sameHeap] at sizes
    rcases allHold.realloc_cases through live size.toUInt32 with
      ⟨large, isKept⟩ | ⟨short, refuses, isNull⟩ |
        ⟨short, serves, new, final, taker, newNonzero, isMoved, inLedger, transfers⟩
    · rw [sameHeap] at large isKept
      refine ⟨ptr, state.memory, by simp only [isKept, Option.map_some], ?_⟩
      constructor
      · intro honest
        left
        have least := honest nonzero
        unfold usable at least
        omega
      · rintro (isSmall | ⟨short, -⟩) _
        · have isSize := toUInt32_of_small (show size.toNat < 2 ^ 32 by omega)
          have notLast : size.toUInt32.toNat ≠ 2 ^ 32 - 1 := by omega
          rw [reallocBlock_eq notLast, isSize, chunkSize_eq (by omega)] at large
          unfold usable
          omega
        · exact absurd large (not_le_of_gt short)
    · rw [sameHeap] at short refuses isNull
      refine ⟨0, state.memory, by simp only [isNull, Option.map_some], ?_⟩
      exact ⟨fun _ => Or.inr ⟨short, refuses⟩, fun _ zero => absurd rfl zero⟩
    · rw [sameHeap] at short serves isMoved
      have promised := live_usable (transfers.allHold allHold) inLedger
      simp only [reallocated_system] at promised
      refine ⟨new, { state.memory with heap := final }, by simp only [isMoved, Option.map_some], ?_⟩
      constructor
      · intro honest
        left
        have least : size.toNat ≤ usable final new := honest newNonzero
        omega
      · rintro (isSmall | ⟨-, refuses⟩) _
        · have isSize := toUInt32_of_small (show size.toNat < 2 ^ 32 by omega)
          show size.toNat ≤ usable final new
          omega
        · exact absurd serves refuses

end Sizes

/-- In every state that legal calls reach: an allocation has the bytes that were
asked for, and a cleared one has them cleared, exactly when the request fits in
32 bits or is refused; a resize needs one less than that. -/
theorem allocations_hold_request_iff (memory : Memory) {calls : List MemoryCall}
    (legal : EveryStep step Legal (MemoryState.initial memory) calls) :
    ∃ state, run step (MemoryState.initial memory) calls = some state ∧
      (∀ size buf, Legal state (.malloc size buf) →
        ∃ ptr after, tklSystemMalloc state.memory size buf = some (ptr, after) ∧
          ((ptr ≠ 0 → size.toNat ≤ usable after.heap ptr) ↔
            (size.toNat < 2 ^ 32 ∨ ¬ Serves (ready state.memory buf).heap
              (ready state.memory buf).sHeapHandle size.toUInt32))) ∧
      (∀ nitems size,
        ∃ ptr after, tklSystemCalloc state.memory nitems size = some (ptr, after) ∧
          ((ptr ≠ 0 → nitems.toNat * size.toNat ≤ usable after.heap ptr ∧
              ∀ i < nitems.toNat * size.toNat, after.heap.memory (ptr + i) = 0) ↔
            (nitems.toNat * size.toNat < 2 ^ 32 ∨ ¬ Serves state.memory.heap
              state.memory.sHeapHandle (nitems * size).toUInt32))) ∧
      ∀ ptr size, Legal state (.realloc ptr size) →
        ∃ new after, tklSystemRealloc state.memory ptr size = some (new, after) ∧
          ((new ≠ 0 → size.toNat ≤ usable after.heap new) ↔
            ResizesHonestly state.memory ptr size) := by
  have start : AllHold (MemoryState.initial memory).client := allHold_initial memory
  obtain ⟨state, ran, allHold⟩ := run_client start legal
  refine ⟨state, ran, ?_, ?_, ?_⟩
  · exact fun size buf isLegal => malloc_enough_iff allHold size isLegal
  · exact fun nitems size => calloc_enough_iff allHold nitems size
  · exact fun ptr size isLegal => realloc_enough_iff allHold isLegal

/-- A first allocation, a cleared one and a resize of the first. -/
def someCalls : List MemoryCall :=
  [.malloc 16 1048576, .calloc 3 5, .realloc 537919464 40, .free 537919440]

theorem allocations_hold_request_after_some_calls :
    ∃ state, run step (MemoryState.initial fun _ => 0) someCalls = some state ∧
      ∀ nitems size,
        ∃ ptr after, tklSystemCalloc state.memory nitems size = some (ptr, after) ∧
          ((ptr ≠ 0 → nitems.toNat * size.toNat ≤ usable after.heap ptr ∧
              ∀ i < nitems.toNat * size.toNat, after.heap.memory (ptr + i) = 0) ↔
            (nitems.toNat * size.toNat < 2 ^ 32 ∨ ¬ Serves state.memory.heap
              state.memory.sHeapHandle (nitems * size).toUInt32)) := by
  obtain ⟨state, ran, -, cleared, -⟩ := allocations_hold_request_iff (fun _ => 0)
    (show EveryStep step Legal (MemoryState.initial fun _ => 0) someCalls by decide +kernel)
  exact ⟨state, ran, cleared⟩

/-- Requests of 4 GiB and some bytes, and a resize to the largest 32-bit size,
are answered with small blocks. -/
theorem huge_requests_get_small_blocks :
    let one := tklSystemMalloc (MemoryState.initial fun _ => 0).memory 4294967297 1048576
    one.map (fun result => (result.1, usable result.2.heap result.1)) = some (537919480, 7) ∧
      (one.bind fun result => tklSystemCalloc result.2 65536 65537).map
        (fun result => (result.1, usable result.2.heap result.1)) = some (537853928, 65543) ∧
      (one.bind fun result => tklSystemRealloc result.2 result.1 4294967295).map
        (fun result => (result.1, usable result.2.heap result.1)) = some (537919480, 7) := by
  decide +kernel

end TuyaAdapter.TklMemory
