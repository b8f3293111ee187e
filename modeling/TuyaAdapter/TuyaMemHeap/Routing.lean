import TuyaAdapter.TuyaMemHeap.ManyRuns

/-!
Contract: calls through the null handle against calls through a heap's own
handle.

The loops over `mem_heap_list` take an unused slot for the end of the table,
and a deletion may leave one anywhere. A heap is served through the null handle
exactly when no slot before it is unused.
-/

namespace TuyaAdapter.TuyaMemHeap

open Foundation Foundation.ByteMemory Foundation.Run
open Foundation.MachineWord (add sub)

/-- `tuya_mem_heap_malloc` returns a block. -/
def Grants (system : HeapSystem) (handle : Option Slot) (size : UInt32) : Prop :=
  ∃ ptr after, tuyaMemHeapMalloc system handle size = some (ptr, after) ∧ ptr ≠ 0

/-- A live heap with more than `size + MEM_BLOCK_MIN_SIZE` free bytes that grants
the request through its own handle. -/
def Candidate (system : HeapSystem) (size : UInt32) (slot : Slot) : Prop :=
  0 < (system.heapList slot).size ∧
    size.toNat + memBlockMinSize < (system.heapList slot).free ∧ Grants system (some slot) size

/-- A request that some heap can serve is served through the null handle. -/
def MallocRouted (system : HeapSystem) (size : UInt32) : Prop :=
  (∃ slot, Candidate system size slot) → Grants system none size

/-- A free through the null handle does what the free through the heap's handle
does. -/
def FreeRouted (system : HeapSystem) (slot : Slot) (ptr : Nat) : Prop :=
  tuyaMemHeapFree system none ptr = tuyaMemHeapFree system (some slot) ptr

section Routing

variable {state : ClientState} {slot : Slot} {ptr : Nat}

theorem AllHold.grants_iff (allHold : AllHold state) (handle : Option Slot) (size : UInt32) :
    Grants state.system handle size ↔ Serves state.system handle size := by
  rcases allHold.malloc_cases handle size (le_refl _) with
    ⟨refuses, isNull⟩ | ⟨serves, slot, ptr, after, -, isBlock, taken⟩
  · constructor
    · rintro ⟨ptr, after, isBlock, nonzero⟩
      rw [isNull] at isBlock
      exact absurd (Prod.mk.inj (Option.some.inj isBlock)).1.symm nonzero
    · exact fun serves => absurd serves refuses
  · exact ⟨fun _ => serves, fun _ => ⟨ptr, after, isBlock, taken.ptr_ne_zero⟩⟩

/-- The comparison of the loop, made in `unsigned int`, admits every candidate. -/
theorem wrapped_le (size : UInt32) :
    (size + UInt32.ofNat memBlockMinSize).toNat ≤ size.toNat + memBlockMinSize := by
  rw [UInt32.toNat_add]
  exact Nat.mod_le _ _

/-- When the comparison of the loop admits a heap that fits the request, the heap
is a candidate, unless the sum exceeds every heap. -/
theorem AllHold.candidate_of_serves (allHold : AllHold state) {size : UInt32}
    (fitting : size.toNat + memBlockMinSize < 2 ^ 32) (reached : Reached state.system slot)
    (enough : (size + UInt32.ofNat memBlockMinSize).toNat < (state.system.heapList slot).free)
    (fits : Fits state.system slot size.toNat) : Candidate state.system size slot := by
  have exact_ : (size + UInt32.ofNat memBlockMinSize).toNat = size.toNat + memBlockMinSize := by
    rw [UInt32.toNat_add]
    exact Nat.mod_eq_of_lt fitting
  rw [exact_] at enough
  exact ⟨reached.live, enough, (allHold.grants_iff (some slot) size).mpr fits⟩

theorem AllHold.mallocRouted_iff (allHold : AllHold state) (size : UInt32) :
    MallocRouted state.system size ↔
      ((∃ slot, Candidate state.system size slot) →
        ∃ slot, Candidate state.system size slot ∧ Reached state.system slot) := by
  unfold MallocRouted
  rw [allHold.grants_iff none size]
  constructor
  · rintro routed ⟨any, candidate⟩
    have fitting := Nat.lt_trans candidate.2.1 (allHold.free_lt any)
    obtain ⟨slot, reached, enough, fits⟩ := routed ⟨any, candidate⟩
    exact ⟨slot, allHold.candidate_of_serves fitting reached enough fits, reached⟩
  · rintro reachedOne some_
    obtain ⟨slot, ⟨-, enough, grants⟩, reached⟩ := reachedOne some_
    have fits := (allHold.grants_iff (some slot) size).mp grants
    exact ⟨slot, reached, Nat.lt_of_le_of_lt (wrapped_le size) enough, fits⟩

theorem AllHold.freeRouted_iff (allHold : AllHold state) (live : LivePointer state slot ptr) :
    FreeRouted state.system slot ptr ↔ Reached state.system slot := by
  have isTarget := allHold.freeTarget_eq (Or.inl rfl) live
  simp only [true_and] at isTarget
  unfold FreeRouted
  rw [tuyaMemHeapFree_eq, isTarget]
  by_cases reached : Reached state.system slot
  · rw [if_neg (not_not_intro reached)]
    exact ⟨fun _ => reached, fun _ => rfl⟩
  · rw [if_pos reached]
    refine ⟨fun same => ?_, fun isReached => absurd isReached reached⟩
    -- The heap's own free adds the size of the block to its free bytes.
    obtain ⟨after, isFreed, given⟩ := allHold.memDeallocate_live live
    obtain ⟨left, block, right, left', joined, right', -, positive, surrendered⟩ := given
    have isSame : some state.system = some after := same.trans isFreed
    have grown := surrendered.free
    rw [← Option.some.inj isSame] at grown
    omega

end Routing

/-- After every run of creations, deletions, allocations and frees over disjoint
regions: the free of a live pointer through the null handle agrees with the free
through the handle of its heap exactly when no slot up to the heap is unused, and
requests are routed exactly when one of the heaps that can serve them is
reached. -/
theorem nullHandle_routes_iff_reached (memory : Memory) {calls : List Call}
    (legal : EveryStep step LegalCall ⟨HeapSystem.initial memory, fun _ => []⟩ calls)
    (roomy : EveryStep step Roomy ⟨HeapSystem.initial memory, fun _ => []⟩ calls) :
    ∃ final, run step ⟨HeapSystem.initial memory, fun _ => []⟩ calls = some final ∧
      (∀ slot ptr, LivePointer final slot ptr →
        (FreeRouted final.system slot ptr ↔ Reached final.system slot)) ∧
      ∀ size, MallocRouted final.system size ↔
        ((∃ slot, Candidate final.system size slot) →
          ∃ slot, Candidate final.system size slot ∧ Reached final.system slot) := by
  obtain ⟨final, ran, allHold⟩ := run_allHold (allHold_initial memory) legal roomy
  exact ⟨final, ran, fun slot ptr live => allHold.freeRouted_iff live,
    fun size => allHold.mallocRouted_iff size⟩

/-- Two heaps and an allocation from the second. -/
def twoHeaps : List Call := [.create 4096 256, .create 8192 256, .malloc (some 1) 1]

theorem nullHandle_routes_two_heaps :
    ∃ final, run step ⟨HeapSystem.initial fun _ => 0, fun _ => []⟩ twoHeaps = some final ∧
      (∀ slot ptr, LivePointer final slot ptr →
        (FreeRouted final.system slot ptr ↔ Reached final.system slot)) ∧
      ∀ size, MallocRouted final.system size ↔
        ((∃ slot, Candidate final.system size slot) →
          ∃ slot, Candidate final.system size slot ∧ Reached final.system slot) :=
  nullHandle_routes_iff_reached (fun _ => 0) (by decide +kernel) (by decide +kernel)

/-- Once the first heap is deleted, the second is out of reach: its pointer is
not freed through the null handle and its free bytes are not given out. -/
theorem nullHandle_misses_heap_behind_hole :
    ∃ final, run step ⟨HeapSystem.initial fun _ => 0, fun _ => []⟩
        (twoHeaps ++ [.delete (some 0)]) = some final ∧
      LivePointer final 1 8440 ∧
      (tuyaMemHeapFree final.system none 8440).map (fun after => (after.heapList 1).free) =
        some 240 ∧
      (tuyaMemHeapFree final.system (some 1) 8440).map (fun after => (after.heapList 1).free) =
        some 256 ∧
      (final.system.heapList 1).free > 1 + 24 ∧
      (tuyaMemHeapMalloc final.system (some 1) 1).map Prod.fst = some 8424 ∧
      (tuyaMemHeapMalloc final.system none 1).map Prod.fst = some 0 := by
  refine ⟨_, rfl, ?_, ?_, ?_, ?_, ?_, ?_⟩
  · decide +kernel
  · decide +kernel
  · decide +kernel
  · decide +kernel
  · decide +kernel
  · decide +kernel

end TuyaAdapter.TuyaMemHeap
