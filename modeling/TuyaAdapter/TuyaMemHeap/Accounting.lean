import Mathlib.Algebra.Group.Action.Defs
import Mathlib.Algebra.Order.BigOperators.Group.Finset
import Mathlib.Data.Fintype.BigOperators
import TuyaAdapter.TuyaMemHeap.ManyRuns

/-!
Contract: `s_heap_free_size` and the free bytes of the live heaps.

The counter of all heaps follows the counters of the single heaps through every
creation, allocation and free. `MEM_HeapDelete` clears a slot without taking
its free bytes off the counter, so the books balance along a run as long as no
heap is deleted that still has free bytes.
-/

namespace TuyaAdapter.TuyaMemHeap

open Foundation Foundation.ByteMemory Foundation.Run
open Foundation.MachineWord (add sub)

/-- The free bytes of the live heaps. -/
def liveFree (system : HeapSystem) : Nat :=
  ∑ slot, if 0 < (system.heapList slot).size then (system.heapList slot).free else 0

/-- The counter of all heaps is the sum of theirs, and its watermark is not
above it. -/
def Accounted (state : ClientState) : Prop :=
  tuyaMemHeapAvailable state.system none = liveFree state.system ∧
    state.system.heapFreeSizeWatermark ≤ state.system.heapFreeSize

instance (state : ClientState) : Decidable (Accounted state) :=
  inferInstanceAs (Decidable (_ ∧ _))

/-- The call does not delete a heap with free bytes, and does not create one on
a region without an aligned address. -/
def KeepsBooks (state : ClientState) : Call → Prop
  | .delete (some slot) => (state.system.heapList slot).free = 0
  | call => Roomy state call

instance (state : ClientState) : ∀ call, Decidable (KeepsBooks state call)
  | .delete (some slot) => inferInstanceAs (Decidable ((state.system.heapList slot).free = 0))
  | .delete none => inferInstanceAs (Decidable (Roomy state (.delete none)))
  | .create startAddr size => inferInstanceAs (Decidable (Roomy state (.create startAddr size)))
  | .malloc _ _ => isTrue trivial
  | .calloc _ _ => isTrue trivial
  | .debugMalloc _ _ _ _ => isTrue trivial
  | .realloc _ _ _ => isTrue trivial
  | .free _ _ => isTrue trivial
  | .store _ _ => isTrue trivial

theorem KeepsBooks.roomy {state : ClientState} {call : Call} (keeps : KeepsBooks state call) :
    Roomy state call := by
  cases call with
  | delete handle => trivial
  | _ => exact keeps

/-! ## Sums over slots -/

section Sums

variable {state next : ClientState} {slot : Slot}

theorem AllHold.liveFree_eq (allHold : AllHold state) :
    liveFree state.system = ∑ slot, (state.system.heapList slot).free := by
  apply Finset.sum_congr rfl
  intro slot _
  split
  · rfl
  · exact (allHold.unused slot (by omega)).2.1.symm

theorem AllHold.liveFree_lt (allHold : AllHold state) : liveFree state.system < 2 ^ 40 := by
  have bounded : ∑ slot : Slot, (state.system.heapList slot).free ≤ ∑ _slot : Slot, 2 ^ 32 :=
    Finset.sum_le_sum fun slot _ => le_of_lt (allHold.free_lt slot)
  rw [allHold.liveFree_eq]
  simp only [Finset.sum_const, Finset.card_univ, Fintype.card_fin, smul_eq_mul,
    memHeapListNum] at bounded
  omega

/-- When one slot changes, the sums differ by what that slot has. -/
theorem sum_change (before after : Slot → Nat) (slot : Slot)
    (elsewhere : ∀ other, other ≠ slot → after other = before other) :
    ∑ other, after other + before slot = ∑ other, before other + after slot := by
  have rest : ∑ other ∈ Finset.univ.erase slot, after other =
      ∑ other ∈ Finset.univ.erase slot, before other :=
    Finset.sum_congr rfl fun other member => elsewhere other (Finset.ne_of_mem_erase member)
  have splitAfter := Finset.add_sum_erase Finset.univ after (Finset.mem_univ slot)
  have splitBefore := Finset.add_sum_erase Finset.univ before (Finset.mem_univ slot)
  omega

theorem liveFree_change (allHold : AllHold state) (nextHold : AllHold next)
    (elsewhere : ∀ other, other ≠ slot →
      next.system.heapList other = state.system.heapList other) :
    liveFree next.system + (state.system.heapList slot).free =
      liveFree state.system + (next.system.heapList slot).free := by
  rw [allHold.liveFree_eq, nextHold.liveFree_eq]
  apply sum_change (fun other => (state.system.heapList other).free)
    (fun other => (next.system.heapList other).free)
  intro other different
  rw [elsewhere other different]

theorem AllHold.free_le_liveFree (allHold : AllHold state) (slot : Slot) :
    (state.system.heapList slot).free ≤ liveFree state.system := by
  rw [allHold.liveFree_eq]
  exact Finset.single_le_sum (f := fun other => (state.system.heapList other).free)
    (fun _ _ => Nat.zero_le _) (Finset.mem_univ slot)

/-! ## Steps -/

theorem Transfer.accounted (transfer : Transfer slot state next) (allHold : AllHold state)
    (accounted : Accounted state) : Accounted next := by
  have nextHold := transfer.allHold allHold
  have changed := liveFree_change allHold nextHold transfer.confined.elsewhere
  have bounded := allHold.liveFree_lt
  have nextBounded := nextHold.liveFree_lt
  have part := allHold.free_le_liveFree slot
  obtain ⟨isTotal, below⟩ := accounted
  have isSum : state.system.heapFreeSize = liveFree state.system := isTotal
  cases transfer.booked with
  | taken bytes free total totalWatermark =>
      rw [MachineWord.sub_of_le (by omega) (by omega)] at total
      refine ⟨?_, ?_⟩
      · show next.system.heapFreeSize = _
        omega
      · rw [totalWatermark]
        exact min_le_right _ _
  | returned bytes free total totalWatermark =>
      rw [MachineWord.add_of_lt (by omega)] at total
      refine ⟨?_, ?_⟩
      · show next.system.heapFreeSize = _
        omega
      · omega
  | same free total totalWatermark =>
      refine ⟨?_, ?_⟩
      · show next.system.heapFreeSize = _
        omega
      · omega

theorem Transfers.accounted (transfers : Transfers state next) (allHold : AllHold state)
    (accounted : Accounted state) : Accounted next := by
  induction transfers with
  | refl => exact accounted
  | tail early last inductionHypothesis =>
      obtain ⟨slot, transfer⟩ := last
      exact transfer.accounted (Transfers.allHold early allHold) inductionHypothesis

theorem Result.accounted {call : Call} (result : Result state call next)
    (legal : LegalCall state call) (keeps : KeepsBooks state call) (allHold : AllHold state)
    (accounted : Accounted state) : Accounted next := by
  have nextHold := result.allHold legal allHold
  have bounded := allHold.liveFree_lt
  have nextBounded := nextHold.liveFree_lt
  obtain ⟨isTotal, below⟩ := accounted
  have isSum : state.system.heapFreeSize = liveFree state.system := isTotal
  cases result with
  | created made nonempty =>
      rename_i size slot after
      have changed := liveFree_change allHold nextHold made.elsewhere
      have wasEmpty := (allHold.unused slot made.unused).2.1
      have total := made.total
      have mark := made.totalWatermark
      simp only at changed nextBounded
      rw [MachineWord.add_of_lt (by omega)] at total
      refine ⟨?_, le_of_eq mark⟩
      show after.heapFreeSize = liveFree after
      omega
  | refused failed =>
      rename_i size after
      have same : liveFree after = liveFree state.system := by
        have isNext := nextHold.liveFree_eq
        simp only at isNext
        rw [isNext, allHold.liveFree_eq]
        apply Finset.sum_congr rfl
        intro slot _
        rcases failed.heaps slot with isSame | ⟨-, base, isBase⟩
        · rw [isSame]
        · rw [isBase]
      refine ⟨?_, ?_⟩
      · show after.heapFreeSize = liveFree after
        rw [failed.total, same, isSum]
      · show after.heapFreeSizeWatermark ≤ after.heapFreeSize
        rw [failed.total, failed.totalWatermark]
        exact below
  | deleted slot =>
      have wasEmpty : (state.system.heapList slot).free = 0 := keeps
      have elsewhere : ∀ other, other ≠ slot →
          (state.system.setHeap slot MemHeap.zeroed).heapList other =
            state.system.heapList other := by
        intro other different
        simp [HeapSystem.setHeap, different]
      have changed := liveFree_change allHold nextHold elsewhere
      have isEmpty : ((state.system.setHeap slot MemHeap.zeroed).heapList slot).free = 0 := by
        simp [HeapSystem.setHeap, MemHeap.zeroed]
      simp only at changed
      refine ⟨?_, below⟩
      show state.system.heapFreeSize = liveFree (state.system.setHeap slot MemHeap.zeroed)
      omega
  | deletedNone => exact ⟨isTotal, below⟩
  | moved transfers => exact transfers.accounted allHold ⟨isTotal, below⟩

end Sums

/-! ## Runs -/

/-- From the start on, in every state of a run that deletes no heap with free
bytes, the counter of all heaps is the sum of theirs. -/
theorem heapFreeSize_accounts_for_live_heaps (memory : Memory) {calls : List Call}
    (legal : EveryStep step LegalCall ⟨HeapSystem.initial memory, fun _ => []⟩ calls)
    (keeps : EveryStep step KeepsBooks ⟨HeapSystem.initial memory, fun _ => []⟩ calls) :
    (∃ final, run step ⟨HeapSystem.initial memory, fun _ => []⟩ calls = some final) ∧
      EveryState step Accounted ⟨HeapSystem.initial memory, fun _ => []⟩ calls := by
  have start := allHold_initial memory
  have roomy := EveryStep.mono (fun _ _ isKept => KeepsBooks.roomy isKept) keeps
  obtain ⟨final, ran, -⟩ := run_allHold start legal roomy
  have initially : Accounted ⟨HeapSystem.initial memory, fun _ => []⟩ := by
    refine ⟨?_, le_refl _⟩
    rw [start.liveFree_eq]
    simp [HeapSystem.initial, MemHeap.zeroed, tuyaMemHeapAvailable]
  have everywhere : EveryState step (fun state => AllHold state ∧ Accounted state)
      ⟨HeapSystem.initial memory, fun _ => []⟩ calls := by
    apply everyState_of_everyStep _ ⟨start, initially⟩ legal keeps
    rintro state call next ⟨allHold, accounted⟩ isLegal isKept stepped
    obtain ⟨other, isStep, result⟩ := step_result allHold isLegal isKept.roomy
    rw [stepped] at isStep
    obtain rfl := Option.some.inj isStep
    exact ⟨result.allHold isLegal allHold, result.accounted isLegal isKept allHold accounted⟩
  exact ⟨⟨final, ran⟩, everywhere.mono fun _ both => both.2⟩

/-- Two heaps, one of which is used up and deleted. -/
theorem heapFreeSize_accounts_after_delete :
    EveryState step Accounted ⟨HeapSystem.initial fun _ => 0, fun _ => []⟩
      [.create 4096 32, .create 8192 256, .malloc none 4, .malloc (some 1) 4,
        .realloc (some 1) 8440 40, .delete (some 0)] :=
  (heapFreeSize_accounts_for_live_heaps (fun _ => 0) (by decide +kernel) (by decide +kernel)).2

/-- A heap deleted with all its bytes free leaves them on the counter. -/
theorem heapFreeSize_stays_after_delete :
    ∃ final, run step ⟨HeapSystem.initial fun _ => 0, fun _ => []⟩
        [.create 4096 256, .delete (some 0)] = some final ∧
      tuyaMemHeapAvailable final.system none = 256 ∧ liveFree final.system = 0 := by
  refine ⟨_, rfl, ?_, ?_⟩
  · decide +kernel
  · decide +kernel

end TuyaAdapter.TuyaMemHeap
