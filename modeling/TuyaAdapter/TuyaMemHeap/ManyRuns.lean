import TuyaAdapter.TuyaMemHeap.Reallocate

/-!
Contract: runs of the public interface over any number of heaps.

`LegalCall` admits the calls that clients may make: heaps are created on regions
that share no byte with a live heap, and only live pointers are freed or
reallocated, through the null handle or the handle they came from. `Roomy`
leaves out one defect: a region that ends before its first aligned address makes
the size computation of `mem_heap_init` wrap. Every such call returns with one
of the results of `Result` and keeps `AllHold`.
-/

namespace TuyaAdapter.TuyaMemHeap

open Foundation Foundation.ByteMemory Foundation.LinkedPath Foundation.Tiling Foundation.Run
open Foundation.MachineWord (add sub)

/-! ## Calls of clients -/

instance (handle : Option Slot) (slot : Slot) : Decidable (Through handle slot) :=
  inferInstanceAs (Decidable (_ ∨ _))

/-- The pointer is live in a slot that the handle may stand for. -/
def OwnedThrough (state : ClientState) (handle : Option Slot) (ptr : Nat) : Prop :=
  ∃ slot, Through handle slot ∧ LivePointer state slot ptr

instance (state : ClientState) (handle : Option Slot) (ptr : Nat) :
    Decidable (OwnedThrough state handle ptr) :=
  inferInstanceAs (Decidable (∃ slot, Through handle slot ∧ LivePointer state slot ptr))

/-- The region lies in the address space and holds no byte of a live heap. -/
def FreeRegion (system : HeapSystem) (startAddr size : Nat) : Prop :=
  startAddr + size ≤ addressLimit ∧
    (size = 0 ∨ ∀ slot, 0 < (system.heapList slot).size →
      (system.heapList slot).base + (system.heapList slot).size ≤ startAddr ∨
        startAddr + size ≤ (system.heapList slot).base)

instance (system : HeapSystem) (startAddr size : Nat) :
    Decidable (FreeRegion system startAddr size) :=
  inferInstanceAs (Decidable (_ ∧ _))

def LegalCall (state : ClientState) : Call → Prop
  | .create startAddr size => FreeRegion state.system startAddr size.toNat
  | .realloc handle ptr _ => ptr = 0 ∨ OwnedThrough state handle ptr
  | .free handle ptr => ptr = 0 ∨ OwnedThrough state handle ptr
  | .store address _ => ∃ slot, RequestedByte state slot address
  | _ => True

instance (state : ClientState) : ∀ call, Decidable (LegalCall state call)
  | .create startAddr size =>
      inferInstanceAs (Decidable (FreeRegion state.system startAddr size.toNat))
  | .realloc handle ptr _ => inferInstanceAs (Decidable (ptr = 0 ∨ OwnedThrough state handle ptr))
  | .free handle ptr => inferInstanceAs (Decidable (ptr = 0 ∨ OwnedThrough state handle ptr))
  | .store address _ => inferInstanceAs (Decidable (∃ slot, RequestedByte state slot address))
  | .delete _ => isTrue trivial
  | .malloc _ _ => isTrue trivial
  | .calloc _ _ => isTrue trivial
  | .debugMalloc _ _ _ _ => isTrue trivial

/-- A region for a heap reaches its first aligned address, unless the call fails
for another reason. -/
def Roomy (state : ClientState) : Call → Prop
  | .create startAddr size =>
      startAddr = 0 ∨ size.toNat = 0 ∨ (∀ slot, 0 < (state.system.heapList slot).size) ∨
        alignUp startAddr ≤ startAddr + size.toNat
  | _ => True

instance (state : ClientState) : ∀ call, Decidable (Roomy state call)
  | .create startAddr size => inferInstanceAs (Decidable
      (startAddr = 0 ∨ size.toNat = 0 ∨ (∀ slot, 0 < (state.system.heapList slot).size) ∨
        alignUp startAddr ≤ startAddr + size.toNat))
  | .delete _ => isTrue trivial
  | .malloc _ _ => isTrue trivial
  | .calloc _ _ => isTrue trivial
  | .debugMalloc _ _ _ _ => isTrue trivial
  | .realloc _ _ _ => isTrue trivial
  | .free _ _ => isTrue trivial
  | .store _ _ => isTrue trivial

/-- What a call can do. -/
inductive Result (state : ClientState) : Call → ClientState → Prop
  | created {startAddr : Nat} {size : UInt32} {slot : Slot} {after : HeapSystem}
      (made : Created state.system slot startAddr size.toNat after) (nonempty : size.toNat ≠ 0) :
      Result state (.create startAddr size) ⟨after, Function.update state.ledger slot []⟩
  | refused {startAddr : Nat} {size : UInt32} {after : HeapSystem}
      (failed : Refused state.system after) :
      Result state (.create startAddr size) { state with system := after }
  | deleted (slot : Slot) :
      Result state (.delete (some slot))
        ⟨state.system.setHeap slot MemHeap.zeroed, Function.update state.ledger slot []⟩
  | deletedNone : Result state (.delete none) state
  | moved {call : Call} {next : ClientState} (transfers : Transfers state next) :
      Result state call next

section Results

variable {state next : ClientState} {call : Call}

/-- A creation fails, or makes a heap on the region. -/
theorem create_cases {startAddr : Nat} {size : UInt32}
    (legal : FreeRegion state.system startAddr size.toNat)
    (roomy : Roomy state (.create startAddr size)) :
    (∃ after, step state (.create startAddr size) = some { state with system := after } ∧
        Refused state.system after) ∨
      ∃ slot after, step state (.create startAddr size) =
          some ⟨after, Function.update state.ledger slot []⟩ ∧
        Created state.system slot startAddr size.toNat after ∧ size.toNat ≠ 0 := by
  cases isCreate : tuyaMemHeapCreate state.system startAddr size with
  | mk handle after =>
      cases handle with
      | none =>
          have failed : Refused state.system after := memHeapCreate_refused isCreate
          exact Or.inl ⟨after, by simp only [step, isCreate], failed⟩
      | some slot =>
          have nonempty : ¬(startAddr = 0 ∨ size.toNat = 0) := by
            intro isEmpty
            unfold tuyaMemHeapCreate memHeapCreate at isCreate
            rw [if_pos isEmpty] at isCreate
            exact absurd (Prod.mk.inj isCreate).1 (by simp)
          have hasUnused : ¬ ∀ slot, 0 < (state.system.heapList slot).size := by
            intro allLive
            have noUnused : firstUnused state.system = none := by
              unfold firstUnused
              rw [List.find?_eq_none]
              intro slot _ isUnused
              have isZero := of_decide_eq_true isUnused
              have positive := allLive slot
              omega
            unfold tuyaMemHeapCreate memHeapCreate at isCreate
            rw [if_neg nonempty, noUnused] at isCreate
            exact absurd (Prod.mk.inj isCreate).1 (by simp)
          have padded : alignUp startAddr ≤ startAddr + size.toNat := by
            rcases roomy with isNull | isEmpty | allLive | padded
            · exact absurd (Or.inl isNull) nonempty
            · exact absurd (Or.inr isEmpty) nonempty
            · exact absurd allLive hasUnused
            · exact padded
          have made := memHeapCreate_spec isCreate legal.1 padded
          exact Or.inr ⟨slot, after, by simp only [step, isCreate], made,
            fun isEmpty => nonempty (Or.inr isEmpty)⟩

theorem create_result {startAddr : Nat} {size : UInt32}
    (legal : FreeRegion state.system startAddr size.toNat)
    (roomy : Roomy state (.create startAddr size)) :
    ∃ next, step state (.create startAddr size) = some next ∧
      Result state (.create startAddr size) next := by
  rcases create_cases legal roomy with
    ⟨after, stepped, failed⟩ | ⟨slot, after, stepped, made, nonempty⟩
  · exact ⟨_, stepped, Result.refused failed⟩
  · exact ⟨_, stepped, Result.created made nonempty⟩

theorem realloc_null (state : ClientState) (handle : Option Slot) (size : UInt32) :
    step state (.realloc handle 0 size) = step state (.malloc handle size) := by
  simp only [step, tuyaMemHeapRealloc, if_true]
  congr 1
  funext result
  unfold ClientState.reallocated ClientState.enter
  by_cases isNull : result.1 = 0
  · rw [if_pos isNull, if_pos isNull]
  · rw [if_neg isNull, if_pos rfl]

theorem realloc_result (allHold : AllHold state) {handle : Option Slot} {slot : Slot} {ptr : Nat}
    (through : Through handle slot) (live : LivePointer state slot ptr) (size : UInt32) :
    ∃ next, step state (.realloc handle ptr size) = some next ∧ Transfers state next := by
  have sizes := allHold.blockSize_bounds live
  have nonzero : ptr ≠ 0 := by
    obtain ⟨-, block, -, -, rfl, -⟩ := allHold.block live
    omega
  rcases allHold.realloc_cases through live size with
    ⟨-, isKept⟩ | ⟨-, -, isNull⟩ | ⟨-, -, new, final, taker, -, isMoved, -, transfers⟩
  · have resized := allHold.resize_transfer live
      (show min size.toNat (blockSize state.system.memory (ptr - 8) - 9) + 9 ≤ _ by omega)
    refine ⟨_, ?_, Transfers.one resized⟩
    simp only [step, isKept, Option.map_some, ClientState.reallocated, if_neg nonzero, if_true]
  · refine ⟨state, ?_, Relation.ReflTransGen.refl⟩
    simp only [step, isNull, Option.map_some, ClientState.reallocated, if_true]
  · refine ⟨_, ?_, transfers⟩
    simp only [step, isMoved, Option.map_some]

theorem AllHold.live_of_requested (allHold : AllHold state) {slot : Slot} {address : Nat}
    (requested : RequestedByte state slot address) : 0 < (state.system.heapList slot).size := by
  obtain ⟨allocation, inLedger, -⟩ := requested
  exact (allHold.inRegion_of_live ⟨allocation, inLedger, rfl⟩).1

/-- Every admitted call returns. -/
theorem step_result (allHold : AllHold state) (legal : LegalCall state call)
    (roomy : Roomy state call) : ∃ next, step state call = some next ∧ Result state call next := by
  cases call with
  | create startAddr size => exact create_result legal roomy
  | delete handle =>
      cases handle with
      | none => exact ⟨state, rfl, Result.deletedNone⟩
      | some slot => exact ⟨_, rfl, Result.deleted slot⟩
  | malloc handle size =>
      have cases_ := allHold.malloc_cases handle size (le_refl _)
      obtain ⟨next, stepped, transfers⟩ := allHold.request_transfers
        (cases_.imp And.right And.right)
      exact ⟨next, stepped, Result.moved transfers⟩
  | calloc handle size =>
      obtain ⟨next, stepped, transfers⟩ := allHold.request_transfers
        (allHold.calloc_taken handle size)
      exact ⟨next, stepped, Result.moved transfers⟩
  | debugMalloc handle size filename line =>
      obtain ⟨next, stepped, transfers⟩ := allHold.request_transfers
        (allHold.debugMalloc_cases handle size filename line)
      exact ⟨next, stepped, Result.moved transfers⟩
  | realloc handle ptr size =>
      rcases legal with rfl | ⟨slot, through, live⟩
      · have cases_ := allHold.malloc_cases handle size (le_refl _)
        obtain ⟨next, stepped, transfers⟩ := allHold.request_transfers
          (cases_.imp And.right And.right)
        exact ⟨next, (realloc_null state handle size).trans stepped, Result.moved transfers⟩
      · obtain ⟨next, stepped, transfers⟩ := realloc_result allHold through live size
        exact ⟨next, stepped, Result.moved transfers⟩
  | free handle ptr =>
      rcases legal with rfl | ⟨slot, through, live⟩
      · exact ⟨state, allHold.free_null handle, Result.moved Relation.ReflTransGen.refl⟩
      · obtain ⟨after, isFreed, transfers⟩ := allHold.free_transfers through live
        refine ⟨_, ?_, Result.moved transfers⟩
        simp only [step, isFreed, Option.map_some]
  | store address value =>
      obtain ⟨slot, requested⟩ := legal
      obtain ⟨layout, holds⟩ := allHold.live slot (allHold.live_of_requested requested)
      obtain ⟨block, member, owned, same⟩ := holds.storedBlock requested value
      exact ⟨_, rfl, Result.moved (Transfers.one (holds.rewrite_transfer member owned same))⟩

/-! ## Heaps that come and go -/

/-- A new heap does not touch the blocks of a live one. -/
theorem Created.agree_elsewhere {slot other : Slot} {startAddr : Nat} {size : UInt32}
    {after : HeapSystem} {ledger : List Allocation} {layout : List Segment}
    (made : Created state.system slot startAddr size.toNat after) (nonempty : size.toNat ≠ 0)
    (legal : FreeRegion state.system startAddr size.toNat)
    (holds : HeapHolds state.system.memory (state.system.heapList other) ledger layout) :
    AgreeOn after.memory state.system.memory (state.system.heapList other).low
      (state.system.heapList other).high := by
  have apart := (legal.2.resolve_left nonempty) other holds.live
  have inside := made.holds.inside
  rw [made.base, made.size] at inside
  have itsInside := holds.inside
  intro address lower upper
  apply made.outside
  omega

theorem Created.allHold {slot : Slot} {startAddr : Nat} {size : UInt32} {after : HeapSystem}
    (made : Created state.system slot startAddr size.toNat after) (nonempty : size.toNat ≠ 0)
    (legal : FreeRegion state.system startAddr size.toNat) (allHold : AllHold state) :
    AllHold ⟨after, Function.update state.ledger slot []⟩ := by
  have newApart : ∀ other, 0 < (state.system.heapList other).size →
      RegionsApart (after.heapList slot) (state.system.heapList other) := by
    intro other isLive
    unfold RegionsApart
    rw [made.base, made.size]
    rcases legal.2 with isEmpty | apart
    · exact absurd isEmpty nonempty
    · exact (apart other isLive).symm
  refine ⟨?_, ?_, ?_, ?_⟩
  · intro other isLive
    by_cases isSlot : other = slot
    · subst isSlot
      simp only [Function.update_self]
      exact ⟨_, made.holds⟩
    · simp only [made.elsewhere other isSlot] at isLive ⊢
      rw [Function.update_of_ne isSlot]
      obtain ⟨layout, holds⟩ := allHold.live other isLive
      exact ⟨layout, holds.of_agree (made.agree_elsewhere nonempty legal holds)⟩
  · intro other isUnused
    by_cases isSlot : other = slot
    · subst isSlot
      exact absurd (made.size.symm.trans isUnused) nonempty
    · simp only [made.elsewhere other isSlot] at isUnused ⊢
      rw [Function.update_of_ne isSlot]
      exact allHold.unused other isUnused
  · intro other
    by_cases isSlot : other = slot
    · subst isSlot
      show (after.heapList other).size < 2 ^ 32
      rw [made.size]
      exact size.toNat_lt
    · simp only [made.elsewhere other isSlot]
      exact allHold.small other
  · intro one other different oneLive otherLive
    by_cases isOne : one = slot
    · subst isOne
      simp only [made.elsewhere other (Ne.symm different)] at otherLive ⊢
      exact newApart other otherLive
    · by_cases isOther : other = slot
      · subst isOther
        simp only [made.elsewhere one isOne] at oneLive ⊢
        exact (newApart one oneLive).symm
      · simp only [made.elsewhere one isOne, made.elsewhere other isOther] at oneLive otherLive ⊢
        exact allHold.apart one other different oneLive otherLive

/-- A failed creation changes the base of an unused slot at most. -/
theorem Refused.allHold {after : HeapSystem} (failed : Refused state.system after)
    (allHold : AllHold state) : AllHold { state with system := after } := by
  have same : ∀ slot, 0 < (after.heapList slot).size →
      after.heapList slot = state.system.heapList slot := by
    intro slot isLive
    rcases failed.heaps slot with isSame | ⟨-, base, isUnused⟩
    · exact isSame
    · rw [isUnused] at isLive
      exact absurd isLive (Nat.lt_irrefl 0)
  refine ⟨?_, ?_, ?_, ?_⟩
  · intro slot isLive
    have isSame := same slot isLive
    simp only [isSame, failed.memory] at isLive ⊢
    exact allHold.live slot isLive
  · intro slot isUnused
    rcases failed.heaps slot with isSame | ⟨wasUnused, base, isBase⟩
    · simp only [isSame] at isUnused ⊢
      exact allHold.unused slot isUnused
    · simp only [isBase]
      exact allHold.unused slot wasUnused
  · intro slot
    rcases failed.heaps slot with isSame | ⟨-, base, isBase⟩
    · simp only [isSame]
      exact allHold.small slot
    · simp only [isBase]
      exact Nat.two_pow_pos 32
  · intro one other different oneLive otherLive
    have isOne := same one oneLive
    have isOther := same other otherLive
    simp only [isOne, isOther] at oneLive otherLive ⊢
    exact allHold.apart one other different oneLive otherLive

theorem AllHold.deleted (allHold : AllHold state) (slot : Slot) :
    AllHold ⟨state.system.setHeap slot MemHeap.zeroed, Function.update state.ledger slot []⟩ := by
  have here : (state.system.setHeap slot MemHeap.zeroed).heapList slot = MemHeap.zeroed := by
    simp [HeapSystem.setHeap]
  have elsewhere : ∀ other, other ≠ slot →
      (state.system.setHeap slot MemHeap.zeroed).heapList other = state.system.heapList other := by
    intro other different
    simp [HeapSystem.setHeap, different]
  have notSlot : ∀ other,
      0 < ((state.system.setHeap slot MemHeap.zeroed).heapList other).size → other ≠ slot := by
    rintro other isLive rfl
    rw [here] at isLive
    exact absurd isLive (Nat.lt_irrefl 0)
  refine ⟨?_, ?_, ?_, ?_⟩
  · intro other isLive
    have different := notSlot other isLive
    simp only [elsewhere other different] at isLive ⊢
    rw [Function.update_of_ne different]
    exact allHold.live other isLive
  · intro other isUnused
    by_cases isSlot : other = slot
    · subst isSlot
      exact ⟨congrArg MemHeap.freeList here, congrArg MemHeap.free here,
        Function.update_self _ _ _⟩
    · simp only [elsewhere other isSlot] at isUnused ⊢
      rw [Function.update_of_ne isSlot]
      exact allHold.unused other isUnused
  · intro other
    by_cases isSlot : other = slot
    · subst isSlot
      simp only [here]
      exact Nat.two_pow_pos 32
    · simp only [elsewhere other isSlot]
      exact allHold.small other
  · intro one other different oneLive otherLive
    have isOne := elsewhere one (notSlot one oneLive)
    have isOther := elsewhere other (notSlot other otherLive)
    simp only [isOne, isOther] at oneLive otherLive ⊢
    exact allHold.apart one other different oneLive otherLive

theorem Result.allHold (result : Result state call next) (legal : LegalCall state call)
    (allHold : AllHold state) : AllHold next := by
  cases result with
  | created made nonempty => exact made.allHold nonempty legal allHold
  | refused failed => exact failed.allHold allHold
  | deleted slot => exact allHold.deleted slot
  | deletedNone => exact allHold
  | moved transfers => exact transfers.allHold allHold

/-- Runs of admitted calls reach their end, and the heaps hold in every state. -/
theorem run_allHold {calls : List Call} (allHold : AllHold state)
    (legal : EveryStep step LegalCall state calls) (roomy : EveryStep step Roomy state calls) :
    ∃ final, run step state calls = some final ∧ AllHold final := by
  apply run_total _ allHold (legal.and roomy)
  rintro current call currentHold ⟨isLegal, isRoomy⟩
  obtain ⟨next, stepped, result⟩ := step_result currentHold isLegal isRoomy
  exact ⟨next, stepped, result.allHold isLegal currentHold⟩

end Results

end TuyaAdapter.TuyaMemHeap
