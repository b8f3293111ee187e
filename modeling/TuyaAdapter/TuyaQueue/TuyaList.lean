import TuyaAdapter.Foundation.CircularList

/-!
Contract: the functions of `tuya_list.c` that the queue uses, and what they do
to a cycle of nodes.
-/

namespace TuyaAdapter.TuyaQueue

open Foundation.CircularList

variable {links : Links Nat} {head node : Nat} {nodes : List Nat}

/-- `INIT_LIST_HEAD`. -/
def initListHead (links : Links Nat) (node : Nat) : Links Nat where
  next := Function.update links.next node node
  prev := Function.update links.prev node node

/-- `__list_add`. -/
def listAdd (links : Links Nat) (new before after : Nat) : Links Nat :=
  let prev := Function.update links.prev after new
  let next := Function.update links.next new after
  let prev := Function.update prev new before
  let next := Function.update next before new
  ⟨next, prev⟩

/-- `__list_del`. -/
def listDel (links : Links Nat) (before after : Nat) : Links Nat :=
  let prev := Function.update links.prev after before
  let next := Function.update links.next before after
  ⟨next, prev⟩

/-- `tuya_list_add`. -/
def tuyaListAdd (links : Links Nat) (new head : Nat) : Links Nat :=
  listAdd links new head (links.next head)

/-- `tuya_list_add_tail`. -/
def tuyaListAddTail (links : Links Nat) (new head : Nat) : Links Nat :=
  listAdd links new (links.prev head) head

/-- `tuya_list_del`. -/
def tuyaListDel (links : Links Nat) (entry : Nat) : Links Nat :=
  listDel links (links.prev entry) (links.next entry)

/-! ## Cycles -/

theorem initListHead_ring (links : Links Nat) (head : Nat) :
    Ring (initListHead links head) head [] := by
  constructor
  · simp [initListHead, Links.Linked]
  · simp

/-- A node outside the cycle may be initialised. -/
theorem initListHead_outside (ring : Ring links head nodes) (outside : node ∉ head :: nodes) :
    Ring (initListHead links node) head nodes := by
  have other : ∀ member ∈ head :: (nodes ++ [head]), member ≠ node := by
    rintro member isMember rfl
    rw [← List.cons_append, List.mem_append, List.mem_singleton] at isMember
    rcases isMember with inside | isHead
    · exact outside inside
    · rw [isHead] at outside
      exact outside List.mem_cons_self
  refine ⟨chain_of_agree ring.chain ?_ ?_, ring.different⟩
  · intro member isMember
    exact Function.update_of_ne (other member (List.dropLast_subset _ isMember)) _ _
  · intro member isMember
    exact Function.update_of_ne (other member (List.mem_of_mem_tail isMember)) _ _

theorem tuyaListAdd_ring (ring : Ring links head nodes) (fresh : node ∉ head :: nodes) :
    Ring (tuyaListAdd links node head) head (node :: nodes) := by
  have whole : Ring links head ([] ++ nodes) := ring
  exact whole.insert rfl ring.ends.1 fresh

theorem tuyaListAddTail_ring (ring : Ring links head nodes) (fresh : node ∉ head :: nodes) :
    Ring (tuyaListAddTail links node head) head (nodes ++ [node]) := by
  have whole : Ring links head (nodes ++ []) := by simpa using ring
  exact whole.insert ring.ends.2 rfl (by simpa using fresh)

theorem tuyaListDel_ring (ring : Ring links head (node :: nodes)) :
    Ring (tuyaListDel links node) head nodes := by
  obtain ⟨after, isAfter⟩ : ∃ after, (nodes ++ [head]).head? = some after := by
    cases nodes with
    | nil => exact ⟨head, rfl⟩
    | cons first rest => exact ⟨first, rfl⟩
  have first : Ring links head ([] ++ node :: nodes) := ring
  obtain ⟨before, isNext, removed⟩ := first.remove (show [head].getLast? = some head from rfl) isAfter
  rw [tuyaListDel, before, isNext]
  exact removed

end TuyaAdapter.TuyaQueue
