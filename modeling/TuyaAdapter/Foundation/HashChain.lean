import Mathlib.Data.List.Basic
import Mathlib.Logic.Function.Basic
import TuyaAdapter.Foundation.SeparateLists

/-!
Owns null-terminated chains with back references, one chain for each bucket. A
node refers back to the slot that holds its address: the head of a bucket or
the `next` field of another node. `Chained` says that a chain holds exactly the
given nodes; the module proves what inserting at a slot and unlinking a node do
to the chain concerned and that other chains are left alone. `chainShape` makes
the chains of a memory separate lists.
-/

namespace TuyaAdapter.Foundation.HashChain

open SeparateLists

variable {Bucket Node : Type*}

/-- A place that holds the address of a node. -/
inductive Slot (Bucket Node : Type*) where
  | head (bucket : Bucket)
  | next (node : Node)
deriving DecidableEq

theorem head_ne_next (bucket : Bucket) (node : Node) :
    (Slot.head bucket : Slot Bucket Node) ≠ .next node := by
  intro same
  cases same

structure Chains (Bucket Node : Type*) where
  first : Bucket → Option Node
  next : Node → Option Node
  pprev : Node → Slot Bucket Node

/-- What a slot holds. -/
def Chains.target (chains : Chains Bucket Node) : Slot Bucket Node → Option Node
  | .head bucket => chains.first bucket
  | .next node => chains.next node

/-- From the slot on, the chain holds exactly these nodes. -/
def Chained (chains : Chains Bucket Node) : Slot Bucket Node → List Node → Prop
  | slot, [] => chains.target slot = none
  | slot, node :: rest =>
      chains.target slot = some node ∧ chains.pprev node = slot ∧
        Chained chains (.next node) rest

variable {chains chains' : Chains Bucket Node} {slot : Slot Bucket Node} {nodes : List Node}

/-- A chain depends on its own slots and nodes only. -/
theorem Chained.congr (chained : Chained chains slot nodes)
    (sameStart : chains'.target slot = chains.target slot)
    (sameNext : ∀ node ∈ nodes, chains'.next node = chains.next node)
    (samePprev : ∀ node ∈ nodes, chains'.pprev node = chains.pprev node) :
    Chained chains' slot nodes := by
  induction nodes generalizing slot with
  | nil => exact sameStart.trans chained
  | cons node rest inductionHypothesis =>
      obtain ⟨isNode, isBack, after⟩ := chained
      refine ⟨sameStart.trans isNode, (samePprev node List.mem_cons_self).trans isBack, ?_⟩
      exact inductionHypothesis after (sameNext node List.mem_cons_self)
        (fun other member => sameNext other (List.mem_cons_of_mem _ member))
        (fun other member => samePprev other (List.mem_cons_of_mem _ member))

/-- What a slot holds is one of the nodes behind it. -/
theorem Chained.mem_of_target (chained : Chained chains slot nodes) {node : Node}
    (isNode : chains.target slot = some node) : node ∈ nodes := by
  cases nodes with
  | nil => exact absurd (chained.symm.trans isNode) nofun
  | cons first rest =>
      rw [Option.some.inj (isNode.symm.trans chained.1)]
      exact List.mem_cons_self

/-! ## Cells that stay -/

/-- A head is the same, or both fields of a node are. -/
def SameCell (chains chains' : Chains Bucket Node) (cell : Slot Bucket Node) : Prop :=
  chains'.target cell = chains.target cell ∧
    ∀ node, cell = .next node → chains'.pprev node = chains.pprev node

theorem SameCell.refl (chains : Chains Bucket Node) (cell : Slot Bucket Node) :
    SameCell chains chains cell := ⟨rfl, fun _ _ => rfl⟩

theorem SameCell.trans {middle : Chains Bucket Node} {cell : Slot Bucket Node}
    (first : SameCell chains middle cell) (second : SameCell middle chains' cell) :
    SameCell chains chains' cell :=
  ⟨second.1.trans first.1, fun node isNode => (second.2 node isNode).trans (first.2 node isNode)⟩

theorem Chained.of_same (chained : Chained chains slot nodes) (start : SameCell chains chains' slot)
    (same : ∀ node ∈ nodes, SameCell chains chains' (.next node)) : Chained chains' slot nodes :=
  chained.congr start.1 (fun node member => (same node member).1)
    fun node member => (same node member).2 node rfl

section Edits

variable [DecidableEq Bucket] [DecidableEq Node]

/-- Write a slot. -/
def Chains.set (chains : Chains Bucket Node) (slot : Slot Bucket Node) (value : Option Node) :
    Chains Bucket Node :=
  match slot with
  | .head bucket => { chains with first := Function.update chains.first bucket value }
  | .next node => { chains with next := Function.update chains.next node value }

/-- Write the back reference of a node, if there is one. -/
def Chains.setBack (chains : Chains Bucket Node) (node : Option Node) (slot : Slot Bucket Node) :
    Chains Bucket Node :=
  match node with
  | none => chains
  | some node => { chains with pprev := Function.update chains.pprev node slot }

@[simp] theorem set_pprev (value : Option Node) : (chains.set slot value).pprev = chains.pprev := by
  cases slot <;> rfl

@[simp] theorem set_target_self (value : Option Node) :
    (chains.set slot value).target slot = value := by
  cases slot <;> simp [Chains.set, Chains.target]

theorem set_target_of_ne {other : Slot Bucket Node} (different : other ≠ slot)
    (value : Option Node) : (chains.set slot value).target other = chains.target other := by
  cases slot with
  | head bucket =>
      cases other with
      | head otherBucket =>
          have : otherBucket ≠ bucket := fun same => different (by rw [same])
          simp [Chains.set, Chains.target, this]
      | next node => rfl
  | next node =>
      cases other with
      | head bucket => rfl
      | next otherNode =>
          have : otherNode ≠ node := fun same => different (by rw [same])
          simp [Chains.set, Chains.target, this]

omit [DecidableEq Bucket] in
@[simp] theorem setBack_target (node : Option Node) (back other : Slot Bucket Node) :
    (chains.setBack node back).target other = chains.target other := by
  cases node <;> cases other <;> rfl

omit [DecidableEq Bucket] in
theorem setBack_pprev_of_ne {node : Option Node} {other : Node} (different : node ≠ some other)
    (back : Slot Bucket Node) : (chains.setBack node back).pprev other = chains.pprev other := by
  cases node with
  | none => rfl
  | some node =>
      have : other ≠ node := fun same => different (by rw [same])
      simp [Chains.setBack, this]

theorem setBack_set (node : Option Node) (back : Slot Bucket Node) (value : Option Node) :
    (chains.setBack node back).set slot value = (chains.set slot value).setBack node back := by
  cases slot <;> cases node <;> rfl

omit [DecidableEq Bucket] in
/-- Back references of two nodes may be written in either order. -/
theorem setBack_comm {left right : Option Node}
    (different : ∀ node, left = some node → right ≠ some node) (back other : Slot Bucket Node) :
    (chains.setBack left back).setBack right other =
      (chains.setBack right other).setBack left back := by
  cases left with
  | none => rfl
  | some first =>
      cases right with
      | none => rfl
      | some second =>
          have notSame : first ≠ second := fun same => different first rfl (by rw [same])
          simp only [Chains.setBack]
          rw [Function.update_comm notSame]

theorem set_same {cell : Slot Bucket Node} (different : cell ≠ slot) (value : Option Node) :
    SameCell chains (chains.set slot value) cell :=
  ⟨set_target_of_ne different value, fun _ _ => by rw [set_pprev]⟩

omit [DecidableEq Bucket] in
theorem setBack_same {node : Option Node} {back cell : Slot Bucket Node}
    (different : ∀ other, node = some other → cell ≠ .next other) :
    SameCell chains (chains.setBack node back) cell := by
  refine ⟨setBack_target node back cell, ?_⟩
  rintro other rfl
  exact setBack_pprev_of_ne (fun isOther => different other isOther rfl) back

/-! ## Cutting a chain in front of a node -/

/-- The slot behind a list of nodes that starts at a slot. -/
def slotBehind (slot : Slot Bucket Node) : List Node → Slot Bucket Node
  | [] => slot
  | node :: rest => slotBehind (.next node) rest

omit [DecidableEq Bucket] [DecidableEq Node] in
theorem slotBehind_eq (slot : Slot Bucket Node) (left : List Node) :
    slotBehind slot left = slot ∨ ∃ node ∈ left, slotBehind slot left = .next node := by
  induction left generalizing slot with
  | nil => exact Or.inl rfl
  | cons node rest inductionHypothesis =>
      rcases inductionHypothesis (.next node) with isNode | ⟨other, member, isOther⟩
      · exact Or.inr ⟨node, List.mem_cons_self, isNode⟩
      · exact Or.inr ⟨other, List.mem_cons_of_mem _ member, isOther⟩

omit [DecidableEq Bucket] [DecidableEq Node] in
theorem slotBehind_concat (slot : Slot Bucket Node) (left : List Node) (node : Node) :
    slotBehind slot (left ++ [node]) = .next node := by
  induction left generalizing slot with
  | nil => rfl
  | cons first rest inductionHypothesis => exact inductionHypothesis (.next first)

/-- A chain up to a slot: the nodes are linked, whatever the last slot holds. -/
def Leads (chains : Chains Bucket Node) : Slot Bucket Node → List Node → Prop
  | _, [] => True
  | slot, node :: rest =>
      chains.target slot = some node ∧ chains.pprev node = slot ∧ Leads chains (.next node) rest

omit [DecidableEq Bucket] [DecidableEq Node] in
theorem chained_append {left right : List Node} :
    Chained chains slot (left ++ right) ↔
      Leads chains slot left ∧ Chained chains (slotBehind slot left) right := by
  induction left generalizing slot with
  | nil => simp [Leads, slotBehind]
  | cons node rest inductionHypothesis =>
      simp only [List.cons_append, Chained, Leads, slotBehind, inductionHypothesis, and_assoc]

omit [DecidableEq Bucket] [DecidableEq Node] in
/-- The nodes before a slot stay linked when nothing but that slot changes among
their slots. -/
theorem Leads.congr {left : List Node} (leads : Leads chains slot left)
    (same : ∀ other, (other = slot ∨ ∃ node ∈ left, other = .next node) →
      other ≠ slotBehind slot left → chains'.target other = chains.target other)
    (samePprev : ∀ node ∈ left, chains'.pprev node = chains.pprev node)
    (different : left.Nodup) (outside : ∀ node ∈ left, slot ≠ .next node) :
    Leads chains' slot left := by
  induction left generalizing slot with
  | nil => trivial
  | cons node rest inductionHypothesis =>
      obtain ⟨isNode, isBack, after⟩ := leads
      have notBehind : slot ≠ slotBehind slot (node :: rest) := by
        intro isBehind
        rcases slotBehind_eq (.next node) rest with here | ⟨other, member, later⟩
        · exact outside node List.mem_cons_self (isBehind.trans here)
        · exact outside other (List.mem_cons_of_mem _ member) (isBehind.trans later)
      refine ⟨(same slot (Or.inl rfl) notBehind).trans isNode,
        (samePprev node List.mem_cons_self).trans isBack, ?_⟩
      apply inductionHypothesis after
      · intro other onPath
        apply same other
        rcases onPath with rfl | ⟨later, member, isLater⟩
        · exact Or.inr ⟨node, List.mem_cons_self, rfl⟩
        · exact Or.inr ⟨later, List.mem_cons_of_mem _ member, isLater⟩
      · exact fun other member => samePprev other (List.mem_cons_of_mem _ member)
      · exact (List.nodup_cons.mp different).2
      · rintro other member isNext
        rw [Slot.next.injEq] at isNext
        exact (List.nodup_cons.mp different).1 (isNext ▸ member)

/-! ## The edits -/

/-- Insert a node in front of what a slot holds. -/
def Chains.insertAt (chains : Chains Bucket Node) (node : Node) (slot : Slot Bucket Node) :
    Chains Bucket Node :=
  let after := chains.target slot
  let linked := chains.set (.next node) after
  let linked := linked.setBack after (.next node)
  let linked := linked.set slot (some node)
  linked.setBack (some node) slot

/-- Insert a node at the head of a bucket. -/
def Chains.addHead (chains : Chains Bucket Node) (node : Node) (bucket : Bucket) :
    Chains Bucket Node :=
  let first := chains.first bucket
  let linked := chains.set (.next node) first
  let linked := linked.setBack first (.next node)
  let linked := linked.set (.head bucket) (some node)
  linked.setBack (some node) (.head bucket)

theorem addHead_eq (node : Node) (bucket : Bucket) :
    chains.addHead node bucket = chains.insertAt node (.head bucket) := rfl

/-- Unlink a node. -/
def Chains.del (chains : Chains Bucket Node) (node : Node) : Chains Bucket Node :=
  let next := chains.next node
  let pprev := chains.pprev node
  (chains.set pprev next).setBack next pprev

/-- Insertion writes to the slot, the node and what the slot held. -/
theorem insertAt_same {node : Node} {cell : Slot Bucket Node} (notSlot : cell ≠ slot)
    (notNode : cell ≠ .next node)
    (notAfter : ∀ after, chains.target slot = some after → cell ≠ .next after) :
    SameCell chains (chains.insertAt node slot) cell := by
  have isNode : ∀ other, some node = some other → cell ≠ .next other := by
    rintro other same
    rw [← Option.some.inj same]
    exact notNode
  exact (((set_same notNode _).trans (setBack_same notAfter)).trans
    (set_same notSlot _)).trans (setBack_same isNode)

/-- Unlinking writes to the slot in front and the node behind. -/
theorem del_same {node : Node} {cell : Slot Bucket Node} (notSlot : cell ≠ chains.pprev node)
    (notNext : ∀ after, chains.next node = some after → cell ≠ .next after) :
    SameCell chains (chains.del node) cell :=
  (set_same notSlot _).trans (setBack_same notNext)

/-- The slot in front of the rest of a chain may be any slot that holds it, once
the first node refers back to it. -/
theorem Chained.moved {other : Slot Bucket Node} (chained : Chained chains slot nodes)
    (different : nodes.Nodup) (outside : ∀ node ∈ nodes, other ≠ .next node) :
    Chained ((chains.set other (chains.target slot)).setBack (chains.target slot) other) other
      nodes := by
  cases nodes with
  | nil =>
      have isNone : chains.target slot = none := chained
      rw [isNone]
      exact set_target_self none
  | cons node rest =>
      obtain ⟨isNode, -, after⟩ := chained
      obtain ⟨fresh, -⟩ := List.nodup_cons.mp different
      rw [isNode]
      refine ⟨by simp, by simp [Chains.setBack], ?_⟩
      apply after.congr
      · rw [setBack_target, set_target_of_ne (outside node List.mem_cons_self).symm]
      · intro later member
        have isOther : (Slot.next later : Slot Bucket Node) ≠ other :=
          (outside later (List.mem_cons_of_mem _ member)).symm
        have kept : ((chains.set other (some node)).setBack (some node) other).target
            (.next later) = chains.target (.next later) := by
          rw [setBack_target, set_target_of_ne isOther]
        exact kept
      · intro later member
        rw [setBack_pprev_of_ne, set_pprev]
        rintro isLater
        exact fresh (Option.some.inj isLater ▸ member)

omit [DecidableEq Bucket] [DecidableEq Node] in
/-- A slot of a chain is not a node outside. -/
theorem slotBehind_ne {node : Node} {bucket : Bucket} {left : List Node} (fresh : node ∉ left) :
    slotBehind (.head bucket : Slot Bucket Node) left ≠ .next node := by
  rcases slotBehind_eq (.head bucket) left with isHead | ⟨before, inLeft, isBefore⟩
  · rw [isHead]
    exact head_ne_next bucket node
  · rw [isBefore]
    intro isNode
    rw [Slot.next.injEq] at isNode
    exact fresh (isNode ▸ inLeft)

theorem insertAt_chained {node : Node} {bucket : Bucket} {left right : List Node}
    (chained : Chained chains (.head bucket) (left ++ right)) (different : (left ++ right).Nodup)
    (fresh : node ∉ left ++ right) :
    Chained (chains.insertAt node (slotBehind (.head bucket) left)) (.head bucket)
      (left ++ node :: right) := by
  obtain ⟨leads, after⟩ := chained_append.mp chained
  obtain ⟨leftDifferent, rightDifferent, apart⟩ := List.nodup_append.mp different
  have notLeft : node ∉ left := fun inLeft => fresh (List.mem_append_left _ inLeft)
  have notRight : node ∉ right := fun inRight => fresh (List.mem_append_right _ inRight)
  have slotApart : ∀ later ∈ right, slotBehind (.head bucket) left ≠ .next later :=
    fun later inRight => slotBehind_ne fun inLeft => apart later inLeft later inRight rfl
  have moved : Chained ((chains.set (.next node)
      (chains.target (slotBehind (.head bucket) left))).setBack
        (chains.target (slotBehind (.head bucket) left)) (.next node)) (.next node) right := by
    apply after.moved rightDifferent
    intro other member isNode
    rw [Slot.next.injEq] at isNode
    exact notRight (isNode ▸ member)
  rw [chained_append]
  refine ⟨?_, ?_, ?_, ?_⟩
  · apply leads.congr
    · intro other onPath notBehind
      have notNode : other ≠ .next node := by
        rcases onPath with rfl | ⟨before, inLeft, rfl⟩
        · exact head_ne_next bucket node
        · rw [ne_eq, Slot.next.injEq]
          exact fun isNode => notLeft (isNode ▸ inLeft)
      rw [Chains.insertAt, setBack_target, set_target_of_ne notBehind, setBack_target,
        set_target_of_ne notNode]
    · intro before member
      have notNode : some node ≠ some before := fun same =>
        notLeft (Option.some.inj same ▸ member)
      rw [Chains.insertAt, setBack_pprev_of_ne notNode, set_pprev, setBack_pprev_of_ne, set_pprev]
      exact fun isOther => apart before member before (after.mem_of_target isOther) rfl
    · exact leftDifferent
    · exact fun other _ => head_ne_next bucket other
  · rw [Chains.insertAt, setBack_target, set_target_self]
  · simp [Chains.insertAt, Chains.setBack]
  · apply moved.congr
    · rw [Chains.insertAt, setBack_target, set_target_of_ne (slotBehind_ne notLeft).symm]
    · intro other member
      have kept : (chains.insertAt node (slotBehind (.head bucket) left)).target (.next other) =
          ((chains.set (.next node) (chains.target (slotBehind (.head bucket) left))).setBack
            (chains.target (slotBehind (.head bucket) left)) (.next node)).target
              (.next other) := by
        rw [Chains.insertAt, setBack_target, set_target_of_ne (slotApart other member).symm]
      exact kept
    · intro other member
      have notOther : some node ≠ some other := fun same => notRight (Option.some.inj same ▸ member)
      rw [Chains.insertAt, setBack_pprev_of_ne notOther, set_pprev]

theorem addHead_chained {node : Node} {bucket : Bucket}
    (chained : Chained chains (.head bucket) nodes) (different : nodes.Nodup)
    (fresh : node ∉ nodes) :
    Chained (chains.addHead node bucket) (.head bucket) (node :: nodes) := by
  have inserted : Chained (chains.insertAt node (slotBehind (.head bucket) [])) (.head bucket)
      ([] ++ node :: nodes) := insertAt_chained chained different fresh
  exact inserted

/-- Inserting at one head leaves the chain of another alone. -/
theorem addHead_other {node : Node} {bucket other : Bucket} (different : other ≠ bucket)
    (chained : Chained chains (.head other) nodes) (fresh : node ∉ nodes)
    (apart : ∀ first, chains.first bucket = some first → first ∉ nodes) :
    Chained (chains.addHead node bucket) (.head other) nodes := by
  have notHead : (Slot.head other : Slot Bucket Node) ≠ .head bucket := by simpa using different
  rw [addHead_eq]
  apply chained.of_same
  · exact insertAt_same notHead (head_ne_next other node) fun first _ => head_ne_next other first
  · intro member isMember
    apply insertAt_same (head_ne_next bucket member).symm
    · rw [ne_eq, Slot.next.injEq]
      exact fun isNode => fresh (isNode ▸ isMember)
    · intro first isFirst
      rw [ne_eq, Slot.next.injEq]
      exact fun same => apart first isFirst (same ▸ isMember)

theorem del_chained {node : Node} {bucket : Bucket} {left right : List Node}
    (chained : Chained chains (.head bucket) (left ++ node :: right))
    (different : (left ++ node :: right).Nodup) :
    Chained (chains.del node) (.head bucket) (left ++ right) := by
  obtain ⟨leads, isNode, isBack, after⟩ := chained_append.mp chained
  obtain ⟨leftDifferent, nodeRight, apart⟩ := List.nodup_append.mp different
  obtain ⟨-, rightDifferent⟩ := List.nodup_cons.mp nodeRight
  have isDel : chains.del node =
      (chains.set (slotBehind (.head bucket) left) (chains.target (.next node))).setBack
        (chains.target (.next node)) (slotBehind (.head bucket) left) := by
    unfold Chains.del
    rw [isBack]
    rfl
  have behindApart : ∀ later ∈ right, slotBehind (.head bucket) left ≠ .next later :=
    fun later member => slotBehind_ne fun inLeft =>
      apart later inLeft later (List.mem_cons_of_mem _ member) rfl
  rw [isDel, chained_append]
  constructor
  · apply leads.congr
    · intro other _ notBehind
      rw [setBack_target, set_target_of_ne notBehind]
    · intro before member
      rw [setBack_pprev_of_ne, set_pprev]
      intro isNext
      -- The node behind the removed one is in the second part.
      have inRight : before ∈ right := after.mem_of_target isNext
      exact apart before member before (List.mem_cons_of_mem _ inRight) rfl
    · exact leftDifferent
    · exact fun _ _ => nofun
  · exact after.moved rightDifferent behindApart

/-- Unlinking a node of one chain leaves the chain of another bucket alone. -/
theorem del_other {node : Node} {bucket other : Bucket} {left right : List Node}
    (chained : Chained chains (.head bucket) (left ++ node :: right)) (notBucket : other ≠ bucket)
    (otherChained : Chained chains (.head other) nodes)
    (apart : ∀ member ∈ nodes, member ∉ left ∧ member ∉ right) :
    Chained (chains.del node) (.head other) nodes := by
  obtain ⟨-, -, isBack, after⟩ := chained_append.mp chained
  have notHead : chains.pprev node ≠ .head other := by
    rw [isBack]
    rcases slotBehind_eq (.head bucket) left with isHead | ⟨before, -, isBefore⟩
    · rw [isHead]
      simpa using notBucket.symm
    · rw [isBefore]
      exact nofun
  have backApart : ∀ member ∈ nodes, chains.pprev node ≠ .next member := by
    intro member isMember
    rw [isBack]
    exact slotBehind_ne (apart member isMember).1
  have nextApart : ∀ member ∈ nodes, chains.next node ≠ some member :=
    fun member isMember isNext => (apart member isMember).2 (after.mem_of_target isNext)
  apply otherChained.of_same
  · exact del_same notHead.symm fun after _ => head_ne_next other after
  · intro member isMember
    apply del_same (backApart member isMember).symm
    intro next isNext
    rw [ne_eq, Slot.next.injEq]
    exact fun same => nextApart member isMember (same ▸ isNext)

end Edits

/-! ## Many chains in one memory -/

/-- Chains as lists that own their heads and their nodes. -/
def chainShape : Shape (Chains Bucket Node) Bucket Node (Slot Bucket Node) where
  Is chains bucket nodes := Chained chains (.head bucket) nodes ∧ nodes.Nodup
  Owns bucket nodes cell := cell = .head bucket ∨ ∃ node ∈ nodes, cell = .next node
  Same := SameCell
  frame is same := by
    refine ⟨is.1.congr (same _ (Or.inl rfl)).1 ?_ ?_, is.2⟩
    · exact fun node member => (same _ (Or.inr ⟨node, member, rfl⟩)).1
    · exact fun node member => (same _ (Or.inr ⟨node, member, rfl⟩)).2 node rfl

end TuyaAdapter.Foundation.HashChain
