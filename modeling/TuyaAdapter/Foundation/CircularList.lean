import Mathlib.Data.List.Chain
import Mathlib.Data.List.Nodup
import Mathlib.Logic.Function.Basic
import TuyaAdapter.Foundation.SeparateLists

/-!
Owns circular doubly linked lists in a memory of `next` and `prev` fields.

`Ring` says that a head and the nodes after it form a cycle. One write pair,
`join`, serves insertion, removal and splicing: the rules say which cycle is left
after a node was joined in or out between two neighbours, or the nodes of another
cycle were joined in behind the head. `ringShape` makes the cycles of a memory
separate lists.
-/

namespace TuyaAdapter.Foundation.CircularList

open SeparateLists

variable {Node : Type*}

/-- The `next` and `prev` fields of all nodes. -/
structure Links (Node : Type*) where
  next : Node → Node
  prev : Node → Node

/-- The two fields between neighbours agree. -/
def Links.Linked (links : Links Node) (left right : Node) : Prop :=
  links.next left = right ∧ links.prev right = left

/-- The nodes after the head form a cycle with it. -/
structure Ring (links : Links Node) (head : Node) (nodes : List Node) : Prop where
  chain : (head :: (nodes ++ [head])).IsChain links.Linked
  different : (head :: nodes).Nodup

/-- Make two nodes neighbours. -/
def Links.join [DecidableEq Node] (links : Links Node) (left right : Node) : Links Node where
  next := Function.update links.next left right
  prev := Function.update links.prev right left

section Join

variable [DecidableEq Node] (links : Links Node)

theorem Links.join_linked (left right : Node) : (links.join left right).Linked left right :=
  ⟨Function.update_self _ _ _, Function.update_self _ _ _⟩

theorem Links.join_next {left right node : Node} (other : node ≠ left) :
    (links.join left right).next node = links.next node :=
  Function.update_of_ne other _ _

theorem Links.join_prev {left right node : Node} (other : node ≠ right) :
    (links.join left right).prev node = links.prev node :=
  Function.update_of_ne other _ _

end Join

/-- A chain only depends on the `next` fields of all nodes but the last and on
the `prev` fields of all nodes but the first. -/
theorem chain_of_agree {links other : Links Node} {nodes : List Node}
    (chain : nodes.IsChain links.Linked)
    (next : ∀ node ∈ nodes.dropLast, other.next node = links.next node)
    (prev : ∀ node ∈ nodes.tail, other.prev node = links.prev node) :
    nodes.IsChain other.Linked := by
  induction nodes with
  | nil => exact List.IsChain.nil
  | cons first rest inductionHypothesis =>
      cases rest with
      | nil => exact List.IsChain.singleton _
      | cons second rest =>
          rw [List.isChain_cons_cons] at chain ⊢
          refine ⟨⟨?_, ?_⟩, inductionHypothesis chain.2 ?_ ?_⟩
          · rw [next first (by simp)]
            exact chain.1.1
          · rw [prev second (by simp)]
            exact chain.1.2
          · intro node member
            apply next node
            rw [List.dropLast_cons_cons]
            exact List.mem_cons_of_mem _ member
          · intro node member
            exact prev node (List.mem_cons_of_mem _ member)

/-- A cycle cut into the part up to a node and the part after it. -/
theorem Ring.cut {links : Links Node} {head before after : Node} {front back : List Node}
    (ring : Ring links head (front ++ back))
    (isBefore : (head :: front).getLast? = some before)
    (isAfter : (back ++ [head]).head? = some after) :
    (head :: front).IsChain links.Linked ∧ (back ++ [head]).IsChain links.Linked ∧
      links.Linked before after := by
  have chain := ring.chain
  rw [List.append_assoc, ← List.cons_append, List.isChain_append] at chain
  exact ⟨chain.1, chain.2.1, chain.2.2 before isBefore after isAfter⟩

/-- Two chains whose ends are linked make a cycle. -/
theorem Ring.paste {links : Links Node} {head before after : Node} {front back : List Node}
    (isBefore : (head :: front).getLast? = some before)
    (isAfter : (back ++ [head]).head? = some after)
    (first : (head :: front).IsChain links.Linked) (last : (back ++ [head]).IsChain links.Linked)
    (linked : links.Linked before after) (different : (head :: (front ++ back)).Nodup) :
    Ring links head (front ++ back) := by
  refine ⟨?_, different⟩
  rw [List.append_assoc, ← List.cons_append, List.isChain_append]
  refine ⟨first, last, ?_⟩
  intro left isLeft right isRight
  rw [isBefore] at isLeft
  rw [isAfter] at isRight
  rw [← Option.some.inj isLeft, ← Option.some.inj isRight]
  exact linked

/-- The last node is not among those before it. -/
theorem notMem_dropLast {nodes : List Node} {node : Node} (different : nodes.Nodup)
    (isLast : nodes.getLast? = some node) : node ∉ nodes.dropLast := by
  rw [List.getLast?_eq_some_iff] at isLast
  obtain ⟨before, rfl⟩ := isLast
  rw [List.dropLast_concat]
  intro member
  exact (List.nodup_append.mp different).2.2 node member node (by simp) rfl

/-- The first node is not among those after it. -/
theorem notMem_tail {nodes : List Node} {node : Node} (different : nodes.Nodup)
    (isFirst : nodes.head? = some node) : node ∉ nodes.tail := by
  cases nodes with
  | nil => exact absurd isFirst (by simp)
  | cons first rest =>
      rw [← Option.some.inj isFirst]
      exact (List.nodup_cons.mp different).1

section Rules

variable [DecidableEq Node] {links : Links Node} {head before after : Node}
  {front back : List Node}

omit [DecidableEq Node] in
/-- The head may be read as the end of the second part. -/
theorem Ring.different_back (different : (head :: (front ++ back)).Nodup) :
    (back ++ [head]).Nodup ∧ (head :: front).Nodup ∧
      (∀ node ∈ head :: front, node ∉ back) ∧ ∀ node ∈ back ++ [head], node ∉ front := by
  rw [← List.cons_append] at different
  obtain ⟨first, second, apart⟩ := List.nodup_append.mp different
  refine ⟨?_, first, ?_, ?_⟩
  · rw [List.nodup_append]
    refine ⟨second, List.nodup_singleton _, ?_⟩
    intro left isLeft right isRight same
    rw [List.mem_singleton.mp isRight] at same
    exact apart head List.mem_cons_self left isLeft same.symm
  · intro node inFront inBack
    exact apart node inFront node inBack rfl
  · intro node inBack inFront
    rcases List.mem_append.mp inBack with isBack | isHead
    · exact apart node (List.mem_cons_of_mem _ inFront) node isBack rfl
    · rw [List.mem_singleton.mp isHead] at inFront
      exact (List.nodup_cons.mp first).1 inFront

/-- Join a node that is not in the cycle in between two neighbours. -/
theorem Ring.insert {node : Node} (ring : Ring links head (front ++ back))
    (isBefore : (head :: front).getLast? = some before)
    (isAfter : (back ++ [head]).head? = some after) (fresh : node ∉ head :: (front ++ back)) :
    Ring ((links.join node after).join before node) head (front ++ node :: back) := by
  obtain ⟨first, last, -⟩ := ring.cut isBefore isAfter
  obtain ⟨differentBack, differentFront, apartFront, apartBack⟩ :=
    Ring.different_back ring.different
  have beforeMember := List.mem_of_getLast? isBefore
  have afterMember := List.mem_of_mem_head? isAfter
  have freshFront : ∀ other ∈ head :: front, other ≠ node := by
    intro other member same
    rw [same] at member
    exact fresh (by rw [← List.cons_append]; exact List.mem_append_left _ member)
  have freshBack : ∀ other ∈ back ++ [head], other ≠ node := by
    intro other member same
    rw [same, List.mem_append, List.mem_singleton] at member
    apply fresh
    rcases member with isBack | isHead
    · exact List.mem_cons_of_mem _ (List.mem_append_right _ isBack)
    · rw [isHead]
      exact List.mem_cons_self
  have second : ((links.join node after).join before node).Linked node after := by
    constructor
    · rw [Links.join_next _ (freshFront before beforeMember).symm]
      exact (links.join_linked node after).1
    · rw [Links.join_prev _ (freshBack after afterMember)]
      exact (links.join_linked node after).2
  apply Ring.paste isBefore (show ((node :: back) ++ [head]).head? = some node from rfl)
  · apply chain_of_agree first
    · intro other member
      have inFront := List.dropLast_subset _ member
      rw [Links.join_next _ ?_, Links.join_next _ (freshFront other inFront)]
      rintro rfl
      exact notMem_dropLast differentFront isBefore member
    · intro other member
      have inFront := List.mem_of_mem_tail member
      rw [Links.join_prev _ (freshFront other inFront), Links.join_prev]
      rintro rfl
      exact apartBack other afterMember member
  · rw [List.cons_append]
    refine List.isChain_cons.mpr ⟨?_, ?_⟩
    · intro other isOther
      rw [isAfter] at isOther
      rw [← Option.some.inj isOther]
      exact second
    · apply chain_of_agree last
      · intro other member
        rw [List.dropLast_concat] at member
        have inBack : other ∈ back ++ [head] := List.mem_append_left _ member
        rw [Links.join_next _ ?_, Links.join_next _ (freshBack other inBack)]
        rintro rfl
        exact apartFront other beforeMember member
      · intro other member
        have inBack := List.mem_of_mem_tail member
        rw [Links.join_prev _ (freshBack other inBack), Links.join_prev]
        rintro rfl
        exact notMem_tail differentBack isAfter member
  · exact Links.join_linked _ _ _
  · rw [← List.cons_append, List.nodup_middle, List.cons_append]
    exact List.nodup_cons.mpr ⟨fresh, ring.different⟩

/-- Join a node of the cycle out: its fields name its neighbours. -/
theorem Ring.remove {node : Node} (ring : Ring links head (front ++ node :: back))
    (isBefore : (head :: front).getLast? = some before)
    (isAfter : (back ++ [head]).head? = some after) :
    links.prev node = before ∧ links.next node = after ∧
      Ring (links.join before after) head (front ++ back) := by
  obtain ⟨first, rest, linked⟩ := ring.cut isBefore
    (show ((node :: back) ++ [head]).head? = some node from rfl)
  rw [List.cons_append, List.isChain_cons] at rest
  have different : (head :: (front ++ back)).Nodup := by
    have all := ring.different
    rw [← List.cons_append, List.nodup_middle, List.cons_append] at all
    exact (List.nodup_cons.mp all).2
  obtain ⟨differentBack, differentFront, apartFront, apartBack⟩ := Ring.different_back different
  have beforeMember := List.mem_of_getLast? isBefore
  have afterMember := List.mem_of_mem_head? isAfter
  refine ⟨linked.2, (rest.1 after isAfter).1, ?_⟩
  apply Ring.paste isBefore isAfter
  · apply chain_of_agree first
    · intro other member
      apply Links.join_next
      rintro rfl
      exact notMem_dropLast differentFront isBefore member
    · intro other member
      apply Links.join_prev
      rintro rfl
      exact apartBack other afterMember member
  · apply chain_of_agree rest.2
    · intro other member
      rw [List.dropLast_concat] at member
      apply Links.join_next
      rintro rfl
      exact apartFront other beforeMember member
    · intro other member
      apply Links.join_prev
      rintro rfl
      exact notMem_tail differentBack isAfter member
  · exact links.join_linked before after
  · exact different

end Rules

/-- The fields of the head name the first and the last node. -/
theorem Ring.ends {links : Links Node} {head : Node} {nodes : List Node}
    (ring : Ring links head nodes) :
    (nodes ++ [head]).head? = some (links.next head) ∧
      (head :: nodes).getLast? = some (links.prev head) := by
  constructor
  · have chain := List.isChain_cons.mp ring.chain
    cases nodes with
    | nil => simpa using (chain.1 head rfl).1.symm
    | cons first rest => simpa using (chain.1 first rfl).1.symm
  · have chain := ring.chain
    rw [← List.cons_append, List.isChain_append] at chain
    obtain ⟨last, isLast⟩ : ∃ last, (head :: nodes).getLast? = some last :=
      ⟨_, List.getLast?_eq_some_getLast (List.cons_ne_nil _ _)⟩
    rw [isLast, (chain.2.2 last isLast head rfl).2]

/-- A walk that stands on a node finds the following one in its field. -/
theorem Ring.next_eq {links : Links Node} {head node after : Node} {front back : List Node}
    (ring : Ring links head (front ++ node :: back))
    (isAfter : (back ++ [head]).head? = some after) : links.next node = after := by
  have chain := ring.chain
  rw [List.append_assoc, ← List.cons_append, List.isChain_append] at chain
  exact ((List.isChain_cons.mp chain.2.1).1 after isAfter).1

/-! ## Many cycles in one memory -/

/-- Both fields of a node are the same. -/
def SameFields (links other : Links Node) (node : Node) : Prop :=
  other.next node = links.next node ∧ other.prev node = links.prev node

/-- A cycle depends on the fields of its own nodes only. -/
theorem Ring.congr {links other : Links Node} {head : Node} {nodes : List Node}
    (ring : Ring links head nodes) (same : ∀ node ∈ head :: nodes, SameFields links other node) :
    Ring other head nodes := by
  have member : ∀ node ∈ head :: (nodes ++ [head]), node ∈ head :: nodes := by
    intro node inside
    rw [← List.cons_append, List.mem_append, List.mem_singleton] at inside
    rcases inside with isNode | rfl
    · exact isNode
    · exact List.mem_cons_self
  refine ⟨chain_of_agree ring.chain ?_ ?_, ring.different⟩
  · exact fun node inside => (same node (member node (List.dropLast_subset _ inside))).1
  · exact fun node inside => (same node (member node (List.mem_of_mem_tail inside))).2

/-- Cycles as lists that own their nodes and their heads. -/
def ringShape : Shape (Links Node) Node Node Node where
  Is := Ring
  Owns head nodes node := node ∈ head :: nodes
  Same := SameFields
  frame ring same := ring.congr same

theorem SameFields.refl (links : Links Node) (node : Node) : SameFields links links node := ⟨rfl, rfl⟩

theorem SameFields.trans {links middle other : Links Node} {node : Node}
    (first : SameFields links middle node) (second : SameFields middle other node) :
    SameFields links other node :=
  ⟨second.1.trans first.1, second.2.trans first.2⟩

section Splice

variable [DecidableEq Node] {links : Links Node}

/-- Joining two nodes changes no other one. -/
theorem join_same {left right node : Node} (notLeft : node ≠ left) (notRight : node ≠ right) :
    SameFields links (links.join left right) node :=
  ⟨Links.join_next links notLeft, Links.join_prev links notRight⟩

/-- Two cycles that share no node, one of them to be spliced into the other. -/
structure Splices (links : Links Node) (source head : Node) (sources nodes : List Node)
    (first last after : Node) : Prop where
  sourceRing : Ring links source sources
  ring : Ring links head nodes
  isFirst : sources.head? = some first
  isLast : sources.getLast? = some last
  isAfter : (nodes ++ [head]).head? = some after
  apart : ∀ node ∈ sources, node ∉ head :: nodes

variable {source head first last after : Node} {sources nodes : List Node}

omit [DecidableEq Node] in
/-- A spliced node is neither the head nor the node behind it. -/
theorem Splices.ne (splices : Splices links source head sources nodes first last after) :
    ∀ node ∈ sources, node ≠ head ∧ node ≠ after := by
  intro node member
  have afterMember := List.mem_of_mem_head? splices.isAfter
  rw [List.mem_append, List.mem_singleton] at afterMember
  constructor
  · rintro rfl
    exact splices.apart node member List.mem_cons_self
  · rintro rfl
    exact splices.apart node member (List.mem_cons.mpr afterMember.symm)

omit [DecidableEq Node] in
theorem Splices.different (splices : Splices links source head sources nodes first last after) :
    (head :: (sources ++ nodes)).Nodup := by
  have differentNodes := List.nodup_cons.mp splices.ring.different
  rw [List.nodup_cons, List.mem_append, List.nodup_append]
  refine ⟨?_, (List.nodup_cons.mp splices.sourceRing.different).2, differentNodes.2, ?_⟩
  · rintro (inSource | inNodes)
    · exact (splices.ne head inSource).1 rfl
    · exact differentNodes.1 inNodes
  · rintro node inSource other inNodes rfl
    exact splices.apart node inSource (List.mem_cons_of_mem _ inNodes)

theorem Splices.head_linked (splices : Splices links source head sources nodes first last after) :
    ((links.join head first).join last after).Linked head first := by
  have notHead := (splices.ne last (List.mem_of_getLast? splices.isLast)).1
  have notAfter := (splices.ne first (List.mem_of_mem_head? splices.isFirst)).2
  constructor
  · rw [Links.join_next _ notHead.symm]
    exact (links.join_linked head first).1
  · rw [Links.join_prev _ notAfter]
    exact (links.join_linked head first).2

/-- The spliced nodes stay linked. -/
theorem Splices.source_chain (splices : Splices links source head sources nodes first last after) :
    sources.IsChain ((links.join head first).join last after).Linked := by
  have different := (List.nodup_cons.mp splices.sourceRing.different).2
  have chain := splices.sourceRing.chain
  rw [List.isChain_cons] at chain
  apply chain_of_agree (List.isChain_append.mp chain.2).1
  · intro node member
    have notHead := (splices.ne node (List.dropLast_subset _ member)).1
    rw [Links.join_next _ ?_, Links.join_next _ notHead]
    rintro rfl
    exact notMem_dropLast different splices.isLast member
  · intro node member
    have notAfter := (splices.ne node (List.mem_of_mem_tail member)).2
    rw [Links.join_prev _ notAfter, Links.join_prev]
    rintro rfl
    exact notMem_tail different splices.isFirst member

/-- So do the nodes behind them. -/
theorem Splices.back_chain (splices : Splices links source head sources nodes first last after) :
    (nodes ++ [head]).IsChain ((links.join head first).join last after).Linked := by
  obtain ⟨differentBack, -, apartFront, apartBack⟩ := Ring.different_back splices.different
  have whole : Ring links head ([] ++ nodes) := splices.ring
  obtain ⟨-, back, -⟩ := whole.cut (show [head].getLast? = some head from rfl) splices.isAfter
  apply chain_of_agree back
  · intro node member
    rw [List.dropLast_concat] at member
    have notLast : node ≠ last := by
      rintro rfl
      exact apartFront node (List.mem_cons_of_mem _ (List.mem_of_getLast? splices.isLast)) member
    rw [Links.join_next _ notLast, Links.join_next]
    rintro rfl
    exact (List.nodup_cons.mp splices.ring.different).1 member
  · intro node member
    have notFirst : node ≠ first := by
      rintro rfl
      exact apartBack node (List.mem_of_mem_tail member) (List.mem_of_mem_head? splices.isFirst)
    rw [Links.join_prev _ ?_, Links.join_prev _ notFirst]
    rintro rfl
    exact notMem_tail differentBack splices.isAfter member

/-- Join the nodes of another cycle in behind the head. -/
theorem Splices.ring_splice (splices : Splices links source head sources nodes first last after) :
    Ring ((links.join head first).join last after) head (sources ++ nodes) := by
  have isBefore : (head :: sources).getLast? = some last := by
    rw [List.getLast?_cons, splices.isLast]
    rfl
  apply Ring.paste isBefore splices.isAfter ?_ splices.back_chain (Links.join_linked _ _ _)
    splices.different
  rw [List.isChain_cons]
  refine ⟨?_, splices.source_chain⟩
  intro node isNode
  rw [splices.isFirst] at isNode
  rw [← Option.some.inj isNode]
  exact splices.head_linked

end Splice

end TuyaAdapter.Foundation.CircularList
