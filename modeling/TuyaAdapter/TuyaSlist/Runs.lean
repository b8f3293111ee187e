import Mathlib.Data.List.Nodup
import TuyaAdapter.Foundation.LinkedPath
import TuyaAdapter.Foundation.SeparateLists

/-!
Contract: the functions of `tuya_slist.h` on one list, and runs of them.

A list is the address of its head; `0` is `NULL`. Between two operations on the
list, anything may be written to cells that are not on it: to fresh memory, by
operations on other lists, or by the owners of nodes. The loops run on fuel: they
are missing when they need more turns.
-/

namespace TuyaAdapter.TuyaSlist

open Foundation.LinkedPath Foundation.SeparateLists

/-! ## The functions -/

/-- The loop of `tuya_slist_del`. -/
def delLoop (next : Nat → Nat) (node : Nat) : Nat → Nat → Nat → Option (Nat → Nat)
  | 0, _, _ => none
  | fuel + 1, pos, last =>
      if pos ≠ 0 then
        if pos ≠ node then delLoop next node fuel (next pos) pos
        else some (Function.update (Function.update next last (next pos)) node 0)
      else some next

def tuyaSlistDel (fuel : Nat) (next : Nat → Nat) (list node : Nat) : Option (Nat → Nat) :=
  delLoop next node fuel (next list) list

def tuyaSlistAddHead (next : Nat → Nat) (list n : Nat) : Nat → Nat :=
  let next := Function.update next n (next list)
  Function.update next list n

/-- The loop of `tuya_slist_add_tail`: what `last` is behind it. -/
def addTailLoop (next : Nat → Nat) : Nat → Nat → Nat → Option Nat
  | 0, _, _ => none
  | fuel + 1, pos, last => if pos ≠ 0 then addTailLoop next fuel (next pos) pos else some last

def tuyaSlistAddTail (fuel : Nat) (next : Nat → Nat) (list n : Nat) : Option (Nat → Nat) :=
  (addTailLoop next fuel (next list) list).map fun last => Function.update next last n

/-! ## The sequence model -/

/-- The list has these nodes and is `NULL`-terminated. -/
structure IsSlist (next : Nat → Nat) (list : Nat) (nodes : List Nat) : Prop where
  path : Path next (next list) nodes 0
  different : (list :: nodes).Nodup
  proper : ∀ node ∈ list :: nodes, node ≠ 0

inductive SlistOp where
  | addHead (n : Nat)
  | addTail (n : Nat)
  | del (node : Nat)
deriving DecidableEq, Repr

def SlistOp.run (fuel : Nat) (next : Nat → Nat) (list : Nat) : SlistOp → Option (Nat → Nat)
  | .addHead n => some (tuyaSlistAddHead next list n)
  | .addTail n => tuyaSlistAddTail fuel next list n
  | .del node => tuyaSlistDel fuel next list node

/-- What an operation does to the sequence. -/
def SlistOp.edit (nodes : List Nat) : SlistOp → List Nat
  | .addHead n => n :: nodes
  | .addTail n => nodes ++ [n]
  | .del node => nodes.erase node

/-- A node that is added is not on the list. -/
def SlistOp.Allowed (list : Nat) (nodes : List Nat) : SlistOp → Prop
  | .addHead n => n ≠ 0 ∧ n ∉ list :: nodes
  | .addTail n => n ≠ 0 ∧ n ∉ list :: nodes
  | .del _ => True

/-- The operation ends and edits the sequence; a node that is deleted points to
nothing, and deleting one that is not on the list changes nothing. -/
structure Performs (next next' : Nat → Nat) (list : Nat) (nodes : List Nat) (op : SlistOp) :
    Prop where
  runs : ∃ fuel, op.run fuel next list = some next'
  edited : IsSlist next' list (op.edit nodes)
  cleared : ∀ node, op = .del node → node ∈ nodes → next' node = 0
  absent : ∀ node, op = .del node → node ∉ nodes → next' = next

/-- A node that is added at the tail points to nothing. -/
def NullAtTail (next : Nat → Nat) (op : SlistOp) : Prop := ∀ n, op = .addTail n → next n = 0

/-- The states that a run on a list may reach. -/
inductive Reaches (list : Nat) : (Nat → Nat) → List Nat → (Nat → Nat) → List Nat → Prop
  | refl (next : Nat → Nat) (nodes : List Nat) : Reaches list next nodes next nodes
  | op {next middle next' : Nat → Nat} {nodes others : List Nat} {op : SlistOp} {fuel : Nat}
      (earlier : Reaches list next nodes middle others) (allowed : op.Allowed list others)
      (nullAtTail : NullAtTail middle op) (runs : op.run fuel middle list = some next') :
      Reaches list next nodes next' (op.edit others)
  | elsewhere {next middle next' : Nat → Nat} {nodes others : List Nat}
      (earlier : Reaches list next nodes middle others)
      (same : ∀ cell ∈ list :: others, next' cell = middle cell) :
      Reaches list next nodes next' others

/-! ## The loops -/

variable {next : Nat → Nat} {list n node : Nat} {nodes left right : List Nat}

/-- With enough fuel the loop stops at the last cell. -/
theorem addTailLoop_eq (fuel : Nat) {pos last : Nat} (path : Path next pos nodes 0)
    (proper : ∀ other ∈ nodes, other ≠ 0) :
    addTailLoop next fuel pos last =
      if nodes.length < fuel then some (nodes.getLastD last) else none := by
  induction nodes generalizing pos last fuel with
  | nil =>
      have isNull : pos = 0 := path
      cases fuel with
      | zero => rfl
      | succ fuel =>
          rw [addTailLoop, if_neg (not_not.mpr isNull), List.length_nil,
            if_pos (Nat.succ_pos fuel)]
          rfl
  | cons first rest inductionHypothesis =>
      obtain ⟨isFirst, after⟩ := path
      obtain ⟨more, later⟩ := List.forall_mem_cons.mp proper
      cases fuel with
      | zero => rfl
      | succ fuel =>
          rw [addTailLoop, isFirst, if_pos more, inductionHypothesis fuel after later,
            List.getLastD_cons, List.length_cons]
          simp only [Nat.add_lt_add_iff_right]

/-- The loop goes past the nodes that it does not look for. -/
theorem delLoop_skip (fuel : Nat) {pos middle last : Nat} (path : Path next pos left middle)
    (proper : ∀ other ∈ left, other ≠ 0) (absent : node ∉ left) :
    delLoop next node (left.length + fuel) pos last =
      delLoop next node fuel middle (left.getLastD last) := by
  induction left generalizing pos last with
  | nil =>
      have isMiddle : pos = middle := path
      rw [isMiddle, List.length_nil, Nat.zero_add]
      rfl
  | cons first rest inductionHypothesis =>
      obtain ⟨isFirst, after⟩ := path
      obtain ⟨more, later⟩ := List.forall_mem_cons.mp proper
      rw [List.mem_cons, not_or] at absent
      rw [List.length_cons, Nat.add_right_comm, delLoop, isFirst, if_pos more,
        if_pos (Ne.symm absent.1), inductionHypothesis after later absent.2, List.getLastD_cons]

/-! ## One operation -/

theorem IsSlist.congr {next' : Nat → Nat} (is : IsSlist next list nodes)
    (same : ∀ cell ∈ list :: nodes, next' cell = next cell) : IsSlist next' list nodes := by
  refine ⟨?_, is.different, is.proper⟩
  rw [same list List.mem_cons_self]
  exact is.path.congr fun cell member => same cell (List.mem_cons_of_mem _ member)

theorem tuyaSlistAddHead_isSlist (is : IsSlist next list nodes) (proper : n ≠ 0)
    (fresh : n ∉ list :: nodes) : IsSlist (tuyaSlistAddHead next list n) list (n :: nodes) := by
  obtain ⟨notList, notNodes⟩ := not_or.mp (List.mem_cons.not.mp fresh)
  obtain ⟨apart, different⟩ := List.nodup_cons.mp is.different
  have isFirst : tuyaSlistAddHead next list n list = n := Function.update_self _ _ _
  have isNext : tuyaSlistAddHead next list n n = next list := by
    rw [tuyaSlistAddHead, Function.update_of_ne notList, Function.update_self]
  refine ⟨⟨isFirst, ?_⟩, ?_, ?_⟩
  · rw [isNext]
    apply is.path.congr
    intro cell member
    have notHead : cell ≠ list := fun same => apart (same ▸ member)
    have notNew : cell ≠ n := fun same => notNodes (same ▸ member)
    rw [tuyaSlistAddHead, Function.update_of_ne notHead, Function.update_of_ne notNew]
  · rw [List.nodup_cons, List.mem_cons, not_or, List.nodup_cons]
    exact ⟨⟨Ne.symm notList, apart⟩, notNodes, different⟩
  · intro cell member
    rcases List.mem_cons.mp member with rfl | later
    · exact is.proper cell List.mem_cons_self
    · rcases List.mem_cons.mp later with rfl | inNodes
      · exact proper
      · exact is.proper cell (List.mem_cons_of_mem _ inNodes)

theorem IsSlist.nodes_proper (is : IsSlist next list nodes) : ∀ other ∈ nodes, other ≠ 0 :=
  fun other member => is.proper other (List.mem_cons_of_mem _ member)

theorem tuyaSlistAddTail_eq (is : IsSlist next list nodes) (fuel : Nat) :
    tuyaSlistAddTail fuel next list n =
      if nodes.length < fuel then some (Function.update next (nodes.getLastD list) n) else none := by
  rw [tuyaSlistAddTail, addTailLoop_eq fuel is.path is.nodes_proper]
  split <;> rfl

/-- The link of the node that is added stays as it was. -/
theorem addTail_link (fresh : n ∉ list :: nodes) :
    Function.update next (nodes.getLastD list) n n = next n := by
  apply Function.update_of_ne
  intro isLast
  rw [isLast] at fresh
  exact fresh List.getLastD_mem_cons

theorem addTail_isSlist (is : IsSlist next list nodes) (proper : n ≠ 0)
    (fresh : n ∉ list :: nodes) (null : next n = 0) :
    IsSlist (Function.update next (nodes.getLastD list) n) list (nodes ++ [n]) := by
  refine ⟨?_, ?_, ?_⟩
  · rw [path_concat]
    refine ⟨?_, (addTail_link fresh).trans null⟩
    exact is.path.relink is.different (fun _ _ notLast => Function.update_of_ne notLast _ _)
      (Function.update_self _ _ _)
  · rw [← List.cons_append, List.nodup_append]
    refine ⟨is.different, List.nodup_singleton n, ?_⟩
    rintro cell inList other isNew rfl
    exact fresh (List.mem_singleton.mp isNew ▸ inList)
  · intro cell member
    rw [← List.cons_append, List.mem_append, List.mem_singleton] at member
    rcases member with inList | rfl
    · exact is.proper cell inList
    · exact proper

/-- A node with another link makes the list go on behind it. -/
theorem addTail_not_isSlist (fresh : n ∉ list :: nodes) (goesOn : next n ≠ 0) :
    ¬ IsSlist (Function.update next (nodes.getLastD list) n) list (nodes ++ [n]) := by
  intro is
  have ends := (path_concat.mp is.path).2
  rw [addTail_link fresh] at ends
  exact goesOn ends

/-- The memory after a node was deleted. -/
theorem tuyaSlistDel_middle (is : IsSlist next list (left ++ node :: right)) :
    tuyaSlistDel (left.length + 1) next list node =
      some (Function.update (Function.update next (left.getLastD list) (next node)) node 0) := by
  obtain ⟨middle, before, isNode, -⟩ := path_append.mp is.path
  have absent : node ∉ left := fun inLeft =>
    (List.nodup_append.mp (List.nodup_cons.mp is.different).2).2.2 node inLeft node
      List.mem_cons_self rfl
  have proper : ∀ other ∈ left, other ≠ 0 := fun other member =>
    is.nodes_proper other (List.mem_append_left _ member)
  have more : node ≠ 0 :=
    is.nodes_proper node (List.mem_append_right _ List.mem_cons_self)
  rw [tuyaSlistDel, delLoop_skip 1 before proper absent, isNode, delLoop, if_pos more,
    if_neg (not_not.mpr rfl)]

theorem tuyaSlistDel_absent (is : IsSlist next list nodes) (absent : node ∉ nodes) :
    tuyaSlistDel (nodes.length + 1) next list node = some next := by
  rw [tuyaSlistDel, delLoop_skip 1 is.path is.nodes_proper absent, delLoop,
    if_neg (not_not.mpr rfl)]

theorem del_isSlist (is : IsSlist next list (left ++ node :: right)) :
    IsSlist (Function.update (Function.update next (left.getLastD list) (next node)) node 0) list
      (left ++ right) := by
  obtain ⟨middle, before, isNode, after⟩ := path_append.mp is.path
  have different := is.different
  rw [← List.cons_append, List.nodup_middle, List.nodup_cons, List.cons_append] at different
  obtain ⟨absent, rest⟩ := different
  have inLeft : ∀ cell ∈ list :: left, cell ≠ node := by
    rintro cell member rfl
    apply absent
    rw [← List.cons_append]
    exact List.mem_append_left _ member
  have apart : (list :: left).Nodup ∧ ∀ cell ∈ right, cell ≠ left.getLastD list := by
    rw [← List.cons_append] at rest
    obtain ⟨first, -, disjoint⟩ := List.nodup_append.mp rest
    exact ⟨first, fun cell member same =>
      disjoint _ List.getLastD_mem_cons cell member same.symm⟩
  refine ⟨?_, rest, ?_⟩
  · rw [path_append]
    refine ⟨next node, ?_, ?_⟩
    · apply before.relink apart.1
      · intro cell member notLast
        rw [Function.update_of_ne (inLeft cell member), Function.update_of_ne notLast]
      · rw [Function.update_of_ne (inLeft _ List.getLastD_mem_cons), Function.update_self]
    · apply after.congr
      intro cell member
      have notNode : cell ≠ node := by
        rintro rfl
        exact absent (List.mem_cons_of_mem _ (List.mem_append_right _ member))
      rw [Function.update_of_ne notNode, Function.update_of_ne (apart.2 cell member)]
  · intro cell member
    apply is.proper
    rw [List.mem_cons, List.mem_append] at member ⊢
    rcases member with isList | inside | behind
    · exact Or.inl isList
    · exact Or.inr (Or.inl inside)
    · exact Or.inr (Or.inr (List.mem_cons_of_mem _ behind))

/-- Each operation ends in a memory that is as it should be, but for the link of a
node added at the tail. -/
theorem slistOp_performs {op : SlistOp} (is : IsSlist next list nodes)
    (allowed : op.Allowed list nodes) (nullAtTail : NullAtTail next op) :
    ∃ next', Performs next next' list nodes op := by
  cases op with
  | addHead n =>
      exact ⟨_, ⟨0, rfl⟩, tuyaSlistAddHead_isSlist is allowed.1 allowed.2,
        fun _ isDel => SlistOp.noConfusion isDel, fun _ isDel => SlistOp.noConfusion isDel⟩
  | addTail n =>
      refine ⟨_, ⟨nodes.length + 1, ?_⟩,
        addTail_isSlist is allowed.1 allowed.2 (nullAtTail n rfl),
        fun _ isDel => SlistOp.noConfusion isDel, fun _ isDel => SlistOp.noConfusion isDel⟩
      rw [SlistOp.run, tuyaSlistAddTail_eq is, if_pos (Nat.lt_succ_self _)]
  | del node =>
      by_cases member : node ∈ nodes
      · obtain ⟨left, right, rfl⟩ := List.append_of_mem member
        have edited := del_isSlist is
        rw [← erase_middle (List.nodup_cons.mp is.different).2] at edited
        refine ⟨_, ⟨_, tuyaSlistDel_middle is⟩, edited, ?_, ?_⟩
        · intro other isDel _
          rw [← SlistOp.del.inj isDel]
          exact Function.update_self _ _ _
        · intro other isDel absent
          rw [← SlistOp.del.inj isDel] at absent
          exact absurd member absent
      · refine ⟨next, ⟨_, tuyaSlistDel_absent is member⟩, ?_, ?_, fun _ _ _ => rfl⟩
        · rw [SlistOp.edit, List.erase_of_not_mem member]
          exact is
        · intro other isDel isMember
          rw [← SlistOp.del.inj isDel] at isMember
          exact absurd isMember member

/-! ## Runs -/

theorem addTailLoop_more {fuel pos last result : Nat}
    (found : addTailLoop next fuel pos last = some result) (more : Nat) :
    addTailLoop next (fuel + more) pos last = some result := by
  induction fuel generalizing pos last with
  | zero => exact absurd found (by simp [addTailLoop])
  | succ fuel inductionHypothesis =>
      rw [Nat.add_right_comm]
      rw [addTailLoop] at found ⊢
      by_cases goesOn : pos ≠ 0
      · rw [if_pos goesOn] at found ⊢
        exact inductionHypothesis found
      · rw [if_neg goesOn] at found ⊢
        exact found

theorem delLoop_more {fuel pos last : Nat} {next' : Nat → Nat}
    (found : delLoop next node fuel pos last = some next') (more : Nat) :
    delLoop next node (fuel + more) pos last = some next' := by
  induction fuel generalizing pos last with
  | zero => exact absurd found (by simp [delLoop])
  | succ fuel inductionHypothesis =>
      rw [Nat.add_right_comm]
      rw [delLoop] at found ⊢
      by_cases goesOn : pos ≠ 0
      · rw [if_pos goesOn] at found ⊢
        by_cases other : pos ≠ node
        · rw [if_pos other] at found ⊢
          exact inductionHypothesis found
        · rw [if_neg other] at found ⊢
          exact found
      · rw [if_neg goesOn] at found ⊢
        exact found

/-- An operation that ends with some fuel ends alike with more. -/
theorem run_more {op : SlistOp} {fuel : Nat} {next' : Nat → Nat}
    (runs : op.run fuel next list = some next') (more : Nat) :
    op.run (fuel + more) next list = some next' := by
  cases op with
  | addHead n => exact runs
  | addTail n =>
      obtain ⟨last, found, isLast⟩ := Option.map_eq_some_iff.mp runs
      exact Option.map_eq_some_iff.mpr ⟨last, addTailLoop_more found more, isLast⟩
  | del node => exact delLoop_more runs more

theorem run_unique {op : SlistOp} {fuel1 fuel2 : Nat} {next1 next2 : Nat → Nat}
    (runs1 : op.run fuel1 next list = some next1) (runs2 : op.run fuel2 next list = some next2) :
    next1 = next2 := by
  have more1 := run_more runs1 fuel2
  have more2 := run_more runs2 fuel1
  rw [Nat.add_comm] at more2
  exact Option.some.inj (more1.symm.trans more2)

/-- Whatever the history of the nodes, the list is as in the sequence model. -/
theorem reaches_isSlist {next' : Nat → Nat} {nodes' : List Nat} (is : IsSlist next list nodes)
    (reaches : Reaches list next nodes next' nodes') : IsSlist next' list nodes' := by
  induction reaches with
  | refl => exact is
  | op _ allowed nullAtTail runs inductionHypothesis =>
      obtain ⟨ended, performs⟩ := slistOp_performs (inductionHypothesis is) allowed nullAtTail
      obtain ⟨fuel, runs'⟩ := performs.runs
      rw [run_unique runs runs']
      exact performs.edited
  | elsewhere _ same inductionHypothesis => exact (inductionHypothesis is).congr same

theorem Performs.nullAtTail {op : SlistOp} {next' : Nat → Nat} (is : IsSlist next list nodes)
    (allowed : op.Allowed list nodes) (performs : Performs next next' list nodes op) :
    NullAtTail next op := by
  rintro n rfl
  by_contra goesOn
  obtain ⟨fuel, runs⟩ := performs.runs
  have edited := performs.edited
  rw [SlistOp.run, tuyaSlistAddTail_eq is] at runs
  split at runs
  · rw [← Option.some.inj runs] at edited
    exact addTail_not_isSlist allowed.2 goesOn edited
  · exact absurd runs (by simp)

/-- An operation does what it should exactly when a node that is added at the tail
points to nothing; and in a run in which that is so, the list is as in the sequence
model. -/
theorem slist_sequences (is : IsSlist next list nodes) :
    (∀ op : SlistOp, op.Allowed list nodes →
      ((∃ next', Performs next next' list nodes op) ↔ NullAtTail next op)) ∧
      ∀ next' nodes', Reaches list next nodes next' nodes' → IsSlist next' list nodes' := by
  refine ⟨?_, fun next' nodes' => reaches_isSlist is⟩
  intro op allowed
  constructor
  · rintro ⟨next', performs⟩
    exact performs.nullAtTail is allowed
  · exact slistOp_performs is allowed

/-- Node 2, which points to nothing, is added at the tail of an empty list, and node
3 in front of it. -/
theorem slist_add_two :
    IsSlist (tuyaSlistAddHead (Function.update (fun _ => 0) 1 2) 1 3) 1 [3, 2] := by
  have empty : IsSlist (fun _ => 0) 1 [] := ⟨rfl, by simp, by simp⟩
  have allowedTail : SlistOp.Allowed 1 [] (.addTail 2) := ⟨by decide, by decide⟩
  have allowedHead : SlistOp.Allowed 1 [2] (.addHead 3) := ⟨by decide, by decide⟩
  have runsTail : SlistOp.run 1 (fun _ => 0) 1 (.addTail 2) =
      some (Function.update (fun _ => 0) 1 2) := rfl
  have runsHead : SlistOp.run 0 (Function.update (fun _ => 0) 1 2) 1 (.addHead 3) =
      some (tuyaSlistAddHead (Function.update (fun _ => 0) 1 2) 1 3) := rfl
  have added : Reaches 1 (fun _ => 0) [] (Function.update (fun _ => 0) 1 2) [2] :=
    Reaches.op (Reaches.refl _ []) allowedTail (fun _ _ => rfl) runsTail
  apply (slist_sequences empty).2
  exact Reaches.op added allowedHead (fun _ isAdd => SlistOp.noConfusion isAdd) runsHead

/-- Node 2 still points to node 3, where it was before, and the list goes on there. -/
theorem slist_add_moved :
    tuyaSlistAddTail 1 (Function.update (fun _ => 0) 2 3) 1 2 =
        some (Function.update (Function.update (fun _ => 0) 2 3) 1 2) ∧
      SlistOp.Allowed 1 [] (.addTail 2) ∧
      ¬ ∃ next', Performs (Function.update (fun _ => 0) 2 3) next' 1 [] (.addTail 2) := by
  have empty : IsSlist (Function.update (fun _ => 0) 2 3) 1 [] := ⟨rfl, by simp, by simp⟩
  have allowed : SlistOp.Allowed 1 [] (.addTail 2) := ⟨by decide, by decide⟩
  refine ⟨rfl, allowed, ?_⟩
  rintro ⟨next', performs⟩
  have null := performs.nullAtTail empty allowed 2 rfl
  exact absurd null (by decide)

end TuyaAdapter.TuyaSlist
