import Mathlib.Data.List.Nodup
import TuyaAdapter.Foundation.HashChain

/-!
Contract: the functions of `tuya_hlist.h`, in a memory of any number of lists.

A `pprev` names the cell that points to its node; the head that does not exist
stands for `NULL`. A function has no result when it writes through `NULL`.
-/

namespace TuyaAdapter.TuyaHlist

open Foundation.HashChain Foundation.SeparateLists

/-! ## The functions -/

/-- The heads and nodes of all lists. The head `none` does not exist. -/
abbrev Hlists := Chains (Option Nat) Nat

abbrev Cell := Slot (Option Nat) Nat

def null : Cell := .head none

def tuyaInitHlistNode (chains : Hlists) (h : Nat) : Hlists :=
  { chains with
    next := Function.update chains.next h none
    pprev := Function.update chains.pprev h null }

def tuyaHlistUnhashed (chains : Hlists) (h : Nat) : Bool := chains.pprev h = null

/-- `__tuya_hlist_del`. -/
def hlistDel (chains : Hlists) (n : Nat) : Option Hlists :=
  let next := chains.next n
  let pprev := chains.pprev n
  if pprev = null then none
  else some ((chains.set pprev next).setBack next pprev)

def tuyaHlistDel (chains : Hlists) (n : Nat) : Option Hlists := hlistDel chains n

def tuyaHlistDelInit (chains : Hlists) (n : Nat) : Option Hlists :=
  if !tuyaHlistUnhashed chains n then
    (hlistDel chains n).map fun chains => tuyaInitHlistNode chains n
  else some chains

def tuyaHlistAddHead (chains : Hlists) (n h : Nat) : Hlists :=
  let first := chains.first (some h)
  let chains := chains.set (.next n) first
  let chains := chains.setBack first (.next n)
  let chains := chains.set (.head (some h)) (some n)
  chains.setBack (some n) (.head (some h))

def tuyaHlistAddBefore (chains : Hlists) (n next : Nat) : Option Hlists :=
  let chains := chains.setBack (some n) (chains.pprev next)
  let chains := chains.set (.next n) (some next)
  let chains := chains.setBack (some next) (.next n)
  if chains.pprev n = null then none
  else some (chains.set (chains.pprev n) (some n))

def tuyaHlistAddAfter (chains : Hlists) (n next : Nat) : Hlists :=
  let chains := chains.set (.next next) (chains.next n)
  let chains := chains.set (.next n) (some next)
  let chains := chains.setBack (some next) (.next n)
  chains.setBack (chains.next next) (.next next)

/-! ## The sequence model -/

/-- A list at a head that exists. -/
def hlistShape : Shape Hlists Nat Nat Cell where
  Is chains head nodes := chainShape.Is chains (some head) nodes
  Owns head nodes cell := chainShape.Owns (some head) nodes cell
  Same := chainShape.Same
  frame is same := chainShape.frame is same

inductive HlistOp where
  | addHead (n h : Nat)
  | addBefore (n next : Nat)
  | addAfter (n next : Nat)
  | del (n : Nat)
  | delInit (n : Nat)
deriving DecidableEq, Repr

def HlistOp.run (chains : Hlists) : HlistOp → Option Hlists
  | .addHead n h => some (tuyaHlistAddHead chains n h)
  | .addBefore n next => tuyaHlistAddBefore chains n next
  | .addAfter n next => some (tuyaHlistAddAfter chains n next)
  | .del n => tuyaHlistDel chains n
  | .delInit n => tuyaHlistDelInit chains n

/-- What an operation does to the sequences. A node that is added is on no list. Of
the two nodes of `tuya_hlist_add_after`, the one on no list is added behind the
other. -/
inductive Edit (lists : Lists Nat Nat) : HlistOp → Lists Nat Nat → Prop
  | addHead {n h : Nat} {nodes : List Nat} (isList : lists h = some nodes)
      (free : Free hlistShape lists (.next n)) :
      Edit lists (.addHead n h) (Function.update lists h (some (n :: nodes)))
  | addBefore {n next h : Nat} {left right : List Nat}
      (isList : lists h = some (left ++ next :: right))
      (free : Free hlistShape lists (.next n)) :
      Edit lists (.addBefore n next)
        (Function.update lists h (some (left ++ n :: next :: right)))
  | addAfter {n next h : Nat} {left right : List Nat}
      (isList : lists h = some (left ++ next :: right))
      (free : Free hlistShape lists (.next n)) :
      Edit lists (.addAfter n next)
        (Function.update lists h (some (left ++ next :: n :: right)))
  | addAfterFirst {n next h : Nat} {left right : List Nat}
      (isList : lists h = some (left ++ n :: right))
      (free : Free hlistShape lists (.next next)) :
      Edit lists (.addAfter n next)
        (Function.update lists h (some (left ++ n :: next :: right)))
  | del {n h : Nat} {left right : List Nat} (isList : lists h = some (left ++ n :: right)) :
      Edit lists (.del n) (Function.update lists h (some (left ++ right)))
  | delInit {n h : Nat} {left right : List Nat} (isList : lists h = some (left ++ n :: right)) :
      Edit lists (.delInit n) (Function.update lists h (some (left ++ right)))

/-- The operation has a result that holds the edited lists and leaves the other
ones alone. -/
def Performs (chains : Hlists) (lists lists' : Lists Nat Nat) (op : HlistOp) : Prop :=
  ∃ chains', op.run chains = some chains' ∧ Holds hlistShape chains' lists' ∧
    Untouched hlistShape lists lists' chains chains'

/-- The node that is added behind another one is the second argument. -/
def SecondAdded (lists : Lists Nat Nat) (op : HlistOp) : Prop :=
  ∀ n next, op = .addAfter n next → ¬ Free hlistShape lists (.next n)

/-! ## Insertion -/

variable {chains : Hlists} {lists : Lists Nat Nat} {n next h : Nat} {left right nodes : List Nat}

theorem free_notMem (free : Free hlistShape lists (.next n)) (isList : lists h = some nodes) :
    n ∉ nodes := fun member => free h nodes isList (Or.inr ⟨n, member, rfl⟩)

/-- The slots of a list are its cells. -/
theorem slotBehind_owned (right : List Nat) :
    hlistShape.Owns h (left ++ right) (slotBehind (.head (some h)) left) := by
  rcases slotBehind_eq (.head (some h) : Cell) left with isHead | ⟨before, inLeft, isBefore⟩
  · exact Or.inl isHead
  · exact Or.inr ⟨before, List.mem_append_left _ inLeft, isBefore⟩

/-- What a slot of a list holds is on the list. -/
theorem target_owned {after : Nat} (holds : Holds hlistShape chains lists)
    (isList : lists h = some (left ++ right))
    (isAfter : chains.target (slotBehind (.head (some h)) left) = some after) :
    hlistShape.Owns h (left ++ right) (.next after) := by
  have behind := (chained_append.mp (holds.are isList).1).2
  exact Or.inr ⟨after, List.mem_append_right _ (behind.mem_of_target isAfter), rfl⟩

/-- A node on no list is inserted at a slot of a list. -/
theorem insertAt_edits (holds : Holds hlistShape chains lists)
    (isList : lists h = some (left ++ right)) (free : Free hlistShape lists (.next n)) :
    Edits hlistShape lists chains (chains.insertAt n (slotBehind (.head (some h)) left)) h
      (left ++ right) (left ++ n :: right) := by
  have is := holds.are isList
  have fresh := free_notMem free isList
  refine ⟨⟨insertAt_chained is.1 is.2 fresh, ?_⟩, ?_, ?_⟩
  · rw [List.nodup_middle, List.nodup_cons]
    exact ⟨fresh, is.2⟩
  · rintro cell (isHead | ⟨member, inNodes, rfl⟩)
    · exact Or.inl (Or.inl isHead)
    · rw [List.mem_append, List.mem_cons, or_left_comm] at inNodes
      rcases inNodes with rfl | inRest
      · exact Or.inr free
      · exact Or.inl (Or.inr ⟨member, List.mem_append.mpr inRest, rfl⟩)
  · intro cell
    by_cases owns : hlistShape.Owns h (left ++ right) cell
    · exact Or.inr (Or.inl owns)
    · by_cases isNode : cell = .next n
      · rw [isNode]
        exact Or.inr (Or.inr free)
      · left
        apply insertAt_same ?_ isNode
        · rintro after isAfter rfl
          exact owns (target_owned holds isList isAfter)
        · rintro rfl
          exact owns (slotBehind_owned right)

/-- A node on a list has a back reference. -/
theorem pprev_eq (holds : Holds hlistShape chains lists)
    (isList : lists h = some (left ++ n :: right)) :
    chains.pprev n = slotBehind (.head (some h)) left ∧ chains.pprev n ≠ null := by
  have isBack := (chained_append.mp (holds.are isList).1).2.2.1
  refine ⟨isBack, ?_⟩
  rw [isBack]
  rcases slotBehind_eq (.head (some h) : Cell) left with isHead | ⟨before, -, isBefore⟩
  · rw [isHead, null]
    simp
  · rw [isBefore]
    exact (head_ne_next none before).symm

theorem tuyaHlistAddBefore_eq (holds : Holds hlistShape chains lists)
    (isList : lists h = some (left ++ next :: right)) (free : Free hlistShape lists (.next n)) :
    tuyaHlistAddBefore chains n next =
      some (chains.insertAt n (slotBehind (.head (some h)) left)) := by
  obtain ⟨isBack, notNull⟩ := pprev_eq holds isList
  have holdsNext := (chained_append.mp (holds.are isList).1).2.1
  have different : next ≠ n := by
    rintro rfl
    exact free_notMem free isList (List.mem_append_right _ List.mem_cons_self)
  have apart : ∀ node, some n = some node → some next ≠ some node := by
    intro node same isNext
    exact different (Option.some.inj (isNext.trans same.symm))
  unfold tuyaHlistAddBefore
  simp only [setBack_set, setBack_comm apart]
  have isPprev : (((chains.set (.next n) (some next)).setBack (some next) (.next n)).setBack
      (some n) (chains.pprev next)).pprev n = chains.pprev next := Function.update_self _ _ _
  rw [isPprev, if_neg notNull, isBack, Chains.insertAt, holdsNext]
  simp only [setBack_set]

theorem tuyaHlistAddAfter_eq (chains : Hlists) (different : n ≠ next)
    (notNext : chains.next n ≠ some next) :
    tuyaHlistAddAfter chains n next = chains.insertAt next (.next n) := by
  have isNext : (((chains.set (.next next) (chains.next n)).set (.next n) (some next)).setBack
      (some next) (.next n)).next next = chains.next n := by
    simp [Chains.set, Chains.setBack, Function.update_of_ne different.symm]
  have apart : ∀ node, chains.next n = some node → some next ≠ some node := by
    intro node isNode same
    exact notNext (isNode.trans same.symm)
  unfold tuyaHlistAddAfter
  simp only [isNext]
  rw [← setBack_comm apart, ← setBack_set]
  rfl

/-! ## Removal -/

theorem hlistDel_eq (holds : Holds hlistShape chains lists)
    (isList : lists h = some (left ++ n :: right)) :
    hlistDel chains n = some (chains.del n) := if_neg (pprev_eq holds isList).2

/-- A node is removed; afterwards its fields may hold anything. -/
theorem removed_edits {chains' : Hlists} (holds : Holds hlistShape chains lists)
    (isList : lists h = some (left ++ n :: right))
    (same : ∀ cell, cell ≠ .next n → SameCell (chains.del n) chains' cell) :
    Edits hlistShape lists chains chains' h (left ++ n :: right) (left ++ right) := by
  have is := holds.are isList
  have different := is.2
  rw [List.nodup_middle, List.nodup_cons] at different
  have removed : hlistShape.Is (chains.del n) h (left ++ right) :=
    ⟨del_chained is.1 is.2, different.2⟩
  have kept : ∀ cell, hlistShape.Owns h (left ++ right) cell →
      hlistShape.Owns h (left ++ n :: right) cell ∧ cell ≠ .next n := by
    rintro cell (isHead | ⟨member, inRest, rfl⟩)
    · refine ⟨Or.inl isHead, ?_⟩
      rw [isHead]
      exact head_ne_next (some h) n
    · refine ⟨Or.inr ⟨member, ?_, rfl⟩, ?_⟩
      · rw [List.mem_append, List.mem_cons, or_left_comm]
        exact Or.inr (List.mem_append.mp inRest)
      · rw [ne_eq, Slot.next.injEq]
        rintro rfl
        exact different.1 inRest
  refine ⟨hlistShape.frame removed fun cell owns => same cell (kept cell owns).2,
    fun cell owns => Or.inl (kept cell owns).1, ?_⟩
  intro cell
  by_cases owns : hlistShape.Owns h (left ++ n :: right) cell
  · exact Or.inr (Or.inl owns)
  · left
    have notNode : cell ≠ .next n := by
      rintro rfl
      exact owns (Or.inr ⟨n, List.mem_append_right _ List.mem_cons_self, rfl⟩)
    refine SameCell.trans (del_same ?_ ?_) (same cell notNode)
    · rw [(pprev_eq holds isList).1]
      rintro rfl
      exact owns (slotBehind_owned (n :: right))
    · rintro after isAfter rfl
      have behind := (chained_append.mp is.1).2.2.2
      cases right with
      | nil => exact absurd (behind.symm.trans isAfter) (by simp)
      | cons first rest =>
          apply owns
          rw [← Option.some.inj (behind.1.symm.trans isAfter)]
          exact Or.inr ⟨first, by simp, rfl⟩

theorem tuyaInitHlistNode_same {cell : Cell} (different : cell ≠ .next n) :
    SameCell chains (tuyaInitHlistNode chains n) cell := by
  cases cell with
  | head _ => exact ⟨rfl, fun _ isNode => absurd isNode (head_ne_next _ _)⟩
  | next other =>
      have notNode : other ≠ n := fun same => different (by rw [same])
      refine ⟨Function.update_of_ne notNode _ _, ?_⟩
      rintro node isNode
      rw [Slot.next.injEq] at isNode
      rw [← isNode]
      exact Function.update_of_ne notNode _ _

theorem tuyaHlistDelInit_unhashed (isNull : chains.pprev n = null) :
    tuyaHlistDelInit chains n = some chains := by
  simp [tuyaHlistDelInit, tuyaHlistUnhashed, isNull]

theorem tuyaHlistDelInit_eq (holds : Holds hlistShape chains lists)
    (isList : lists h = some (left ++ n :: right)) :
    tuyaHlistDelInit chains n = some (tuyaInitHlistNode (chains.del n) n) := by
  have notNull := (pprev_eq holds isList).2
  simp [tuyaHlistDelInit, tuyaHlistUnhashed, notNull, hlistDel_eq holds isList]

/-! ## The node added behind another one -/

/-- The first node gets the second one as its successor. -/
theorem tuyaHlistAddAfter_next (chains : Hlists) (n next : Nat) :
    (tuyaHlistAddAfter chains n next).next n = some next := by
  unfold tuyaHlistAddAfter
  have kept : ∀ (links : Hlists) (node : Option Nat) (back : Cell),
      (links.setBack node back).next = links.next := by
    intro links node back
    cases node <;> rfl
  rw [kept, kept]
  exact Function.update_self _ _ _

/-- The first node does not follow the second one. -/
theorem tuyaHlistAddAfter_not_behind (left right : List Nat) :
    ¬ hlistShape.Is (tuyaHlistAddAfter chains n next) h (left ++ next :: n :: right) := by
  rintro ⟨chained, nodup⟩
  obtain ⟨-, -, -, -, -, after⟩ := chained_append.mp chained
  have isNext := tuyaHlistAddAfter_next chains n next
  have apart := (List.nodup_cons.mp (List.nodup_append.mp nodup).2.1).1
  cases right with
  | nil => exact absurd (after.symm.trans isNext) (by simp)
  | cons first rest =>
      have isFirst : first = next := Option.some.inj (after.1.symm.trans isNext)
      exact apart (isFirst ▸ List.mem_cons_of_mem _ List.mem_cons_self)

/-! ## The result -/

theorem Edits.performs {chains' : Hlists} {op : HlistOp} {nodes' : List Nat}
    (edits : Edits hlistShape lists chains chains' h nodes nodes')
    (runs : op.run chains = some chains')
    (holds : Holds hlistShape chains lists) (isList : lists h = some nodes)
    (changed : nodes'.length ≠ nodes.length) :
    Performs chains lists (Function.update lists h (some nodes')) op :=
  ⟨chains', runs, edits.holds holds isList,
    edits.untouched holds isList fun same => changed (by rw [same])⟩

theorem longer (left right : List Nat) (n : Nat) :
    (left ++ n :: right).length ≠ (left ++ right).length := by
  rw [List.length_append, List.length_append, List.length_cons]
  omega

theorem hlistOp_performs {op : HlistOp} {lists' : Lists Nat Nat}
    (holds : Holds hlistShape chains lists) (edit : Edit lists op lists')
    (second : SecondAdded lists op) : Performs chains lists lists' op := by
  cases edit with
  | @addHead n h nodes isList free =>
      have edits : Edits hlistShape lists chains (tuyaHlistAddHead chains n h) h nodes (n :: nodes) :=
        insertAt_edits holds (show lists h = some ([] ++ nodes) from isList) free
      exact Edits.performs edits rfl holds isList (longer [] nodes n)
  | @addBefore n next h left right isList free =>
      exact Edits.performs (insertAt_edits holds isList free)
        (tuyaHlistAddBefore_eq holds isList free) holds isList (longer left _ n)
  | addAfter isList free => exact absurd free (second _ _ rfl)
  | @addAfterFirst n next h left right isList free =>
      have different : n ≠ next := by
        rintro rfl
        exact free_notMem free isList (List.mem_append_right _ List.mem_cons_self)
      have isCut : lists h = some ((left ++ [n]) ++ right) := by
        rw [List.append_assoc, List.singleton_append, isList]
      have edits := insertAt_edits holds isCut free
      rw [slotBehind_concat, List.append_assoc, List.append_assoc, List.singleton_append,
        List.singleton_append] at edits
      have notNext : chains.next n ≠ some next := by
        intro isNext
        have owned := target_owned holds isCut (by rw [slotBehind_concat]; exact isNext)
        exact free h _ isCut owned
      refine Edits.performs edits ?_ holds isList ?_
      · rw [HlistOp.run, tuyaHlistAddAfter_eq chains different notNext]
      · have lengths := longer (left ++ [n]) right next
        rw [List.append_assoc, List.append_assoc, List.singleton_append,
          List.singleton_append] at lengths
        exact lengths
  | @del n h left right isList =>
      exact Edits.performs (removed_edits holds isList fun cell _ => SameCell.refl _ cell)
        (hlistDel_eq holds isList) holds isList (longer left right n).symm
  | @delInit n h left right isList =>
      exact Edits.performs (removed_edits holds isList fun _ => tuyaInitHlistNode_same)
        (tuyaHlistDelInit_eq holds isList) holds isList (longer left right n).symm

/-- The operations do what they should but for one: a node that should be added
behind another one may only be the second argument. -/
theorem hlistOp_performs_iff {op : HlistOp} {lists' : Lists Nat Nat}
    (holds : Holds hlistShape chains lists) (edit : Edit lists op lists') :
    (Performs chains lists lists' op ∧
      ∀ node, chains.pprev node = null → tuyaHlistDelInit chains node = some chains) ↔
      SecondAdded lists op := by
  constructor
  · rintro ⟨⟨chains', runs, holds', -⟩, -⟩ first second rfl free
    cases edit with
    | @addAfter n next h left right isList free =>
        rw [← Option.some.inj runs] at holds'
        exact tuyaHlistAddAfter_not_behind left right (holds'.are (Function.update_self _ _ _))
    | addAfterFirst isList _ =>
        exact free_notMem free isList (List.mem_append_right _ List.mem_cons_self)
  · exact fun second => ⟨hlistOp_performs holds edit second, fun _ => tuyaHlistDelInit_unhashed⟩

/-- A list of node 1, and node 2 on no list. -/
def oneHashed : Hlists where
  first head := if head = some 0 then some 1 else none
  next _ := none
  pprev node := if node = 1 then .head (some 0) else null

def oneList : Lists Nat Nat := fun head => if head = 0 then some [1] else none

theorem oneList_eq (isList : oneList h = some nodes) : h = 0 ∧ nodes = [1] := by
  unfold oneList at isList
  split at isList
  · exact ⟨‹_›, (Option.some.inj isList).symm⟩
  · exact absurd isList (by simp)

theorem oneHashed_holds : Holds hlistShape oneHashed oneList := by
  constructor
  · intro head nodes isList
    obtain ⟨rfl, rfl⟩ := oneList_eq isList
    exact ⟨⟨rfl, rfl, rfl⟩, by simp⟩
  · intro head other nodes others cell isList isOther _ _
    rw [(oneList_eq isList).1, (oneList_eq isOther).1]

theorem oneList_free : Free hlistShape oneList (.next 2) := by
  intro head nodes isList owns
  obtain ⟨rfl, rfl⟩ := oneList_eq isList
  rcases owns with isHead | ⟨node, member, isNode⟩
  · exact head_ne_next _ _ isHead.symm
  · rw [Slot.next.injEq, List.mem_singleton.mp member] at isNode
    exact absurd isNode (by decide)

/-- Node 2 is added behind node 1 when it is the second argument. -/
theorem hlistOp_performs_second :
    Performs oneHashed oneList (Function.update oneList 0 (some [1, 2])) (.addAfter 1 2) := by
  have edit : Edit oneList (.addAfter 1 2) (Function.update oneList 0 (some [1, 2])) :=
    Edit.addAfterFirst (show oneList 0 = some ([] ++ 1 :: []) from rfl) oneList_free
  refine ((hlistOp_performs_iff oneHashed_holds edit).mpr ?_).1
  intro n next isOp free
  obtain ⟨rfl, rfl⟩ := HlistOp.addAfter.inj isOp
  exact free 0 [1] rfl (Or.inr ⟨1, List.mem_cons_self, rfl⟩)

/-- When it is the first argument, as the header has it, the list is broken. -/
theorem hlistOp_first_breaks :
    Edit oneList (.addAfter 2 1) (Function.update oneList 0 (some [1, 2])) ∧
      ¬ Performs oneHashed oneList (Function.update oneList 0 (some [1, 2])) (.addAfter 2 1) := by
  refine ⟨Edit.addAfter (show oneList 0 = some ([] ++ 1 :: []) from rfl) oneList_free, ?_⟩
  rintro ⟨chains', runs, holds', -⟩
  rw [← Option.some.inj runs] at holds'
  exact tuyaHlistAddAfter_not_behind [] [] (holds'.are (Function.update_self _ _ _))

end TuyaAdapter.TuyaHlist
