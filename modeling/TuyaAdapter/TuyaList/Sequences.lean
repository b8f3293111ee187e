import TuyaAdapter.TuyaQueue.TuyaList

/-!
Contract: `tuya_list.c` and `tuya_list_for_each_safe`, in a memory of any number
of lists.

Owns the functions that the queue does not use, and the sequence model: each
operation edits the sequence of one list. The body of a loop may leave the node
it sees alone, delete it, or delete and free it, after which its fields may hold
anything.
-/

namespace TuyaAdapter.TuyaList

open Foundation.CircularList Foundation.SeparateLists TuyaQueue

/-! ## The functions -/

/-- `tuya_list_del_init`. -/
def tuyaListDelInit (links : Links Nat) (entry : Nat) : Links Nat :=
  initListHead (listDel links (links.prev entry) (links.next entry)) entry

/-- `tuya_list_splice`. -/
def tuyaListSplice (links : Links Nat) (list head : Nat) : Links Nat :=
  let first := links.next list
  if first ≠ list then
    let last := links.prev list
    let atNode := links.next head
    let prev := Function.update links.prev first head
    let next := Function.update links.next head first
    let next := Function.update next last atNode
    let prev := Function.update prev atNode last
    ⟨next, prev⟩
  else links

/-- What the body of a loop does to the node it sees. -/
inductive Body where
  | keep
  | del
  | delInit
  /-- `DeleteNodeAndFree`, and what the fields hold afterwards. -/
  | delFree (next prev : Nat)
deriving DecidableEq, Repr

def Body.run (links : Links Nat) (node : Nat) : Body → Links Nat
  | .keep => links
  | .del => tuyaListDel links node
  | .delInit => tuyaListDelInit links node
  | .delFree next prev =>
      let links := tuyaListDel links node
      ⟨Function.update links.next node next, Function.update links.prev node prev⟩

/-- The loop of `tuya_list_for_each_safe`: the nodes its body sees, and the memory
behind it. -/
def forEachSafeLoop (body : Nat → Body) (head : Nat) :
    Nat → Links Nat → Nat → Option (List Nat × Links Nat)
  | 0, _, _ => none
  | fuel + 1, links, p =>
      let n := links.next p
      if p ≠ head then
        (forEachSafeLoop body head fuel ((body p).run links p) n).map fun later =>
          (p :: later.1, later.2)
      else some ([], links)

def tuyaListForEachSafe (fuel : Nat) (body : Nat → Body) (links : Links Nat) (head : Nat) :
    Option (List Nat × Links Nat) :=
  forEachSafeLoop body head fuel links (links.next head)

/-! ## The sequence model -/

inductive ListOp where
  | add (new head : Nat)
  | addTail (new head : Nat)
  | del (entry : Nat)
  | delInit (entry : Nat)
  | splice (list head : Nat)
deriving DecidableEq, Repr

def ListOp.run (links : Links Nat) : ListOp → Links Nat
  | .add new head => tuyaListAdd links new head
  | .addTail new head => tuyaListAddTail links new head
  | .del entry => tuyaListDel links entry
  | .delInit entry => tuyaListDelInit links entry
  | .splice list head => tuyaListSplice links list head

/-- What an operation does to the sequences. A node that is added is on no list; a
node that is deleted is on one; the head of a spliced list has no list after it. -/
inductive Edit (lists : Lists Nat Nat) : ListOp → Lists Nat Nat → Prop
  | add {new head : Nat} {nodes : List Nat} (isList : lists head = some nodes)
      (free : Free ringShape lists new) :
      Edit lists (.add new head) (Function.update lists head (some (new :: nodes)))
  | addTail {new head : Nat} {nodes : List Nat} (isList : lists head = some nodes)
      (free : Free ringShape lists new) :
      Edit lists (.addTail new head) (Function.update lists head (some (nodes ++ [new])))
  | del {entry head : Nat} {nodes : List Nat} (isList : lists head = some nodes)
      (member : entry ∈ nodes) :
      Edit lists (.del entry) (Function.update lists head (some (nodes.erase entry)))
  | delInit {entry head : Nat} {nodes : List Nat} (isList : lists head = some nodes)
      (member : entry ∈ nodes) :
      Edit lists (.delInit entry) (Function.update lists head (some (nodes.erase entry)))
  | splice {list head : Nat} {sources nodes : List Nat} (isSource : lists list = some sources)
      (isList : lists head = some nodes) (different : list ≠ head) :
      Edit lists (.splice list head)
        (Function.update (Function.update lists list none) head (some (sources ++ nodes)))

/-! ## Insertion -/

variable {links : Links Nat} {lists : Lists Nat Nat} {head node : Nat} {nodes : List Nat}

/-- Joining a node in between two neighbours writes to these three. -/
theorem insert_written {before after : Nat} (isBefore : before ∈ head :: nodes)
    (isAfter : after ∈ head :: nodes) (free : Free ringShape lists node) (cell : Nat) :
    SameFields links ((links.join node after).join before node) cell ∨ cell ∈ head :: nodes ∨
      Free ringShape lists cell := by
  by_cases inList : cell ∈ head :: nodes
  · exact Or.inr (Or.inl inList)
  · by_cases isNode : cell = node
    · rw [isNode]
      exact Or.inr (Or.inr free)
    · have notBefore : cell ≠ before := fun same => inList (same ▸ isBefore)
      have notAfter : cell ≠ after := fun same => inList (same ▸ isAfter)
      exact Or.inl ((join_same isNode notAfter).trans (join_same notBefore isNode))

theorem next_mem (ring : Ring links head nodes) : links.next head ∈ head :: nodes := by
  have member := List.mem_of_mem_head? ring.ends.1
  rw [List.mem_append, List.mem_singleton] at member
  exact List.mem_cons.mpr member.symm

theorem prev_mem (ring : Ring links head nodes) : links.prev head ∈ head :: nodes :=
  List.mem_of_getLast? ring.ends.2

theorem free_notMem (free : Free ringShape lists node) (isList : lists head = some nodes) :
    node ∉ head :: nodes := free head nodes isList

theorem tuyaListAdd_edits (holds : Holds ringShape links lists) (isList : lists head = some nodes)
    (free : Free ringShape lists node) :
    Edits ringShape lists links (tuyaListAdd links node head) head nodes (node :: nodes) := by
  have ring : Ring links head nodes := holds.are isList
  refine ⟨tuyaListAdd_ring ring (free_notMem free isList), ?_,
    insert_written List.mem_cons_self (next_mem ring) free⟩
  intro cell owns
  rcases List.mem_cons.mp owns with rfl | isNode
  · exact Or.inl List.mem_cons_self
  · rcases List.mem_cons.mp isNode with rfl | inNodes
    · exact Or.inr free
    · exact Or.inl (List.mem_cons_of_mem _ inNodes)

theorem tuyaListAddTail_edits (holds : Holds ringShape links lists)
    (isList : lists head = some nodes) (free : Free ringShape lists node) :
    Edits ringShape lists links (tuyaListAddTail links node head) head nodes
      (nodes ++ [node]) := by
  have ring : Ring links head nodes := holds.are isList
  refine ⟨tuyaListAddTail_ring ring (free_notMem free isList), ?_,
    insert_written (prev_mem ring) List.mem_cons_self free⟩
  intro cell owns
  have either : cell ∈ (head :: nodes) ++ [node] := owns
  rcases List.mem_append.mp either with inList | isNode
  · exact Or.inl inList
  · rw [List.mem_singleton.mp isNode]
    exact Or.inr free

/-! ## Removal -/

/-- A node anywhere in the list is removed; its neighbours are of the list. -/
theorem tuyaListDel_anywhere {front back : List Nat}
    (ring : Ring links head (front ++ node :: back)) :
    Ring (tuyaListDel links node) head (front ++ back) ∧
      links.prev node ∈ head :: (front ++ back) ∧ links.next node ∈ head :: (front ++ back) := by
  obtain ⟨before, isBefore⟩ : ∃ before, (head :: front).getLast? = some before :=
    ⟨_, List.getLast?_eq_some_getLast (List.cons_ne_nil _ _)⟩
  obtain ⟨after, isAfter⟩ : ∃ after, (back ++ [head]).head? = some after := by
    cases back with
    | nil => exact ⟨head, rfl⟩
    | cons first rest => exact ⟨first, rfl⟩
  obtain ⟨isPrev, isNext, removed⟩ := ring.remove isBefore isAfter
  refine ⟨?_, ?_, ?_⟩
  · rw [tuyaListDel, isPrev, isNext]
    exact removed
  · rw [isPrev, ← List.cons_append]
    exact List.mem_append_left _ (List.mem_of_getLast? isBefore)
  · rw [isNext]
    have member := List.mem_of_mem_head? isAfter
    rw [List.mem_append, List.mem_singleton] at member
    rcases member with inBack | isHead
    · exact List.mem_cons_of_mem _ (List.mem_append_right _ inBack)
    · rw [isHead]
      exact List.mem_cons_self

theorem tuyaListDel_erase (ring : Ring links head nodes) (member : node ∈ nodes) :
    Ring (tuyaListDel links node) head (nodes.erase node) ∧
      links.prev node ∈ head :: nodes.erase node ∧ links.next node ∈ head :: nodes.erase node := by
  obtain ⟨front, back, rfl⟩ := List.append_of_mem member
  rw [erase_middle (List.nodup_cons.mp ring.different).2]
  exact tuyaListDel_anywhere ring

theorem erase_subset_list : ∀ cell ∈ head :: nodes.erase node, cell ∈ head :: nodes := by
  intro cell member
  rcases List.mem_cons.mp member with rfl | inRest
  · exact List.mem_cons_self
  · exact List.mem_cons_of_mem _ (List.mem_of_mem_erase inRest)

/-- Removal writes to the neighbours. -/
theorem tuyaListDel_same (ring : Ring links head nodes) (member : node ∈ nodes) {cell : Nat}
    (outside : cell ∉ head :: nodes.erase node) :
    SameFields links (tuyaListDel links node) cell := by
  obtain ⟨-, isPrev, isNext⟩ := tuyaListDel_erase ring member
  exact join_same (fun same => outside (same ▸ isPrev)) (fun same => outside (same ▸ isNext))

/-- The fields of a node that was removed may be written. -/
theorem removed_edits {links' : Links Nat} (ring : Ring links head nodes) (member : node ∈ nodes)
    (same : ∀ cell, cell ≠ node → SameFields (tuyaListDel links node) links' cell) :
    Edits ringShape lists links links' head nodes (nodes.erase node) := by
  have different := List.nodup_cons.mp ring.different
  have removed := (tuyaListDel_erase ring member).1
  refine ⟨removed.congr ?_, ?_, ?_⟩
  · intro cell inRest
    apply same
    rintro rfl
    rcases List.mem_cons.mp inRest with isHead | inErased
    · exact different.1 (isHead ▸ member)
    · exact List.Nodup.not_mem_erase different.2 inErased
  · intro cell owns
    exact Or.inl (erase_subset_list cell owns)
  · intro cell
    by_cases inList : cell ∈ head :: nodes
    · exact Or.inr (Or.inl inList)
    · left
      have notNode : cell ≠ node := fun isNode =>
        inList (isNode ▸ List.mem_cons_of_mem _ member)
      exact (tuyaListDel_same ring member fun inRest =>
        inList (erase_subset_list cell inRest)).trans (same cell notNode)

theorem initListHead_same {cell : Nat} (different : cell ≠ node) :
    SameFields links (initListHead links node) cell :=
  ⟨Function.update_of_ne different _ _, Function.update_of_ne different _ _⟩

/-- Whatever the body does to its node, the other nodes are as after the removal. -/
theorem Body.same (body : Body) (deletes : body ≠ .keep) {cell : Nat} (different : cell ≠ node) :
    SameFields (tuyaListDel links node) (body.run links node) cell := by
  cases body with
  | keep => exact absurd rfl deletes
  | del => exact SameFields.refl _ _
  | delInit => exact initListHead_same different
  | delFree next prev =>
      exact ⟨Function.update_of_ne different _ _, Function.update_of_ne different _ _⟩

/-! ## Splicing -/

theorem tuyaListSplice_nil (list head : Nat) (ring : Ring links list []) :
    tuyaListSplice links list head = links := by
  have isNext : list = links.next list := Option.some.inj ring.ends.1
  rw [tuyaListSplice, if_neg (not_not.mpr isNext.symm)]

theorem tuyaListSplice_cons {list first : Nat} {sources : List Nat} (head : Nat)
    (ring : Ring links list (first :: sources)) :
    tuyaListSplice links list head =
      (links.join head (links.next list)).join (links.prev list) (links.next head) := by
  have isNext : first = links.next list := Option.some.inj ring.ends.1
  have different : first ≠ list := by
    rintro rfl
    exact (List.nodup_cons.mp ring.different).1 List.mem_cons_self
  rw [tuyaListSplice, if_pos (isNext ▸ different)]
  rfl

theorem tuyaListSplice_edits {list : Nat} {sources : List Nat}
    (holds : Holds ringShape links lists) (isSource : lists list = some sources)
    (isList : lists head = some nodes) (different : list ≠ head) :
    Edits ringShape (Function.update lists list none) links (tuyaListSplice links list head) head
      nodes (sources ++ nodes) := by
  have sourceRing : Ring links list sources := holds.are isSource
  have ring : Ring links head nodes := holds.are isList
  have freed : ∀ cell ∈ sources, Free ringShape (Function.update lists list none) cell :=
    fun cell member => holds.free_forget isSource (List.mem_cons_of_mem _ member)
  have owned : ∀ cell ∈ head :: (sources ++ nodes),
      cell ∈ head :: nodes ∨ Free ringShape (Function.update lists list none) cell := by
    intro cell member
    rcases List.mem_cons.mp member with rfl | inBoth
    · exact Or.inl List.mem_cons_self
    · rcases List.mem_append.mp inBoth with inSource | inNodes
      · exact Or.inr (freed cell inSource)
      · exact Or.inl (List.mem_cons_of_mem _ inNodes)
  cases sources with
  | nil =>
      rw [tuyaListSplice_nil list head sourceRing]
      exact ⟨ring, owned, fun cell => Or.inl (SameFields.refl _ cell)⟩
  | cons first rest =>
      have splices : Splices links list head (first :: rest) nodes (links.next list)
          (links.prev list) (links.next head) := by
        refine ⟨sourceRing, ring, sourceRing.ends.1, ?_, ring.ends.1, ?_⟩
        · have last := sourceRing.ends.2
          rw [List.getLast?_cons_cons] at last
          exact last
        · exact fun cell member inList =>
            different (holds.apart isSource isList (List.mem_cons_of_mem _ member) inList)
      rw [tuyaListSplice_cons head sourceRing]
      refine ⟨splices.ring_splice, owned, ?_⟩
      intro cell
      by_cases inList : cell ∈ head :: nodes
      · exact Or.inr (Or.inl inList)
      · by_cases inSource : cell ∈ first :: rest
        · exact Or.inr (Or.inr (freed cell inSource))
        · left
          have notFirst : cell ≠ links.next list := fun same =>
            inSource (same ▸ List.mem_of_mem_head? splices.isFirst)
          have notLast : cell ≠ links.prev list := fun same =>
            inSource (same ▸ List.mem_of_getLast? splices.isLast)
          have notHead : cell ≠ head := fun same => inList (same ▸ List.mem_cons_self)
          have notAfter : cell ≠ links.next head := fun same => inList (same ▸ next_mem ring)
          exact (join_same notHead notFirst).trans (join_same notLast notAfter)

/-! ## Operations -/

/-- The memory holds the edited lists, and the other ones are as they were. -/
structure Performs (links links' : Links Nat) (lists lists' : Lists Nat Nat) : Prop where
  holds : Holds ringShape links' lists'
  untouched : Untouched ringShape lists lists' links links'

theorem Edits.performs {links' : Links Nat} {nodes' : List Nat}
    (edits : Edits ringShape lists links links' head nodes nodes')
    (holds : Holds ringShape links lists) (isList : lists head = some nodes)
    (changed : nodes' ≠ nodes) :
    Performs links links' lists (Function.update lists head (some nodes')) :=
  ⟨edits.holds holds isList, edits.untouched holds isList changed⟩

theorem erase_ne (member : node ∈ nodes) : nodes.erase node ≠ nodes := by
  intro same
  have shorter := List.length_erase_of_mem member
  have positive := List.length_pos_of_mem member
  rw [same] at shorter
  omega

/-- Each operation edits the sequence of one list. -/
theorem listOp_performs {op : ListOp} {lists' : Lists Nat Nat}
    (holds : Holds ringShape links lists) (edit : Edit lists op lists') :
    Performs links (op.run links) lists lists' := by
  cases edit with
  | add isList free =>
      exact Edits.performs (tuyaListAdd_edits holds isList free) holds isList
        (List.cons_ne_self _ _)
  | addTail isList free =>
      apply Edits.performs (tuyaListAddTail_edits holds isList free) holds isList
      intro same
      have longer := congrArg List.length same
      rw [List.length_append, List.length_singleton] at longer
      omega
  | del isList member =>
      exact Edits.performs
        (removed_edits (holds.are isList) member fun cell _ => SameFields.refl _ cell) holds isList
        (erase_ne member)
  | delInit isList member =>
      exact Edits.performs
        (removed_edits (holds.are isList) member fun _ other => initListHead_same other) holds
        isList (erase_ne member)
  | @splice list head sources nodes isSource isList different =>
      have edits := tuyaListSplice_edits holds isSource isList different
      have stillList : Function.update lists list none head = some nodes := by
        rw [Function.update_of_ne different.symm]
        exact isList
      refine ⟨edits.holds (holds.forget list) stillList, ?_⟩
      by_cases empty : sources = []
      · rw [empty] at isSource
        intro other others _ _ cell _
        rw [ListOp.run, tuyaListSplice_nil list head (holds.are isSource)]
        exact SameFields.refl _ cell
      · have changed : sources ++ nodes ≠ nodes := fun same =>
          empty (by simpa using same)
        intro other others isOther stays
        have notSource : other ≠ list := by
          rintro rfl
          rw [Function.update_of_ne different, Function.update_self] at stays
          exact absurd stays (by simp)
        apply edits.untouched (holds.forget list) stillList changed other others ?_ stays
        rw [Function.update_of_ne notSource]
        exact isOther

/-! ## The loop -/

/-- The nodes that the body leaves on the list. -/
def keptBy (body : Nat → Body) (nodes : List Nat) : List Nat :=
  nodes.filter fun node => body node = .keep

/-- What a loop over a list does. -/
structure Visits (body : Nat → Body) (head : Nat) (links links' : Links Nat)
    (lists : Lists Nat Nat) (nodes : List Nat) : Prop where
  holds : Holds ringShape links' (Function.update lists head (some nodes))
  untouched : ∀ other others, other ≠ head → lists other = some others →
    ∀ cell ∈ other :: others, SameFields links links' cell

theorem forEachSafeLoop_visits (body : Nat → Body) {kept rest : List Nat} {p : Nat}
    (holds : Holds ringShape links lists) (isList : lists head = some (kept ++ rest))
    (isNext : (rest ++ [head]).head? = some p) :
    ∃ links', forEachSafeLoop body head (rest.length + 1) links p = some (rest, links') ∧
      Visits body head links links' lists (kept ++ keptBy body rest) := by
  induction rest generalizing links lists kept p with
  | nil =>
      have isHead : head = p := Option.some.inj isNext
      refine ⟨links, ?_, ?_, fun _ _ _ _ cell _ => SameFields.refl links cell⟩
      · rw [List.length_nil, forEachSafeLoop, if_neg (not_not.mpr isHead.symm)]
      · rw [keptBy, List.filter_nil, ← isList, Function.update_eq_self]
        exact holds
  | cons node rest inductionHypothesis =>
      have isNode : node = p := Option.some.inj isNext
      have ring : Ring links head (kept ++ node :: rest) := holds.are isList
      have different := List.nodup_cons.mp ring.different
      have notHead : p ≠ head := by
        rintro rfl
        exact different.1 (isNode ▸ List.mem_append_right _ List.mem_cons_self)
      obtain ⟨after, isAfter⟩ : ∃ after, (rest ++ [head]).head? = some after := by
        cases rest with
        | nil => exact ⟨head, rfl⟩
        | cons first others => exact ⟨first, rfl⟩
      have turn : forEachSafeLoop body head ((node :: rest).length + 1) links p =
          (forEachSafeLoop body head (rest.length + 1) ((body node).run links node) after).map
            fun later => (node :: later.1, later.2) := by
        rw [List.length_cons, forEachSafeLoop, if_pos notHead, ← isNode, ring.next_eq isAfter]
      rw [turn]
      by_cases keeps : body node = .keep
      · have isList' : lists head = some ((kept ++ [node]) ++ rest) := by
          rw [isList, List.append_assoc, List.singleton_append]
        obtain ⟨links', found, visits⟩ := inductionHypothesis holds isList' isAfter
        refine ⟨links', ?_, ?_⟩
        · rw [keeps, Body.run, found]
          rfl
        · rw [keptBy, List.filter_cons_of_pos (by simpa using keeps)]
          rw [List.append_assoc, List.singleton_append] at visits
          exact visits
      · have edits : Edits ringShape lists links ((body node).run links node) head
            (kept ++ node :: rest) ((kept ++ node :: rest).erase node) :=
          removed_edits ring (List.mem_append_right _ List.mem_cons_self)
            fun _ other => Body.same (body node) keeps other
        rw [erase_middle different.2] at edits
        obtain ⟨links', found, visits⟩ :=
          inductionHypothesis (edits.holds holds isList) (Function.update_self _ _ _) isAfter
        refine ⟨links', ?_, ?_, ?_⟩
        · rw [found]
          rfl
        · rw [keptBy, List.filter_cons_of_neg (by simpa using keeps)]
          have ended := visits.holds
          rw [Function.update_idem] at ended
          exact ended
        · intro other others notHead' isOther cell owns
          have first : SameFields links ((body node).run links node) cell :=
            edits.same_other holds isList notHead' isOther owns
          apply first.trans
          apply visits.untouched other others notHead' ?_ cell owns
          rw [Function.update_of_ne notHead']
          exact isOther

/-! ## The result -/

/-- Operations one after another. -/
inductive EditRun : Lists Nat Nat → List ListOp → Lists Nat Nat → Prop
  | nil (lists : Lists Nat Nat) : EditRun lists [] lists
  | cons {lists middle lists' : Lists Nat Nat} {op : ListOp} {ops : List ListOp}
      (edit : Edit lists op middle) (later : EditRun middle ops lists') :
      EditRun lists (op :: ops) lists'

theorem listOps_hold {ops : List ListOp} {lists' : Lists Nat Nat}
    (holds : Holds ringShape links lists) (run : EditRun lists ops lists') :
    Holds ringShape (ops.foldl ListOp.run links) lists' := by
  induction run generalizing links with
  | nil => exact holds
  | cons edit later inductionHypothesis => exact inductionHypothesis (listOp_performs holds edit).holds

/-- The lists are sequences: each operation edits one of them, a node that is
initialised is an empty list, and a loop whose body deletes nodes sees each node of
the list once. -/
theorem tuyaList_sequences (holds : Holds ringShape links lists) :
    (∀ op lists', Edit lists op lists' → Performs links (op.run links) lists lists') ∧
      (∀ entry, Ring (tuyaListDelInit links entry) entry []) ∧
      ∀ body head nodes, lists head = some nodes → nodes.Nodup ∧
        ∃ fuel links', tuyaListForEachSafe fuel body links head = some (nodes, links') ∧
          Visits body head links links' lists (keptBy body nodes) := by
  refine ⟨fun op lists' edit => listOp_performs holds edit,
    fun entry => initListHead_ring _ entry, ?_⟩
  intro body head nodes isList
  have ring : Ring links head nodes := holds.are isList
  obtain ⟨links', found, visits⟩ :=
    forEachSafeLoop_visits body holds (show lists head = some ([] ++ nodes) from isList) ring.ends.1
  exact ⟨(List.nodup_cons.mp ring.different).2, nodes.length + 1, links', found, visits⟩

/-- Node 5 is added to the first of two empty lists. -/
theorem tuyaList_two_empty :
    Performs ⟨id, id⟩ (tuyaListAdd ⟨id, id⟩ 5 0) (fun head => if head ≤ 1 then some [] else none)
      (Function.update (fun head => if head ≤ 1 then some [] else none) 0 (some [5])) := by
  have empty : ∀ {head : Nat} {nodes : List Nat},
      (if head ≤ 1 then some [] else none) = some nodes → head ≤ 1 ∧ nodes = [] := by
    intro head nodes isList
    split at isList
    · exact ⟨‹_›, (Option.some.inj isList).symm⟩
    · exact absurd isList (by simp)
  have holds : Holds ringShape ⟨id, id⟩ (fun head => if head ≤ 1 then some [] else none) := by
    constructor
    · intro head nodes isList
      rw [(empty isList).2]
      exact ⟨by simp [Links.Linked], by simp⟩
    · intro head other nodes others cell isList isOther owns ownsToo
      rw [(empty isList).2] at owns
      rw [(empty isOther).2] at ownsToo
      exact (List.mem_singleton.mp owns).symm.trans (List.mem_singleton.mp ownsToo)
  have free : Free ringShape (fun head => if head ≤ 1 then some [] else none) 5 := by
    intro head nodes isList owns
    obtain ⟨small, isEmpty⟩ := empty isList
    rw [isEmpty] at owns
    have isHead : 5 = head := List.mem_singleton.mp owns
    omega
  exact (tuyaList_sequences holds).1 (.add 5 0) _ (Edit.add rfl free)

end TuyaAdapter.TuyaList
