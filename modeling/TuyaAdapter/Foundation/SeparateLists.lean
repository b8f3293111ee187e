import Mathlib.Data.List.Nodup
import Mathlib.Logic.Function.Basic

/-!
Owns many lists in one memory, none of which shares a cell with another.

`Shape` says what a list of some kind is in a memory, which cells it owns, and
that it depends on them only. `Holds` says that a memory holds a list of nodes for
each head that has one. The rules are those of an edit of one list: it may write
to the cells of that list and to cells of no list, and leaves the others as they
were.
-/

namespace TuyaAdapter.Foundation.SeparateLists

/-- The nodes of the list at each head that has a list. -/
abbrev Lists (Head Node : Type*) := Head → Option (List Node)

/-- The sequence without one of its nodes. -/
theorem erase_middle {Node : Type*} [DecidableEq Node] {node : Node} {left right : List Node}
    (different : (left ++ node :: right).Nodup) :
    (left ++ node :: right).erase node = left ++ right := by
  have notLeft : node ∉ left := fun inLeft =>
    (List.nodup_append.mp different).2.2 node inLeft node List.mem_cons_self rfl
  rw [List.erase_append_right _ notLeft, List.erase_cons_head]

structure Shape (Memory Head Node Cell : Type*) where
  /-- The memory has a list with these nodes at the head. -/
  Is : Memory → Head → List Node → Prop
  Owns : Head → List Node → Cell → Prop
  /-- The cell is the same in two memories. -/
  Same : Memory → Memory → Cell → Prop
  frame : ∀ {memory memory' : Memory} {head : Head} {nodes : List Node}, Is memory head nodes →
    (∀ cell, Owns head nodes cell → Same memory memory' cell) → Is memory' head nodes

variable {Memory Head Node Cell : Type*} (shape : Shape Memory Head Node Cell)

/-- The memory holds these lists, and each cell belongs to at most one of them. -/
structure Holds (memory : Memory) (lists : Lists Head Node) : Prop where
  are : ∀ {head : Head} {nodes : List Node}, lists head = some nodes → shape.Is memory head nodes
  apart : ∀ {head other : Head} {nodes others : List Node} {cell : Cell},
    lists head = some nodes → lists other = some others →
    shape.Owns head nodes cell → shape.Owns other others cell → head = other

/-- The cell belongs to no list. -/
def Free (lists : Lists Head Node) (cell : Cell) : Prop :=
  ∀ head nodes, lists head = some nodes → ¬ shape.Owns head nodes cell

/-- The lists that stay have the same cells in both memories. -/
def Untouched (lists lists' : Lists Head Node) (memory memory' : Memory) : Prop :=
  ∀ head nodes, lists head = some nodes → lists' head = some nodes →
    ∀ cell, shape.Owns head nodes cell → shape.Same memory memory' cell

variable {shape} {memory memory' : Memory} {lists : Lists Head Node} {head : Head}
  {nodes nodes' : List Node}

section Edit

variable [DecidableEq Head]

/-- A list may be forgotten. -/
theorem Holds.forget (holds : Holds shape memory lists) (head : Head) :
    Holds shape memory (Function.update lists head none) := by
  have kept : ∀ {other others}, Function.update lists head none other = some others →
      lists other = some others := by
    intro other others isList
    by_cases same : other = head
    · rw [same, Function.update_self] at isList
      exact absurd isList (by simp)
    · rw [Function.update_of_ne same] at isList
      exact isList
  exact ⟨fun isList => holds.are (kept isList),
    fun isList isOther => holds.apart (kept isList) (kept isOther)⟩

theorem Free.forget {cell : Cell} (free : Free shape lists cell) (head : Head) :
    Free shape (Function.update lists head none) cell := by
  intro other others isList
  by_cases same : other = head
  · rw [same, Function.update_self] at isList
    exact absurd isList (by simp)
  · rw [Function.update_of_ne same] at isList
    exact free other others isList

/-- The cells of a list that was forgotten belong to no list. -/
theorem Holds.free_forget (holds : Holds shape memory lists) (isList : lists head = some nodes)
    {cell : Cell} (owns : shape.Owns head nodes cell) :
    Free shape (Function.update lists head none) cell := by
  intro other others isOther ownsToo
  by_cases same : other = head
  · rw [same, Function.update_self] at isOther
    exact absurd isOther (by simp)
  · rw [Function.update_of_ne same] at isOther
    exact same (holds.apart isOther isList ownsToo owns)

/-- An edit of the list at a head: the cells that change are its own or belong to
no list, and so are the cells of the edited list. -/
structure Edits (shape : Shape Memory Head Node Cell) (lists : Lists Head Node)
    (memory memory' : Memory) (head : Head) (nodes nodes' : List Node) : Prop where
  isNow : shape.Is memory' head nodes'
  owned : ∀ cell, shape.Owns head nodes' cell →
    shape.Owns head nodes cell ∨ Free shape lists cell
  written : ∀ cell, shape.Same memory memory' cell ∨ shape.Owns head nodes cell ∨
    Free shape lists cell

omit [DecidableEq Head] in
/-- Another list has the same cells before and after an edit. -/
theorem Edits.same_other (edits : Edits shape lists memory memory' head nodes nodes')
    (holds : Holds shape memory lists) (isList : lists head = some nodes) {other : Head}
    {others : List Node} (different : other ≠ head) (isOther : lists other = some others)
    {cell : Cell} (owns : shape.Owns other others cell) : shape.Same memory memory' cell := by
  rcases edits.written cell with same | own | free
  · exact same
  · exact absurd (holds.apart isOther isList owns own) different
  · exact absurd owns (free other others isOther)

theorem Edits.holds (edits : Edits shape lists memory memory' head nodes nodes')
    (holds : Holds shape memory lists) (isList : lists head = some nodes) :
    Holds shape memory' (Function.update lists head (some nodes')) := by
  have cases : ∀ {other others}, Function.update lists head (some nodes') other = some others →
      (other = head ∧ others = nodes') ∨ (other ≠ head ∧ lists other = some others) := by
    intro other others isOther
    by_cases same : other = head
    · rw [same, Function.update_self] at isOther
      exact Or.inl ⟨same, (Option.some.inj isOther).symm⟩
    · rw [Function.update_of_ne same] at isOther
      exact Or.inr ⟨same, isOther⟩
  -- A cell of the edited list is no cell of another list.
  have separate : ∀ {other others cell}, other ≠ head → lists other = some others →
      shape.Owns head nodes' cell → ¬ shape.Owns other others cell := by
    intro other others cell different isOther owns ownsToo
    rcases edits.owned cell owns with own | free
    · exact different (holds.apart isOther isList ownsToo own)
    · exact free other others isOther ownsToo
  constructor
  · intro other others isOther
    rcases cases isOther with ⟨rfl, rfl⟩ | ⟨different, wasOther⟩
    · exact edits.isNow
    · exact shape.frame (holds.are wasOther) fun cell owns =>
        edits.same_other holds isList different wasOther owns
  · intro first second firsts seconds cell isFirst isSecond ownsFirst ownsSecond
    rcases cases isFirst with ⟨rfl, rfl⟩ | ⟨differentFirst, wasFirst⟩
    · rcases cases isSecond with ⟨rfl, rfl⟩ | ⟨differentSecond, wasSecond⟩
      · rfl
      · exact absurd ownsSecond (separate differentSecond wasSecond ownsFirst)
    · rcases cases isSecond with ⟨rfl, rfl⟩ | ⟨differentSecond, wasSecond⟩
      · exact absurd ownsFirst (separate differentFirst wasFirst ownsSecond)
      · exact holds.apart wasFirst wasSecond ownsFirst ownsSecond

theorem Edits.untouched (edits : Edits shape lists memory memory' head nodes nodes')
    (holds : Holds shape memory lists) (isList : lists head = some nodes)
    (changed : nodes' ≠ nodes) :
    Untouched shape lists (Function.update lists head (some nodes')) memory memory' := by
  intro other others isOther stays cell owns
  by_cases same : other = head
  · rw [same, Function.update_self] at stays
    rw [same, isList] at isOther
    exact absurd ((Option.some.inj stays).trans (Option.some.inj isOther).symm) changed
  · exact edits.same_other holds isList same isOther owns

end Edit

end TuyaAdapter.Foundation.SeparateLists
