import Mathlib.Data.List.Basic

/-!
Owns paths through a successor function: `Path next head nodes stop` says that
following `next` from `head` visits exactly `nodes`, in order, and then arrives
at `stop`. A null-terminated list is a path whose stop is the null pointer. The
module also owns the edits of such a path: it is cut at any node, and the last
node of a prefix, or the cell in front of it, can be given another successor.
-/

namespace TuyaAdapter.Foundation.LinkedPath

variable {Node : Type*}

/-- Following `next` from `head` visits `nodes` and arrives at `stop`. -/
def Path (next : Node → Node) : Node → List Node → Node → Prop
  | head, [], stop => head = stop
  | head, node :: rest, stop => head = node ∧ Path next (next node) rest stop

variable {next next' : Node → Node} {head stop node : Node} {nodes left right : List Node}

@[simp] theorem path_nil : Path next head [] stop ↔ head = stop := Iff.rfl

@[simp] theorem path_cons :
    Path next head (node :: nodes) stop ↔ head = node ∧ Path next (next node) nodes stop :=
  Iff.rfl

/-- A path is cut between any two of its nodes. -/
theorem path_append :
    Path next head (left ++ right) stop ↔
      ∃ middle, Path next head left middle ∧ Path next middle right stop := by
  induction left generalizing head with
  | nil => simp
  | cons first rest inductionHypothesis =>
      simp only [List.cons_append, path_cons, inductionHypothesis]
      constructor
      · rintro ⟨isFirst, middle, before, after⟩
        exact ⟨middle, ⟨isFirst, before⟩, after⟩
      · rintro ⟨middle, ⟨isFirst, before⟩, after⟩
        exact ⟨isFirst, middle, before, after⟩

theorem path_concat :
    Path next head (nodes ++ [node]) stop ↔ Path next head nodes node ∧ next node = stop := by
  rw [path_append]
  constructor
  · rintro ⟨middle, before, isNode, after⟩
    exact ⟨isNode ▸ before, after⟩
  · rintro ⟨before, after⟩
    exact ⟨node, before, rfl, after⟩

/-- A path reads only the successors of its own nodes. -/
theorem Path.congr (path : Path next head nodes stop)
    (same : ∀ node ∈ nodes, next' node = next node) : Path next' head nodes stop := by
  induction nodes generalizing head with
  | nil => exact path
  | cons first rest inductionHypothesis =>
      obtain ⟨isFirst, after⟩ := path
      refine ⟨isFirst, ?_⟩
      rw [same first (by simp)]
      exact inductionHypothesis after (fun node member => same node (by simp [member]))

/-- Changing the successor of the last node changes where the path arrives. -/
theorem Path.redirect {stop' : Node} (path : Path next head (nodes ++ [node]) stop)
    (same : ∀ node ∈ nodes, next' node = next node) (last : next' node = stop') :
    Path next' head (nodes ++ [node]) stop' :=
  path_concat.mpr ⟨(path_concat.mp path).1.congr same, last⟩

/-- Behind a cell, the last cell of a path may be given another successor. -/
theorem Path.relink {cell stop' : Node} (path : Path next (next cell) nodes stop)
    (different : (cell :: nodes).Nodup)
    (same : ∀ node ∈ cell :: nodes, node ≠ nodes.getLastD cell → next' node = next node)
    (last : next' (nodes.getLastD cell) = stop') : Path next' (next' cell) nodes stop' := by
  induction nodes generalizing cell with
  | nil => exact last
  | cons first rest inductionHypothesis =>
      obtain ⟨isFirst, after⟩ := path
      rw [List.getLastD_cons] at last same
      obtain ⟨apart, later⟩ := List.nodup_cons.mp different
      have notLast : cell ≠ rest.getLastD first := by
        intro isLast
        rw [isLast] at apart
        exact apart List.getLastD_mem_cons
      refine ⟨?_, ?_⟩
      · rw [same cell List.mem_cons_self notLast, isFirst]
      · exact inductionHypothesis after later
          (fun node member => same node (List.mem_cons_of_mem _ member)) last

/-- The successor of a node on a path is on the path, or is its stop. -/
theorem Path.next_mem (path : Path next head nodes stop) (member : node ∈ nodes) :
    next node ∈ nodes ∨ next node = stop := by
  induction nodes generalizing head with
  | nil => simp at member
  | cons first rest inductionHypothesis =>
      obtain ⟨-, after⟩ := path
      rcases List.mem_cons.mp member with rfl | later
      · cases rest with
        | nil => exact Or.inr after
        | cons second others =>
            rw [after.1]
            exact Or.inl (by simp)
      · rcases inductionHypothesis after later with inside | atStop
        · exact Or.inl (by simp [inside])
        · exact Or.inr atStop

/-- The nodes visited from `head` until `stop`, at most `fuel` of them. -/
def walk [DecidableEq Node] (next : Node → Node) (stop : Node) : Nat → Node → List Node
  | 0, _ => []
  | fuel + 1, head => if head = stop then [] else head :: walk next stop fuel (next head)

/-- Walking a path collects its nodes. -/
theorem Path.walk_eq [DecidableEq Node] (path : Path next head nodes stop)
    (proper : ∀ node ∈ nodes, node ≠ stop) {fuel : Nat} (enough : nodes.length < fuel) :
    walk next stop fuel head = nodes := by
  induction nodes generalizing head fuel with
  | nil =>
      have atStop : head = stop := path
      cases fuel with
      | zero => rfl
      | succ fuel => simp [walk, atStop]
  | cons first rest inductionHypothesis =>
      obtain ⟨rfl, after⟩ := path
      cases fuel with
      | zero => simp at enough
      | succ fuel =>
          have tail := inductionHypothesis after (fun node member => proper node (by simp [member]))
            (show rest.length < fuel by simpa using enough)
          simp [walk, proper head (by simp), tail]

/-- A path starts at its first node, or at its stop when it has none. -/
theorem Path.head_eq (path : Path next head nodes stop) : head = nodes.headD stop := by
  cases nodes with
  | nil => exact path
  | cons first rest => exact path.1

end TuyaAdapter.Foundation.LinkedPath
