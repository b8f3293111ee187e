import Mathlib.Data.List.Basic

/-!
Owns the pieces of a text between runs of line ends. The first piece is what
stands before the first run, and may be empty; a run at the end adds no piece.
A text with a line end in it is cut at its first run: `pieces_cut` and
`pieces_cut_last` say what the pieces before and behind it are.
-/

namespace TuyaAdapter.Foundation.Pieces

variable {Char : Type*} (isEnd : Char → Bool)

/-- The pieces between runs of line ends. -/
def pieces (text : List Char) : List (List Char) :=
  match text.splitOnP isEnd with
  | [] => []
  | first :: rest => first :: rest.filter (· ≠ [])

/-- The last character is a line end. -/
def EndsLine (text : List Char) : Prop := ∃ last, text.getLast? = some last ∧ isEnd last = true

variable {isEnd} {text piece rest later : List Char} {char first : Char}

theorem pieces_plain (plain : ∀ char ∈ text, isEnd char = false) : pieces isEnd text = [text] := by
  rw [pieces, List.splitOnP_eq_singleton plain]
  rfl

/-- A run at the start adds no piece behind the first one. -/
theorem filter_splitOnP_dropWhile (text : List Char) :
    (text.splitOnP isEnd).filter (· ≠ []) =
      ((text.dropWhile isEnd).splitOnP isEnd).filter (· ≠ []) := by
  induction text with
  | nil => rfl
  | cons char rest inductionHypothesis =>
      cases ends : isEnd char with
      | false => rw [List.dropWhile_cons_of_neg (by rw [ends]; decide)]
      | true =>
          rw [List.dropWhile_cons_of_pos ends, ← inductionHypothesis,
            List.splitOnP_cons_eq_if_modifyHead, if_pos ends,
            List.filter_cons_of_neg (by simp)]

/-- A text that does not start with a line end has a first piece that is not
empty. -/
theorem filter_splitOnP_cons (plain : isEnd first = false) (later : List Char) :
    ((first :: later).splitOnP isEnd).filter (· ≠ []) = pieces isEnd (first :: later) := by
  unfold pieces
  rw [List.splitOnP_cons_eq_if_modifyHead, plain, if_neg Bool.false_ne_true]
  cases split : later.splitOnP isEnd with
  | nil => exact absurd split (List.splitOnP_ne_nil _ _)
  | cons head tail =>
      rw [List.modifyHead_cons, List.filter_cons_of_pos (by simp)]

theorem pieces_append_cons (plain : ∀ char ∈ piece, isEnd char = false) (ends : isEnd char = true)
    (rest : List Char) :
    pieces isEnd (piece ++ char :: rest) =
      piece :: ((rest.dropWhile isEnd).splitOnP isEnd).filter (· ≠ []) := by
  rw [← filter_splitOnP_dropWhile]
  unfold pieces
  rw [List.splitOnP_append_cons_of_forall_mem plain char ends]

/-- The pieces of a text that goes on behind its first run. -/
theorem pieces_cut (plain : ∀ char ∈ piece, isEnd char = false) (ends : isEnd char = true)
    (behind : rest.dropWhile isEnd = first :: later) :
    pieces isEnd (piece ++ char :: rest) = piece :: pieces isEnd (first :: later) := by
  have notEnd : isEnd first = false := by
    have head := List.head?_dropWhile_not isEnd rest
    rw [behind, List.head?_cons] at head
    simpa using head
  rw [pieces_append_cons plain ends, behind, filter_splitOnP_cons notEnd]

/-- The pieces of a text that its first run ends. -/
theorem pieces_cut_last (plain : ∀ char ∈ piece, isEnd char = false) (ends : isEnd char = true)
    (behind : rest.dropWhile isEnd = []) : pieces isEnd (piece ++ char :: rest) = [piece] := by
  rw [pieces_append_cons plain ends, behind, List.splitOnP_nil]
  rfl

/-- Renaming the characters renames the pieces. -/
theorem splitOnP_map {Char' : Type*} {isEnd' : Char' → Bool} {rename : Char → Char'}
    (same : ∀ char ∈ text, isEnd' (rename char) = isEnd char) :
    (text.map rename).splitOnP isEnd' = (text.splitOnP isEnd).map (List.map rename) := by
  induction text with
  | nil => rfl
  | cons char rest inductionHypothesis =>
      obtain ⟨here, later⟩ := List.forall_mem_cons.mp same
      rw [List.map_cons, List.splitOnP_cons_eq_if_modifyHead,
        List.splitOnP_cons_eq_if_modifyHead, here, inductionHypothesis later]
      split
      · rfl
      · cases rest.splitOnP isEnd <;> rfl

theorem pieces_map {Char' : Type*} {isEnd' : Char' → Bool} {rename : Char → Char'}
    (same : ∀ char ∈ text, isEnd' (rename char) = isEnd char) :
    pieces isEnd' (text.map rename) = (pieces isEnd text).map (List.map rename) := by
  unfold pieces
  rw [splitOnP_map same]
  cases text.splitOnP isEnd with
  | nil => rfl
  | cons first rest =>
      rw [List.map_cons]
      simp [List.filter_map, Function.comp_def]

/-! ## How a text ends -/

theorem not_endsLine_of_plain (plain : ∀ char ∈ text, isEnd char = false) :
    ¬ EndsLine isEnd text := by
  rintro ⟨last, isLast, ends⟩
  rw [plain last (List.mem_of_getLast? isLast)] at ends
  exact Bool.false_ne_true ends

theorem endsLine_cons (ends : isEnd char = true) :
    EndsLine isEnd (char :: rest) ↔
      rest.dropWhile isEnd = [] ∨ EndsLine isEnd (rest.dropWhile isEnd) := by
  induction rest generalizing char with
  | nil => exact ⟨fun _ => Or.inl rfl, fun _ => ⟨char, rfl, ends⟩⟩
  | cons next later inductionHypothesis =>
      have longer : EndsLine isEnd (char :: next :: later) ↔ EndsLine isEnd (next :: later) := by
        unfold EndsLine
        rw [List.getLast?_cons_cons]
      rw [longer]
      cases isNext : isEnd next with
      | false =>
          rw [List.dropWhile_cons_of_neg (by rw [isNext]; decide)]
          exact ⟨Or.inr, fun either => either.resolve_left (List.cons_ne_nil _ _)⟩
      | true =>
          rw [List.dropWhile_cons_of_pos isNext]
          exact inductionHypothesis isNext

/-- A text ends with a line end when its first run does, or what is behind it. -/
theorem endsLine_cut (ends : isEnd char = true) (piece rest : List Char) :
    EndsLine isEnd (piece ++ char :: rest) ↔
      rest.dropWhile isEnd = [] ∨ EndsLine isEnd (rest.dropWhile isEnd) := by
  rw [← endsLine_cons ends]
  unfold EndsLine
  rw [List.getLast?_append_of_ne_nil _ (List.cons_ne_nil _ _)]

end TuyaAdapter.Foundation.Pieces
