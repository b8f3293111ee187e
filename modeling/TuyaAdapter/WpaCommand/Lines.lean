import TuyaAdapter.WpaCommand.Model

/-!
Contract: replies that consist of lines. A reply is its lines with a newline
between them, and perhaps one at the end; `get_line_from_buf` finds these lines.
-/

namespace TuyaAdapter.WpaCommand

open Foundation.Decimal

/-- The lines with a newline between them, and perhaps at the end. -/
def replyOf (lines : List Text) (ended : Bool) : Text :=
  ['\n'].intercalate lines ++ if ended then ['\n'] else []

/-- A line as it stands in a reply. -/
def IsLine (line : Text) : Prop := line ≠ [] ∧ ∀ char ∈ line, char ≠ '\n' ∧ char ≠ '\r'

instance (line : Text) : Decidable (IsLine line) :=
  @instDecidableAnd _ _ _ (List.decidableBAll _ line)

theorem IsLine.not_separator {line : Text} (isLine : IsLine line) :
    ∀ char ∈ line, decide (char = '\n' ∨ char = '\r') = false := by
  intro char member
  have plain := isLine.2 char member
  simp [plain.1, plain.2]

theorem splitOnP_replyOf {lines : List Text} (notEmpty : lines ≠ [])
    (areLines : ∀ line ∈ lines, IsLine line) (ended : Bool) :
    (replyOf lines ended).splitOnP (fun char => char = '\n' ∨ char = '\r') =
      lines ++ if ended then [[]] else [] := by
  induction lines with
  | nil => exact absurd rfl notEmpty
  | cons line rest inductionHypothesis =>
      have plain := (areLines line List.mem_cons_self).not_separator
      cases rest with
      | nil =>
          cases ended with
          | false =>
              have whole : replyOf [line] false = line := by simp [replyOf]
              rw [whole, List.splitOnP_eq_singleton plain]
              rfl
          | true =>
              have whole : replyOf [line] true = line ++ '\n' :: [] := by simp [replyOf]
              rw [whole, List.splitOnP_append_cons_of_forall_mem plain '\n' (by decide),
                List.splitOnP_nil]
              rfl
      | cons next others =>
          have whole : replyOf (line :: next :: others) ended =
              line ++ '\n' :: replyOf (next :: others) ended := by
            simp [replyOf, List.intercalate_cons_cons]
          rw [whole, List.splitOnP_append_cons_of_forall_mem plain '\n' (by decide),
            inductionHypothesis (List.cons_ne_nil _ _)
              fun other member => areLines other (List.mem_cons_of_mem _ member)]
          rfl

/-- The lines of a reply are found as they are. -/
theorem linesOf_replyOf {lines : List Text} (notEmpty : lines ≠ [])
    (areLines : ∀ line ∈ lines, IsLine line) (ended : Bool) :
    linesOf (replyOf lines ended) = lines := by
  unfold linesOf
  rw [splitOnP_replyOf notEmpty areLines ended]
  cases lines with
  | nil => exact absurd rfl notEmpty
  | cons line rest =>
      have kept : rest.filter (fun other => other ≠ []) = rest := by
        rw [List.filter_eq_self]
        intro other member
        exact decide_eq_true (areLines other (List.mem_cons_of_mem _ member)).1
      cases ended with
      | false => simpa using kept
      | true => simpa using kept

end TuyaAdapter.WpaCommand
