import Mathlib.Algebra.Order.Group.Nat

/-!
Owns the bounded best-fit search through a list: take the first item that meets
a request, then move on to later items that meet it and are no larger, and give
up after a number of moves. The choice meets the request, is no larger than the
first fit, and is minimal among all items that meet it when the search did not
give up. Nothing here depends on what the items are.
-/

namespace TuyaAdapter.Foundation.BestFit

variable {Item : Type*} (measure : Item → Nat) (request depth : Nat)

/-- Move from a choice to later items that meet the request and are no larger,
until `depth` moves are made. The result is the choice and the number of moves. -/
def improve : Item → Nat → List Item → Item × Nat
  | choice, moves, [] => (choice, moves)
  | choice, moves, item :: rest =>
      if request ≤ measure item ∧ measure item ≤ measure choice then
        if depth ≤ moves + 1 then (item, moves + 1) else improve item (moves + 1) rest
      else if depth ≤ moves then (choice, moves) else improve choice moves rest

/-- The search: the choice and the number of moves it took from the first fit. -/
def search : List Item → Option (Item × Nat)
  | [] => none
  | item :: rest =>
      if request ≤ measure item then some (improve measure request depth item 0 rest)
      else search rest

variable {measure request depth}

/-- One item, with the choice and the count updated before the count is
tested. -/
theorem improve_cons {choice item : Item} {moves : Nat} {rest : List Item} :
    improve measure request depth choice moves (item :: rest) =
      let better := request ≤ measure item ∧ measure item ≤ measure choice
      let choice := if better then item else choice
      let moves := if better then moves + 1 else moves
      if depth ≤ moves then (choice, moves) else improve measure request depth choice moves rest := by
  by_cases better : request ≤ measure item ∧ measure item ≤ measure choice
  · simp only [improve, if_pos better]
  · simp only [improve, if_neg better]

theorem improve_mem {choice : Item} {moves : Nat} {items : List Item} :
    (improve measure request depth choice moves items).1 = choice ∨
      (improve measure request depth choice moves items).1 ∈ items := by
  induction items generalizing choice moves with
  | nil => exact Or.inl rfl
  | cons item rest inductionHypothesis =>
      unfold improve
      split
      · split
        · exact Or.inr (by simp)
        · exact Or.inr (List.mem_cons.mpr inductionHypothesis)
      · split
        · exact Or.inl rfl
        · exact inductionHypothesis.imp id (List.mem_cons_of_mem item)

theorem improve_fits {choice : Item} {moves : Nat} {items : List Item}
    (fits : request ≤ measure choice) :
    request ≤ measure (improve measure request depth choice moves items).1 := by
  induction items generalizing choice moves with
  | nil => exact fits
  | cons item rest inductionHypothesis =>
      unfold improve
      split
      · rename_i better
        split
        · exact better.1
        · exact inductionHypothesis better.1
      · split
        · exact fits
        · exact inductionHypothesis fits

theorem improve_le {choice : Item} {moves : Nat} {items : List Item} :
    measure (improve measure request depth choice moves items).1 ≤ measure choice := by
  induction items generalizing choice moves with
  | nil => exact le_refl _
  | cons item rest inductionHypothesis =>
      unfold improve
      split
      · rename_i better
        split
        · exact better.2
        · exact inductionHypothesis.trans better.2
      · split
        · exact le_refl _
        · exact inductionHypothesis

/-- A search that did not give up has seen every item. -/
theorem improve_minimal {choice : Item} {moves : Nat} {items : List Item}
    (finished : (improve measure request depth choice moves items).2 < depth) :
    ∀ item ∈ items, request ≤ measure item →
      measure (improve measure request depth choice moves items).1 ≤ measure item := by
  induction items generalizing choice moves with
  | nil =>
      intro item member
      simp at member
  | cons first rest inductionHypothesis =>
      intro item member fits
      unfold improve at finished ⊢
      by_cases better : request ≤ measure first ∧ measure first ≤ measure choice
      · rw [if_pos better] at finished ⊢
        by_cases stops : depth ≤ moves + 1
        · rw [if_pos stops] at finished
          exact absurd finished (Nat.not_lt.mpr stops)
        · rw [if_neg stops] at finished ⊢
          rcases List.mem_cons.mp member with isFirst | inRest
          · rw [isFirst]
            exact improve_le
          · exact inductionHypothesis finished item inRest fits
      · rw [if_neg better] at finished ⊢
        by_cases stops : depth ≤ moves
        · rw [if_pos stops] at finished
          exact absurd finished (Nat.not_lt.mpr stops)
        · rw [if_neg stops] at finished ⊢
          rcases List.mem_cons.mp member with isFirst | inRest
          · -- The first item is larger than the choice, and the result is not.
            have larger : measure choice < measure item := by
              rw [isFirst] at fits ⊢
              exact Nat.lt_of_not_le fun smaller => better ⟨fits, smaller⟩
            exact improve_le.trans (Nat.le_of_lt larger)
          · exact inductionHypothesis finished item inRest fits

theorem search_eq_none {items : List Item} :
    search measure request depth items = none ↔ ∀ item ∈ items, measure item < request := by
  induction items with
  | nil => simp [search]
  | cons item rest inductionHypothesis =>
      unfold search
      by_cases fits : request ≤ measure item
      · simp [fits]
      · simp [fits, inductionHypothesis, Nat.lt_of_not_le fits]

/-- What the search chooses: an item that meets the request, no larger than the
first that does, and a smallest one unless the search gave up. -/
structure Chosen (measure : Item → Nat) (request depth : Nat) (items : List Item) (choice : Item)
    (moves : Nat) : Prop where
  mem : choice ∈ items
  fits : request ≤ measure choice
  noLarger : ∃ first, items.find? (fun item => request ≤ measure item) = some first ∧
    measure choice ≤ measure first
  minimal : moves < depth → ∀ item ∈ items, request ≤ measure item → measure choice ≤ measure item

theorem search_chosen {items : List Item} {choice : Item} {moves : Nat}
    (found : search measure request depth items = some (choice, moves)) :
    Chosen measure request depth items choice moves := by
  induction items with
  | nil => simp [search] at found
  | cons item rest inductionHypothesis =>
      unfold search at found
      by_cases fits : request ≤ measure item
      · rw [if_pos fits, Option.some.injEq] at found
        have isChoice : (improve measure request depth item 0 rest).1 = choice := by rw [found]
        have isMoves : (improve measure request depth item 0 rest).2 = moves := by rw [found]
        constructor
        · rw [← isChoice]
          exact List.mem_cons.mpr improve_mem
        · rw [← isChoice]
          exact improve_fits fits
        · refine ⟨item, by simp [fits], ?_⟩
          rw [← isChoice]
          exact improve_le
        · intro finished other member otherFits
          rw [← isMoves] at finished
          rw [← isChoice]
          rcases List.mem_cons.mp member with isItem | inRest
          · rw [isItem]
            exact improve_le
          · exact improve_minimal finished other inRest otherFits
      · rw [if_neg fits] at found
        have tail := inductionHypothesis found
        constructor
        · exact List.mem_cons_of_mem item tail.mem
        · exact tail.fits
        · obtain ⟨first, isFirst, noLarger⟩ := tail.noLarger
          refine ⟨first, ?_, noLarger⟩
          rw [List.find?_cons_of_neg (by simpa using fits)]
          exact isFirst
        · intro finished other member otherFits
          rcases List.mem_cons.mp member with isItem | inRest
          · rw [isItem] at otherFits
            exact absurd otherFits fits
          · exact tail.minimal finished other inRest otherFits

end TuyaAdapter.Foundation.BestFit
