import Mathlib.Data.List.Induction
import Mathlib.Data.List.Sort

/-!
Owns lists kept in the order of a due time by inserting each item behind those
that are due no later. `inOrder` is such a list for the items in the order they
came; it is stable, and items may be taken out of either list alike.
-/

namespace TuyaAdapter.Foundation.StableOrder

variable {Item Time : Type*} [LinearOrder Time] (due : Item → Time)

/-- The item goes before the first one that is due later. -/
def place (item : Item) (items : List Item) : List Item :=
  items.orderedInsert (fun new old => due new < due old) item

/-- The items in the order of their due times. -/
def inOrder (arrivals : List Item) : List Item :=
  arrivals.foldl (fun items item => place due item items) []

variable {due} {arrivals items : List Item} {item : Item}

theorem inOrder_append :
    inOrder due (arrivals ++ [item]) = place due item (inOrder due arrivals) := by
  unfold inOrder
  rw [List.foldl_append]
  rfl

theorem place_perm : (place due item items).Perm (item :: items) :=
  List.perm_orderedInsert _ item items

theorem inOrder_perm : (inOrder due arrivals).Perm arrivals := by
  induction arrivals using List.reverseRecOn with
  | nil => exact List.Perm.refl []
  | append_singleton arrivals item inductionHypothesis =>
      rw [inOrder_append]
      have inserted : (place due item (inOrder due arrivals)).Perm (item :: arrivals) :=
        place_perm.trans (inductionHypothesis.cons item)
      exact inserted.trans (List.perm_append_singleton item arrivals).symm

theorem mem_inOrder : item ∈ inOrder due arrivals ↔ item ∈ arrivals := inOrder_perm.mem_iff

/-- An order that insertion respects holds of the longer list. -/
theorem pairwise_place {order : Item → Item → Prop} (ordered : items.Pairwise order)
    (before : ∀ old ∈ items, due item < due old → order item old)
    (behind : ∀ old ∈ items, due old ≤ due item → order old item)
    (later : ∀ old other, order item old → order old other → order item other) :
    (place due item items).Pairwise order := by
  unfold place
  induction items with
  | nil => exact List.pairwise_singleton order item
  | cons first rest inductionHypothesis =>
      obtain ⟨firstOrdered, restOrdered⟩ := List.pairwise_cons.mp ordered
      rw [List.orderedInsert_cons]
      split
      · rename_i isBefore
        have beforeFirst := before first List.mem_cons_self isBefore
        refine List.pairwise_cons.mpr ⟨fun other member => ?_, ordered⟩
        rcases List.mem_cons.mp member with isFirst | isRest
        · rw [isFirst]
          exact beforeFirst
        · exact later first other beforeFirst (firstOrdered other isRest)
      · rename_i notBefore
        have restInserted := inductionHypothesis restOrdered
          (fun old member => before old (List.mem_cons_of_mem _ member))
          (fun old member => behind old (List.mem_cons_of_mem _ member))
        refine List.pairwise_cons.mpr ⟨fun other member => ?_, restInserted⟩
        rcases (List.mem_orderedInsert _).mp member with isItem | isRest
        · rw [isItem]
          exact behind first List.mem_cons_self (not_lt.mp notBefore)
        · exact firstOrdered other isRest

theorem inOrder_pairwise :
    (inOrder due arrivals).Pairwise fun left right => due left ≤ due right := by
  induction arrivals using List.reverseRecOn with
  | nil => exact List.Pairwise.nil
  | append_singleton arrivals item inductionHypothesis =>
      rw [inOrder_append]
      exact pairwise_place inductionHypothesis (fun _ _ isBefore => isBefore.le)
        (fun _ _ isBehind => isBehind) (fun _ _ first second => first.trans second)

theorem inOrder_eq_nil : inOrder due arrivals = [] ↔ arrivals = [] := by
  have permuted : (inOrder due arrivals).Perm arrivals := inOrder_perm
  constructor
  · intro isNil
    rw [isNil] at permuted
    exact permuted.nil_eq.symm
  · intro isNil
    rw [isNil]
    rfl

theorem first_mem (isOrder : inOrder due arrivals = item :: items) : item ∈ arrivals := by
  have isFirst : item ∈ inOrder due arrivals := by
    rw [isOrder]
    exact List.mem_cons_self
  exact mem_inOrder.mp isFirst

/-- What holds of every pair in the order holds of its first item and any other. -/
theorem first_before {order : Item → Item → Prop} (isOrder : inOrder due arrivals = item :: items)
    (ordered : (inOrder due arrivals).Pairwise order) {other : Item} (member : other ∈ arrivals) :
    other = item ∨ order item other := by
  have isListed : other ∈ inOrder due arrivals := mem_inOrder.mpr member
  rw [isOrder] at ordered isListed
  rcases List.mem_cons.mp isListed with isFirst | isLater
  · exact Or.inl isFirst
  · exact Or.inr ((List.pairwise_cons.mp ordered).1 other isLater)

/-- Items that are due at one time stay in the order they came in. -/
theorem inOrder_stable {rank : Item → Nat}
    (ranked : arrivals.Pairwise fun left right => rank left < rank right) :
    (inOrder due arrivals).Pairwise fun left right =>
      due left < due right ∨ due left = due right ∧ rank left < rank right := by
  induction arrivals using List.reverseRecOn with
  | nil => exact List.Pairwise.nil
  | append_singleton arrivals item inductionHypothesis =>
      obtain ⟨older, -, newer⟩ := List.pairwise_append.mp ranked
      rw [inOrder_append]
      refine pairwise_place (inductionHypothesis older) (fun _ _ isBefore => Or.inl isBefore)
        (fun old member isBehind => ?_) (fun old other first second => ?_)
      · have isOlder := newer old (mem_inOrder.mp member) item (List.mem_singleton_self item)
        rcases isBehind.lt_or_eq with isBefore | isSame
        · exact Or.inl isBefore
        · exact Or.inr ⟨isSame, isOlder⟩
      · rcases first with before | ⟨same, below⟩ <;> rcases second with before' | ⟨same', below'⟩
        · exact Or.inl (before.trans before')
        · exact Or.inl (same' ▸ before)
        · exact Or.inl (same ▸ before')
        · exact Or.inr ⟨same.trans same', below.trans below'⟩

theorem filter_place (keep : Item → Bool)
    (ordered : items.Pairwise fun left right => due left ≤ due right) :
    (place due item items).filter keep =
      if keep item = true then place due item (items.filter keep) else items.filter keep := by
  unfold place
  induction items with
  | nil => simp [List.filter_cons]
  | cons first rest inductionHypothesis =>
      obtain ⟨firstOrdered, restOrdered⟩ := List.pairwise_cons.mp ordered
      have inRest := inductionHypothesis restOrdered
      rw [List.orderedInsert_cons]
      split
      · rename_i isBefore
        -- All that follows is due later still, so the item comes before what is kept of it.
        have inFront : List.orderedInsert (fun new old => due new < due old) item
            ((first :: rest).filter keep) = item :: (first :: rest).filter keep := by
          cases kept : (first :: rest).filter keep with
          | nil => rfl
          | cons other more =>
              have isOther : other ∈ (first :: rest).filter keep := by
                rw [kept]
                exact List.mem_cons_self
              rw [List.orderedInsert_cons, if_pos]
              rcases List.mem_cons.mp (List.mem_filter.mp isOther).1 with isFirst | isRest
              · rw [isFirst]
                exact isBefore
              · exact lt_of_lt_of_le isBefore (firstOrdered other isRest)
        rw [List.filter_cons, inFront]
      · rename_i notBefore
        rw [List.filter_cons, List.filter_cons, inRest]
        by_cases keepsFirst : keep first = true
        · by_cases keepsItem : keep item = true
          · simp only [keepsFirst, keepsItem, if_true, List.orderedInsert_cons, notBefore, if_false]
          · simp only [keepsFirst, keepsItem, if_true, Bool.false_eq_true, if_false]
        · simp only [keepsFirst, Bool.false_eq_true, if_false]

/-- Items that are taken out leave the others in order. -/
theorem inOrder_filter (keep : Item → Bool) :
    inOrder due (arrivals.filter keep) = (inOrder due arrivals).filter keep := by
  induction arrivals using List.reverseRecOn with
  | nil => rfl
  | append_singleton arrivals item inductionHypothesis =>
      rw [List.filter_append, inOrder_append, filter_place keep inOrder_pairwise,
        ← inductionHypothesis]
      cases keepsItem : keep item with
      | true => simp only [List.filter_singleton, keepsItem, cond_true, if_true, inOrder_append]
      | false =>
          simp only [List.filter_singleton, keepsItem, cond_false, Bool.false_eq_true, if_false,
            List.append_nil]

end TuyaAdapter.Foundation.StableOrder
