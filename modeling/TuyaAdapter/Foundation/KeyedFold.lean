import Mathlib.Data.List.Basic

/-!
Owns folds over entries with keys, seen through one field of the accumulator:
one that only the entries of one key change, one that the last or the first entry
with something to offer decides, and one that gathers what all entries offer.
-/

namespace TuyaAdapter.Foundation.KeyedFold

variable {Entry Acc Field : Type*}

/-- At most one entry is selected. -/
def AtMostOnce (selected : Entry → Bool) (entries : List Entry) : Prop :=
  entries.Pairwise fun first later => ¬ (selected first = true ∧ selected later = true)

instance (selected : Entry → Bool) (entries : List Entry) :
    Decidable (AtMostOnce selected entries) :=
  inferInstanceAs (Decidable (List.Pairwise _ _))

variable {step : Acc → Entry → Acc} (field : Acc → Field) (selected : Entry → Bool)
  (change : Field → Entry → Field)

/-- Entries that are not selected leave the field as it is. -/
theorem field_foldl_of_none (other : ∀ acc entry, selected entry = false →
      field (step acc entry) = field acc)
    {entries : List Entry} (none_ : ∀ entry ∈ entries, selected entry = false) (acc : Acc) :
    field (entries.foldl step acc) = field acc := by
  induction entries generalizing acc with
  | nil => rfl
  | cons entry rest inductionHypothesis =>
      rw [List.foldl_cons, inductionHypothesis
        (fun later member => none_ later (List.mem_cons_of_mem _ member))]
      exact other acc entry (none_ entry List.mem_cons_self)

/-- The field of a fold is changed by the selected entry, if there is one. -/
theorem field_foldl (own : ∀ acc entry, selected entry = true →
      field (step acc entry) = change (field acc) entry)
    (other : ∀ acc entry, selected entry = false → field (step acc entry) = field acc)
    {entries : List Entry} (once : AtMostOnce selected entries) (acc : Acc) :
    field (entries.foldl step acc) =
      ((entries.find? selected).map (change (field acc))).getD (field acc) := by
  induction entries generalizing acc with
  | nil => rfl
  | cons entry rest inductionHypothesis =>
      obtain ⟨alone, restOnce⟩ := List.pairwise_cons.mp once
      rw [List.foldl_cons]
      cases isSelected : selected entry with
      | true =>
          have none_ : ∀ later ∈ rest, selected later = false := by
            intro later member
            by_contra both
            exact alone later member ⟨isSelected, Bool.not_eq_false _ ▸ both⟩
          rw [field_foldl_of_none field selected other none_, own acc entry isSelected,
            List.find?_cons_of_pos isSelected]
          rfl
      | false =>
          rw [inductionHypothesis restOnce, other acc entry isSelected,
            List.find?_cons_of_neg (by rw [isSelected]; decide)]

/-! ## The last, the first and all offers -/

/-- The last offer. -/
def lastSome {Value : Type*} (offer : Entry → Option Value) (entries : List Entry) :
    Option Value :=
  (entries.filterMap offer).getLast?

theorem field_foldl_last {Value : Type*} {offer : Entry → Option Value} {wrap : Value → Field}
    (own : ∀ acc entry, field (step acc entry) = ((offer entry).map wrap).getD (field acc))
    (entries : List Entry) (acc : Acc) :
    field (entries.foldl step acc) = ((lastSome offer entries).map wrap).getD (field acc) := by
  induction entries generalizing acc with
  | nil => rfl
  | cons entry rest inductionHypothesis =>
      rw [List.foldl_cons, inductionHypothesis, own]
      unfold lastSome
      cases offered : offer entry with
      | none => rw [List.filterMap_cons_none offered]; rfl
      | some value =>
          rw [List.filterMap_cons_some offered, List.getLast?_cons]
          cases (rest.filterMap offer).getLast? <;> rfl

/-- A field that is never missing keeps the last offer. -/
theorem field_foldl_getD {offer : Entry → Option Field}
    (own : ∀ acc entry, field (step acc entry) = (offer entry).getD (field acc))
    (entries : List Entry) (acc : Acc) :
    field (entries.foldl step acc) = (lastSome offer entries).getD (field acc) := by
  have wrapped : ∀ acc entry, field (step acc entry) = ((offer entry).map id).getD (field acc) := by
    intro acc entry
    rw [own, Option.map_id]
    rfl
  have run := field_foldl_last field wrapped entries acc
  rw [Option.map_id] at run
  exact run

/-- A field that can be missing keeps the last offer. -/
theorem field_foldl_or {Value : Type*} {offer : Entry → Option Value}
    (field : Acc → Option Value)
    (own : ∀ acc entry, field (step acc entry) = (offer entry).or (field acc))
    (entries : List Entry) (acc : Acc) :
    field (entries.foldl step acc) = (lastSome offer entries).or (field acc) := by
  have wrapped : ∀ acc entry,
      field (step acc entry) = ((offer entry).map some).getD (field acc) := by
    intro acc entry
    rw [own]
    cases offer entry <;> rfl
  rw [field_foldl_last field wrapped entries acc]
  cases lastSome offer entries <;> rfl

theorem field_foldl_first {Value : Type*} {offer : Entry → Option Value}
    {field : Acc → Option Value}
    (own : ∀ acc entry, field (step acc entry) = (field acc).or (offer entry))
    (entries : List Entry) (acc : Acc) :
    field (entries.foldl step acc) = (field acc).or (entries.findSome? offer) := by
  induction entries generalizing acc with
  | nil => exact (Option.or_none).symm
  | cons entry rest inductionHypothesis =>
      rw [List.foldl_cons, inductionHypothesis, own, Option.or_assoc, List.findSome?_cons]
      cases offer entry <;> rfl

theorem field_foldl_all {Value : Type*} {offer : Entry → List Value} {field : Acc → List Value}
    (own : ∀ acc entry, field (step acc entry) = field acc ++ offer entry)
    (entries : List Entry) (acc : Acc) :
    field (entries.foldl step acc) = field acc ++ entries.flatMap offer := by
  induction entries generalizing acc with
  | nil => exact (List.append_nil _).symm
  | cons entry rest inductionHypothesis =>
      rw [List.foldl_cons, inductionHypothesis, own, List.append_assoc, List.flatMap_cons]

end TuyaAdapter.Foundation.KeyedFold
