import Mathlib.Data.List.MinMax
import Mathlib.Data.List.Nodup

/-!
Owns the merge of entries by key that keeps, for every key, the first entry of
the highest rank, in the order in which the keys first occur.
-/

namespace TuyaAdapter.Foundation.KeyedMerge

variable {Entry Key Rank : Type*} [DecidableEq Key] [LinearOrder Rank]

/-- The elements in the order in which they first occur. -/
def distinct (keys : List Key) : List Key := keys.eraseDups

theorem distinct_concat (keys : List Key) (key : Key) :
    distinct (keys ++ [key]) = if key ∈ keys then distinct keys else distinct keys ++ [key] := by
  unfold distinct
  rw [List.eraseDups_append]
  by_cases member : key ∈ keys
  · simp [List.removeAll, member]
  · simp [List.removeAll, member, List.eraseDups_cons]

theorem mem_distinct {keys : List Key} {key : Key} : key ∈ distinct keys ↔ key ∈ keys :=
  List.mem_eraseDups

variable (key : Entry → Key) (rank : Entry → Rank)

/-- An entry replaces the one with its key when it is of higher rank, and is
appended when there is none. -/
def insertBest : List Entry → Entry → List Entry
  | [], entry => [entry]
  | first :: rest, entry =>
      if key first = key entry then (if rank first < rank entry then entry else first) :: rest
      else first :: insertBest rest entry

def merge (entries : List Entry) : List Entry := entries.foldl (insertBest key rank) []

/-- The first entry of the highest rank among those with the key. -/
def best (entries : List Entry) (wanted : Key) : Option Entry :=
  (entries.filter fun entry => key entry = wanted).argmax rank

theorem merge_concat (entries : List Entry) (entry : Entry) :
    merge key rank (entries ++ [entry]) = insertBest key rank (merge key rank entries) entry := by
  unfold merge
  rw [List.foldl_append]
  rfl

/-! ## One entry -/

theorem keys_insertBest (merged : List Entry) (entry : Entry) :
    (insertBest key rank merged entry).map key =
      if key entry ∈ merged.map key then merged.map key else merged.map key ++ [key entry] := by
  induction merged with
  | nil => rfl
  | cons first rest inductionHypothesis =>
      unfold insertBest
      by_cases same : key first = key entry
      · have chosen : key (if rank first < rank entry then entry else first) = key first := by
          split
          · exact same.symm
          · rfl
        rw [if_pos same, List.map_cons, chosen, if_pos (by simp [same])]
        rfl
      · rw [if_neg same, List.map_cons, inductionHypothesis]
        by_cases member : key entry ∈ rest.map key
        · rw [if_pos member, if_pos (by simp [member])]
          rfl
        · rw [if_neg member, if_neg (by simpa [Ne.symm same] using member)]
          rfl

theorem length_le_insertBest (merged : List Entry) (entry : Entry) :
    merged.length ≤ (insertBest key rank merged entry).length := by
  have keys := congrArg List.length (keys_insertBest key rank merged entry)
  rw [List.length_map] at keys
  split at keys
  · rw [keys, List.length_map]
  · rw [keys, List.length_append, List.length_map]
    exact Nat.le_add_right _ _

theorem length_le_foldl_insertBest (entries merged : List Entry) :
    merged.length ≤ (entries.foldl (insertBest key rank) merged).length := by
  induction entries generalizing merged with
  | nil => exact Nat.le_refl _
  | cons entry rest inductionHypothesis =>
      exact Nat.le_trans (length_le_insertBest key rank merged entry) (inductionHypothesis _)

/-- What is in a merged list with distinct keys after one more entry. -/
theorem mem_insertBest {merged : List Entry} (nodup : (merged.map key).Nodup)
    {entry other : Entry} :
    other ∈ insertBest key rank merged entry ↔
      (other ∈ merged ∧ key other ≠ key entry) ∨
        (∃ old ∈ merged, key old = key entry ∧
          other = if rank old < rank entry then entry else old) ∨
        (key entry ∉ merged.map key ∧ other = entry) := by
  induction merged with
  | nil => simp [insertBest]
  | cons first rest inductionHypothesis =>
      rw [List.map_cons, List.nodup_cons] at nodup
      unfold insertBest
      by_cases same : key first = key entry
      · have noneLater : ∀ later ∈ rest, key later ≠ key entry := by
          intro later member isKey
          exact nodup.1 (List.mem_map.mpr ⟨later, member, isKey.trans same.symm⟩)
        rw [if_pos same, List.mem_cons]
        constructor
        · rintro (isChosen | later)
          · exact Or.inr (Or.inl ⟨first, List.mem_cons_self, same, isChosen⟩)
          · exact Or.inl ⟨List.mem_cons_of_mem _ later, noneLater other later⟩
        · rintro (⟨member, differs⟩ | ⟨old, member, isKey, isChosen⟩ | ⟨absent, -⟩)
          · rcases List.mem_cons.mp member with isFirst | later
            · rw [isFirst] at differs
              exact absurd same differs
            · exact Or.inr later
          · rcases List.mem_cons.mp member with isFirst | later
            · rw [isFirst] at isChosen
              exact Or.inl isChosen
            · exact absurd isKey (noneLater old later)
          · exact absurd (by simp [same]) absent
      · rw [if_neg same, List.mem_cons, inductionHypothesis nodup.2]
        constructor
        · rintro (isFirst | ⟨member, differs⟩ | ⟨old, member, isKey, isChosen⟩ | ⟨absent, isEntry⟩)
          · rw [isFirst]
            exact Or.inl ⟨List.mem_cons_self, same⟩
          · exact Or.inl ⟨List.mem_cons_of_mem _ member, differs⟩
          · exact Or.inr (Or.inl ⟨old, List.mem_cons_of_mem _ member, isKey, isChosen⟩)
          · exact Or.inr (Or.inr ⟨by simpa [Ne.symm same] using absent, isEntry⟩)
        · rintro (⟨member, differs⟩ | ⟨old, member, isKey, isChosen⟩ | ⟨absent, isEntry⟩)
          · rcases List.mem_cons.mp member with isFirst | later
            · exact Or.inl isFirst
            · exact Or.inr (Or.inl ⟨later, differs⟩)
          · rcases List.mem_cons.mp member with isFirst | later
            · rw [isFirst] at isKey
              exact absurd isKey same
            · exact Or.inr (Or.inr (Or.inl ⟨old, later, isKey, isChosen⟩))
          · refine Or.inr (Or.inr (Or.inr ⟨fun later => absent ?_, isEntry⟩))
            rw [List.map_cons]
            exact List.mem_cons_of_mem _ later

theorem best_concat (entries : List Entry) (entry : Entry) (wanted : Key) :
    best key rank (entries ++ [entry]) wanted =
      if key entry = wanted then
        Option.casesOn (best key rank entries wanted) (some entry) fun old =>
          if rank old < rank entry then some entry else some old
      else best key rank entries wanted := by
  unfold best
  rw [List.filter_append]
  by_cases same : key entry = wanted
  · rw [if_pos same, List.filter_cons_of_pos (by simpa using same), List.filter_nil,
      List.argmax_concat]
  · rw [if_neg same, List.filter_cons_of_neg (by simpa using same), List.filter_nil,
      List.append_nil]

theorem best_spec {entries : List Entry} {wanted : Key} {entry : Entry}
    (isBest : best key rank entries wanted = some entry) :
    entry ∈ entries ∧ key entry = wanted ∧
      ∀ other ∈ entries, key other = wanted → rank other ≤ rank entry := by
  have member := List.mem_filter.mp (List.argmax_mem isBest)
  refine ⟨member.1, by simpa using member.2, fun other isIn isKey => ?_⟩
  exact List.le_of_mem_argmax (List.mem_filter.mpr ⟨isIn, by simpa using isKey⟩) isBest

theorem best_eq_none {entries : List Entry} {wanted : Key} :
    best key rank entries wanted = none ↔ wanted ∉ entries.map key := by
  unfold best
  rw [List.argmax_eq_none, List.filter_eq_nil_iff]
  simp

/-! ## All entries -/

theorem keys_merge (entries : List Entry) :
    (merge key rank entries).map key = distinct (entries.map key) := by
  induction entries using List.reverseRecOn with
  | nil => rfl
  | append_singleton entries entry inductionHypothesis =>
      rw [merge_concat, keys_insertBest, inductionHypothesis, List.map_append, List.map_singleton,
        distinct_concat]
      simp only [mem_distinct]

theorem nodup_distinct (keys : List Key) : (distinct keys).Nodup := by
  induction keys using List.reverseRecOn with
  | nil => exact List.nodup_nil
  | append_singleton keys key inductionHypothesis =>
      rw [distinct_concat]
      split
      · exact inductionHypothesis
      · rename_i absent
        rw [List.nodup_append]
        refine ⟨inductionHypothesis, by simp, ?_⟩
        intro first member second isKey same
        rw [List.mem_singleton.mp isKey] at same
        rw [same] at member
        exact absent (mem_distinct.mp member)

/-- The merged list holds the best entry of every key. -/
theorem mem_merge {entries : List Entry} {entry : Entry} :
    entry ∈ merge key rank entries ↔ best key rank entries (key entry) = some entry := by
  induction entries using List.reverseRecOn generalizing entry with
  | nil => simp [merge, best]
  | append_singleton entries last inductionHypothesis =>
      have nodup : ((merge key rank entries).map key).Nodup := by
        rw [keys_merge]
        exact nodup_distinct _
      rw [merge_concat, mem_insertBest key rank nodup, best_concat]
      by_cases same : key last = key entry
      · rw [if_pos same]
        cases isBest : best key rank entries (key entry) with
        | none =>
            have absent : key last ∉ (merge key rank entries).map key := by
              rw [keys_merge, mem_distinct, same]
              exact (best_eq_none key rank).mp isBest
            constructor
            · rintro (⟨-, differs⟩ | ⟨old, member, isKey, -⟩ | ⟨-, isLast⟩)
              · exact absurd same.symm differs
              · exact absurd (List.mem_map.mpr ⟨old, member, isKey⟩) absent
              · rw [isLast]
            · exact fun isLast => Or.inr (Or.inr ⟨absent, (Option.some.inj isLast).symm⟩)
        | some old =>
            have isKey : key old = key entry := (best_spec key rank isBest).2.1
            have member : old ∈ merge key rank entries := by
              rw [inductionHypothesis, isKey]
              exact isBest
            have only : ∀ other ∈ merge key rank entries, key other = key last → other = old := by
              intro other isIn otherKey
              have otherBest := inductionHypothesis.mp isIn
              rw [otherKey, same, isBest] at otherBest
              exact (Option.some.inj otherBest).symm
            have chosen : (if rank old < rank last then some last else some old) =
                some (if rank old < rank last then last else old) := by
              split <;> rfl
            show _ ↔ (if rank old < rank last then some last else some old) = some entry
            rw [chosen, Option.some_inj]
            constructor
            · rintro (⟨-, differs⟩ | ⟨other, isIn, otherKey, isChosen⟩ | ⟨absent, -⟩)
              · exact absurd same.symm differs
              · rw [only other isIn otherKey] at isChosen
                exact isChosen.symm
              · exact absurd (List.mem_map.mpr ⟨old, member, isKey.trans same.symm⟩) absent
            · intro isChosen
              exact Or.inr (Or.inl ⟨old, member, isKey.trans same.symm, isChosen.symm⟩)
      · rw [if_neg same, ← inductionHypothesis]
        constructor
        · rintro (⟨member, -⟩ | ⟨old, -, isKey, isChosen⟩ | ⟨-, isLast⟩)
          · exact member
          · exfalso
            apply same
            rw [isChosen]
            split
            · rfl
            · exact isKey.symm
          · exact absurd (congrArg key isLast).symm same
        · exact fun member => Or.inl ⟨member, fun isKey => same isKey.symm⟩

end TuyaAdapter.Foundation.KeyedMerge
