import Mathlib.Data.List.AList
import Mathlib.Data.List.Perm.Basic

/-!
Owns tables with one value per key, as association lists with different keys.
`modify` changes a value in its place. `items` lists what the values of a table
hold; the lists are compared up to order, as the order of a table means nothing.
-/

namespace TuyaAdapter.Foundation.KeyedTable

variable {Key Value Item : Type*} [DecidableEq Key]

abbrev Table (Key Value : Type*) := AList fun _ : Key => Value

/-- Change the value of a key, where there is one. -/
def modify (table : Table Key Value) (key : Key) (change : Value → Value) : Table Key Value :=
  match table.lookup key with
  | some value => table.insert key (change value)
  | none => table

def size (table : Table Key Value) : Nat := table.entries.length

/-- What all the values hold. -/
def items (holds : Value → List Item) (table : Table Key Value) : List Item :=
  table.entries.flatMap fun entry => holds entry.2

/-- What the value of the key holds. -/
def itemsAt (holds : Value → List Item) (table : Table Key Value) (key : Key) : List Item :=
  ((table.lookup key).map holds).getD []

variable {holds : Value → List Item} {table : Table Key Value} {key other : Key} {value : Value}

/-! ## Looking up -/

theorem lookup_insert_if (table : Table Key Value) (key other : Key) (value : Value) :
    (table.insert key value).lookup other = if other = key then some value else table.lookup other := by
  by_cases same : other = key
  · rw [if_pos same, same, AList.lookup_insert]
  · rw [if_neg same, AList.lookup_insert_ne same]

theorem lookup_erase_if (table : Table Key Value) (key other : Key) :
    (table.erase key).lookup other = if other = key then none else table.lookup other := by
  by_cases same : other = key
  · rw [if_pos same, same, AList.lookup_erase]
  · rw [if_neg same, AList.lookup_erase_ne same]

theorem lookup_modify (table : Table Key Value) (key other : Key) (change : Value → Value) :
    (modify table key change).lookup other =
      if other = key then (table.lookup key).map change else table.lookup other := by
  unfold modify
  cases isFound : table.lookup key with
  | none =>
      by_cases same : other = key
      · rw [if_pos same, same, isFound]
        rfl
      · rw [if_neg same]
  | some value => exact lookup_insert_if table key other (change value)

theorem mem_entries_iff {entry : (_ : Key) × Value} :
    entry ∈ table.entries ↔ table.lookup entry.1 = some entry.2 := by
  rw [← Option.mem_def, AList.mem_lookup_iff]

/-! ## What a table holds -/

theorem mem_items {item : Item} :
    item ∈ items holds table ↔ ∃ key value, table.lookup key = some value ∧ item ∈ holds value := by
  unfold items
  rw [List.mem_flatMap]
  constructor
  · rintro ⟨⟨key, value⟩, member, isHeld⟩
    exact ⟨key, value, mem_entries_iff.mp member, isHeld⟩
  · rintro ⟨key, value, isFound, isHeld⟩
    exact ⟨⟨key, value⟩, mem_entries_iff.mpr isFound, isHeld⟩

theorem items_insert (holds : Value → List Item) (table : Table Key Value) (key : Key)
    (value : Value) :
    items holds (table.insert key value) = holds value ++ items holds (table.erase key) := by
  unfold items
  rw [AList.entries_insert, List.flatMap_cons]
  rfl

/-- A table holds what is at a key and what is elsewhere. -/
theorem items_split (holds : Value → List Item) (table : Table Key Value) (key : Key) :
    (items holds table).Perm (itemsAt holds table key ++ items holds (table.erase key)) := by
  cases isFound : table.lookup key with
  | none =>
      have absent : key ∉ table.keys := AList.lookup_eq_none.mp isFound
      have same : (table.erase key).entries = table.entries :=
        List.kerase_of_notMem_keys absent
      rw [itemsAt, isFound, Option.map_none, Option.getD_none, List.nil_append, items, items, same]
  | some value =>
      have present : key ∈ table.keys := AList.lookup_isSome.mp (by rw [isFound]; rfl)
      obtain ⟨held, before, after, -, isTable, isErased⟩ := List.exists_of_kerase present
      have isValue : held = value := by
        have member : (⟨key, held⟩ : (_ : Key) × Value) ∈ table.entries := by
          rw [isTable]
          exact List.mem_append_right _ List.mem_cons_self
        exact Option.some.inj ((mem_entries_iff.mp member).symm.trans isFound)
      have erased : (table.erase key).entries = before ++ after := isErased
      rw [itemsAt, isFound, Option.map_some, Option.getD_some, items, items, isTable, erased,
        isValue, List.flatMap_append, List.flatMap_cons, List.flatMap_append]
      exact List.perm_append_comm_assoc _ _ _

theorem itemsAt_of_lookup (isFound : table.lookup key = some value) :
    itemsAt holds table key = holds value := by
  rw [itemsAt, isFound]
  rfl

theorem items_of_lookup (isFound : table.lookup key = some value) :
    (items holds table).Perm (holds value ++ items holds (table.erase key)) := by
  have split := items_split holds table key
  rwa [itemsAt_of_lookup isFound] at split

theorem items_modify_of_lookup (isFound : table.lookup key = some value)
    (change : Value → Value) :
    items holds (modify table key change) =
      holds (change value) ++ items holds (table.erase key) := by
  unfold modify
  rw [isFound]
  exact items_insert holds table key (change value)

/-- A change that keeps what the value holds keeps what the table holds. -/
theorem items_modify {change : Value → Value}
    (same : ∀ value, table.lookup key = some value → (holds (change value)).Perm (holds value)) :
    (items holds (modify table key change)).Perm (items holds table) := by
  cases isFound : table.lookup key with
  | none =>
      unfold modify
      rw [isFound]
  | some value =>
      rw [items_modify_of_lookup isFound]
      exact ((same value isFound).append_right _).trans (items_of_lookup isFound).symm

/-! ## The number of entries -/

theorem size_insert_of_none (notFound : table.lookup key = none) :
    size (table.insert key value) = size table + 1 := by
  unfold size
  rw [AList.entries_insert_of_notMem (AList.lookup_eq_none.mp notFound), List.length_cons]

theorem size_insert_of_some {old : Value} (isFound : table.lookup key = some old) :
    size (table.insert key value) = size table := by
  have present : key ∈ table.keys := AList.lookup_isSome.mp (by rw [isFound]; rfl)
  obtain ⟨held, before, after, -, isTable, isErased⟩ := List.exists_of_kerase present
  unfold size
  rw [AList.entries_insert, isErased, isTable]
  simp only [List.length_cons, List.length_append]
  omega

theorem size_modify (table : Table Key Value) (key : Key) (change : Value → Value) :
    size (modify table key change) = size table := by
  unfold modify
  cases isFound : table.lookup key with
  | none => rfl
  | some value => exact size_insert_of_some isFound

end TuyaAdapter.Foundation.KeyedTable
