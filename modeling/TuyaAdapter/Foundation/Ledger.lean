import Mathlib.Data.List.Basic
import Mathlib.Data.List.Nodup

/-!
Owns the account of resources that are obtained, used and given back. A
resource is named by its place in the order of obtaining; with each one goes
what it was obtained with, for example a length. The account records every
return, right or wrong, and every use of something that is not held. `Kept`
says that it is in order: nothing was used that was not held, and everything
given back was held and came back with the data it was obtained with. The rules
say what each entry asks for to keep it in order.
-/

namespace TuyaAdapter.Foundation

variable {Data : Type}

/-- The account of the resources of one kind. -/
structure Ledger (Data : Type) where
  obtained : List Data
  returned : List (Nat × Data)
  misuses : Nat
deriving DecidableEq, Repr

namespace Ledger

/-- An account without entries. -/
def fresh : Ledger Data := ⟨[], [], 0⟩

/-- The names that were given back. -/
def returnedNames (ledger : Ledger Data) : List Nat := ledger.returned.map Prod.fst

/-- The resource was obtained and not given back. -/
def Held (ledger : Ledger Data) (name : Nat) : Prop :=
  name < ledger.obtained.length ∧ name ∉ ledger.returnedNames

instance (ledger : Ledger Data) (name : Nat) : Decidable (ledger.Held name) :=
  inferInstanceAs (Decidable (_ ∧ _))

/-! ## Entries -/

/-- The name the next resource gets. -/
def nextName (ledger : Ledger Data) : Nat := ledger.obtained.length

/-- A resource is obtained. -/
def obtain (ledger : Ledger Data) (data : Data) : Ledger Data :=
  { ledger with obtained := ledger.obtained ++ [data] }

/-- Something is used, or passed on, that is no resource of this kind. -/
def misuse (ledger : Ledger Data) : Ledger Data := { ledger with misuses := ledger.misuses + 1 }

/-- A resource is used. -/
def use (ledger : Ledger Data) (name : Nat) : Ledger Data :=
  if ledger.Held name then ledger else ledger.misuse

/-- A resource is given back, with the data it is said to have. -/
def giveBack (ledger : Ledger Data) (name : Nat) (data : Data) : Ledger Data :=
  { ledger with returned := ledger.returned ++ [(name, data)] }

/-- Several resources are given back one after the other. -/
def giveBackAll (ledger : Ledger Data) : List (Nat × Data) → Ledger Data
  | [] => ledger
  | entry :: rest => (ledger.giveBack entry.1 entry.2).giveBackAll rest

/-! ## An account in order -/

/-- No misuse, and every return was due and with the right data. -/
structure Kept (ledger : Ledger Data) : Prop where
  faultless : ledger.misuses = 0
  once : ledger.returnedNames.Nodup
  agrees : ∀ entry ∈ ledger.returned, ledger.obtained[entry.1]? = some entry.2

theorem kept_fresh : (fresh : Ledger Data).Kept :=
  ⟨rfl, List.nodup_nil, by simp [fresh]⟩

@[simp] theorem held_fresh (name : Nat) : ¬ (fresh : Ledger Data).Held name := by
  simp [Held, fresh]

variable {ledger : Ledger Data}

theorem Kept.known (kept : ledger.Kept) {name : Nat} (member : name ∈ ledger.returnedNames) :
    name < ledger.obtained.length := by
  obtain ⟨entry, inReturned, rfl⟩ := List.mem_map.mp member
  exact (List.getElem?_eq_some_iff.mp (kept.agrees entry inReturned)).1

/-- What was obtained is held or was given back exactly once. -/
theorem Kept.count_returned (kept : ledger.Kept) {name : Nat}
    (known : name < ledger.obtained.length) :
    ledger.returnedNames.count name = 1 ↔ ¬ ledger.Held name := by
  constructor
  · rintro once ⟨-, absent⟩
    rw [List.count_eq_zero_of_not_mem absent] at once
    exact absurd once (by decide)
  · intro notHeld
    have member : name ∈ ledger.returnedNames := by
      by_contra absent
      exact notHeld ⟨known, absent⟩
    exact List.count_eq_one_of_mem kept.once member

/-! ## Rules -/

theorem kept_obtain (kept : ledger.Kept) (data : Data) : (ledger.obtain data).Kept where
  faultless := kept.faultless
  once := kept.once
  agrees := by
    intro entry member
    have known := kept.known (List.mem_map_of_mem member)
    have agrees := kept.agrees entry member
    simp only [obtain]
    rw [List.getElem?_append_left known, agrees]

theorem held_obtain (kept : ledger.Kept) (data : Data) (name : Nat) :
    (ledger.obtain data).Held name ↔ ledger.Held name ∨ name = ledger.nextName := by
  have notReturned : ledger.nextName ∉ ledger.returnedNames := by
    intro member
    exact absurd (kept.known member) (Nat.lt_irrefl _)
  unfold Held obtain nextName returnedNames at *
  simp only [List.length_append, List.length_singleton]
  constructor
  · rintro ⟨below, absent⟩
    rcases Nat.lt_or_eq_of_le (Nat.le_of_lt_succ below) with old | new
    · exact Or.inl ⟨old, absent⟩
    · exact Or.inr new
  · rintro (⟨below, absent⟩ | rfl)
    · exact ⟨Nat.lt_succ_of_lt below, absent⟩
    · exact ⟨Nat.lt_succ_self _, notReturned⟩

theorem data_obtain (ledger : Ledger Data) (data : Data) :
    (ledger.obtain data).obtained[ledger.nextName]? = some data := by
  simp [obtain, nextName]

theorem use_of_held {name : Nat} (held : ledger.Held name) : ledger.use name = ledger := if_pos held

/-- A return keeps the account in order exactly when the resource is held and
comes back with its own data. -/
theorem kept_giveBack (kept : ledger.Kept) (name : Nat) (data : Data) :
    (ledger.giveBack name data).Kept ↔
      ledger.Held name ∧ ledger.obtained[name]? = some data := by
  have names : (ledger.giveBack name data).returnedNames = ledger.returnedNames ++ [name] := by
    simp [returnedNames, giveBack]
  constructor
  · intro stillKept
    have isData : ledger.obtained[name]? = some data :=
      stillKept.agrees (name, data) (by simp [giveBack])
    have once := stillKept.once
    rw [names, List.nodup_append] at once
    refine ⟨⟨(List.getElem?_eq_some_iff.mp isData).1, ?_⟩, isData⟩
    intro member
    exact once.2.2 name member name (by simp) rfl
  · rintro ⟨held, isData⟩
    refine ⟨kept.faultless, ?_, ?_⟩
    · rw [names]
      exact List.nodup_append.mpr ⟨kept.once, by simp, fun other member last isLast => by
        rw [List.mem_singleton.mp isLast]
        intro same
        exact held.2 (same ▸ member)⟩
    · intro entry member
      rcases List.mem_append.mp member with old | new
      · exact kept.agrees entry old
      · rw [List.mem_singleton.mp new]
        exact isData

theorem held_giveBack (ledger : Ledger Data) (name : Nat) (data : Data) (other : Nat) :
    (ledger.giveBack name data).Held other ↔ ledger.Held other ∧ other ≠ name := by
  simp only [Held, giveBack, returnedNames, List.map_append, List.map_cons, List.map_nil,
    List.mem_append, List.mem_singleton, not_or]
  exact and_assoc.symm

/-- Different resources that are held and come back with their own data can all
be given back; no other is affected. -/
theorem kept_giveBackAll (kept : ledger.Kept) {entries : List (Nat × Data)}
    (once : (entries.map Prod.fst).Nodup)
    (due : ∀ entry ∈ entries, ledger.Held entry.1 ∧ ledger.obtained[entry.1]? = some entry.2) :
    (ledger.giveBackAll entries).Kept ∧
      ∀ name, (ledger.giveBackAll entries).Held name ↔
        ledger.Held name ∧ name ∉ entries.map Prod.fst := by
  induction entries generalizing ledger with
  | nil => exact ⟨kept, by simp [giveBackAll]⟩
  | cons entry rest inductionHypothesis =>
      rw [List.map_cons, List.nodup_cons] at once
      have keptNext := (kept_giveBack kept entry.1 entry.2).mpr (due entry (by simp))
      have dueNext : ∀ other ∈ rest, (ledger.giveBack entry.1 entry.2).Held other.1 ∧
          (ledger.giveBack entry.1 entry.2).obtained[other.1]? = some other.2 := by
        intro other member
        obtain ⟨held, data⟩ := due other (by simp [member])
        refine ⟨(held_giveBack _ _ _ _).mpr ⟨held, ?_⟩, data⟩
        intro same
        exact once.1 (same ▸ List.mem_map_of_mem member)
      obtain ⟨keptAll, heldAll⟩ := inductionHypothesis keptNext once.2 dueNext
      refine ⟨keptAll, fun name => ?_⟩
      simp only [giveBackAll, heldAll, held_giveBack, List.map_cons, List.mem_cons, not_or]
      exact and_assoc

/-! ## One owner -/

/-- The account is in order, and what is not given back is what the owner, a
variable that can name one resource, names. -/
structure Accounted (ledger : Ledger Data) (owner : Option Nat) : Prop where
  kept : ledger.Kept
  owned : ∀ name, ledger.Held name → owner = some name

theorem accounted_fresh (owner : Option Nat) : (fresh : Ledger Data).Accounted owner :=
  ⟨kept_fresh, fun name held => absurd held (held_fresh name)⟩

theorem Accounted.not_held (accounted : ledger.Accounted none) (name : Nat) :
    ¬ ledger.Held name := by
  intro held
  cases accounted.owned name held

/-- Where nothing is outstanding, the owner may name anything. -/
theorem Accounted.of_none (accounted : ledger.Accounted none) (owner : Option Nat) :
    ledger.Accounted owner :=
  ⟨accounted.kept, fun name held => absurd held (accounted.not_held name)⟩

theorem accounted_obtain (accounted : ledger.Accounted none) (data : Data) :
    (ledger.obtain data).Accounted (some ledger.nextName) := by
  refine ⟨kept_obtain accounted.kept data, fun name held => ?_⟩
  rcases (held_obtain accounted.kept data name).mp held with old | rfl
  · exact absurd old (accounted.not_held name)
  · rfl

/-- When the owner gives back what it names, nothing is outstanding. -/
theorem accounted_giveBack {name : Nat} {data : Data} (accounted : ledger.Accounted (some name))
    (held : ledger.Held name) (isData : ledger.obtained[name]? = some data) :
    (ledger.giveBack name data).Accounted none := by
  refine ⟨(kept_giveBack accounted.kept name data).mpr ⟨held, isData⟩, fun other stillHeld => ?_⟩
  obtain ⟨wasHeld, differs⟩ := (held_giveBack ledger name data other).mp stillHeld
  exact absurd (Option.some.inj (accounted.owned other wasHeld)).symm differs

end Ledger

end TuyaAdapter.Foundation
