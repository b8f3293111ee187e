import Mathlib.Algebra.BigOperators.Group.Finset.Piecewise
import TuyaAdapter.Foundation.Run
import TuyaAdapter.TuyaHashmap.Model

/-!
Contract: the hash map is a multimap as long as every removal is harmless.

A multimap gives each key its values, the newest first. The elements of a map
are listed in the order of their allocation; a chain holds those of its bucket
and a key has the values of those under it. A removal that finds no wanted
element takes the last element of the chain instead, so it is harmless only
when the chain is empty or holds a wanted element.
-/

namespace TuyaAdapter.TuyaHashmap

open Foundation.HashChain Foundation.Run

/-! ## Multimaps -/

/-- The values of each key, the newest first. `keys` has every key with a
value. -/
structure Multimap (Key Data : Type) where
  values : Key → List Data
  keys : Finset Key
  covered : ∀ key, values key ≠ [] → key ∈ keys

namespace Multimap

variable {Key Data : Type} [DecidableEq Key] [DecidableEq Data]

def empty : Multimap Key Data := ⟨fun _ => [], ∅, fun _ notEmpty => absurd rfl notEmpty⟩

/-- The number of all values of all keys. -/
def total (multimap : Multimap Key Data) : Nat :=
  ∑ key ∈ multimap.keys, (multimap.values key).length

/-- The multimap with other values of one key. -/
def update (multimap : Multimap Key Data) (key : Key) (values : List Data) : Multimap Key Data where
  values := Function.update multimap.values key values
  keys := insert key multimap.keys
  covered := by
    intro other notEmpty
    by_cases isKey : other = key
    · exact Finset.mem_insert.mpr (Or.inl isKey)
    · rw [Function.update_of_ne isKey] at notEmpty
      exact Finset.mem_insert_of_mem (multimap.covered other notEmpty)

/-- A value is meant by a removal; any value is when no data is given. -/
def Meant (data : Option Data) (value : Data) : Prop := data = none ∨ data = some value

instance (data : Option Data) (value : Data) : Decidable (Meant data value) :=
  inferInstanceAs (Decidable (_ ∨ _))

def perform (multimap : Multimap Key Data) : Call Key Data → Multimap Key Data × Reply Data
  | .put _ _ none => (multimap, .status .omem)
  | .put key data (some _) => (multimap.update key (data :: multimap.values key), .status .ok)
  | .get key =>
      match (multimap.values key).head? with
      | none => (multimap, .got .missing none)
      | some value => (multimap, .got .ok (some value))
  | .remove key data =>
      if ∃ value ∈ multimap.values key, Meant data value then
        (multimap.update key ((multimap.values key).eraseP fun value => Meant data value),
          .status .ok)
      else (multimap, .status .missing)
  | .length => (multimap, .count multimap.total)

def performAll : Multimap Key Data → List (Call Key Data) → Multimap Key Data × List (Reply Data)
  | multimap, [] => (multimap, [])
  | multimap, call :: rest =>
      let done := multimap.perform call
      let later := performAll done.1 rest
      (later.1, done.2 :: later.2)

end Multimap

/-! ## Maps that hold their elements -/

section Maps

variable {Key Data : Type} [DecidableEq Key] [DecidableEq Data] {hash : Key → Nat}
  {map : Hashmap Key Data} {multimap : Multimap Key Data}

/-- The elements of a bucket. -/
def inBucket (hash : Key → Nat) (map : Hashmap Key Data) (bucket : Nat) : List Nat :=
  map.live.filter fun element => hash (map.key element) = bucket

structure Holds (hash : Key → Nat) (map : Hashmap Key Data) : Prop where
  different : map.live.Nodup
  size_eq : map.size = map.live.length
  chained : ∀ bucket, Chained map.chains (.head bucket) (inBucket hash map bucket)

/-- The elements under a key. -/
def under (map : Hashmap Key Data) (key : Key) : List Nat :=
  map.live.filter fun element => key = map.key element

def Represents (map : Hashmap Key Data) (multimap : Multimap Key Data) : Prop :=
  ∀ key, multimap.values key = (under map key).map map.data

/-- An allocation gives an element that is not allocated yet. -/
def Legal (map : Hashmap Key Data) : Call Key Data → Prop
  | .put _ _ (some element) => element ∉ map.live
  | _ => True

instance (map : Hashmap Key Data) : ∀ call, Decidable (Legal map call)
  | .put _ _ (some element) => inferInstanceAs (Decidable (element ∉ map.live))
  | .put _ _ none => inferInstanceAs (Decidable True)
  | .get _ => inferInstanceAs (Decidable True)
  | .remove _ _ => inferInstanceAs (Decidable True)
  | .length => inferInstanceAs (Decidable True)

/-- A removal meets an empty chain or an element it wants. -/
def Harmless (hash : Key → Nat) (map : Hashmap Key Data) : Call Key Data → Prop
  | .remove key data =>
      (∀ element ∈ map.live, hash (map.key element) ≠ hash key) ∨
        ∃ element ∈ map.live, Wanted map key data element
  | _ => True

instance (hash : Key → Nat) (map : Hashmap Key Data) : ∀ call, Decidable (Harmless hash map call)
  | .remove _ _ => inferInstanceAs (Decidable (_ ∨ _))
  | .put _ _ _ => inferInstanceAs (Decidable True)
  | .get _ => inferInstanceAs (Decidable True)
  | .length => inferInstanceAs (Decidable True)

omit [DecidableEq Key] [DecidableEq Data] in
theorem holds_new (next : Nat → Option Nat) (pprev : Nat → Slot Nat Nat) (key : Nat → Key)
    (data : Nat → Data) : Holds hash (tuyaHashmapNew next pprev key data) :=
  ⟨List.nodup_nil, rfl, fun _ => rfl⟩

omit [DecidableEq Data] in
theorem represents_new (next : Nat → Option Nat) (pprev : Nat → Slot Nat Nat) (key : Nat → Key)
    (data : Nat → Data) : Represents (tuyaHashmapNew next pprev key data) Multimap.empty :=
  fun _ => rfl

/-! ## Loops -/

omit [DecidableEq Data] in
theorem findLoop_spec (key : Key) {bound : Nat} {slot : Slot Nat Nat} {nodes : List Nat}
    (chained : Chained map.chains slot nodes) (enough : nodes.length < bound) :
    findLoop map key bound (map.chains.target slot) =
      some (nodes.find? fun element => key = map.key element) := by
  induction nodes generalizing slot bound with
  | nil =>
      obtain ⟨bound, rfl⟩ := Nat.exists_eq_succ_of_ne_zero (Nat.ne_of_gt enough)
      have isNone : map.chains.target slot = none := chained
      rw [isNone]
      rfl
  | cons element rest inductionHypothesis =>
      obtain ⟨bound, rfl⟩ := Nat.exists_eq_succ_of_ne_zero (Nat.ne_zero_of_lt enough)
      obtain ⟨isElement, -, after⟩ := chained
      have later := inductionHypothesis after (Nat.lt_of_succ_lt_succ enough)
      rw [isElement, findLoop]
      by_cases isKey : key = map.key element
      · rw [if_pos isKey, List.find?_cons_of_pos (by simpa using isKey)]
      · rw [if_neg isKey, List.find?_cons_of_neg (by simpa using isKey)]
        exact later

/-- The loop of a removal ends at the first wanted element, and without one at
the last element. -/
theorem removeLoop_spec (key : Key) (data : Option Data) {bound : Nat} {slot : Slot Nat Nat}
    {nodes : List Nat} (tmpElement : Option Nat) (chained : Chained map.chains slot nodes)
    (enough : nodes.length < bound) :
    removeLoop map key data bound (map.chains.target slot) tmpElement =
      some ((nodes.find? fun element => Wanted map key data element).or
        (nodes.getLast?.or tmpElement)) := by
  induction nodes generalizing slot bound tmpElement with
  | nil =>
      obtain ⟨bound, rfl⟩ := Nat.exists_eq_succ_of_ne_zero (Nat.ne_of_gt enough)
      have isNone : map.chains.target slot = none := chained
      rw [isNone]
      rfl
  | cons element rest inductionHypothesis =>
      obtain ⟨bound, rfl⟩ := Nat.exists_eq_succ_of_ne_zero (Nat.ne_zero_of_lt enough)
      obtain ⟨isElement, -, after⟩ := chained
      have later := inductionHypothesis (some element) after (Nat.lt_of_succ_lt_succ enough)
      rw [isElement, removeLoop]
      by_cases isWanted : Wanted map key data element
      · rw [if_pos isWanted, List.find?_cons_of_pos (by simpa using isWanted)]
        rfl
      · rw [if_neg isWanted, List.find?_cons_of_neg (by simpa using isWanted)]
        have lastOne : (element :: rest).getLast?.or tmpElement = rest.getLast?.or (some element) := by
          cases rest with
          | nil => rfl
          | cons second others => simp [List.getLast?_eq_some_getLast]
        rw [lastOne]
        exact later

omit [DecidableEq Key] [DecidableEq Data] in
theorem inBucket_length_lt (bucket : Nat) :
    (inBucket hash map bucket).length < map.live.length + 1 :=
  Nat.lt_succ_of_le (List.length_filter_le _ _)

omit [DecidableEq Key] [DecidableEq Data] in
theorem hash_of_mem_inBucket {element bucket : Nat} (member : element ∈ inBucket hash map bucket) :
    hash (map.key element) = bucket := by
  simpa using List.of_mem_filter member

omit [DecidableEq Key] [DecidableEq Data] in
/-- An element that can only be in one bucket is found in the chain of that
bucket when it is found among all. -/
theorem find_inBucket {wanted : Nat → Bool} {bucket : Nat}
    (there : ∀ element, wanted element = true → hash (map.key element) = bucket) :
    (inBucket hash map bucket).find? wanted = map.live.find? wanted := by
  unfold inBucket
  rw [List.find?_filter]
  congr 1
  funext element
  cases isWanted : wanted element with
  | false => simp
  | true => simp [there element isWanted]

omit [DecidableEq Data] in
theorem hashFind_spec (holds : Holds hash map) (key : Key) :
    hashFind hash map key = some (map.live.find? fun element => key = map.key element) := by
  have chained := holds.chained (hash key)
  have isFind : (inBucket hash map (hash key)).find? (fun element => key = map.key element) =
      map.live.find? fun element => key = map.key element := by
    apply find_inBucket
    intro element isKey
    rw [← of_decide_eq_true isKey]
  have found := findLoop_spec key chained (inBucket_length_lt (hash key))
  rw [isFind] at found
  unfold hashFind
  cases isFirst : map.chains.first (hash key) with
  | none =>
      have target : map.chains.target (.head (hash key)) = none := isFirst
      rw [target] at found
      exact found
  | some first =>
      have target : map.chains.target (.head (hash key)) = some first := isFirst
      rw [target] at found
      exact found

/-! ## Counting and looking up -/

/-- Every element is under one key, so the elements under all keys are all
elements. -/
theorem sum_under (elements : List Nat) (key : Nat → Key) (keys : Finset Key)
    (covered : ∀ element ∈ elements, key element ∈ keys) :
    ∑ one ∈ keys, (elements.filter fun element => one = key element).length = elements.length := by
  induction elements with
  | nil => simp
  | cons element rest inductionHypothesis =>
      have later := inductionHypothesis fun other member =>
        covered other (List.mem_cons_of_mem _ member)
      have here : element ∈ element :: rest := List.mem_cons_self
      have split : ∀ one, ((element :: rest).filter fun element => one = key element).length =
          (if one = key element then 1 else 0) +
            (rest.filter fun element => one = key element).length := by
        intro one
        by_cases isKey : one = key element
        · simp [isKey, Nat.add_comm]
        · simp [isKey]
      simp only [split, Finset.sum_add_distrib, later, Finset.sum_ite_eq', covered element here,
        if_true, List.length_cons, Nat.add_comm]

omit [DecidableEq Data] in
theorem Represents.total_eq (represents : Represents map multimap) :
    multimap.total = map.live.length := by
  have lengths : ∀ key, (multimap.values key).length = (under map key).length := by
    intro key
    rw [represents key, List.length_map]
  unfold Multimap.total
  simp only [lengths]
  apply sum_under
  intro element member
  apply multimap.covered
  rw [represents (map.key element)]
  have isUnder : element ∈ under map (map.key element) := by simp [under, member]
  intro isNil
  rw [List.map_eq_nil_iff.mp isNil] at isUnder
  exact absurd isUnder List.not_mem_nil

theorem tuyaHashmapGet_spec (holds : Holds hash map) (represents : Represents map multimap)
    (key : Key) :
    perform hash map (.get key) = some (map, (multimap.perform (.get key)).2) := by
  have isHead : (multimap.values key).head? =
      (map.live.find? fun element => key = map.key element).map map.data := by
    rw [represents key, List.head?_map, under, List.head?_filter]
  simp only [perform, tuyaHashmapGet, hashFind_spec holds key, Multimap.perform, isHead]
  cases map.live.find? fun element => key = map.key element with
  | none => rfl
  | some element => rfl

/-! ## Putting -/

section Put

variable {element : Nat} (fresh : element ∉ map.live) (key : Key) (data : Data)

include fresh

omit [DecidableEq Key] [DecidableEq Data] in
theorem filter_put (asked : Key → Bool) :
    ((tuyaHashmapPut hash map key data (some element)).1.live.filter fun one =>
        asked ((tuyaHashmapPut hash map key data (some element)).1.key one)) =
      (if asked key then [element] else []) ++ map.live.filter fun one => asked (map.key one) := by
  have kept : (map.live.filter fun one => asked (Function.update map.key element key one)) =
      map.live.filter fun one => asked (map.key one) := by
    apply List.filter_congr
    intro one member
    have notElement : one ≠ element := fun same => fresh (same ▸ member)
    rw [Function.update_of_ne notElement]
  change (element :: map.live).filter (fun one => asked (Function.update map.key element key one)) = _
  rw [List.filter_cons, kept, Function.update_self]
  split
  · rfl
  · rfl

omit [DecidableEq Key] [DecidableEq Data] in
theorem Holds.put (holds : Holds hash map) :
    Holds hash (tuyaHashmapPut hash map key data (some element)).1 := by
  have freshIn : ∀ bucket, element ∉ inBucket hash map bucket :=
    fun bucket member => fresh (List.mem_of_mem_filter member)
  have inNew : ∀ bucket, inBucket hash (tuyaHashmapPut hash map key data (some element)).1 bucket =
      (if hash key = bucket then [element] else []) ++ inBucket hash map bucket := by
    intro bucket
    simpa [inBucket] using filter_put fresh key data fun one => hash one = bucket
  refine ⟨List.nodup_cons.mpr ⟨fresh, holds.different⟩, ?_, fun bucket => ?_⟩
  · simp [tuyaHashmapPut, holds.size_eq]
  · rw [inNew bucket]
    by_cases isBucket : bucket = hash key
    · rw [isBucket, if_pos rfl]
      exact addHead_chained (holds.chained _) (holds.different.filter _) (freshIn _)
    · rw [if_neg (Ne.symm isBucket)]
      apply addHead_other isBucket (holds.chained _) (freshIn _)
      -- The first element of the other chain hashes to the other bucket.
      intro first isFirst member
      have chained := holds.chained (hash key)
      cases isNodes : inBucket hash map (hash key) with
      | nil =>
          rw [isNodes] at chained
          exact absurd (chained.symm.trans isFirst) nofun
      | cons other rest =>
          rw [isNodes] at chained
          have isOther : other = first := Option.some.inj (chained.1.symm.trans isFirst)
          have inOther : first ∈ inBucket hash map (hash key) := by simp [isNodes, isOther]
          have hashOther := hash_of_mem_inBucket inOther
          have hashHere := hash_of_mem_inBucket member
          exact isBucket (hashHere.symm.trans hashOther)

omit [DecidableEq Data] in
theorem Represents.put (represents : Represents map multimap) :
    Represents (tuyaHashmapPut hash map key data (some element)).1
      (multimap.update key (data :: multimap.values key)) := by
  intro other
  have isUnder : under (tuyaHashmapPut hash map key data (some element)).1 other =
      (if other = key then [element] else []) ++ under map other := by
    simpa [under] using filter_put fresh key data fun one => other = one
  have keptData : (under map other).map (Function.update map.data element data) =
      (under map other).map map.data := by
    apply List.map_congr_left
    intro one member
    have notElement : one ≠ element := fun same => fresh (same ▸ List.mem_of_mem_filter member)
    exact Function.update_of_ne notElement _ _
  rw [isUnder, List.map_append]
  change Function.update multimap.values key (data :: multimap.values key) other =
    _ ++ (under map other).map (Function.update map.data element data)
  rw [keptData, ← represents other]
  by_cases isKey : other = key
  · subst isKey
    simp [tuyaHashmapPut]
  · simp [isKey]

end Put

/-! ## Removing -/

/-- The map without one of its elements. -/
def withoutElement (map : Hashmap Key Data) (element : Nat) : Hashmap Key Data :=
  { map with
    size := map.size - 1
    chains := map.chains.del element
    live := map.live.erase element }

omit [DecidableEq Key] [DecidableEq Data] in
theorem erase_live {element : Nat} {left right : List Nat} (different : map.live.Nodup)
    (isLive : map.live = left ++ element :: right) : map.live.erase element = left ++ right := by
  rw [isLive] at different
  obtain ⟨-, -, apart⟩ := List.nodup_append.mp different
  have notLeft : element ∉ left := fun member => apart element member element List.mem_cons_self rfl
  rw [isLive, List.erase_append_right _ notLeft, List.erase_cons_head]

omit [DecidableEq Key] [DecidableEq Data] in
theorem Holds.withoutElement (holds : Holds hash map) {element : Nat} {left right : List Nat}
    (isLive : map.live = left ++ element :: right) : Holds hash (withoutElement map element) := by
  have isErase := erase_live holds.different isLive
  have chained := holds.chained (hash (map.key element))
  have isSplit : ∀ bucket, inBucket hash map bucket =
      (left.filter fun one => hash (map.key one) = bucket) ++
        (if hash (map.key element) = bucket then [element] else []) ++
          right.filter fun one => hash (map.key one) = bucket := by
    intro bucket
    unfold inBucket
    rw [isLive, List.filter_append, List.filter_cons]
    by_cases isBucket : hash (map.key element) = bucket
    · simp [isBucket]
    · simp [isBucket]
  have isChain := isSplit (hash (map.key element))
  rw [if_pos rfl, List.append_assoc, List.singleton_append] at isChain
  rw [isChain] at chained
  refine ⟨?_, ?_, fun bucket => ?_⟩
  · exact holds.different.erase element
  · have longer : map.live.length = left.length + right.length + 1 := by
      rw [isLive, List.length_append, List.length_cons]
      omega
    simp only [TuyaHashmap.withoutElement, isErase, holds.size_eq, longer, List.length_append]
    omega
  · have isRest : inBucket hash (TuyaHashmap.withoutElement map element) bucket =
        (left.filter fun one => hash (map.key one) = bucket) ++
          right.filter fun one => hash (map.key one) = bucket := by
      simp only [inBucket, TuyaHashmap.withoutElement, isErase, List.filter_append]
    rw [isRest]
    by_cases isBucket : bucket = hash (map.key element)
    · rw [isBucket]
      apply del_chained chained
      rw [← isChain]
      exact holds.different.filter _
    · have otherChained := holds.chained bucket
      rw [isSplit bucket, if_neg (Ne.symm isBucket), List.append_nil] at otherChained
      apply del_other chained isBucket otherChained
      intro member isMember
      rw [← List.filter_append] at isMember
      have hashHere : hash (map.key member) = bucket := by simpa using List.of_mem_filter isMember
      constructor
      · intro inLeft
        have hashOther : hash (map.key member) = hash (map.key element) := by
          simpa using List.of_mem_filter inLeft
        exact isBucket (hashHere.symm.trans hashOther)
      · intro inRight
        have hashOther : hash (map.key member) = hash (map.key element) := by
          simpa using List.of_mem_filter inRight
        exact isBucket (hashHere.symm.trans hashOther)

theorem Represents.withoutElement (represents : Represents map multimap) {key : Key}
    {data : Option Data} {element : Nat} {left right : List Nat} (different : map.live.Nodup)
    (isLive : map.live = left ++ element :: right) (isWanted : Wanted map key data element)
    (notBefore : ∀ one ∈ left, ¬ Wanted map key data one) :
    Represents (withoutElement map element)
      (multimap.update key ((multimap.values key).eraseP fun value => Multimap.Meant data value)) := by
  have isErase := erase_live different isLive
  intro other
  have isRest : under (TuyaHashmap.withoutElement map element) other =
      (left.filter fun one => other = map.key one) ++
        right.filter fun one => other = map.key one := by
    simp only [under, TuyaHashmap.withoutElement, isErase, List.filter_append]
  rw [isRest, List.map_append]
  simp only [Multimap.update, TuyaHashmap.withoutElement]
  have isMeant : Multimap.Meant data (map.data element) := isWanted.2
  by_cases isKey : other = key
  · have notMeant : ∀ value ∈ (left.filter fun one => key = map.key one).map map.data,
        ¬ Multimap.Meant data value := by
      intro value member meant
      obtain ⟨one, isOne, rfl⟩ := List.mem_map.mp member
      obtain ⟨inLeft, sameKey⟩ := List.mem_filter.mp isOne
      exact notBefore one inLeft ⟨of_decide_eq_true sameKey, meant⟩
    rw [isKey, Function.update_self, represents key, under, isLive, List.filter_append,
      List.filter_cons_of_pos (by simpa using isWanted.1), List.map_append, List.map_cons,
      List.eraseP_append_right _ (by simpa using notMeant),
      List.eraseP_cons_of_pos (by simpa using isMeant)]
  · have notUnder : other ≠ map.key element := fun same => isKey (same.trans isWanted.1.symm)
    rw [Function.update_of_ne isKey, represents other, under, isLive, List.filter_append,
      List.filter_cons_of_neg (by simpa using notUnder), List.map_append]

theorem removeLoop_first (holds : Holds hash map) (key : Key) (data : Option Data) :
    removeLoop map key data (map.live.length + 1) (map.chains.first (hash key)) none =
      some ((map.live.find? fun element => Wanted map key data element).or
        (inBucket hash map (hash key)).getLast?) := by
  have isFind : (inBucket hash map (hash key)).find? (fun element => Wanted map key data element) =
      map.live.find? fun element => Wanted map key data element := by
    apply find_inBucket
    intro element isWanted
    rw [← (of_decide_eq_true isWanted).1]
  have ended := removeLoop_spec key data none (holds.chained (hash key))
    (inBucket_length_lt (hash key))
  rw [isFind, Option.or_none] at ended
  exact ended

theorem tuyaHashmapRemove_hit (holds : Holds hash map) {key : Key} {data : Option Data}
    {element : Nat}
    (found : (map.live.find? fun element => Wanted map key data element) = some element) :
    tuyaHashmapRemove hash map key data = some (withoutElement map element, .ok) := by
  have isLive : element ∈ map.live := List.mem_of_find?_eq_some found
  have ended := removeLoop_first holds key data
  rw [found, Option.some_or] at ended
  unfold tuyaHashmapRemove
  cases isFirst : map.chains.first (hash key) with
  | none =>
      rw [isFirst] at ended
      exact absurd ended nofun
  | some first =>
      rw [isFirst] at ended
      simp only [ended, tklSystemFree, Option.bind_eq_bind, Option.bind_some, if_pos isLive]
      rfl

theorem tuyaHashmapRemove_emptyChain (holds : Holds hash map) {key : Key} (data : Option Data)
    (noOther : ∀ element ∈ map.live, hash (map.key element) ≠ hash key) :
    tuyaHashmapRemove hash map key data = some (map, .missing) := by
  have isNil : inBucket hash map (hash key) = [] := by
    rw [inBucket, List.filter_eq_nil_iff]
    simpa using noOther
  have chained := holds.chained (hash key)
  rw [isNil] at chained
  have isFirst : map.chains.first (hash key) = none := chained
  unfold tuyaHashmapRemove
  rw [isFirst]

omit [DecidableEq Data] in
theorem Represents.meant_iff (represents : Represents map multimap) (key : Key)
    (data : Option Data) :
    (∃ value ∈ multimap.values key, Multimap.Meant data value) ↔
      ∃ element ∈ map.live, Wanted map key data element := by
  rw [represents key]
  constructor
  · rintro ⟨value, member, meant⟩
    obtain ⟨element, isUnder, rfl⟩ := List.mem_map.mp member
    obtain ⟨isLive, isKey⟩ := List.mem_filter.mp isUnder
    exact ⟨element, isLive, of_decide_eq_true isKey, meant⟩
  · rintro ⟨element, isLive, isKey, meant⟩
    refine ⟨map.data element, List.mem_map_of_mem ?_, meant⟩
    exact List.mem_filter.mpr ⟨isLive, decide_eq_true isKey⟩

theorem tuyaHashmapRemove_spec (holds : Holds hash map) (represents : Represents map multimap)
    (key : Key) (data : Option Data) (harmless : Harmless hash map (.remove key data)) :
    ∃ after, perform hash map (.remove key data) =
        some (after, (multimap.perform (.remove key data)).2) ∧
      Holds hash after ∧ Represents after (multimap.perform (.remove key data)).1 := by
  cases found : map.live.find? fun element => Wanted map key data element with
  | some element =>
      obtain ⟨isWanted, left, right, isLive, notBefore⟩ := List.find?_eq_some_iff_append.mp found
      have wanted : Wanted map key data element := of_decide_eq_true isWanted
      have present : ∃ value ∈ multimap.values key, Multimap.Meant data value := by
        rw [represents.meant_iff key data]
        exact ⟨element, List.mem_of_find?_eq_some found, wanted⟩
      refine ⟨withoutElement map element, ?_, holds.withoutElement isLive, ?_⟩
      · simp only [perform, tuyaHashmapRemove_hit holds found, Multimap.perform, if_pos present,
          Option.map_some]
      · simp only [Multimap.perform, if_pos present]
        apply represents.withoutElement holds.different isLive wanted
        intro one member
        simpa using notBefore one member
  | none =>
      have noneWanted : ∀ element ∈ map.live, ¬ Wanted map key data element := by
        simpa using List.find?_eq_none.mp found
      have absent : ¬ ∃ value ∈ multimap.values key, Multimap.Meant data value := by
        rw [represents.meant_iff key data]
        rintro ⟨element, isLive, isWanted⟩
        exact noneWanted element isLive isWanted
      rcases harmless with noOther | ⟨element, isLive, isWanted⟩
      · refine ⟨map, ?_, holds, ?_⟩
        · simp only [perform, tuyaHashmapRemove_emptyChain holds data noOther, Multimap.perform,
            if_neg absent, Option.map_some]
        · simpa only [Multimap.perform, if_neg absent] using represents
      · exact absurd isWanted (noneWanted element isLive)

/-! ## Runs -/

theorem perform_spec (holds : Holds hash map) (represents : Represents map multimap)
    {call : Call Key Data} (legal : Legal map call) (harmless : Harmless hash map call) :
    ∃ after, perform hash map call = some (after, (multimap.perform call).2) ∧
      Holds hash after ∧ Represents after (multimap.perform call).1 := by
  cases call with
  | put key data memory =>
      cases memory with
      | none => exact ⟨map, rfl, holds, represents⟩
      | some element => exact ⟨_, rfl, holds.put legal key data, represents.put legal key data⟩
  | get key =>
      refine ⟨map, tuyaHashmapGet_spec holds represents key, holds, ?_⟩
      simp only [Multimap.perform]
      split
      · exact represents
      · exact represents
  | remove key data => exact tuyaHashmapRemove_spec holds represents key data harmless
  | length =>
      refine ⟨map, ?_, holds, represents⟩
      simp only [perform, tuyaHashmapLength, Multimap.perform, represents.total_eq, holds.size_eq]

theorem performAll_spec (holds : Holds hash map) (represents : Represents map multimap)
    {calls : List (Call Key Data)} (legal : EveryStep (step hash) Legal map calls)
    (harmless : EveryStep (step hash) (Harmless hash) map calls) :
    ∃ final, performAll hash map calls = some (final, (multimap.performAll calls).2) ∧
      Holds hash final ∧ Represents final (multimap.performAll calls).1 := by
  induction calls generalizing map multimap with
  | nil => exact ⟨map, rfl, holds, represents⟩
  | cons call rest inductionHypothesis =>
      obtain ⟨after, performed, holdsAfter, representsAfter⟩ :=
        perform_spec holds represents legal.1 harmless.1
      have stepped : step hash map call = some after := by
        rw [step, performed, Option.map_some]
      obtain ⟨final, later, holdsFinal, representsFinal⟩ :=
        inductionHypothesis holdsAfter representsAfter (legal.2 after stepped)
          (harmless.2 after stepped)
      refine ⟨final, ?_, holdsFinal, representsFinal⟩
      simp only [performAll, performed, later, Option.bind_eq_bind, Option.bind_some,
        Multimap.performAll]

/-- From a new map on, calls whose removals are harmless give the replies of
the multimap, and the map holds what the multimap holds. -/
theorem hashmap_refines_multimap_of_harmless (next : Nat → Option Nat) (pprev : Nat → Slot Nat Nat)
    (key : Nat → Key) (data : Nat → Data) {calls : List (Call Key Data)}
    (legal : EveryStep (step hash) Legal (tuyaHashmapNew next pprev key data) calls)
    (harmless : EveryStep (step hash) (Harmless hash) (tuyaHashmapNew next pprev key data) calls) :
    ∃ final, performAll hash (tuyaHashmapNew next pprev key data) calls =
        some (final, (Multimap.empty.performAll calls).2) ∧
      Represents final (Multimap.empty.performAll calls).1 := by
  obtain ⟨final, performed, -, represents⟩ := performAll_spec (holds_new next pprev key data)
    (represents_new next pprev key data) legal harmless
  exact ⟨final, performed, represents⟩

end Maps

/-! ## A chain of one bucket -/

/-- A new map in a memory of zeros. -/
def zeroed : Hashmap String Nat :=
  tuyaHashmapNew (fun _ => none) (fun _ => .head 0) (fun _ => "") (fun _ => 0)

def collidingCalls : List (Call String Nat) :=
  [.put "a" 1 (some 64), .put "b" 2 (some 128), .put "a" 3 (some 192), .remove "a" (some 1),
    .get "a", .remove "b" none, .get "b", .length]

theorem hashmap_refines_multimap_colliding :
    ∃ final, performAll (fun _ => 0) zeroed collidingCalls =
        some (final, (Multimap.empty.performAll collidingCalls).2) ∧
      Represents final (Multimap.empty.performAll collidingCalls).1 :=
  hashmap_refines_multimap_of_harmless _ _ _ _ (by decide +kernel) (by decide +kernel)

/-- In a table of one bucket, a removal of a key that is not there removes the
only entry, of another key, and reports success. -/
theorem remove_of_missing_key_removes_other :
    (performAll (fun _ => 0) zeroed
        [.put "a" 1 (some 64), .remove "b" none, .get "a", .length]).map Prod.snd =
      some [.status .ok, .status .ok, .got .missing none, .count 0] ∧
    (Multimap.empty.performAll
        [.put "a" 1 (some 64), .remove "b" none, .get "a", .length]).2 =
      [.status .ok, .status .missing, .got .ok (some 1), .count 1] := by
  decide +kernel

end TuyaAdapter.TuyaHashmap
