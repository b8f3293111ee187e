import TuyaAdapter.TuyaHashmap.Multimap

/-!
Contract: iterating over the values of a key.

A step starts behind the current element and searches the rest of the chain for
the key of that element. So from any element under a key the loop visits the
elements under the key in the rest of the chain (`forEach_from`), and from a
`NULL` iterator all of them.
-/

namespace TuyaAdapter.TuyaHashmap

open Foundation.HashChain Foundation.Run

section Maps

variable {Key Data : Type} [DecidableEq Key] {hash : Key → Nat} {map : Hashmap Key Data}

/-- The elements of a chain that are under a key. -/
def underIn (map : Hashmap Key Data) (key : Key) (chain : List Nat) : List Nat :=
  chain.filter fun element => key = map.key element

/-- The elements under a key are in the chain of its bucket. -/
theorem underIn_inBucket (hash : Key → Nat) (map : Hashmap Key Data) (key : Key) :
    underIn map key (inBucket hash map (hash key)) = under map key := by
  unfold underIn inBucket under
  rw [List.filter_filter]
  apply List.filter_congr
  intro element _
  by_cases isKey : key = map.key element
  · simp [isKey]
  · simp [isKey]

/-- A chain up to the first element under a key. -/
theorem underIn_of_find (map : Hashmap Key Data) (key : Key) (chain : List Nat) :
    (underIn map key chain = [] ∧
        chain.find? (fun element => key = map.key element) = none) ∨
      ∃ front element rest, chain = front ++ element :: rest ∧ key = map.key element ∧
        underIn map key chain = element :: underIn map key rest ∧
        chain.find? (fun element => key = map.key element) = some element := by
  induction chain with
  | nil => exact Or.inl ⟨rfl, rfl⟩
  | cons first chain inductionHypothesis =>
      by_cases isKey : key = map.key first
      · right
        refine ⟨[], first, chain, rfl, isKey, ?_, List.find?_cons_of_pos (by simpa using isKey)⟩
        exact List.filter_cons_of_pos (by simpa using isKey)
      · have skipped : underIn map key (first :: chain) = underIn map key chain :=
          List.filter_cons_of_neg (by simpa using isKey)
        have later : (first :: chain).find? (fun element => key = map.key element) =
            chain.find? fun element => key = map.key element :=
          List.find?_cons_of_neg (by simpa using isKey)
        rw [skipped, later]
        rcases inductionHypothesis with isEmpty | ⟨front, element, rest, isChain, isUnder, others⟩
        · exact Or.inl isEmpty
        · exact Or.inr ⟨first :: front, element, rest, by rw [isChain]; rfl, isUnder, others⟩

/-! ## One step -/

/-- The search of one step. -/
def searchFrom (hash : Key → Nat) (map : Hashmap Key Data) (key : Key) (dataIter : Nat) :
    Option (Option Nat) :=
  if dataIter = 0 then hashFind hash map key else hashFindNextElement map (dataIter - dataOffset)

theorem traversal_ends {key : Key} {dataIter : Nat}
    (isNone : searchFrom hash map key dataIter = some none) :
    tuyaHashmapDataTraversal hash map key dataIter = some (.missing, 0) := by
  unfold searchFrom at isNone
  unfold tuyaHashmapDataTraversal
  rw [isNone, Option.map_some]

theorem traversal_moves {key : Key} {dataIter element : Nat}
    (isElement : searchFrom hash map key dataIter = some (some element)) :
    tuyaHashmapDataTraversal hash map key dataIter = some (.ok, element + dataOffset) := by
  unfold searchFrom at isElement
  unfold tuyaHashmapDataTraversal
  rw [isElement, Option.map_some]

/-- The loop on what one step finds in the rest of the chain. -/
theorem forEach_of_found {key : Key} {bound dataIter : Nat} {chain : List Nat}
    (isFound : searchFrom hash map key dataIter =
      some (chain.find? fun element => key = map.key element))
    (onwards : ∀ front element rest, chain = front ++ element :: rest → key = map.key element →
      tuyaHashmapForEachData hash map key bound (element + dataOffset) =
        some ((underIn map key rest).map (· + dataOffset))) :
    tuyaHashmapForEachData hash map key (bound + 1) dataIter =
      some ((underIn map key chain).map (· + dataOffset)) := by
  rcases underIn_of_find map key chain with
    ⟨isEmpty, notFound⟩ | ⟨front, element, rest, isChain, isUnder, isCons, found⟩
  · rw [notFound] at isFound
    rw [tuyaHashmapForEachData, traversal_ends isFound, Option.bind_some, isEmpty]
    rfl
  · rw [found] at isFound
    rw [tuyaHashmapForEachData, traversal_moves isFound, Option.bind_some, isCons]
    simp only [if_true, onwards front element rest isChain isUnder, Option.map_some,
      List.map_cons]

/-! ## The loop -/

/-- From an element under the key on, the loop visits the elements under the key
behind it. -/
theorem forEach_from (holds : Holds hash map) (key : Key) (bound : Nat) :
    ∀ (left rest : List Nat) (element : Nat),
      inBucket hash map (hash key) = left ++ element :: rest → key = map.key element →
      rest.length < bound →
      tuyaHashmapForEachData hash map key bound (element + dataOffset) =
        some ((underIn map key rest).map (· + dataOffset)) := by
  induction bound with
  | zero =>
      intro left rest element isChain isUnder enough
      exact absurd enough (Nat.not_lt_zero _)
  | succ bound inductionHypothesis =>
      intro left rest element isChain isUnder enough
      have chained := holds.chained (hash key)
      rw [isChain, chained_append] at chained
      obtain ⟨-, -, -, after⟩ := chained
      have short : rest.length < map.live.length + 1 := by
        have whole : (inBucket hash map (hash key)).length < _ := inBucket_length_lt (hash key)
        rw [isChain, List.length_append, List.length_cons] at whole
        omega
      have found : hashFindNextElement map element =
          some (rest.find? fun other => key = map.key other) := by
        unfold hashFindNextElement
        rw [← isUnder]
        exact findLoop_spec key after short
      apply forEach_of_found
      · rw [searchFrom, if_neg (by unfold dataOffset; omega), Nat.add_sub_cancel]
        exact found
      · intro front next behind isRest nextUnder
        apply inductionHypothesis (left ++ element :: front) behind next _ nextUnder
        · rw [isRest, List.length_append, List.length_cons] at enough
          omega
        · rw [isChain, isRest]
          simp

theorem forEach_spec (holds : Holds hash map) (key : Key) {bound : Nat}
    (enough : map.live.length < bound) :
    tuyaHashmapForEachData hash map key bound 0 =
      some ((under map key).map (· + dataOffset)) := by
  obtain ⟨bound, rfl⟩ := Nat.exists_eq_succ_of_ne_zero (Nat.ne_zero_of_lt enough)
  have short : (inBucket hash map (hash key)).length < _ := inBucket_length_lt (hash key)
  rw [← underIn_inBucket hash map key]
  apply forEach_of_found
  · rw [searchFrom, if_pos rfl, hashFind_spec holds]
    congr 1
    symm
    apply find_inBucket
    intro element isKey
    rw [← of_decide_eq_true isKey]
  · intro front element rest isChain isUnder
    apply forEach_from holds key bound front rest element isChain isUnder
    rw [isChain, List.length_append, List.length_cons] at short
    omega

theorem forEach_data (map : Hashmap Key Data) (key : Key) :
    ((under map key).map (· + dataOffset)).map (dataAt map) = (under map key).map map.data := by
  rw [List.map_map]
  apply List.map_congr_left
  intro element _
  show map.data (element + dataOffset - dataOffset) = map.data element
  rw [Nat.add_sub_cancel]

end Maps

section Runs

variable {Key Data : Type} [DecidableEq Key] [DecidableEq Data] {hash : Key → Nat}

/-- In every map that puts and harmless removals reach from a new one, the loop
over a key ends, and its iterators are different and point to the values that
the multimap has under the key, the newest first. -/
theorem forEach_visits_values (next : Nat → Option Nat) (pprev : Nat → Slot Nat Nat)
    (key : Nat → Key) (data : Nat → Data) {calls : List (Call Key Data)}
    (legal : EveryStep (step hash) Legal (tuyaHashmapNew next pprev key data) calls)
    (harmless : EveryStep (step hash) (Harmless hash) (tuyaHashmapNew next pprev key data) calls) :
    ∃ final replies,
      performAll hash (tuyaHashmapNew next pprev key data) calls = some (final, replies) ∧
      ∀ asked, ∃ iterators : List Nat,
        (∀ bound, final.live.length < bound →
          tuyaHashmapForEachData hash final asked bound 0 = some iterators) ∧
        iterators.Nodup ∧
        iterators.map (dataAt final) = (Multimap.empty.performAll calls).1.values asked := by
  obtain ⟨final, performed, holds, represents⟩ :=
    performAll_spec (holds_new next pprev key data) (represents_new next pprev key data) legal
      harmless
  refine ⟨final, _, performed, ?_⟩
  intro asked
  refine ⟨(under final asked).map (· + dataOffset), ?_, ?_, ?_⟩
  · intro bound enough
    exact forEach_spec holds asked enough
  · exact (holds.different.filter _).map (fun one other same => Nat.add_right_cancel same)
  · rw [forEach_data, represents]

/-- Two values of a key with one of another key between them in the chain. -/
theorem forEach_visits_values_colliding :
    ∃ final replies,
      performAll (fun _ => 0) zeroed
        [.put "a" 1 (some 64), .put "b" 2 (some 128), .put "a" 3 (some 192)] =
          some (final, replies) ∧
      ∀ asked, ∃ iterators : List Nat,
        (∀ bound, final.live.length < bound →
          tuyaHashmapForEachData (fun _ => 0) final asked bound 0 = some iterators) ∧
        iterators.Nodup ∧
        iterators.map (dataAt final) = (Multimap.empty.performAll
          [.put "a" 1 (some 64), .put "b" 2 (some 128), .put "a" 3 (some 192)]).1.values asked :=
  forEach_visits_values _ _ _ _ (by decide) (by decide)

end Runs

end TuyaAdapter.TuyaHashmap
