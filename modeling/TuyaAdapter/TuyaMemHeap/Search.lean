import TuyaAdapter.Foundation.BestFit
import TuyaAdapter.TuyaMemHeap.Layout

/-!
Contract: the list loops of the allocator on a well-formed free list.

`findFit` ends: it makes the choice of a bounded best-fit search through the
list, together with the predecessor of the choice. `findPlace` ends at the two free
neighbours of a block. Both are stated over the list of visited nodes, so
neither mentions the segments of the heap.
-/

namespace TuyaAdapter.TuyaMemHeap

open Foundation Foundation.BestFit Foundation.ByteMemory Foundation.LinkedPath

variable {memory : Memory} {size : Nat}

/-! ## Choosing a block -/

/-- Wherever the inner loop stops, it holds the choice of the search, a node of
the list that fits, together with the node before it. The loop has passed
`before` and still has `rest` to visit; its current choice is `this`, the node
after `chosen`. -/
theorem refineFit_spec (rest : List Nat) :
    ∀ (fuel thisBak this findNum : Nat) (before chosen between : List Nat),
      Path (blockNext memory) thisBak rest 0 → (∀ node ∈ rest, node ≠ 0) →
      rest.length < fuel → before = chosen ++ this :: between →
      size ≤ blockSize memory this →
      ∃ chosen' this' between',
        refineFit memory size fuel (lastOr before) thisBak (lastOr chosen) this findNum =
          some (lastOr chosen', this') ∧
        before ++ rest = chosen' ++ this' :: between' ∧ size ≤ blockSize memory this' ∧
        this' = (improve (blockSize memory) size fitFindDepth this findNum rest).1 := by
  induction rest with
  | nil =>
      intro fuel thisBak this findNum before chosen between path nonzero enough split fits
      obtain ⟨fuel, rfl⟩ := Nat.exists_eq_succ_of_ne_zero (by omega : fuel ≠ 0)
      have atEnd : thisBak = 0 := path
      refine ⟨chosen, this, between, ?_, by simp [split], fits, rfl⟩
      simp [refineFit, atEnd]
  | cons node rest inductionHypothesis =>
      intro fuel thisBak this findNum before chosen between path nonzero enough split fits
      obtain ⟨fuel, rfl⟩ := Nat.exists_eq_succ_of_ne_zero (by omega : fuel ≠ 0)
      obtain ⟨rfl, tail⟩ := path
      have notEnd : thisBak ≠ 0 := nonzero thisBak (by simp)
      have shorter : rest.length < fuel := by
        rw [List.length_cons] at enough
        omega
      -- The choice after looking at `thisBak`: either it or the old one.
      have moved : ∀ better : Prop, ∀ [Decidable better],
          (better → size ≤ blockSize memory thisBak) →
          ∃ chosenNow thisNow betweenNow,
            (if better then lastOr before else lastOr chosen) = lastOr chosenNow ∧
            (if better then thisBak else this) = thisNow ∧
            before ++ [thisBak] = chosenNow ++ thisNow :: betweenNow ∧
            size ≤ blockSize memory thisNow := by
        intro better _ betterFits
        by_cases isBetter : better
        · exact ⟨before, thisBak, [], by simp [isBetter], by simp [isBetter], rfl,
            betterFits isBetter⟩
        · exact ⟨chosen, this, between ++ [thisBak], by simp [isBetter], by simp [isBetter],
            by simp [split], fits⟩
      obtain ⟨chosenNow, thisNow, betweenNow, preNow, isNow, splitNow, fitsNow⟩ :=
        moved (size ≤ blockSize memory thisBak ∧
          blockSize memory thisBak ≤ blockSize memory this) (fun better => better.1)
      have whole : before ++ thisBak :: rest = before ++ [thisBak] ++ rest := by simp
      simp only [refineFit, if_neg notEnd, improve_cons]
      rw [preNow, isNow, whole]
      by_cases stops : fitFindDepth ≤
          (if size ≤ blockSize memory thisBak ∧ blockSize memory thisBak ≤ blockSize memory this
            then findNum + 1 else findNum)
      · rw [if_pos stops]
        rw [if_pos stops]
        exact ⟨chosenNow, thisNow, betweenNow ++ rest, rfl, by simp [splitNow], fitsNow, rfl⟩
      · rw [if_neg stops, if_neg stops]
        have continued := inductionHypothesis fuel (blockNext memory thisBak) thisNow
          (if size ≤ blockSize memory thisBak ∧ blockSize memory thisBak ≤ blockSize memory this
            then findNum + 1 else findNum) (before ++ [thisBak]) chosenNow betweenNow tail
          (fun other member => nonzero other (by simp [member])) shorter splitNow fitsNow
        rw [lastOr_concat] at continued
        exact continued

/-- What the choice of a block returns on a free list with nodes `nodes`. -/
def FitFound (memory : Memory) (size : Nat) (nodes : List Nat)
    (result : Option (Option (Nat × Nat))) : Prop :=
  (result = some none ∧ ∀ node ∈ nodes, blockSize memory node < size) ∨
    ∃ before this after, result = some (some (lastOr before, this)) ∧
      nodes = before ++ this :: after ∧ size ≤ blockSize memory this

/-- The same, with the choice of the search through the list. -/
def FitChosen (memory : Memory) (size : Nat) (nodes : List Nat)
    (result : Option (Option (Nat × Nat))) : Prop :=
  (result = some none ∧ search (blockSize memory) size fitFindDepth nodes = none) ∨
    ∃ before this after moves, result = some (some (lastOr before, this)) ∧
      nodes = before ++ this :: after ∧
      search (blockSize memory) size fitFindDepth nodes = some (this, moves)

/-- Nodes that do not fit are passed over. -/
theorem search_skip {before rest : List Nat}
    (tooSmall : ∀ node ∈ before, blockSize memory node < size) :
    search (blockSize memory) size fitFindDepth (before ++ rest) =
      search (blockSize memory) size fitFindDepth rest := by
  induction before with
  | nil => rfl
  | cons node others inductionHypothesis =>
      have small := tooSmall node (by simp)
      rw [List.cons_append, search, if_neg (by omega)]
      exact inductionHypothesis fun other member => tooSmall other (by simp [member])

theorem findFit_from (rest : List Nat) :
    ∀ (fuel this : Nat) (before : List Nat),
      Path (blockNext memory) this rest 0 → (∀ node ∈ rest, node ≠ 0) →
      rest.length < fuel → rest.length < loopBound →
      (∀ node ∈ before, blockSize memory node < size) →
      FitChosen memory size (before ++ rest)
        (findFit memory size fuel (lastOr before) this) := by
  induction rest with
  | nil =>
      intro fuel this before path nonzero enough bounded tooSmall
      obtain ⟨fuel, rfl⟩ := Nat.exists_eq_succ_of_ne_zero (by omega : fuel ≠ 0)
      have atEnd : this = 0 := path
      left
      exact ⟨by simp [findFit, atEnd], by rw [search_skip tooSmall]; rfl⟩
  | cons node rest inductionHypothesis =>
      intro fuel this before path nonzero enough bounded tooSmall
      obtain ⟨fuel, rfl⟩ := Nat.exists_eq_succ_of_ne_zero (by omega : fuel ≠ 0)
      obtain ⟨rfl, tail⟩ := path
      have notEnd : this ≠ 0 := nonzero this (by simp)
      have restNonzero : ∀ node ∈ rest, node ≠ 0 :=
        fun other member => nonzero other (by simp [member])
      rw [List.length_cons] at enough bounded
      have whole : before ++ this :: rest = before ++ [this] ++ rest := by simp
      simp only [findFit, if_neg notEnd]
      by_cases fits : size ≤ blockSize memory this
      · rw [if_pos fits]
        right
        have refined := refineFit_spec rest loopBound (blockNext memory this) this 0
          (before ++ [this]) before [] tail restNonzero (by omega) rfl fits
        rw [lastOr_concat] at refined
        obtain ⟨before', this', after', found, split, fits', isChoice⟩ := refined
        refine ⟨before', this', after',
          (improve (blockSize memory) size fitFindDepth this 0 rest).2, by rw [found]; rfl,
          by rw [whole, split], ?_⟩
        rw [search_skip tooSmall, search, if_pos fits, isChoice]
      · rw [if_neg fits, whole]
        have continued := inductionHypothesis fuel (blockNext memory this) (before ++ [this])
          tail restNonzero (by omega) (by omega) (by
            intro other member
            rcases List.mem_append.mp member with earlier | isThis
            · exact tooSmall other earlier
            · rw [List.mem_singleton.mp isThis]
              omega)
        rw [lastOr_concat] at continued
        exact continued

/-- The search of `mem_chunk_get` ends on every null-terminated list, with the
choice of the bounded best-fit search. -/
theorem findFit_chosen {freeList : Nat} {nodes : List Nat}
    (path : Path (blockNext memory) freeList nodes 0) (nonzero : ∀ node ∈ nodes, node ≠ 0)
    (bounded : nodes.length < 2 ^ 64) :
    FitChosen memory size nodes (findFit memory size loopBound 0 freeList) := by
  have enough : nodes.length < loopBound := by
    unfold loopBound
    omega
  exact findFit_from nodes loopBound freeList [] path nonzero enough enough (by simp)

theorem findFit_spec {freeList : Nat} {nodes : List Nat}
    (path : Path (blockNext memory) freeList nodes 0) (nonzero : ∀ node ∈ nodes, node ≠ 0)
    (bounded : nodes.length < 2 ^ 64) :
    FitFound memory size nodes (findFit memory size loopBound 0 freeList) := by
  rcases findFit_chosen path nonzero bounded with
    ⟨found, isNone⟩ | ⟨before, this, after, moves, found, split, isChoice⟩
  · exact Or.inl ⟨found, search_eq_none.mp isNone⟩
  · exact Or.inr ⟨before, this, after, found, split, (search_chosen isChoice).fits⟩

/-! ## Finding a block's place -/

/-- The search of `MEM_Deallocate` stops between the nodes below the block and
the nodes above it. -/
theorem findPlace_spec {block : Nat} {above : List Nat} (below : List Nat) :
    ∀ (fuel pre next : Nat),
      Path (blockNext memory) next (below ++ above) 0 → (∀ node ∈ below, node ≠ 0) →
      (∀ node ∈ below, node < block) → (∀ node ∈ above, block < node) →
      below.length < fuel →
      findPlace memory block fuel pre next =
        some ((below.getLast?).getD pre, above.headD 0) := by
  induction below with
  | nil =>
      intro fuel pre next path nonzero lower upper enough
      obtain ⟨fuel, rfl⟩ := Nat.exists_eq_succ_of_ne_zero (by omega : fuel ≠ 0)
      have isNext : next = above.headD 0 := path.head_eq
      have stops : ¬(next ≠ 0 ∧ next < block) := by
        rw [isNext]
        cases above with
        | nil => simp
        | cons first _ =>
            have later := upper first (by simp)
            simp only [List.headD_cons]
            omega
      simp only [findPlace, if_neg stops, List.getLast?_nil, Option.getD_none]
      rw [isNext]
  | cons node rest inductionHypothesis =>
      intro fuel pre next path nonzero lower upper enough
      obtain ⟨fuel, rfl⟩ := Nat.exists_eq_succ_of_ne_zero (by omega : fuel ≠ 0)
      obtain ⟨rfl, tail⟩ := path
      have goesOn : next ≠ 0 ∧ next < block := ⟨nonzero next (by simp), lower next (by simp)⟩
      rw [List.length_cons] at enough
      simp only [findPlace, if_pos goesOn]
      rw [inductionHypothesis fuel next (blockNext memory next) tail
        (fun other member => nonzero other (by simp [member]))
        (fun other member => lower other (by simp [member])) upper (by omega)]
      cases rest with
      | nil => rfl
      | cons second others => simp [List.getLast?_cons]

end TuyaAdapter.TuyaMemHeap
