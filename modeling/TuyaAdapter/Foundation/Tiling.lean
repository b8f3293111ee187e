import Mathlib.Data.List.Chain
import Mathlib.Data.List.Perm.Basic

/-!
Owns tilings of an interval of natural numbers by pieces laid end to end, and
the gaps a set of pieces leaves. `Contiguous` is the end-to-end order; from it
follow the bounds of every piece, the disjointness of different pieces and the
coverage of every point. When some pieces are vacant and no two vacant pieces
touch, the vacant pieces are exactly the gaps between the occupied ones
(`vacant_eq_gaps`), so they are determined by the occupied pieces alone.
-/

namespace TuyaAdapter.Foundation.Tiling

variable {Piece : Type*} (start length : Piece → Nat)

/-- The pieces lie end to end from `low` up to `high`. -/
def Contiguous : List Piece → Nat → Nat → Prop
  | [], low, high => low = high
  | piece :: rest, low, high =>
      start piece = low ∧ Contiguous rest (low + length piece) high

/-- An extent of addresses. -/
structure Extent where
  start : Nat
  length : Nat
deriving DecidableEq, Repr

/-- The extent of a piece. -/
def extent (piece : Piece) : Extent :=
  ⟨start piece, length piece⟩

/-- A list of pieces tiles `[low, high)` when some order of it is end to end. -/
def Tiles (pieces : List Piece) (low high : Nat) : Prop :=
  ∃ ordered, ordered.Perm pieces ∧ Contiguous start length ordered low high

/-- The maximal gaps that extents, taken in increasing order, leave in
`[low, high)`. -/
def gaps : List Extent → Nat → Nat → List Extent
  | [], low, high => if low < high then [⟨low, high - low⟩] else []
  | piece :: rest, low, high =>
      (if low < piece.start then [⟨low, piece.start - low⟩] else []) ++
        gaps rest (piece.start + piece.length) high

variable {start length} {pieces left right : List Piece} {low middle high : Nat}

@[simp] theorem contiguous_nil : Contiguous start length [] low high ↔ low = high := Iff.rfl

@[simp] theorem contiguous_cons {piece : Piece} :
    Contiguous start length (piece :: pieces) low high ↔
      start piece = low ∧ Contiguous start length pieces (low + length piece) high :=
  Iff.rfl

/-- A tiling is cut between any two of its pieces. -/
theorem contiguous_append :
    Contiguous start length (left ++ right) low high ↔
      ∃ middle, Contiguous start length left low middle ∧
        Contiguous start length right middle high := by
  induction left generalizing low with
  | nil => simp
  | cons piece rest inductionHypothesis =>
      simp only [List.cons_append, contiguous_cons, inductionHypothesis]
      constructor
      · rintro ⟨isLow, middle, before, after⟩
        exact ⟨middle, ⟨isLow, before⟩, after⟩
      · rintro ⟨middle, ⟨isLow, before⟩, after⟩
        exact ⟨isLow, middle, before, after⟩

theorem Contiguous.le (contiguous : Contiguous start length pieces low high) : low ≤ high := by
  induction pieces generalizing low with
  | nil => exact le_of_eq contiguous
  | cons piece rest inductionHypothesis =>
      have tail := inductionHypothesis contiguous.2
      omega

/-- Every piece lies inside the interval. -/
theorem Contiguous.bounds (contiguous : Contiguous start length pieces low high) {piece : Piece}
    (member : piece ∈ pieces) : low ≤ start piece ∧ start piece + length piece ≤ high := by
  induction pieces generalizing low with
  | nil => simp at member
  | cons first rest inductionHypothesis =>
      obtain ⟨isLow, tail⟩ := contiguous
      rcases List.mem_cons.mp member with rfl | later
      · have upper := tail.le
        omega
      · have inner := inductionHypothesis tail later
        omega

/-- A later piece starts at or after the end of an earlier one. -/
theorem Contiguous.pairwise (contiguous : Contiguous start length pieces low high) :
    pieces.Pairwise fun earlier later => start earlier + length earlier ≤ start later := by
  induction pieces generalizing low with
  | nil => exact List.Pairwise.nil
  | cons piece rest inductionHypothesis =>
      obtain ⟨isLow, tail⟩ := contiguous
      refine List.Pairwise.cons (fun later member => ?_) (inductionHypothesis tail)
      have lower := (tail.bounds member).1
      omega

/-- Renaming the pieces keeps a tiling when starts and lengths are kept. -/
theorem Contiguous.map {Other : Type*} {start' length' : Other → Nat} {rename : Piece → Other}
    (contiguous : Contiguous start length pieces low high)
    (starts : ∀ piece ∈ pieces, start' (rename piece) = start piece)
    (lengths : ∀ piece ∈ pieces, length' (rename piece) = length piece) :
    Contiguous start' length' (pieces.map rename) low high := by
  induction pieces generalizing low with
  | nil => exact contiguous
  | cons piece rest inductionHypothesis =>
      obtain ⟨isLow, tail⟩ := contiguous
      refine ⟨(starts piece (by simp)).trans isLow, ?_⟩
      rw [lengths piece (by simp)]
      exact inductionHypothesis tail (fun other member => starts other (by simp [member]))
        (fun other member => lengths other (by simp [member]))

/-- Two pieces of a tiling are the same piece or lie apart. -/
theorem Contiguous.apart (contiguous : Contiguous start length pieces low high)
    {one other : Piece} (oneMember : one ∈ pieces) (otherMember : other ∈ pieces) :
    one = other ∨ start one + length one ≤ start other ∨
      start other + length other ≤ start one := by
  induction pieces generalizing low with
  | nil => simp at oneMember
  | cons first rest inductionHypothesis =>
      obtain ⟨isLow, tail⟩ := contiguous
      rcases List.mem_cons.mp oneMember with rfl | oneLater <;>
        rcases List.mem_cons.mp otherMember with rfl | otherLater
      · exact Or.inl rfl
      · have lower := (tail.bounds otherLater).1
        omega
      · have lower := (tail.bounds oneLater).1
        omega
      · exact inductionHypothesis tail oneLater otherLater

section Positive

variable (positive : ∀ piece ∈ pieces, 0 < length piece)
include positive

/-- The piece that starts at the low end is the first one. -/
theorem Contiguous.first_of_start (contiguous : Contiguous start length pieces low high)
    {piece : Piece} (member : piece ∈ pieces) (atLow : start piece = low) :
    ∃ rest, pieces = piece :: rest := by
  cases pieces with
  | nil => simp at member
  | cons first rest =>
      rcases List.mem_cons.mp member with rfl | later
      · exact ⟨rest, rfl⟩
      · have lower := (contiguous.2.bounds later).1
        have nonempty := positive first (by simp)
        omega

/-- Two pieces that start at the same point are the same piece. -/
theorem Contiguous.eq_of_start (contiguous : Contiguous start length pieces low high)
    {one other : Piece} (oneMember : one ∈ pieces) (otherMember : other ∈ pieces)
    (same : start one = start other) : one = other := by
  rcases contiguous.apart oneMember otherMember with equal | before | after
  · exact equal
  · have nonempty := positive one oneMember
    omega
  · have nonempty := positive other otherMember
    omega

end Positive

/-! ### Gaps -/

variable {vacant : Piece → Bool}

/-- No two neighbouring pieces are both vacant. -/
def Separated (vacant : Piece → Bool) (pieces : List Piece) : Prop :=
  pieces.IsChain fun earlier later => ¬(vacant earlier = true ∧ vacant later = true)

section Separated

variable {piece piece' : Piece}

theorem Separated.front (separated : Separated vacant (left ++ right)) : Separated vacant left :=
  (List.isChain_append.mp separated).1

theorem Separated.back (separated : Separated vacant (left ++ right)) : Separated vacant right :=
  (List.isChain_append.mp separated).2.1

/-- An occupied piece separates what lies on its two sides. -/
theorem separated_occupied (leftSeparated : Separated vacant left)
    (rightSeparated : Separated vacant right) (occupied : vacant piece = false) :
    Separated vacant (left ++ piece :: right) := by
  apply List.isChain_append.mpr
  refine ⟨leftSeparated, ?_, ?_⟩
  · exact List.isChain_cons.mpr ⟨fun next _ => by simp [occupied], rightSeparated⟩
  · intro earlier _ later isHead
    simp only [List.head?_cons, Option.mem_some_iff] at isHead
    rw [← isHead, occupied]
    simp

/-- A vacant piece between occupied neighbours. -/
theorem separated_vacant (leftSeparated : Separated vacant left)
    (rightSeparated : Separated vacant right)
    (before : ∀ other ∈ left.getLast?, vacant other = false)
    (after : ∀ other ∈ right.head?, vacant other = false) :
    Separated vacant (left ++ piece :: right) := by
  apply List.isChain_append.mpr
  refine ⟨leftSeparated, ?_, ?_⟩
  · exact List.isChain_cons.mpr ⟨fun next isHead => by simp [after next isHead], rightSeparated⟩
  · intro earlier isLast later _
    simp [before earlier isLast]

/-- The neighbours of a vacant piece are occupied. -/
theorem Separated.neighbours (separated : Separated vacant (left ++ piece :: right))
    (isVacant : vacant piece = true) :
    (∀ other ∈ left.getLast?, vacant other = false) ∧
      ∀ other ∈ right.head?, vacant other = false := by
  have parts := List.isChain_append.mp separated
  constructor
  · intro other isLast
    have notBoth := parts.2.2 other isLast piece (by simp)
    simpa [isVacant] using notBoth
  · intro other isHead
    cases right with
    | nil => simp at isHead
    | cons next rest =>
        have isNext : next = other := by simpa using isHead
        have notBoth := (List.isChain_cons_cons.mp parts.2.1).1
        rw [← isNext]
        simpa [isVacant] using notBoth

end Separated

/-- Vacant pieces of a separated tiling do not touch. -/
theorem Separated.not_touching (contiguous : Contiguous start length pieces low high)
    (positive : ∀ piece ∈ pieces, 0 < length piece) (separated : Separated vacant pieces)
    {one other : Piece} (oneMember : one ∈ pieces) (otherMember : other ∈ pieces)
    (oneVacant : vacant one = true) (otherVacant : vacant other = true) :
    start one + length one ≠ start other := by
  intro touches
  obtain ⟨before, after, rfl⟩ := List.append_of_mem oneMember
  obtain ⟨middle, front, isMiddle, back⟩ := contiguous_append.mp contiguous
  have nonempty := positive one oneMember
  have laterMember : other ∈ after := by
    rcases List.mem_append.mp otherMember with early | isOne | later
    · have upper := (front.bounds early).2
      omega
    · omega
    · assumption
  obtain ⟨rest, rfl⟩ := back.first_of_start
    (fun piece member => positive piece (by simp [member])) laterMember (by omega)
  have owned := (separated.neighbours oneVacant).2 other (by simp)
  rw [otherVacant] at owned
  exact absurd owned (by decide)

/-- The vacant pieces of a tiling whose vacant pieces do not touch are the gaps
between its occupied pieces. -/
theorem vacant_eq_gaps (contiguous : Contiguous start length pieces low high)
    (positive : ∀ piece ∈ pieces, 0 < length piece) (separated : Separated vacant pieces) :
    (pieces.filter vacant).map (extent start length) =
      gaps ((pieces.filter fun piece => !vacant piece).map (extent start length)) low high := by
  induction pieces generalizing low with
  | nil =>
      have equal : low = high := contiguous
      simp [gaps, equal]
  | cons piece rest inductionHypothesis =>
      obtain ⟨isLow, tail⟩ := contiguous
      have nonempty := positive piece (by simp)
      have tailGaps := inductionHypothesis tail
        (fun other member => positive other (by simp [member])) separated.tail
      cases isVacant : vacant piece with
      | false =>
          simp only [isVacant, Bool.false_eq_true, not_false_eq_true, List.filter_cons_of_neg,
            Bool.not_false, List.filter_cons_of_pos, List.map_cons, gaps, extent, isLow,
            lt_irrefl, if_false, List.nil_append]
          exact tailGaps
      | true =>
          simp only [isVacant, Bool.not_true, Bool.false_eq_true, not_false_eq_true,
            List.filter_cons_of_neg, List.filter_cons_of_pos, List.map_cons]
          -- A vacant piece is followed by nothing or by an occupied piece.
          cases rest with
          | nil =>
              have ends : low + length piece = high := tail
              have room : low < high := by omega
              simp only [List.filter_nil, List.map_nil, gaps, room, if_true, extent, isLow]
              congr 2
              omega
          | cons next later =>
              have nextOccupied : vacant next = false := by
                have notBoth := (List.isChain_cons_cons.mp separated).1
                simpa [isVacant] using notBoth
              have nextStart : start next = low + length piece := tail.1
              have room : low < low + length piece := by omega
              rw [tailGaps]
              simp only [nextOccupied, Bool.not_false, List.filter_cons_of_pos, List.map_cons,
                gaps, extent, room, if_true, nextStart, lt_irrefl, if_false, List.nil_append,
                isLow, List.singleton_append, Nat.add_sub_cancel_left]

/-- Pieces of a tiling are listed in increasing order, so a tiling determines
the order of any selection of its pieces. -/
theorem filter_eq_of_perm {pieces' : List Piece} {low' high' : Nat} {keep : Piece → Bool}
    (contiguous : Contiguous start length pieces low high)
    (contiguous' : Contiguous start length pieces' low' high')
    (positive : ∀ piece ∈ pieces, 0 < length piece)
    (positive' : ∀ piece ∈ pieces', 0 < length piece)
    (same : ((pieces.filter keep).map (extent start length)).Perm
      ((pieces'.filter keep).map (extent start length))) :
    (pieces.filter keep).map (extent start length) =
      (pieces'.filter keep).map (extent start length) := by
  have ordered : ∀ {list : List Piece} {from_ to_ : Nat},
      Contiguous start length list from_ to_ → (∀ piece ∈ list, 0 < length piece) →
      ((list.filter keep).map (extent start length)).Pairwise
        fun earlier later => earlier.start < later.start := by
    intro list from_ to_ tiled nonempty
    rw [List.pairwise_map]
    refine (tiled.pairwise.imp_of_mem fun member _ ends => ?_).filter keep
    have lengthPositive := nonempty _ member
    simp only [extent]
    omega
  have antisymmetric : ∀ one other : Extent,
      one ∈ (pieces.filter keep).map (extent start length) →
      other ∈ (pieces'.filter keep).map (extent start length) →
      one.start < other.start → other.start < one.start → one = other := by
    intro one other _ _ before after
    omega
  exact List.Perm.eq_of_pairwise antisymmetric (ordered contiguous positive)
    (ordered contiguous' positive') same

end TuyaAdapter.Foundation.Tiling
