import TuyaAdapter.Foundation.LinkedPath
import TuyaAdapter.Foundation.Tiling
import TuyaAdapter.TuyaMemHeap.Model

/-!
Contract: what the bytes of a heap mean.

A heap is a list of segments laid end to end. A segment is vacant, and then on
the free list, or it belongs to an allocation. `LayoutHolds` connects the list
to the memory: every header holds the size of its segment, the tag byte of an
owned segment says so, and the links from `free_list` visit the vacant segments
in address order.

Nothing is said here about the tag byte of a vacant segment: the link of a
16-byte block overlaps it.
-/

namespace TuyaAdapter.TuyaMemHeap

open Foundation Foundation.ByteMemory Foundation.LinkedPath Foundation.Tiling
open Foundation.MachineWord (add sub)

/-! ## Segments -/

/-- The call site recorded by a debug allocation. -/
structure DebugSite where
  filename : Nat
  line : Int
deriving DecidableEq, Repr

/-- An allocation as its client sees it. -/
structure Allocation where
  pointer : Nat
  requested : Nat
  site : Option DebugSite
deriving DecidableEq, Repr

/-- The least block that holds the header, the requested bytes and the tag, and
for a debug allocation the leak record with the word after it. -/
def Allocation.footprint (allocation : Allocation) : Nat :=
  match allocation.site with
  | none => allocation.requested + 9
  | some _ => allocation.requested + 48

theorem Allocation.requested_le_footprint (allocation : Allocation) :
    allocation.requested + 9 ≤ allocation.footprint := by
  unfold Allocation.footprint
  split
  · exact le_refl _
  · omega

/-- A block of the heap: vacant, or owned by an allocation. -/
structure Segment where
  address : Nat
  size : Nat
  owner : Option Allocation
deriving DecidableEq, Repr

def Segment.vacant (segment : Segment) : Bool := segment.owner.isNone

/-- The addresses the free list visits. -/
def freeNodes (layout : List Segment) : List Nat :=
  (layout.filter Segment.vacant).map Segment.address

/-- The allocations that own the segments of a layout. -/
def allocations (layout : List Segment) : List Allocation :=
  layout.filterMap Segment.owner

/-- The bytes on the free list. -/
def vacantBytes (layout : List Segment) : Nat :=
  ((layout.filter Segment.vacant).map Segment.size).sum

/-- The predecessor pointer the list loops carry: the last node passed, or
null. -/
def lastOr (nodes : List Nat) : Nat := nodes.getLast?.getD 0

/-- Segments of admissible size lie end to end between two addresses. -/
structure Arranged (low high : Nat) (layout : List Segment) : Prop where
  lowPositive : 0 < low
  lowAligned : low % 8 = 0
  highFits : high < 2 ^ 64
  contiguous : Contiguous Segment.address Segment.size layout low high
  large : ∀ segment ∈ layout, 16 ≤ segment.size
  aligned : ∀ segment ∈ layout, segment.size % 8 = 0

structure SegmentHolds (memory : Memory) (segment : Segment) : Prop where
  header : readWord memory segment.address = segment.size
  tag : segment.vacant = false →
    memory (segment.address + segment.size - 1) = memBlockStatUse
  owned : ∀ allocation, segment.owner = some allocation →
    allocation.pointer = segment.address + 8 ∧ allocation.footprint ≤ segment.size

structure LayoutHolds (memory : Memory) (freeList low high : Nat) (layout : List Segment) :
    Prop extends Arranged low high layout where
  segments : ∀ segment ∈ layout, SegmentHolds memory segment
  links : Path (blockNext memory) freeList (freeNodes layout) 0

/-- A write leaves a segment alone up to its free-list link. -/
structure Kept (after before : Memory) (segment : Segment) : Prop where
  owned : segment.vacant = false →
    AgreeOn after before segment.address (segment.address + segment.size)
  vacant : ∀ address, segment.address ≤ address → address < segment.address + segment.size →
    address < segment.address + 8 ∨ segment.address + 16 ≤ address →
    after address = before address

/-! ## Lists of segments -/

section Lists

variable {left right layout : List Segment} {segment : Segment}

@[simp] theorem freeNodes_nil : freeNodes [] = [] := rfl

@[simp] theorem freeNodes_append : freeNodes (left ++ right) = freeNodes left ++ freeNodes right := by
  simp [freeNodes]

theorem freeNodes_cons_vacant (vacant : segment.vacant = true) :
    freeNodes (segment :: layout) = segment.address :: freeNodes layout := by
  simp [freeNodes, vacant]

theorem freeNodes_cons_owned (owned : segment.vacant = false) :
    freeNodes (segment :: layout) = freeNodes layout := by
  simp [freeNodes, owned]

theorem mem_freeNodes {node : Nat} :
    node ∈ freeNodes layout ↔
      ∃ segment ∈ layout, segment.vacant = true ∧ segment.address = node := by
  simp [freeNodes, and_assoc]

@[simp] theorem allocations_append :
    allocations (left ++ right) = allocations left ++ allocations right := by
  simp [allocations]

theorem allocations_cons_vacant (vacant : segment.vacant = true) :
    allocations (segment :: layout) = allocations layout := by
  have isNone : segment.owner = none := by simpa [Segment.vacant] using vacant
  simp [allocations, isNone]

theorem allocations_cons_owned {allocation : Allocation} (owned : segment.owner = some allocation) :
    allocations (segment :: layout) = allocation :: allocations layout := by
  simp [allocations, owned]

theorem mem_allocations {allocation : Allocation} :
    allocation ∈ allocations layout ↔ ∃ segment ∈ layout, segment.owner = some allocation := by
  simp [allocations]

@[simp] theorem vacantBytes_append :
    vacantBytes (left ++ right) = vacantBytes left + vacantBytes right := by
  simp [vacantBytes]

theorem vacantBytes_cons_vacant (vacant : segment.vacant = true) :
    vacantBytes (segment :: layout) = segment.size + vacantBytes layout := by
  simp [vacantBytes, vacant]

theorem vacantBytes_cons_owned (owned : segment.vacant = false) :
    vacantBytes (segment :: layout) = vacantBytes layout := by
  simp [vacantBytes, owned]

theorem vacant_of_owner {allocation : Allocation} (owned : segment.owner = some allocation) :
    segment.vacant = false := by
  simp [Segment.vacant, owned]

@[simp] theorem lastOr_nil : lastOr [] = 0 := rfl

@[simp] theorem lastOr_concat (nodes : List Nat) (node : Nat) : lastOr (nodes ++ [node]) = node := by
  simp [lastOr]

/-- The layout is at most as long as its bytes allow. -/
theorem Contiguous.length_le {low high : Nat}
    (contiguous : Contiguous Segment.address Segment.size layout low high)
    (large : ∀ segment ∈ layout, 16 ≤ segment.size) : low + 16 * layout.length ≤ high := by
  induction layout generalizing low with
  | nil => exact le_of_eq contiguous
  | cons first rest inductionHypothesis =>
      have tail := inductionHypothesis contiguous.2
        (fun segment member => large segment (by simp [member]))
      have head := large first (by simp)
      rw [List.length_cons]
      omega

end Lists

/-! ## Segments and memory -/

section Frames

variable {memory after before : Memory} {segment : Segment}

theorem SegmentHolds.of_agree (holds : SegmentHolds before segment)
    (header : AgreeOn after before segment.address (segment.address + 8))
    (tag : segment.vacant = false → after (segment.address + segment.size - 1) =
      before (segment.address + segment.size - 1)) :
    SegmentHolds after segment where
  header := (readWord_congr header).trans holds.header
  tag := fun owned => (tag owned).trans (holds.tag owned)
  owned := holds.owned

theorem Kept.of_agree
    (agree : AgreeOn after before segment.address (segment.address + segment.size)) :
    Kept after before segment where
  owned := fun _ => agree
  vacant := fun address lower upper _ => agree address lower upper

theorem Kept.trans {first second third : Memory} (late : Kept third second segment)
    (early : Kept second first segment) : Kept third first segment where
  owned := fun owned => (late.owned owned).trans (early.owned owned)
  vacant := fun address lower upper outside =>
    (late.vacant address lower upper outside).trans (early.vacant address lower upper outside)

theorem Kept.segmentHolds (kept : Kept after before segment)
    (holds : SegmentHolds before segment) (large : 16 ≤ segment.size) :
    SegmentHolds after segment := by
  apply holds.of_agree
  · intro address lower upper
    exact kept.vacant address lower (by omega) (Or.inl upper)
  · intro owned
    exact kept.owned owned _ (by omega) (by omega)

end Frames

/-! ## Consequences of an arrangement -/

section Arrangement

variable {low high : Nat} {layout left right : List Segment} {segment : Segment}

section Whole

variable (arranged : Arranged low high layout)
include arranged

theorem Arranged.positive : ∀ segment ∈ layout, 0 < segment.size := by
  intro segment member
  have large := arranged.large segment member
  omega

theorem Arranged.bounds (member : segment ∈ layout) :
    low ≤ segment.address ∧ segment.address + segment.size ≤ high :=
  arranged.contiguous.bounds member

theorem Arranged.apart {one other : Segment} (oneMember : one ∈ layout)
    (otherMember : other ∈ layout) :
    one = other ∨ one.address + one.size ≤ other.address ∨
      other.address + other.size ≤ one.address :=
  arranged.contiguous.apart oneMember otherMember

theorem Arranged.freeNodes_ne_zero : ∀ node ∈ freeNodes layout, node ≠ 0 := by
  intro node member
  obtain ⟨segment, inLayout, -, rfl⟩ := mem_freeNodes.mp member
  have lower := (arranged.bounds inLayout).1
  have positive := arranged.lowPositive
  omega

theorem Arranged.length_lt : layout.length < 2 ^ 64 := by
  have short := Contiguous.length_le arranged.contiguous arranged.large
  have fits := arranged.highFits
  omega

theorem Arranged.freeNodes_length : (freeNodes layout).length < 2 ^ 64 := by
  have short := arranged.length_lt
  have filtered : (freeNodes layout).length ≤ layout.length := by
    rw [freeNodes, List.length_map]
    exact List.length_filter_le _ _
  omega

/-- The free list runs through increasing addresses. -/
theorem Arranged.freeNodes_pairwise : (freeNodes layout).Pairwise (· < ·) := by
  rw [freeNodes, List.pairwise_map]
  apply List.Pairwise.filter
  apply arranged.contiguous.pairwise.imp_of_mem
  intro earlier later member _ ends
  have nonempty := arranged.positive earlier member
  omega

theorem Arranged.vacantBytes_le : vacantBytes layout ≤ high - low := by
  have tiled := arranged.contiguous
  clear arranged
  induction layout generalizing low with
  | nil => simp [vacantBytes]
  | cons segment rest inductionHypothesis =>
      obtain ⟨-, tail⟩ := tiled
      have rest := inductionHypothesis tail
      have upper := tail.le
      cases isVacant : segment.vacant with
      | true =>
          rw [vacantBytes_cons_vacant isVacant]
          omega
      | false =>
          rw [vacantBytes_cons_owned isVacant]
          omega

/-- Writing the link of a vacant segment touches no other part of the heap. -/
theorem Arranged.kept_writeLink {target : Segment} (targetMember : target ∈ layout)
    (vacant : target.vacant = true) (member : segment ∈ layout) (memory : Memory) (value : Nat) :
    Kept (writeWord memory (target.address + 8) value) memory segment := by
  have large := arranged.large target targetMember
  rcases arranged.apart member targetMember with same | before | after
  · subst same
    refine ⟨fun owned => ?_, fun address _ _ outside => ?_⟩
    · rw [vacant] at owned
      exact absurd owned (by decide)
    · exact writeWord_other (by omega)
  · apply Kept.of_agree
    intro address lower upper
    exact writeWord_other (by omega)
  · apply Kept.of_agree
    intro address lower upper
    exact writeWord_other (by omega)

end Whole

theorem Arranged.left_before (arranged : Arranged low high (left ++ segment :: right)) :
    ∀ other ∈ left, other.address + other.size ≤ segment.address := by
  obtain ⟨cut, before, isCut, -⟩ := contiguous_append.mp arranged.contiguous
  intro other member
  have upper := (before.bounds member).2
  omega

theorem Arranged.right_after (arranged : Arranged low high (left ++ segment :: right)) :
    ∀ other ∈ right, segment.address + segment.size ≤ other.address := by
  obtain ⟨cut, -, isCut, after⟩ := contiguous_append.mp arranged.contiguous
  intro other member
  have lower := (after.bounds member).1
  omega

/-- The rest of the heap is kept when a write stays inside one segment. -/
theorem Arranged.kept_of_inside {memory after : Memory}
    (arranged : Arranged low high (left ++ segment :: right))
    (inside : ∀ address, address < segment.address ∨ segment.address + segment.size ≤ address →
      after address = memory address) :
    ∀ other ∈ left ++ right, Kept after memory other := by
  intro other member
  apply Kept.of_agree
  intro address lower upper
  apply inside
  rcases List.mem_append.mp member with inLeft | inRight
  · have before := arranged.left_before other inLeft
    omega
  · have later := arranged.right_after other inRight
    omega

/-- Replace the middle segments by others over the same addresses. -/
theorem Arranged.replace {middle middle' : List Segment}
    (arranged : Arranged low high (left ++ middle ++ right))
    (contiguous : ∀ start stop, Contiguous Segment.address Segment.size middle start stop →
      Contiguous Segment.address Segment.size middle' start stop)
    (large : ∀ segment ∈ middle', 16 ≤ segment.size)
    (aligned : ∀ segment ∈ middle', segment.size % 8 = 0) :
    Arranged low high (left ++ middle' ++ right) where
  lowPositive := arranged.lowPositive
  lowAligned := arranged.lowAligned
  highFits := arranged.highFits
  contiguous := by
    obtain ⟨second, front, back⟩ := contiguous_append.mp arranged.contiguous
    obtain ⟨first, start, body⟩ := contiguous_append.mp front
    exact contiguous_append.mpr
      ⟨second, contiguous_append.mpr ⟨first, start, contiguous first second body⟩, back⟩
  large := by
    intro other member
    simp only [List.mem_append] at member
    rcases member with (inLeft | inMiddle) | inRight
    · exact arranged.large other (by simp [inLeft])
    · exact large other inMiddle
    · exact arranged.large other (by simp [inRight])
  aligned := by
    intro other member
    simp only [List.mem_append] at member
    rcases member with (inLeft | inMiddle) | inRight
    · exact arranged.aligned other (by simp [inLeft])
    · exact aligned other inMiddle
    · exact arranged.aligned other (by simp [inRight])

end Arrangement

/-! ## Consequences of a layout -/

section Consequences

variable {memory : Memory} {freeList low high : Nat} {layout : List Segment}

theorem LayoutHolds.blockSize_eq {segment : Segment}
    (holds : LayoutHolds memory freeList low high layout) (member : segment ∈ layout) :
    blockSize memory segment.address = segment.size :=
  (holds.segments segment member).header

/-- The tag byte of a segment whose header is intact. -/
theorem memDogAddr_eq {segment : Segment} (header : blockSize memory segment.address = segment.size)
    (nonempty : 0 < segment.size) (fits : segment.address + segment.size < 2 ^ 64) :
    memDogAddr memory segment.address = segment.address + segment.size - 1 := by
  unfold memDogAddr
  rw [header, MachineWord.add_of_lt fits, MachineWord.sub_of_le fits (by omega)]

theorem LayoutHolds.memDogAddr_eq {segment : Segment}
    (holds : LayoutHolds memory freeList low high layout) (member : segment ∈ layout) :
    memDogAddr memory segment.address = segment.address + segment.size - 1 := by
  have inside := holds.bounds member
  have fits := holds.highFits
  exact TuyaMemHeap.memDogAddr_eq (holds.blockSize_eq member) (holds.positive segment member)
    (by omega)

/-- A link outside the changed bytes is read as before. -/
theorem blockNext_congr {after before : Memory} {node : Nat}
    (agree : AgreeOn after before (node + 8) (node + 16)) :
    blockNext after node = blockNext before node :=
  readWord_congr agree

/-- Replace the middle segments of a layout: the others are kept, the new ones
hold, and the links visit the new vacant segments. -/
theorem LayoutHolds.replace {after : Memory} {left middle middle' right : List Segment}
    {freeList' : Nat} (holds : LayoutHolds memory freeList low high (left ++ middle ++ right))
    (kept : ∀ other ∈ left ++ right, Kept after memory other)
    (arranged : Arranged low high (left ++ middle' ++ right))
    (segments : ∀ other ∈ middle', SegmentHolds after other)
    (links : Path (blockNext after) freeList' (freeNodes (left ++ middle' ++ right)) 0) :
    LayoutHolds after freeList' low high (left ++ middle' ++ right) where
  toArranged := arranged
  segments := by
    intro other member
    simp only [List.mem_append] at member
    rcases member with (inLeft | inMiddle) | inRight
    · exact (kept other (by simp [inLeft])).segmentHolds
        (holds.segments other (by simp [inLeft])) (holds.large other (by simp [inLeft]))
    · exact segments other inMiddle
    · exact (kept other (by simp [inRight])).segmentHolds
        (holds.segments other (by simp [inRight])) (holds.large other (by simp [inRight]))
  links := links

end Consequences

end TuyaAdapter.TuyaMemHeap
