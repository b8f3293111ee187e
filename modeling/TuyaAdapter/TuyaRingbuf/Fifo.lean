import TuyaAdapter.Foundation.RingWindow
import TuyaAdapter.TuyaRingbuf.Model

/-!
Contract: the ring buffer is a bounded first-in first-out sequence of bytes.

`Fifo.perform` says what a call does to the sequence. `Valid` bounds the two
indices; the bytes of a valid buffer are the window between them.
-/

namespace TuyaAdapter.TuyaRingbuf

open Foundation.RingWindow

/-! ## The sequence -/

namespace Fifo

/-- A call on a sequence of at most `capacity` bytes. -/
def perform (capacity : Nat) (bytes : List UInt8) : Call → List UInt8 × Reply
  | .write none _ => (bytes, ⟨0, []⟩)
  | .write (some data) len =>
      let count := min len.toNat (capacity - bytes.length)
      (bytes ++ (List.range count).map data, ⟨count, []⟩)
  | .read wanted len =>
      let count := if wanted then min len.toNat bytes.length else 0
      (bytes.drop count, ⟨count, bytes.take count⟩)
  | .discard len =>
      let count := min len.toNat bytes.length
      (bytes.drop count, ⟨count, []⟩)
  | .peek wanted len =>
      let count := if wanted then min len.toNat bytes.length else 0
      (bytes, ⟨count, bytes.take count⟩)
  | .reset => ([], ⟨0, []⟩)

def performAll (capacity : Nat) : List UInt8 → List Call → List UInt8 × List Reply
  | bytes, [] => (bytes, [])
  | bytes, call :: rest =>
      let done := perform capacity bytes call
      let later := performAll capacity done.1 rest
      (later.1, done.2 :: later.2)

end Fifo

/-! ## Valid buffers -/

structure Valid (rbuff : Ringbuff) : Prop where
  small : rbuff.len.toNat < 2 ^ 31
  in_lt : rbuff.in_.toNat < rbuff.len.toNat
  out_lt : rbuff.out.toNat < rbuff.len.toNat

/-- The number of bytes between the indices. -/
def used (rbuff : Ringbuff) : Nat :=
  if rbuff.out.toNat ≤ rbuff.in_.toNat then rbuff.in_.toNat - rbuff.out.toNat
  else rbuff.len.toNat - (rbuff.out.toNat - rbuff.in_.toNat)

def contents (rbuff : Ringbuff) : List UInt8 :=
  window rbuff.buff rbuff.len.toNat rbuff.out.toNat (used rbuff)

@[simp] theorem length_contents (rbuff : Ringbuff) : (contents rbuff).length = used rbuff :=
  length_window

/-- A subtraction that does not wrap is exact. -/
def Faithful (sub : UInt32 → UInt32 → Option UInt32) : Prop :=
  ∀ minuend subtrahend, subtrahend ≤ minuend → sub minuend subtrahend = some (minuend - subtrahend)

theorem faithful_of_source {sub : UInt32 → UInt32 → Option UInt32}
    (isSub : sub = wrapping ∨ sub = checked) : Faithful sub := by
  intro minuend subtrahend below
  rcases isSub with rfl | rfl
  · rfl
  · exact if_pos below

section Buffers

variable {sub : UInt32 → UInt32 → Option UInt32} {rbuff : Ringbuff}

theorem used_cases (rbuff : Ringbuff) :
    (rbuff.out.toNat ≤ rbuff.in_.toNat ∧ used rbuff = rbuff.in_.toNat - rbuff.out.toNat) ∨
      (rbuff.in_.toNat < rbuff.out.toNat ∧
        used rbuff = rbuff.len.toNat - (rbuff.out.toNat - rbuff.in_.toNat)) := by
  unfold used
  split <;> omega

theorem used_lt (valid : Valid rbuff) : used rbuff < rbuff.len.toNat := by
  have inBelow := valid.in_lt
  have outBelow := valid.out_lt
  rcases used_cases rbuff with ⟨ordered, isUsed⟩ | ⟨wrapped, isUsed⟩
  · omega
  · omega

theorem out_add_used (valid : Valid rbuff) :
    (rbuff.out.toNat + used rbuff) % rbuff.len.toNat = rbuff.in_.toNat := by
  obtain ⟨-, inBelow, outBelow⟩ := valid
  unfold used
  split
  · rw [Nat.add_sub_cancel' ‹_›, Nat.mod_eq_of_lt inBelow]
  · have wrapped : rbuff.out.toNat + (rbuff.len.toNat - (rbuff.out.toNat - rbuff.in_.toNat)) =
        rbuff.in_.toNat + rbuff.len.toNat := by omega
    rw [wrapped, Nat.add_mod_right, Nat.mod_eq_of_lt inBelow]

/-- A subtraction of the source, in natural numbers. -/
theorem Faithful.exact (faithful : Faithful sub) {minuend subtrahend : UInt32}
    (below : subtrahend.toNat ≤ minuend.toNat) :
    ∃ difference, sub minuend subtrahend = some difference ∧
      difference.toNat = minuend.toNat - subtrahend.toNat := by
  have isBelow := UInt32.le_iff_toNat_le.mpr below
  exact ⟨_, faithful minuend subtrahend isBelow, UInt32.toNat_sub_of_le _ _ isBelow⟩

/-! ## Sizes -/

theorem usedSizeGet_spec (faithful : Faithful sub) (valid : Valid rbuff) :
    ∃ size, tuyaRingBuffUsedSizeGet sub rbuff = some size ∧ size.toNat = used rbuff := by
  obtain ⟨-, inBelow, outBelow⟩ := valid
  unfold tuyaRingBuffUsedSizeGet used
  by_cases empty : rbuff.in_ = rbuff.out
  · rw [if_pos empty]
    exact ⟨0, rfl, by simp [empty]⟩
  · rw [if_neg empty]
    have apart : rbuff.in_.toNat ≠ rbuff.out.toNat := fun same => empty (UInt32.toNat_inj.mp same)
    by_cases ahead : rbuff.in_ > rbuff.out
    · have outBefore := UInt32.lt_iff_toNat_lt.mp ahead
      obtain ⟨size, isSize, sizeEq⟩ := faithful.exact (Nat.le_of_lt outBefore)
      rw [if_pos ahead, if_pos (Nat.le_of_lt outBefore)]
      exact ⟨size, isSize, sizeEq⟩
    · have inBefore : ¬ rbuff.out.toNat < rbuff.in_.toNat :=
        fun before => ahead (UInt32.lt_iff_toNat_lt.mpr before)
      obtain ⟨free, isFree, freeEq⟩ := @Faithful.exact _ faithful rbuff.out rbuff.in_ (by omega)
      obtain ⟨size, isSize, sizeEq⟩ := @Faithful.exact _ faithful rbuff.len free (by omega)
      rw [if_neg ahead, if_neg (by omega), isFree]
      exact ⟨size, isSize, by rw [sizeEq, freeEq]⟩

theorem unusedSize_spec (faithful : Faithful sub) (valid : Valid rbuff) :
    ∃ size, unusedSize sub rbuff = some size ∧ size.toNat = rbuff.len.toNat - used rbuff := by
  obtain ⟨-, inBelow, outBelow⟩ := valid
  unfold unusedSize used
  by_cases empty : rbuff.in_ = rbuff.out
  · rw [if_pos empty]
    exact ⟨rbuff.len, rfl, by simp [empty]⟩
  · rw [if_neg empty]
    have apart : rbuff.in_.toNat ≠ rbuff.out.toNat := fun same => empty (UInt32.toNat_inj.mp same)
    by_cases behind : rbuff.out > rbuff.in_
    · have inBefore := UInt32.lt_iff_toNat_lt.mp behind
      obtain ⟨size, isSize, sizeEq⟩ := faithful.exact (Nat.le_of_lt inBefore)
      rw [if_pos behind, if_neg (by omega)]
      exact ⟨size, isSize, by omega⟩
    · have outBefore : ¬ rbuff.in_.toNat < rbuff.out.toNat :=
        fun before => behind (UInt32.lt_iff_toNat_lt.mpr before)
      obtain ⟨used, isUsed, usedEq⟩ := @Faithful.exact _ faithful rbuff.in_ rbuff.out (by omega)
      obtain ⟨size, isSize, sizeEq⟩ := @Faithful.exact _ faithful rbuff.len used (by omega)
      rw [if_neg behind, if_pos (by omega), isUsed]
      exact ⟨size, isSize, by omega⟩

theorem freeSizeGet_spec (faithful : Faithful sub) (valid : Valid rbuff) :
    ∃ size, tuyaRingBuffFreeSizeGet sub rbuff = some size ∧
      size.toNat = rbuff.len.toNat - 1 - used rbuff := by
  have room := used_lt valid
  obtain ⟨size, isSize, sizeEq⟩ := unusedSize_spec faithful valid
  have one : (1 : UInt32).toNat = 1 := rfl
  obtain ⟨free, isFree, freeEq⟩ := @Faithful.exact _ faithful size 1 (by omega)
  refine ⟨free, ?_, by omega⟩
  unfold tuyaRingBuffFreeSizeGet
  rw [isSize]
  exact isFree

/-! ## Splitting a transfer at the end of the buffer -/

theorem toNat_getMin (one other : UInt32) :
    (getMin one other).toNat = min one.toNat other.toNat := by
  unfold getMin
  by_cases less : one < other
  · rw [if_pos less]
    have := UInt32.lt_iff_toNat_lt.mp less
    omega
  · rw [if_neg less]
    have : ¬ one.toNat < other.toNat := fun below => less (UInt32.lt_iff_toNat_lt.mpr below)
    omega

/-- The index after a transfer. -/
theorem toNat_moveIndex {index tmpLen rest len count : UInt32} (small : len.toNat < 2 ^ 31)
    (inside : index.toNat < len.toNat) (short : count.toNat < len.toNat)
    (isTmp : tmpLen.toNat = min (len.toNat - index.toNat) count.toNat)
    (isRest : rest.toNat = count.toNat - tmpLen.toNat) :
    (moveIndex index tmpLen rest len).toNat = (index.toNat + count.toNat) % len.toNat := by
  have zero : (0 : UInt32).toNat = 0 := rfl
  unfold moveIndex
  dsimp only
  by_cases wraps : rest > 0
  · have positive := UInt32.lt_iff_toNat_lt.mp wraps
    have below : ¬ rest ≥ len := by
      intro atLeast
      have := UInt32.le_iff_toNat_le.mp atLeast
      omega
    have around : index.toNat + count.toNat = rest.toNat + len.toNat := by omega
    rw [if_pos wraps, if_neg below, around, Nat.add_mod_right, Nat.mod_eq_of_lt (by omega)]
  · have isZero : rest.toNat = 0 := by
      by_contra positive
      exact wraps (UInt32.lt_iff_toNat_lt.mpr (by omega))
    have sum : (index + tmpLen).toNat = index.toNat + count.toNat := by
      rw [UInt32.toNat_add, Nat.mod_eq_of_lt (by omega)]
      omega
    rw [if_neg wraps]
    by_cases atEnd : index + tmpLen ≥ len
    · have reached := UInt32.le_iff_toNat_le.mp atEnd
      have full : index.toNat + count.toNat = len.toNat := by omega
      rw [if_pos atEnd, full, Nat.mod_self, zero]
    · have before : ¬ len.toNat ≤ (index + tmpLen).toNat :=
        fun reached => atEnd (UInt32.le_iff_toNat_le.mpr reached)
      rw [if_neg atEnd, sum, Nat.mod_eq_of_lt (by omega)]

/-- The two parts of a transfer of `count` bytes that starts at `index`. -/
theorem split_spec (faithful : Faithful sub) {index len count : UInt32}
    (small : len.toNat < 2 ^ 31) (inside : index.toNat < len.toNat)
    (short : count.toNat < len.toNat) :
    ∃ room rest, sub len index = some room ∧ sub count (getMin room count) = some rest ∧
      (getMin room count).toNat = min (len.toNat - index.toNat) count.toNat ∧
      rest.toNat = count.toNat - (getMin room count).toNat ∧
      (getMin room count + rest).toNat = count.toNat ∧
      (moveIndex index (getMin room count) rest len).toNat =
        (index.toNat + count.toNat) % len.toNat := by
  obtain ⟨room, isRoom, roomEq⟩ := @Faithful.exact _ faithful len index (by omega)
  have tmpEq := toNat_getMin room count
  rw [roomEq] at tmpEq
  obtain ⟨rest, isRest, restEq⟩ := @Faithful.exact _ faithful count (getMin room count) (by omega)
  refine ⟨room, rest, isRoom, isRest, tmpEq, restEq, ?_, ?_⟩
  · rw [UInt32.toNat_add, Nat.mod_eq_of_lt (by omega)]
    omega
  · exact toNat_moveIndex small inside short tmpEq restEq

/-! ## Taking bytes -/

/-- The number of bytes is what leads from one index to the other. -/
theorem used_eq_of_mod (valid : Valid rbuff) {count : Nat} (below : count < rbuff.len.toNat)
    (leads : (rbuff.out.toNat + count) % rbuff.len.toNat = rbuff.in_.toNat) :
    used rbuff = count :=
  offset_injective (used_lt valid) below ((out_add_used valid).trans leads.symm)

theorem contents_take {count : Nat} (enough : count ≤ used rbuff) :
    (contents rbuff).take count = window rbuff.buff rbuff.len.toNat rbuff.out.toNat count := by
  unfold contents
  rw [← Nat.add_sub_cancel' enough, window_add]
  exact List.take_left' length_window

/-- Moving the read index takes bytes from the front. -/
theorem take_spec (valid : Valid rbuff) {out : UInt32} {count : Nat} (enough : count ≤ used rbuff)
    (isOut : out.toNat = (rbuff.out.toNat + count) % rbuff.len.toNat) :
    Valid { rbuff with out := out } ∧
      contents { rbuff with out := out } = (contents rbuff).drop count := by
  have positive : 0 < rbuff.len.toNat := Nat.lt_of_le_of_lt (Nat.zero_le _) valid.in_lt
  have stays : Valid { rbuff with out := out } := by
    refine ⟨valid.small, valid.in_lt, ?_⟩
    rw [isOut]
    exact Nat.mod_lt _ positive
  have left : used { rbuff with out := out } = used rbuff - count := by
    apply used_eq_of_mod stays
    · exact Nat.lt_of_le_of_lt (Nat.sub_le _ _) (used_lt valid)
    · show (out.toNat + (used rbuff - count)) % rbuff.len.toNat = rbuff.in_.toNat
      rw [isOut, Nat.mod_add_mod, Nat.add_assoc, Nat.add_sub_cancel' enough, out_add_used valid]
  refine ⟨stays, ?_⟩
  show window rbuff.buff rbuff.len.toNat out.toNat (used { rbuff with out := out }) = _
  unfold contents
  rw [left, isOut]
  conv_rhs => rw [← Nat.add_sub_cancel' enough, window_add]
  exact (List.drop_left' length_window).symm

theorem copyParts_eq (valid : Valid rbuff) {tmpLen rest count : UInt32}
    (short : count.toNat < rbuff.len.toNat)
    (isTmp : tmpLen.toNat = min (rbuff.len.toNat - rbuff.out.toNat) count.toNat)
    (isRest : rest.toNat = count.toNat - tmpLen.toNat) :
    copyParts rbuff tmpLen rest =
      window rbuff.buff rbuff.len.toNat rbuff.out.toNat count.toNat := by
  have outBelow := valid.out_lt
  have zero : (0 : UInt32).toNat = 0 := rfl
  have linear : copyFrom rbuff.buff rbuff.out tmpLen =
      window rbuff.buff rbuff.len.toNat rbuff.out.toNat tmpLen.toNat :=
    (window_block (by omega)).symm
  unfold copyParts
  rw [linear]
  by_cases wraps : rest > 0
  · have positive := UInt32.lt_iff_toNat_lt.mp wraps
    have around : (rbuff.out.toNat + tmpLen.toNat) % rbuff.len.toNat = 0 := by
      have atEnd : rbuff.out.toNat + tmpLen.toNat = rbuff.len.toNat := by omega
      rw [atEnd, Nat.mod_self]
    have parts : count.toNat = tmpLen.toNat + rest.toNat := by omega
    have wrapped : copyFrom rbuff.buff 0 rest =
        window rbuff.buff rbuff.len.toNat 0 rest.toNat := (window_block (by omega)).symm
    rw [if_pos wraps, wrapped, parts, window_add, around]
  · have isZero : rest.toNat = 0 := by
      by_contra positive
      exact wraps (UInt32.lt_iff_toNat_lt.mpr (by omega))
    have whole : tmpLen.toNat = count.toNat := by omega
    rw [if_neg wraps, whole, List.append_nil]

theorem read_spec (faithful : Faithful sub) (valid : Valid rbuff) (wanted : Bool) (len : UInt32) :
    ∃ out returned, tuyaRingBuffRead sub rbuff wanted len =
        some ({ rbuff with out := out }, returned,
          (contents rbuff).take (if wanted then min len.toNat (used rbuff) else 0)) ∧
      returned.toNat = (if wanted then min len.toNat (used rbuff) else 0) ∧
      out.toNat = (rbuff.out.toNat + returned.toNat) % rbuff.len.toNat := by
  have unmoved : (rbuff.out.toNat + (0 : UInt32).toNat) % rbuff.len.toNat = rbuff.out.toNat :=
    Nat.mod_eq_of_lt valid.out_lt
  unfold tuyaRingBuffRead
  by_cases idle : wanted = false ∨ len = 0
  · have nothing : (if wanted then min len.toNat (used rbuff) else 0) = 0 := by
      rcases idle with unwanted | isZero
      · simp [unwanted]
      · simp [isZero]
    rw [if_pos idle, nothing]
    exact ⟨rbuff.out, 0, rfl, rfl, unmoved.symm⟩
  · obtain ⟨isWanted, -⟩ := not_or.mp idle
    rw [Bool.not_eq_false] at isWanted
    obtain ⟨usedLen, isUsed, usedEq⟩ := usedSizeGet_spec faithful valid
    have countEq := toNat_getMin usedLen len
    rw [usedEq, Nat.min_comm] at countEq
    have enough : (getMin usedLen len).toNat ≤ used rbuff := by omega
    rw [if_neg idle, isUsed, if_pos isWanted, ← countEq]
    simp only [Option.bind_eq_bind, Option.bind_some]
    by_cases nothing : getMin usedLen len = 0
    · rw [if_pos nothing, nothing]
      exact ⟨rbuff.out, 0, rfl, rfl, unmoved.symm⟩
    · have short := Nat.lt_of_le_of_lt enough (used_lt valid)
      obtain ⟨linear, rest, isLinear, isRest, tmpEq, restEq, sumEq, moved⟩ :=
        split_spec faithful valid.small valid.out_lt short
      rw [if_neg nothing, isLinear]
      simp only [Option.bind_some, isRest, copyParts_eq valid short tmpEq restEq,
        contents_take enough]
      exact ⟨_, _, rfl, sumEq, by rw [moved, sumEq]⟩

theorem getMin_comm (one other : UInt32) : getMin one other = getMin other one := by
  apply UInt32.toNat_inj.mp
  rw [toNat_getMin, toNat_getMin, Nat.min_comm]

/-- Discarding is reading without the bytes. -/
theorem discard_eq_read (len : UInt32) :
    tuyaRingBuffDiscard sub rbuff len =
      (tuyaRingBuffRead sub rbuff true len).map fun result => (result.1, result.2.1) := by
  unfold tuyaRingBuffDiscard tuyaRingBuffRead
  by_cases zero : len = 0
  · simp [zero]
  · simp only [zero, Bool.true_eq_false, or_self, if_false, Option.bind_eq_bind]
    cases tuyaRingBuffUsedSizeGet sub rbuff with
    | none => rfl
    | some usedLen =>
        simp only [Option.bind_some]
        split
        · rfl
        · cases sub rbuff.len rbuff.out with
          | none => rfl
          | some linear =>
              simp only [Option.bind_some]
              cases sub (getMin usedLen len) (getMin linear (getMin usedLen len)) <;> rfl

/-- Peeking is reading without moving the index. -/
theorem peek_eq_read (wanted : Bool) (len : UInt32) :
    tuyaRingBuffPeek sub rbuff wanted len =
      (tuyaRingBuffRead sub rbuff wanted len).map Prod.snd := by
  unfold tuyaRingBuffPeek tuyaRingBuffRead
  by_cases idle : wanted = false ∨ len = 0
  · simp [idle]
  · simp only [idle, if_false, Option.bind_eq_bind]
    cases tuyaRingBuffUsedSizeGet sub rbuff with
    | none => rfl
    | some usedLen =>
        simp only [Option.bind_some, getMin_comm len usedLen]
        split
        · rfl
        · cases sub rbuff.len rbuff.out with
          | none => rfl
          | some linear =>
              simp only [Option.bind_some]
              cases sub (getMin usedLen len) (getMin linear (getMin usedLen len)) <;> rfl

/-! ## Adding bytes -/

/-- The cells that the two parts of a write fill. -/
def written (rbuff : Ringbuff) (tmpLen rest : UInt32) (data : Nat → UInt8) : Nat → UInt8 :=
  if rest > 0 then
    copyTo (copyTo rbuff.buff rbuff.in_ tmpLen data) 0 rest fun offset =>
      data (tmpLen.toNat + offset)
  else copyTo rbuff.buff rbuff.in_ tmpLen data

section Writes

variable {tmpLen rest count : UInt32} {data : Nat → UInt8}

/-- The bytes land behind the write index, around the end of the buffer. -/
theorem written_cell (valid : Valid rbuff) (short : count.toNat < rbuff.len.toNat)
    (isTmp : tmpLen.toNat = min (rbuff.len.toNat - rbuff.in_.toNat) count.toNat)
    (isRest : rest.toNat = count.toNat - tmpLen.toNat) {offset : Nat}
    (inside : offset < count.toNat) :
    written rbuff tmpLen rest data ((rbuff.in_.toNat + offset) % rbuff.len.toNat) = data offset := by
  have inBelow := valid.in_lt
  have zero : (0 : UInt32).toNat = 0 := rfl
  unfold written
  by_cases linear : offset < tmpLen.toNat
  · have direct : (rbuff.in_.toNat + offset) % rbuff.len.toNat = rbuff.in_.toNat + offset :=
      Nat.mod_eq_of_lt (by omega)
    have first : copyTo rbuff.buff rbuff.in_ tmpLen data (rbuff.in_.toNat + offset) = data offset := by
      unfold copyTo
      rw [if_pos (by omega), Nat.add_sub_cancel_left]
    rw [direct]
    split
    · unfold copyTo at first ⊢
      rw [if_neg (by omega)]
      exact first
    · exact first
  · have wraps : rest > 0 := UInt32.lt_iff_toNat_lt.mpr (by omega)
    have around : (rbuff.in_.toNat + offset) % rbuff.len.toNat = offset - tmpLen.toNat := by
      have sum : rbuff.in_.toNat + offset = offset - tmpLen.toNat + rbuff.len.toNat := by omega
      rw [sum, Nat.add_mod_right, Nat.mod_eq_of_lt (by omega)]
    rw [if_pos wraps, around]
    unfold copyTo
    rw [if_pos (by omega), zero, Nat.sub_zero]
    show data (tmpLen.toNat + (offset - tmpLen.toNat)) = data offset
    rw [Nat.add_sub_cancel' (by omega)]

/-- The bytes that wait to be read stay. -/
theorem written_other (valid : Valid rbuff) (short : used rbuff + count.toNat < rbuff.len.toNat)
    (isTmp : tmpLen.toNat = min (rbuff.len.toNat - rbuff.in_.toNat) count.toNat)
    (isRest : rest.toNat = count.toNat - tmpLen.toNat) {offset : Nat}
    (inside : offset < used rbuff) :
    written rbuff tmpLen rest data ((rbuff.out.toNat + offset) % rbuff.len.toNat) =
      rbuff.buff ((rbuff.out.toNat + offset) % rbuff.len.toNat) := by
  have inBelow := valid.in_lt
  have outBelow := valid.out_lt
  have zero : (0 : UInt32).toNat = 0 := rfl
  have place : ∃ index, (rbuff.out.toNat + offset) % rbuff.len.toNat = index ∧
      (index < rbuff.in_.toNat ∨ rbuff.in_.toNat + tmpLen.toNat ≤ index) ∧
      rest.toNat ≤ index := by
    have cases := used_cases rbuff
    by_cases direct : rbuff.out.toNat + offset < rbuff.len.toNat
    · refine ⟨_, Nat.mod_eq_of_lt direct, ?_, ?_⟩
      · omega
      · omega
    · have around : rbuff.out.toNat + offset =
          rbuff.out.toNat + offset - rbuff.len.toNat + rbuff.len.toNat := by omega
      refine ⟨rbuff.out.toNat + offset - rbuff.len.toNat, ?_, ?_, ?_⟩
      · rw [around, Nat.add_mod_right, Nat.mod_eq_of_lt (by omega), Nat.add_sub_cancel]
      · omega
      · omega
  obtain ⟨index, isIndex, outside, behind⟩ := place
  have first : copyTo rbuff.buff rbuff.in_ tmpLen data index = rbuff.buff index := by
    unfold copyTo
    rw [if_neg (by omega)]
  rw [isIndex]
  unfold written
  split
  · unfold copyTo at first ⊢
    rw [if_neg (by omega)]
    exact first
  · exact first

/-- Filling the cells and moving the write index adds bytes at the back. -/
theorem add_spec (valid : Valid rbuff) (short : used rbuff + count.toNat < rbuff.len.toNat)
    (isTmp : tmpLen.toNat = min (rbuff.len.toNat - rbuff.in_.toNat) count.toNat)
    (isRest : rest.toNat = count.toNat - tmpLen.toNat) {in_ : UInt32}
    (isIn : in_.toNat = (rbuff.in_.toNat + count.toNat) % rbuff.len.toNat) :
    let after : Ringbuff := { rbuff with buff := written rbuff tmpLen rest data, in_ := in_ }
    Valid after ∧ contents after = contents rbuff ++ (List.range count.toNat).map data := by
  have positive : 0 < rbuff.len.toNat := Nat.lt_of_le_of_lt (Nat.zero_le _) valid.in_lt
  have stays : Valid { rbuff with buff := written rbuff tmpLen rest data, in_ := in_ } := by
    refine ⟨valid.small, ?_, valid.out_lt⟩
    rw [isIn]
    exact Nat.mod_lt _ positive
  have more : used { rbuff with buff := written rbuff tmpLen rest data, in_ := in_ } =
      used rbuff + count.toNat := by
    apply used_eq_of_mod stays short
    show (rbuff.out.toNat + (used rbuff + count.toNat)) % rbuff.len.toNat = in_.toNat
    rw [isIn, ← Nat.add_assoc, ← Nat.mod_add_mod, out_add_used valid]
  refine ⟨stays, ?_⟩
  unfold contents
  rw [more]
  apply window_extend
  · intro offset inside
    exact written_other valid short isTmp isRest inside
  · intro offset inside
    show written rbuff tmpLen rest data
      ((rbuff.out.toNat + used rbuff + offset) % rbuff.len.toNat) = data offset
    rw [← Nat.mod_add_mod, out_add_used valid]
    exact written_cell valid (by omega) isTmp isRest inside

end Writes

theorem write_spec (faithful : Faithful sub) (valid : Valid rbuff) (data : Nat → UInt8)
    (len : UInt32) :
    ∃ after returned, tuyaRingBuffWrite sub rbuff (some data) len = some (after, returned) ∧
      returned.toNat = min len.toNat (rbuff.len.toNat - 1 - used rbuff) ∧ Valid after ∧
      after.len = rbuff.len ∧
      contents after = contents rbuff ++ (List.range returned.toNat).map data := by
  have unchanged : contents rbuff = contents rbuff ++ (List.range (0 : UInt32).toNat).map data := by
    simp
  simp only [tuyaRingBuffWrite]
  by_cases idle : len = 0
  · rw [if_pos idle]
    exact ⟨rbuff, 0, rfl, by simp [idle], valid, rfl, unchanged⟩
  · obtain ⟨freeLen, isFree, freeEq⟩ := freeSizeGet_spec faithful valid
    have countEq := toNat_getMin freeLen len
    rw [freeEq, Nat.min_comm] at countEq
    rw [if_neg idle, isFree, ← countEq]
    simp only [Option.bind_eq_bind, Option.bind_some]
    by_cases nothing : getMin freeLen len = 0
    · rw [if_pos nothing, nothing]
      exact ⟨rbuff, 0, rfl, rfl, valid, rfl, unchanged⟩
    · have room := used_lt valid
      have fits : used rbuff + (getMin freeLen len).toNat < rbuff.len.toNat := by omega
      obtain ⟨linear, rest, isLinear, isRest, tmpEq, restEq, sumEq, moved⟩ :=
        @split_spec _ faithful rbuff.in_ rbuff.len (getMin freeLen len) valid.small valid.in_lt
          (by omega)
      obtain ⟨stays, more⟩ := @add_spec rbuff _ _ _ data valid fits tmpEq restEq _ moved
      rw [if_neg nothing, isLinear]
      simp only [Option.bind_some, isRest]
      refine ⟨_, _, rfl, sumEq, stays, rfl, ?_⟩
      rw [sumEq]
      exact more

/-! ## Calls -/

/-- One call does to the bytes what it does to the sequence, and answers so. -/
theorem perform_refines (faithful : Faithful sub) (valid : Valid rbuff) (call : Call) :
    ∃ after, perform sub rbuff call =
        some (after, (Fifo.perform (rbuff.len.toNat - 1) (contents rbuff) call).2) ∧
      Valid after ∧ after.len = rbuff.len ∧
      contents after = (Fifo.perform (rbuff.len.toNat - 1) (contents rbuff) call).1 := by
  have taken (wanted : Bool) (len : UInt32) :=
    @read_spec sub rbuff faithful valid wanted len
  have enough (wanted : Bool) (len : UInt32) :
      (if wanted then min len.toNat (used rbuff) else 0) ≤ used rbuff := by
    split
    · exact Nat.min_le_right _ _
    · exact Nat.zero_le _
  cases call with
  | write data len =>
      cases data with
      | none => exact ⟨rbuff, rfl, valid, rfl, rfl⟩
      | some data =>
          obtain ⟨after, returned, isWritten, isCount, stays, sameLen, more⟩ :=
            write_spec faithful valid data len
          refine ⟨after, ?_, stays, sameLen, ?_⟩
          · simp only [perform, isWritten, Option.map_some, Fifo.perform, length_contents, isCount]
          · simp only [Fifo.perform, length_contents, more, isCount]
  | read wanted len =>
      obtain ⟨out, returned, isRead, isCount, isOut⟩ := taken wanted len
      rw [isCount] at isOut
      obtain ⟨stays, left⟩ := take_spec valid (enough wanted len) isOut
      refine ⟨_, ?_, stays, rfl, ?_⟩
      · simp only [perform, isRead, Option.map_some, Fifo.perform, length_contents, isCount]
      · simp only [Fifo.perform, length_contents, left]
  | discard len =>
      obtain ⟨out, returned, isRead, isCount, isOut⟩ := taken true len
      rw [isCount] at isOut
      obtain ⟨stays, left⟩ := take_spec valid (enough true len) isOut
      refine ⟨_, ?_, stays, rfl, ?_⟩
      · simp only [perform, discard_eq_read, isRead, Option.map_some, Fifo.perform,
          length_contents, isCount, if_true]
      · simp only [Fifo.perform, length_contents, left, if_true]
  | peek wanted len =>
      obtain ⟨out, returned, isRead, isCount, -⟩ := taken wanted len
      refine ⟨rbuff, ?_, valid, rfl, rfl⟩
      simp only [perform, peek_eq_read, isRead, Option.map_some, Fifo.perform, length_contents,
        isCount]
  | reset =>
      have positive : (0 : UInt32).toNat < rbuff.len.toNat :=
        Nat.lt_of_le_of_lt (Nat.zero_le _) valid.in_lt
      exact ⟨_, rfl, ⟨valid.small, positive, positive⟩, rfl, rfl⟩

theorem performAll_refines (faithful : Faithful sub) (valid : Valid rbuff) (calls : List Call) :
    ∃ final, performAll sub rbuff calls =
        some (final, (Fifo.performAll (rbuff.len.toNat - 1) (contents rbuff) calls).2) ∧
      Valid final ∧ final.len = rbuff.len ∧
      contents final = (Fifo.performAll (rbuff.len.toNat - 1) (contents rbuff) calls).1 := by
  induction calls generalizing rbuff with
  | nil => exact ⟨rbuff, rfl, valid, rfl, rfl⟩
  | cons call rest inductionHypothesis =>
      obtain ⟨after, isDone, stays, sameLen, bytes⟩ := perform_refines faithful valid call
      obtain ⟨final, isLater, finalValid, finalLen, finalBytes⟩ := inductionHypothesis stays
      rw [sameLen, bytes] at isLater finalBytes
      refine ⟨final, ?_, finalValid, finalLen.trans sameLen, finalBytes⟩
      simp only [performAll, isDone, Option.bind_eq_bind, Option.bind_some, isLater,
        Fifo.performAll]

end Buffers

/-- Every sequence of calls on a new buffer of less than 2^31 bytes answers what a
sequence of bytes with one byte less room answers, in the source's arithmetic
and in one that stops at a subtraction that wraps. Afterwards the indices are
inside, and the two sizes are those of the sequence and of its room. -/
theorem ringbuf_refines_fifo {len : UInt32} {memory : Nat → UInt8} {rbuff : Ringbuff}
    {sub : UInt32 → UInt32 → Option UInt32} (small : len.toNat < 2 ^ 31)
    (created : tuyaRingBuffCreate len .overflowStop (some memory) = (some rbuff, .ok))
    (isSub : sub = wrapping ∨ sub = checked) (calls : List Call) :
    ∃ final usedSize freeSize,
      performAll sub rbuff calls =
        some (final, (Fifo.performAll (len.toNat - 1) [] calls).2) ∧
      contents final = (Fifo.performAll (len.toNat - 1) [] calls).1 ∧
      final.len = len ∧ final.in_ < len ∧ final.out < len ∧
      tuyaRingBuffUsedSizeGet sub final = some usedSize ∧
      tuyaRingBuffFreeSizeGet sub final = some freeSize ∧
      usedSize.toNat = (contents final).length ∧
      usedSize.toNat + freeSize.toNat = len.toNat - 1 := by
  have faithful := faithful_of_source isSub
  have nonempty : len ≠ 0 := by
    intro isZero
    simp [tuyaRingBuffCreate, isZero] at created
  have isNew : rbuff = ⟨0, 0, len, memory⟩ := by
    simp [tuyaRingBuffCreate, nonempty, ringbuffInit] at created
    exact created.symm
  have positive : (0 : UInt32).toNat < len.toNat := by
    apply Nat.pos_of_ne_zero
    exact fun isZero => nonempty (UInt32.toNat_inj.mp isZero)
  have valid : Valid rbuff := by
    rw [isNew]
    exact ⟨small, positive, positive⟩
  have isEmpty : contents rbuff = [] := by
    rw [isNew]
    rfl
  have isLen : rbuff.len = len := by rw [isNew]
  obtain ⟨final, isDone, stays, sameLen, bytes⟩ := performAll_refines faithful valid calls
  rw [isEmpty, isLen] at isDone bytes
  have finalLen := sameLen.trans isLen
  obtain ⟨usedSize, isUsed, usedEq⟩ := usedSizeGet_spec faithful stays
  obtain ⟨freeSize, isFree, freeEq⟩ := freeSizeGet_spec faithful stays
  have room := used_lt stays
  refine ⟨final, usedSize, freeSize, isDone, bytes, finalLen, ?_, ?_, isUsed, isFree, ?_, ?_⟩
  · exact UInt32.lt_iff_toNat_lt.mpr (finalLen ▸ stays.in_lt)
  · exact UInt32.lt_iff_toNat_lt.mpr (finalLen ▸ stays.out_lt)
  · rw [usedEq, length_contents]
  · rw [finalLen] at freeEq room
    omega

/-- Three bytes of room: a write of two, a read of one, a write that wraps. -/
theorem ringbuf_refines_fifo_wrapping :
    ∃ final usedSize freeSize,
      performAll checked ⟨0, 0, 4, fun _ => 0⟩
          [.write (some fun offset => offset.toUInt8 + 1) 2, .read true 1,
            .write (some fun offset => offset.toUInt8 + 3) 5, .peek true 9] =
        some (final, [⟨2, []⟩, ⟨1, [1]⟩, ⟨2, []⟩, ⟨3, [2, 3, 4]⟩]) ∧
      contents final = [2, 3, 4] ∧ final.len = 4 ∧ final.in_ < 4 ∧ final.out < 4 ∧
      tuyaRingBuffUsedSizeGet checked final = some usedSize ∧
      tuyaRingBuffFreeSizeGet checked final = some freeSize ∧
      usedSize.toNat = (contents final).length ∧ usedSize.toNat + freeSize.toNat = 3 :=
  @ringbuf_refines_fifo 4 (fun _ => 0) _ _ (by decide) rfl (Or.inr rfl) _

end TuyaAdapter.TuyaRingbuf
