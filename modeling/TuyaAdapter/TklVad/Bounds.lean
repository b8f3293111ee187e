import TuyaAdapter.Foundation.Run
import TuyaAdapter.TklVad.Model

/-!
Contract: the lengths of the accumulation buffers and the room that is left.

The lengths stay equal and within the arrays whatever is called, because they
are what the source checks; the copies stay within them only while the sum the
source checks does not wrap. A call that is discarded changes nothing, so that a
chunk that does not fit once never fits again.
-/

namespace TuyaAdapter.TklVad

open Foundation.Run

variable (engine : Engine)

/-! ## Properties and conditions -/

/-- The three lengths are equal and at most the size of the arrays. -/
structure Level (vad : Vad) : Prop where
  ref : vad.ref.len = vad.mic.len
  out : vad.out.len = vad.mic.len
  bounded : vad.mic.len.toNat ≤ ringBuffLen.toNat

/-- The lengths are as they should be and no copy has left its array. -/
structure Inside (vad : Vad) : Prop where
  level : Level vad
  copies : vad.outside = 0

/-- The sum of the size check does not wrap. -/
def NoWrap (vad : Vad) (chunk : Option Chunk) : Prop :=
  ∀ given, chunk = some given → given.frames ≠ 0 →
    vad.mic.len.toNat + given.bytes.toNat < 2 ^ 32

/-- One of the calls is accepted. -/
def AcceptsOne : Vad → List Chunk → Prop
  | _, [] => False
  | vad, chunk :: rest =>
      vad.Accepts chunk ∨ AcceptsOne (tklVadProcess engine vad (some chunk)) rest

/-- Among so many further calls with chunks of this size one is accepted. -/
def EventuallyAccepts (vad : Vad) (frames : UInt32) : Prop :=
  ∃ count, ∀ chunks : List Chunk, chunks.length = count →
    (∀ chunk ∈ chunks, chunk.frames = frames) → AcceptsOne engine vad chunks

/-! ## Lengths -/

theorem level_fresh : Level .fresh := ⟨rfl, rfl, by decide⟩

theorem store_len (vad : Vad) (chunk : Chunk) :
    (vad.store chunk).mic.len = vad.mic.len + chunk.bytes ∧
      (vad.store chunk).ref.len = vad.ref.len + chunk.bytes ∧
      (vad.store chunk).out.len = vad.out.len + chunk.bytes := ⟨rfl, rfl, rfl⟩

theorem shift_len (vad : Vad) :
    vad.shift.mic.len = vad.mic.len - frameSize ∧ vad.shift.ref.len = vad.ref.len - frameSize ∧
      vad.shift.out.len = vad.out.len - frameSize := ⟨rfl, rfl, rfl⟩

/-- With equal lengths there is room exactly when the first check passes. -/
theorem Level.hasRoom_iff {vad : Vad} (level : Level vad) (chunk : Chunk) :
    vad.HasRoom chunk ↔ (vad.mic.len + chunk.bytes).toNat ≤ ringBuffLen.toNat := by
  unfold Vad.HasRoom
  rw [level.ref, level.out, or_self, or_self, gt_iff_lt, UInt32.not_lt, UInt32.le_iff_toNat_le]

theorem Level.store {vad : Vad} (level : Level vad) {chunk : Chunk} (room : vad.HasRoom chunk) :
    Level (vad.store chunk) := by
  obtain ⟨mic, ref, out⟩ := store_len vad chunk
  refine ⟨?_, ?_, ?_⟩
  · rw [ref, mic, level.ref]
  · rw [out, mic, level.out]
  · rw [mic]
    exact (level.hasRoom_iff chunk).mp room

theorem Level.detect {vad : Vad} (level : Level vad) (block : Block) :
    Level (vad.detect engine block) := ⟨level.ref, level.out, level.bounded⟩

theorem Level.shift {vad : Vad} (level : Level vad) (isDue : frameSize < vad.ref.len) :
    Level vad.shift := by
  obtain ⟨mic, ref, out⟩ := shift_len vad
  have smaller : (vad.mic.len - frameSize).toNat ≤ vad.mic.len.toNat := by
    rw [level.ref] at isDue
    rw [UInt32.toNat_sub_of_le _ _ (UInt32.le_of_lt isDue)]
    exact Nat.sub_le _ _
  refine ⟨?_, ?_, ?_⟩
  · rw [ref, mic, level.ref]
  · rw [out, mic, level.out]
  · rw [mic]
    exact smaller.trans level.bounded

/-- Every call keeps the lengths equal and bounded. -/
theorem process_level {vad : Vad} (level : Level vad) (chunk : Option Chunk) :
    Level (tklVadProcess engine vad chunk) := by
  rcases process_cases engine vad chunk with
    ⟨-, same⟩ | ⟨given, -, accepts, ⟨-, waits⟩ | ⟨isDue, takes⟩⟩
  · rw [same]
    exact level
  · rw [waits]
    exact level.store accepts.2
  · rw [takes]
    exact ((level.store accepts.2).detect engine given.block).shift isDue

/-! ## Copies -/

theorem append_outside_eq_zero_iff (buffer : Accumulator) (count : UInt32) :
    buffer.appendOutside count = 0 ↔ buffer.len.toNat + count.toNat ≤ ringBuffLen.toNat := by
  unfold Accumulator.appendOutside
  split <;> simp_all

/-- An accepted chunk is copied into the arrays exactly when the check did not
wrap. -/
theorem Level.fits_iff {vad : Vad} (level : Level vad) {chunk : Chunk} (room : vad.HasRoom chunk) :
    vad.mic.len.toNat + chunk.bytes.toNat ≤ ringBuffLen.toNat ↔
      vad.mic.len.toNat + chunk.bytes.toNat < 2 ^ 32 := by
  have checked := (level.hasRoom_iff chunk).mp room
  rw [UInt32.toNat_add] at checked
  have size : ringBuffLen.toNat = 16000 := rfl
  rw [size] at checked ⊢
  constructor
  · intro fits
    omega
  · intro noWrap
    rw [Nat.mod_eq_of_lt noWrap] at checked
    exact checked

theorem store_outside {vad : Vad} (level : Level vad) (chunk : Chunk) :
    (vad.store chunk).outside = vad.outside + 3 * vad.mic.appendOutside chunk.bytes := by
  have sameRef : vad.ref.appendOutside chunk.bytes = vad.mic.appendOutside chunk.bytes := by
    unfold Accumulator.appendOutside
    rw [level.ref]
  have sameOut : vad.out.appendOutside chunk.bytes = vad.mic.appendOutside chunk.bytes := by
    unfold Accumulator.appendOutside
    rw [level.out]
  simp only [Vad.store, sameRef, sameOut]
  omega

theorem shift_outside {vad : Vad} (level : Level vad) : vad.shift.outside = vad.outside := by
  have zero : ∀ buffer : Accumulator, buffer.len = vad.mic.len → buffer.dropOutside = 0 := by
    intro buffer same
    unfold Accumulator.dropOutside
    rw [same, if_pos level.bounded]
  simp only [Vad.shift, zero _ level.ref, zero _ level.out, zero _ rfl, Nat.add_zero]

/-- The copies of a call stay inside exactly when its size check does not
wrap. -/
theorem process_inside_iff {vad : Vad} (inside : Inside vad) (chunk : Option Chunk) :
    Inside (tklVadProcess engine vad chunk) ↔ NoWrap vad chunk := by
  have level := process_level engine inside.level chunk
  have isLevel : Inside (tklVadProcess engine vad chunk) ↔
      (tklVadProcess engine vad chunk).outside = 0 :=
    ⟨fun isInside => isInside.copies, fun copies => ⟨level, copies⟩⟩
  rw [isLevel]
  rcases process_cases engine vad chunk with ⟨refused, same⟩ | ⟨given, isGiven, accepts, outcome⟩
  · rw [same]
    refine ⟨fun _ given isGiven notEmpty => ?_, fun _ => inside.copies⟩
    by_contra wraps
    refine refused given isGiven ⟨notEmpty, (inside.level.hasRoom_iff given).mpr ?_⟩
    have bounded := inside.level.bounded
    have small := given.bytes.toNat_lt
    rw [UInt32.toNat_add]
    omega
  · have count : (tklVadProcess engine vad chunk).outside =
        3 * vad.mic.appendOutside given.bytes := by
      have stored := store_outside inside.level given
      rw [inside.copies, Nat.zero_add] at stored
      rcases outcome with ⟨-, waits⟩ | ⟨-, takes⟩
      · rw [waits, stored]
      · rw [takes, shift_outside ((inside.level.store accepts.2).detect engine given.block)]
        exact stored
    have zero : (tklVadProcess engine vad chunk).outside = 0 ↔
        vad.mic.appendOutside given.bytes = 0 := by
      rw [count]
      omega
    rw [zero, append_outside_eq_zero_iff, inside.level.fits_iff accepts.2]
    constructor
    · intro noWrap other isOther _
      rw [isGiven] at isOther
      rw [← Option.some.inj isOther]
      exact noWrap
    · intro noWrap
      exact noWrap given isGiven accepts.1

/-! ## Room -/

theorem Level.accepts_iff {vad : Vad} (level : Level vad) {chunk : Chunk}
    (positive : 0 < 2 * chunk.frames.toNat) (small : 2 * chunk.frames.toNat ≤ ringBuffLen.toNat) :
    vad.Accepts chunk ↔ vad.mic.len.toNat + 2 * chunk.frames.toNat ≤ ringBuffLen.toNat := by
  have size : ringBuffLen.toNat = 16000 := rfl
  have bounded := level.bounded
  have notEmpty : chunk.frames ≠ 0 := by
    intro isZero
    rw [isZero] at positive
    exact absurd positive (by decide)
  unfold Vad.Accepts
  rw [level.hasRoom_iff, UInt32.toNat_add, bytes_eq small, Nat.mod_eq_of_lt (by omega)]
  simp [notEmpty]

/-- A call that is not accepted changes nothing. -/
theorem process_eq_of_not_accepts {vad : Vad} {chunk : Chunk} (refused : ¬ vad.Accepts chunk) :
    tklVadProcess engine vad (some chunk) = vad := by
  rcases process_cases engine vad (some chunk) with ⟨-, same⟩ | ⟨given, isGiven, accepts, -⟩
  · exact same
  · rw [← Option.some.inj isGiven] at accepts
    exact absurd accepts refused

theorem not_acceptsOne {vad : Vad} {chunks : List Chunk}
    (refused : ∀ chunk ∈ chunks, ¬ vad.Accepts chunk) : ¬ AcceptsOne engine vad chunks := by
  induction chunks with
  | nil => exact id
  | cons chunk rest inductionHypothesis =>
      rintro (accepts | later)
      · exact refused chunk (by simp) accepts
      · rw [process_eq_of_not_accepts engine (refused chunk (by simp))] at later
        exact inductionHypothesis (fun other member => refused other (by simp [member])) later

/-- A chunk size is accepted at some time exactly when it fits now. -/
theorem Level.eventuallyAccepts_iff {vad : Vad} (level : Level vad) {frames : UInt32}
    (positive : 0 < 2 * frames.toNat) (small : 2 * frames.toNat ≤ ringBuffLen.toNat) :
    EventuallyAccepts engine vad frames ↔
      vad.mic.len.toNat + 2 * frames.toNat ≤ ringBuffLen.toNat := by
  have accepts : ∀ chunk : Chunk, chunk.frames = frames →
      (vad.Accepts chunk ↔ vad.mic.len.toNat + 2 * frames.toNat ≤ ringBuffLen.toNat) := by
    rintro chunk rfl
    exact level.accepts_iff positive small
  constructor
  · rintro ⟨count, always⟩
    by_contra tooLong
    let chunk : Chunk := ⟨fun _ => 0, fun _ => 0, fun _ => 0, frames⟩
    have isFrames : ∀ other ∈ List.replicate count chunk, other.frames = frames := by
      intro other member
      rw [List.eq_of_mem_replicate member]
    refine not_acceptsOne engine ?_ (always (List.replicate count chunk) (by simp) isFrames)
    intro other member accepted
    exact tooLong ((accepts other (isFrames other member)).mp accepted)
  · intro fits
    refine ⟨1, fun chunks isOne isFrames => ?_⟩
    obtain ⟨chunk, rfl⟩ := List.length_eq_one_iff.mp isOne
    exact Or.inl ((accepts chunk (isFrames chunk (by simp))).mpr fits)

/-! ## Every run -/

/-- In every run the lengths stay in order and the copies inside exactly while no
size check wraps, and in the state it reaches a chunk size is not refused for
good exactly when a chunk of that size fits. -/
theorem vad_buffer_bounded_iff (calls : List (Option Chunk)) :
    (EveryState (step engine) Inside .fresh calls ↔ EveryStep (step engine) NoWrap .fresh calls) ∧
      ∀ final, run (step engine) .fresh calls = some final →
        ∀ frames : UInt32, 0 < 2 * frames.toNat → 2 * frames.toNat ≤ ringBuffLen.toNat →
          (EventuallyAccepts engine final frames ↔
            final.mic.len.toNat + 2 * frames.toNat ≤ ringBuffLen.toNat) := by
  constructor
  · refine everyState_iff_of_broken (fun _ inside => inside) ?_ ?_ ⟨level_fresh, rfl⟩
      (everyStep_of_forall (fun _ _ => trivial) _ calls)
    · intro vad chunk inside _ noWrap
      exact ⟨_, rfl, (process_inside_iff engine inside chunk).mpr noWrap⟩
    · intro vad chunk inside _ wraps
      exact ⟨_, rfl, fun stillInside =>
        wraps ((process_inside_iff engine inside chunk).mp stillInside)⟩
  · intro final ran frames positive small
    have level : Level final := by
      refine run_invariant ?_ level_fresh ran
      intro vad chunk next isLevel stepped
      rw [← Option.some.inj stepped]
      exact process_level engine isLevel chunk
    exact level.eventuallyAccepts_iff engine positive small

/-- After one chunk of half a frame another fits. -/
theorem vad_buffer_bounded_half_frame :
    EventuallyAccepts .off (tklVadProcess .off .fresh (tone 0 160)) 160 :=
  ((vad_buffer_bounded_iff .off [tone 0 160]).2 _ rfl 160 (by decide) (by decide)).mpr (by decide)

/-- One sample is buffered, then `2 ^ 31 - 1` are offered: the sum of the size
check wraps to zero and the copies run far beyond the arrays. And with one
sample buffered a chunk of 8000 samples, which is as large as the array, is
discarded for good. -/
theorem vad_copy_leaves_arrays :
    ¬ EveryState (step .off) Inside .fresh [tone 0 1, tone 0 2147483647] ∧
      ¬ EventuallyAccepts .off (tklVadProcess .off .fresh (tone 0 1)) 8000 := by
  constructor
  · intro states
    have last := (states.2 _ rfl).2 _ rfl
    exact absurd last.copies (by decide)
  · have level := process_level .off level_fresh (tone 0 1)
    rw [level.eventuallyAccepts_iff .off (by decide) (by decide)]
    decide

end TuyaAdapter.TklVad
