import TuyaAdapter.Foundation.Blocking
import TuyaAdapter.Foundation.Run
import TuyaAdapter.TklVad.Model

/-!
Contract: when voice detection sees the captured stream in frames.

`__tkl_vad_process` buffers its chunks and takes a frame from the buffers when
more than one is there, but it is the start of the chunk that it hands on. So
the blocks are those of the stream as long as what is handed on happens to be
what is due: above all when the buffers were empty.
-/

namespace TuyaAdapter.TklVad

open Foundation.Blocking Foundation.Run

variable (engine : Engine)

/-! ## The property and the condition -/

/-- The blocks are the successive frames of the accepted bytes, and no frame is
waiting. -/
def Framed (vad : Vad) : Prop :=
  (∃ rest, Blocked frameSize.toNat (vad.blocks.map Block.mic) vad.micStream rest) ∧
    ∃ rest, Blocked frameSize.toNat (vad.blocks.map Block.ref) vad.refStream rest

/-- An accepted chunk leaves less than a frame in the buffers, or it makes more
than one frame and less than two, and starts with the frame that is due, which
is made of the buffered bytes and the chunk. -/
def Due (vad : Vad) (chunk : Option Chunk) : Prop :=
  ∀ given, chunk = some given → vad.Accepts given →
    vad.mic.len.toNat + 2 * given.frames.toNat < frameSize.toNat ∨
      (frameSize.toNat < vad.mic.len.toNat + 2 * given.frames.toNat ∧
        vad.mic.len.toNat + 2 * given.frames.toNat < 2 * frameSize.toNat ∧
        given.block.mic = (vad.mic.contents ++
          bytesAt given.micData (2 * given.frames.toNat)).take frameSize.toNat ∧
        given.block.ref = (vad.ref.contents ++
          bytesAt given.refData (2 * given.frames.toNat)).take frameSize.toNat)

/-! ## Buffers -/

@[simp] theorem length_bytesAt (data : Nat → UInt8) (count : Nat) :
    (bytesAt data count).length = count := by
  simp [bytesAt]

@[simp] theorem length_contents (buffer : Accumulator) :
    buffer.contents.length = buffer.len.toNat :=
  length_bytesAt _ _

theorem getElem_bytesAt (data : Nat → UInt8) (count index : Nat)
    (inside : index < (bytesAt data count).length) : (bytesAt data count)[index] = data index := by
  simp [bytesAt]

theorem getElem_contents (buffer : Accumulator) (index : Nat)
    (inside : index < buffer.contents.length) : buffer.contents[index] = buffer.data index :=
  getElem_bytesAt _ _ _ inside

/-- Appending without a wrap appends the bytes. -/
theorem contents_append {buffer : Accumulator} {source : Nat → UInt8} {count : UInt32}
    (noWrap : buffer.len.toNat + count.toNat < 2 ^ 32) :
    (buffer.append source count).contents = buffer.contents ++ bytesAt source count.toNat := by
  have isLen : (buffer.append source count).len.toNat = buffer.len.toNat + count.toNat := by
    simp only [Accumulator.append]
    rw [UInt32.toNat_add, Nat.mod_eq_of_lt noWrap]
  apply List.ext_getElem
  · rw [length_contents, isLen, List.length_append, length_contents, length_bytesAt]
  · intro index inAppended inParts
    have below : index < buffer.len.toNat + count.toNat := by
      rw [length_contents, isLen] at inAppended
      exact inAppended
    rw [getElem_contents]
    simp only [Accumulator.append]
    by_cases old : index < buffer.len.toNat
    · rw [List.getElem_append_left (by simpa using old), getElem_contents, if_neg (by omega)]
    · rw [List.getElem_append_right (by simpa using old), getElem_bytesAt, if_pos (by omega),
        length_contents]

/-- Moving the rest to the front drops a frame. -/
theorem contents_dropFrame {buffer : Accumulator} (enough : frameSize ≤ buffer.len) :
    buffer.dropFrame.contents = buffer.contents.drop frameSize.toNat := by
  have isLen : buffer.dropFrame.len.toNat = buffer.len.toNat - frameSize.toNat := by
    simp only [Accumulator.dropFrame]
    exact UInt32.toNat_sub_of_le _ _ enough
  apply List.ext_getElem
  · rw [length_contents, isLen, List.length_drop, length_contents]
  · intro index inDropped inRest
    have inFront : index < (buffer.len - frameSize).toNat := by
      rw [length_contents] at inDropped
      exact inDropped
    rw [List.getElem_drop, getElem_contents, getElem_contents]
    simp only [Accumulator.dropFrame]
    rw [if_pos inFront, Nat.add_comm]

/-- A buffer that makes less than two frames with the bytes that are appended, and
at least one, is left with what comes after the first. -/
theorem blocked_dropFrame {buffer stored : Accumulator} {blocks : List (List UInt8)}
    {stream : List UInt8} {source : Nat → UInt8} {count : Nat}
    (blocked : Blocked frameSize.toNat blocks stream buffer.contents)
    (isStored : stored.contents = buffer.contents ++ bytesAt source count)
    (enough : frameSize ≤ stored.len)
    (notTwo : buffer.len.toNat + count < 2 * frameSize.toNat) :
    Blocked frameSize.toNat
      (blocks ++ [(buffer.contents ++ bytesAt source count).take frameSize.toNat])
      (stream ++ bytesAt source count) stored.dropFrame.contents := by
  have isLength : stored.len.toNat = buffer.len.toNat + count := by
    simpa using congrArg List.length isStored
  rw [UInt32.le_iff_toNat_le, isLength] at enough
  rw [contents_dropFrame (by rw [UInt32.le_iff_toNat_le, isLength]; exact enough), isStored]
  exact blocked.take (by simpa using enough) (by simpa using notTwo)

/-! ## One call -/

/-- What the buffers hold is what is left over from the frames. -/
structure Buffered (vad : Vad) : Prop where
  ref : vad.ref.len = vad.mic.len
  mic : Blocked frameSize.toNat (vad.blocks.map Block.mic) vad.micStream vad.mic.contents
  refs : Blocked frameSize.toNat (vad.blocks.map Block.ref) vad.refStream vad.ref.contents

theorem buffered_fresh : Buffered .fresh :=
  ⟨rfl, blocked_nil (by decide), blocked_nil (by decide)⟩

theorem framed_of_buffered {vad : Vad} (buffered : Buffered vad) : Framed vad :=
  ⟨⟨_, buffered.mic⟩, ⟨_, buffered.refs⟩⟩

/-- A chunk that makes less than two frames with what is buffered wraps
nothing. -/
theorem store_contents {vad : Vad} (sameLen : vad.ref.len = vad.mic.len) {chunk : Chunk}
    (small : vad.mic.len.toNat + 2 * chunk.frames.toNat < 2 * frameSize.toNat) :
    (vad.store chunk).mic.contents =
        vad.mic.contents ++ bytesAt chunk.micData (2 * chunk.frames.toNat) ∧
      (vad.store chunk).ref.contents =
        vad.ref.contents ++ bytesAt chunk.refData (2 * chunk.frames.toNat) ∧
      (vad.store chunk).ref.len.toNat = vad.mic.len.toNat + 2 * chunk.frames.toNat := by
  have size : frameSize.toNat = 640 := rfl
  have arrays : ringBuffLen.toNat = 16000 := rfl
  have isBytes : chunk.bytes.toNat = 2 * chunk.frames.toNat := bytes_eq (by omega)
  have noWrap : vad.mic.len.toNat + chunk.bytes.toNat < 2 ^ 32 := by omega
  have refNoWrap : vad.ref.len.toNat + chunk.bytes.toNat < 2 ^ 32 := by
    rw [sameLen]
    exact noWrap
  refine ⟨?_, ?_, ?_⟩
  · simp only [Vad.store]
    rw [contents_append noWrap, isBytes]
  · simp only [Vad.store]
    rw [contents_append refNoWrap, isBytes]
  · simp only [Vad.store, Accumulator.append]
    rw [UInt32.toNat_add, Nat.mod_eq_of_lt refNoWrap, sameLen, isBytes]

/-- A call that is due keeps the buffers what is left over. -/
theorem process_buffered {vad : Vad} (buffered : Buffered vad) {chunk : Option Chunk}
    (due : Due vad chunk) : Buffered (tklVadProcess engine vad chunk) := by
  have size : frameSize.toNat = 640 := rfl
  rcases process_cases engine vad chunk with ⟨-, same⟩ | ⟨given, isGiven, accepts, outcome⟩
  · rw [same]
    exact buffered
  · have isDue := due given isGiven accepts
    have small : vad.mic.len.toNat + 2 * given.frames.toNat < 2 * frameSize.toNat := by omega
    obtain ⟨micStored, refStored, isLen⟩ := store_contents buffered.ref small
    have sameLen : (vad.store given).ref.len = (vad.store given).mic.len := by
      simp only [Vad.store, Accumulator.append, buffered.ref]
    have refLen : vad.ref.len.toNat = vad.mic.len.toNat := by rw [buffered.ref]
    rcases outcome with ⟨notDue, waits⟩ | ⟨nowDue, takes⟩
    · have short : vad.mic.len.toNat + 2 * given.frames.toNat < frameSize.toNat := by
        rw [UInt32.le_iff_toNat_le, isLen] at notDue
        omega
      rw [waits]
      refine ⟨sameLen, ?_, ?_⟩
      · rw [micStored]
        exact buffered.mic.wait (by simpa using short)
      · rw [refStored]
        exact buffered.refs.wait (by simpa [refLen] using short)
    · rw [UInt32.lt_iff_toNat_lt, isLen] at nowDue
      obtain ⟨-, notTwo, isMic, isRef⟩ := isDue.resolve_left (by omega)
      have enough : frameSize ≤ (vad.store given).ref.len := by
        rw [UInt32.le_iff_toNat_le, isLen]
        omega
      rw [takes]
      refine ⟨?_, ?_, ?_⟩
      · simp only [Vad.shift, Vad.detect, Accumulator.dropFrame, sameLen]
      · have taken := blocked_dropFrame buffered.mic micStored (sameLen ▸ enough) notTwo
        rw [← isMic] at taken
        simp only [Vad.shift, Vad.detect, List.map_append, List.map_cons, List.map_nil]
        exact taken
      · have taken := blocked_dropFrame buffered.refs refStored enough (by rw [refLen]; exact notTwo)
        rw [← isRef] at taken
        simp only [Vad.shift, Vad.detect, List.map_append, List.map_cons, List.map_nil]
        exact taken

/-- A call after which the blocks are frames of the stream was due. -/
theorem due_of_framed {vad : Vad} (buffered : Buffered vad) {chunk : Option Chunk}
    (framed : Framed (tklVadProcess engine vad chunk)) : Due vad chunk := by
  have size : frameSize.toNat = 640 := rfl
  rintro given rfl accepts
  rcases process_cases engine vad (some given) with ⟨refused, -⟩ | ⟨other, isOther, -, outcome⟩
  · exact absurd accepts (refused given rfl)
  · cases isOther
    rcases outcome with ⟨-, waits⟩ | ⟨nowDue, takes⟩
    · rw [waits] at framed
      obtain ⟨left, next⟩ := framed.1
      have short := buffered.mic.short_of_wait next
      left
      simpa using short
    · rw [takes] at framed
      obtain ⟨⟨left, next⟩, ⟨refLeft, refNext⟩⟩ := framed
      simp only [Vad.shift, Vad.detect, List.map_append, List.map_cons, List.map_nil] at next refNext
      obtain ⟨isMic, notTwo⟩ := buffered.mic.eq_of_take next
      obtain ⟨isRef, -⟩ := buffered.refs.eq_of_take refNext
      have small : vad.mic.len.toNat + 2 * given.frames.toNat < 2 * frameSize.toNat := by
        simpa using notTwo
      rw [UInt32.lt_iff_toNat_lt, (store_contents buffered.ref small).2.2] at nowDue
      exact Or.inr ⟨nowDue, small, isMic, isRef⟩

/-- With empty buffers a chunk of more than one frame and less than two starts
with the frame that is due. -/
theorem due_of_empty {vad : Vad} {chunk : Chunk} (micEmpty : vad.mic.len = 0)
    (refEmpty : vad.ref.len = 0) (more : frameSize.toNat < 2 * chunk.frames.toNat)
    (less : 2 * chunk.frames.toNat < 2 * frameSize.toNat) : Due vad (some chunk) := by
  have zero : (0 : UInt32).toNat = 0 := rfl
  have starts : ∀ data : Nat → UInt8,
      (bytesAt data (2 * chunk.frames.toNat)).take frameSize.toNat =
        bytesAt data frameSize.toNat := by
    intro data
    unfold bytesAt
    rw [← List.map_take, List.take_range, Nat.min_eq_left (Nat.le_of_lt more)]
  rintro given isGiven -
  cases isGiven
  have noMic : vad.mic.contents = [] := by simp [Accumulator.contents, bytesAt, micEmpty]
  have noRef : vad.ref.contents = [] := by simp [Accumulator.contents, bytesAt, refEmpty]
  right
  rw [micEmpty, zero, Nat.zero_add, noMic, noRef, List.nil_append, List.nil_append, starts, starts]
  exact ⟨more, less, by simp only [Chunk.block], by simp only [Chunk.block]⟩

/-! ## Every run -/

/-- In every run the blocks are the successive frames of the accepted bytes,
taken as soon as they are there, exactly when every call is due. -/
theorem vad_frames_iff (calls : List (Option Chunk)) :
    EveryState (step engine) Framed .fresh calls ↔ EveryStep (step engine) Due .fresh calls := by
  refine everyState_iff_of_broken (fun _ buffered => framed_of_buffered buffered) ?_ ?_
    buffered_fresh (everyStep_of_forall (fun _ _ => trivial) _ calls)
  · intro vad chunk buffered _ due
    exact ⟨_, rfl, process_buffered engine buffered due⟩
  · intro vad chunk buffered _ notDue
    exact ⟨_, rfl, fun framed => notDue (due_of_framed engine buffered framed)⟩

/-- A chunk of exactly one frame is buffered and not handed on. And of two
chunks of 400 samples the second is handed on from its start, although 160 bytes
of the first come before it. -/
theorem vad_hands_on_chunk :
    ¬ EveryState (step .off) Framed .fresh [tone 1 320] ∧
      ¬ EveryState (step .off) Framed .fresh [tone 1 400, tone 2 400] := by
  constructor
  · intro states
    have due := due_of_framed .off buffered_fresh (states.2 _ rfl)
    rcases due _ rfl (by decide) with short | ⟨long, -⟩
    · exact absurd short (by decide)
    · exact absurd long (by decide)
  · intro states
    have first : Due .fresh (tone 1 400) := due_of_empty rfl rfl (by decide) (by decide)
    have buffered := process_buffered .off buffered_fresh first
    have due := due_of_framed .off buffered ((states.2 _ rfl).2 _ rfl)
    rcases due _ rfl (by decide) with short | ⟨-, -, isMic, -⟩
    · exact absurd short (by decide)
    · have atStart := congrArg (fun bytes : List UInt8 => bytes[0]?) isMic
      exact absurd atStart (by decide +kernel)

end TuyaAdapter.TklVad
