import Mathlib.Algebra.Order.Group.Nat
import Mathlib.Data.List.Range

/-!
Contract: `__tkl_vad_process` of `tkl_vad.c` and the frame it hands on.

The three accumulation buffers are memory from the start of an array of
`AEC_VAD_RING_BUFF_LEN` bytes on; a copy may leave the array, and how many did is
part of the state. The history records the bytes of the calls that were not
discarded and the blocks `__tkl_aec_vad_process` was run on; no step reads it.
The echo canceller and the voice detector are parameters.
-/

namespace TuyaAdapter.TklVad

/-- `AEC_VAD_FRAME_SIZE`. -/
def frameSize : UInt32 := 640

/-- `AEC_VAD_RING_BUFF_LEN`. -/
def ringBuffLen : UInt32 := 16000

/-- The first bytes at a pointer. -/
def bytesAt (data : Nat → UInt8) (count : Nat) : List UInt8 := (List.range count).map data

/-! ## Voice detection on one frame -/

/-- `TKL_VAD_STATUS_T`. -/
inductive VadStatus where
  | none_
  | speech
deriving DecidableEq, Repr

/-- The handles of the detector, missing when they are `NULL`: what
`speex_aes_process` puts at `out_data`, what `rnn_vad_process` says of it, and
whether `__s_linearaec` is there. -/
structure Engine where
  speexAec : Option (List UInt8 → List UInt8 → List UInt8)
  rnnVad : Option (List UInt8 → Bool)
  linearaec : Bool

/-- What `__tkl_aec_vad_process` is run on: the frames at the pointers it is
given. -/
structure Block where
  mic : List UInt8
  ref : List UInt8
  out : List UInt8
deriving DecidableEq, Repr

/-- `__tkl_aec_vad_process`: the flag afterwards. -/
def tklAecVadProcess (engine : Engine) (flag : VadStatus) (block : Block) : VadStatus :=
  match engine.speexAec, engine.rnnVad, engine.linearaec with
  | some aec, some vad, true =>
      let hasVad := vad (aec block.mic block.ref)
      if hasVad = true ∧ flag ≠ .speech then .speech
      else if hasVad = false ∧ flag ≠ .none_ then .none_
      else flag
  | _, _, _ => flag

/-! ## Accumulation buffers -/

/-- One of the arrays with its length. -/
structure Accumulator where
  data : Nat → UInt8
  len : UInt32

/-- The bytes that are buffered. -/
def Accumulator.contents (buffer : Accumulator) : List UInt8 :=
  bytesAt buffer.data buffer.len.toNat

/-- `memcpy` behind the buffered bytes, and the new length. -/
def Accumulator.append (buffer : Accumulator) (source : Nat → UInt8) (count : UInt32) :
    Accumulator :=
  ⟨fun index =>
      if buffer.len.toNat ≤ index ∧ index < buffer.len.toNat + count.toNat then
        source (index - buffer.len.toNat)
      else buffer.data index,
    buffer.len + count⟩

/-- `memmove` of what is behind the first frame to the front, and the new
length. -/
def Accumulator.dropFrame (buffer : Accumulator) : Accumulator :=
  ⟨fun index =>
      if index < (buffer.len - frameSize).toNat then buffer.data (index + frameSize.toNat)
      else buffer.data index,
    buffer.len - frameSize⟩

/-- The copies of an append and of a move that leave the array: none or one. -/
def Accumulator.appendOutside (buffer : Accumulator) (count : UInt32) : Nat :=
  if buffer.len.toNat + count.toNat ≤ ringBuffLen.toNat then 0 else 1

def Accumulator.dropOutside (buffer : Accumulator) : Nat :=
  if buffer.len.toNat ≤ ringBuffLen.toNat then 0 else 1

/-! ## Calls -/

structure Vad where
  mic : Accumulator
  ref : Accumulator
  out : Accumulator
  flag : VadStatus
  /-- The bytes of the calls that were not discarded. -/
  micStream : List UInt8
  refStream : List UInt8
  blocks : List Block
  /-- The number of copies that left their array. -/
  outside : Nat

/-- The static variables at the start of the program. -/
def Vad.fresh : Vad :=
  ⟨⟨fun _ => 0, 0⟩, ⟨fun _ => 0, 0⟩, ⟨fun _ => 0, 0⟩, .none_, [], [], [], 0⟩

/-- The arguments of a call whose pointers are not `NULL`: the memory there and
the number of samples. -/
structure Chunk where
  micData : Nat → UInt8
  refData : Nat → UInt8
  outData : Nat → UInt8
  frames : UInt32

/-- `frames * 2`. -/
def Chunk.bytes (chunk : Chunk) : UInt32 := chunk.frames * 2

/-- There is room for the chunk in every buffer, as the source checks it. -/
def Vad.HasRoom (vad : Vad) (chunk : Chunk) : Prop :=
  ¬ (vad.mic.len + chunk.bytes > ringBuffLen ∨ vad.ref.len + chunk.bytes > ringBuffLen ∨
    vad.out.len + chunk.bytes > ringBuffLen)

instance (vad : Vad) (chunk : Chunk) : Decidable (vad.HasRoom chunk) :=
  inferInstanceAs (Decidable (¬ (_ ∨ _ ∨ _)))

/-- The call is neither refused nor discarded. -/
def Vad.Accepts (vad : Vad) (chunk : Chunk) : Prop := chunk.frames ≠ 0 ∧ vad.HasRoom chunk

instance (vad : Vad) (chunk : Chunk) : Decidable (vad.Accepts chunk) :=
  inferInstanceAs (Decidable (_ ∧ _))

/-- The chunk is appended to the three buffers. -/
def Vad.store (vad : Vad) (chunk : Chunk) : Vad :=
  { vad with
    mic := vad.mic.append chunk.micData chunk.bytes
    ref := vad.ref.append chunk.refData chunk.bytes
    out := vad.out.append chunk.outData chunk.bytes
    micStream := vad.micStream ++ bytesAt chunk.micData (2 * chunk.frames.toNat)
    refStream := vad.refStream ++ bytesAt chunk.refData (2 * chunk.frames.toNat)
    outside := vad.outside + vad.mic.appendOutside chunk.bytes +
      vad.ref.appendOutside chunk.bytes + vad.out.appendOutside chunk.bytes }

/-- A frame is taken from the front of the three buffers. -/
def Vad.shift (vad : Vad) : Vad :=
  { vad with
    mic := vad.mic.dropFrame
    ref := vad.ref.dropFrame
    out := vad.out.dropFrame
    outside := vad.outside + vad.mic.dropOutside + vad.ref.dropOutside + vad.out.dropOutside }

/-- `__tkl_aec_vad_process` is run on a block. -/
def Vad.detect (engine : Engine) (vad : Vad) (block : Block) : Vad :=
  { vad with
    flag := tklAecVadProcess engine vad.flag block
    blocks := vad.blocks ++ [block] }

/-- The frames at the pointers of a call. -/
def Chunk.block (chunk : Chunk) : Block :=
  ⟨bytesAt chunk.micData frameSize.toNat, bytesAt chunk.refData frameSize.toNat,
    bytesAt chunk.outData frameSize.toNat⟩

/-- `__tkl_vad_process`; the chunk is missing when a pointer is `NULL`. -/
def tklVadProcess (engine : Engine) (vad : Vad) (chunk : Option Chunk) : Vad :=
  match chunk with
  | none => vad
  | some chunk =>
      if chunk.frames = 0 then vad
      else if vad.HasRoom chunk then
        let stored := vad.store chunk
        if stored.ref.len > frameSize then
          -- The source hands on the pointers of the call, not the buffers.
          (stored.detect engine chunk.block).shift
        else stored
      else vad

def step (engine : Engine) (vad : Vad) (chunk : Option Chunk) : Option Vad :=
  some (tklVadProcess engine vad chunk)

/-- A detector that is not initialized. -/
def Engine.off : Engine := ⟨none, none, false⟩

/-- So many samples of one byte value. -/
def tone (value : UInt8) (frames : UInt32) : Option Chunk :=
  some ⟨fun _ => value, fun _ => value, fun _ => value, frames⟩

/-! ## What a call can do -/

/-- The bytes of a chunk that is no larger than the arrays. -/
theorem bytes_eq {chunk : Chunk} (small : 2 * chunk.frames.toNat ≤ ringBuffLen.toNat) :
    chunk.bytes.toNat = 2 * chunk.frames.toNat := by
  have size : ringBuffLen.toNat = 16000 := rfl
  have two : (2 : UInt32).toNat = 2 := rfl
  unfold Chunk.bytes
  rw [UInt32.toNat_mul, two, Nat.mod_eq_of_lt (by omega)]
  omega

/-- A call does nothing, or it stores its chunk, or it stores it and hands on a
block. -/
theorem process_cases (engine : Engine) (vad : Vad) (chunk : Option Chunk) :
    ((∀ given, chunk = some given → ¬ vad.Accepts given) ∧ tklVadProcess engine vad chunk = vad) ∨
    ∃ given, chunk = some given ∧ vad.Accepts given ∧
      (((vad.store given).ref.len ≤ frameSize ∧ tklVadProcess engine vad chunk = vad.store given) ∨
        (frameSize < (vad.store given).ref.len ∧ tklVadProcess engine vad chunk =
          ((vad.store given).detect engine given.block).shift)) := by
  cases chunk with
  | none => exact Or.inl ⟨by simp, rfl⟩
  | some given =>
      unfold tklVadProcess Vad.Accepts
      simp only
      by_cases empty : given.frames = 0
      · left
        simp [empty]
      · by_cases room : vad.HasRoom given
        · right
          refine ⟨given, rfl, ⟨empty, room⟩, ?_⟩
          rw [if_neg empty, if_pos room]
          by_cases isDue : (vad.store given).ref.len > frameSize
          · rw [if_pos isDue]
            exact Or.inr ⟨isDue, rfl⟩
          · rw [if_neg isDue]
            exact Or.inl ⟨UInt32.not_lt.mp isDue, rfl⟩
        · left
          simp [empty, room]

end TuyaAdapter.TklVad
