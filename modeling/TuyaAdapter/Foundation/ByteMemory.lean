import Mathlib.Algebra.Order.Group.Nat
import Mathlib.Tactic.Ring

/-!
Owns a byte-addressed memory: bytes are written in runs, and a 64-bit word is
eight bytes with the least significant one at the lowest address. It also owns
the frame rules: a read is unchanged by a write to other addresses, and two
memories that agree on an extent give the same reads inside it.
-/

namespace TuyaAdapter.Foundation.ByteMemory

/-- A memory gives every address a byte. -/
abbrev Memory := Nat → UInt8

/-- Overwrite `count` bytes from `start` on; the byte at offset `i` of the run
becomes `byteAt i`. -/
def writeBytes (memory : Memory) (start count : Nat) (byteAt : Nat → UInt8) : Memory :=
  fun address =>
    if start ≤ address ∧ address < start + count then byteAt (address - start)
    else memory address

/-- Overwrite one byte. -/
def writeByte (memory : Memory) (address : Nat) (value : UInt8) : Memory :=
  writeBytes memory address 1 (fun _ => value)

/-- Byte `position` of a word, counted from the least significant. -/
def digit (value position : Nat) : UInt8 :=
  UInt8.ofNat (value / 256 ^ position)

/-- Overwrite a 64-bit word. -/
def writeWord (memory : Memory) (address value : Nat) : Memory :=
  writeBytes memory address 8 (digit value)

/-- The value of `count` bytes, least significant first. -/
def valueOf : Nat → (Nat → UInt8) → Nat
  | 0, _ => 0
  | count + 1, byteAt => (byteAt 0).toNat + 256 * valueOf count (fun i => byteAt (i + 1))

/-- The 64-bit word at an address. -/
def readWord (memory : Memory) (address : Nat) : Nat :=
  valueOf 8 (fun i => memory (address + i))

/-- Two memories agree on the addresses from `start` up to `stop`. -/
def AgreeOn (left right : Memory) (start stop : Nat) : Prop :=
  ∀ address, start ≤ address → address < stop → left address = right address

/-! ### Runs of bytes -/

theorem writeBytes_inside {memory : Memory} {start count address : Nat} {byteAt : Nat → UInt8}
    (lower : start ≤ address) (upper : address < start + count) :
    writeBytes memory start count byteAt address = byteAt (address - start) := by
  unfold writeBytes
  rw [if_pos ⟨lower, upper⟩]

theorem writeBytes_outside {memory : Memory} {start count address : Nat} {byteAt : Nat → UInt8}
    (outside : address < start ∨ start + count ≤ address) :
    writeBytes memory start count byteAt address = memory address := by
  unfold writeBytes
  rw [if_neg (by omega)]

@[simp] theorem writeByte_same (memory : Memory) (address : Nat) (value : UInt8) :
    writeByte memory address value address = value :=
  writeBytes_inside (le_refl address) (Nat.lt_succ_self address)

theorem writeByte_other {memory : Memory} {address other : Nat} {value : UInt8}
    (different : other ≠ address) :
    writeByte memory address value other = memory other :=
  writeBytes_outside (by omega)

theorem writeWord_other {memory : Memory} {address other value : Nat}
    (outside : other < address ∨ address + 8 ≤ other) :
    writeWord memory address value other = memory other :=
  writeBytes_outside outside

/-- The most significant byte of a word. -/
theorem writeWord_last (memory : Memory) (address value : Nat) :
    writeWord memory address value (address + 7) = digit value 7 := by
  unfold writeWord
  rw [writeBytes_inside (by omega) (by omega), Nat.add_sub_cancel_left]

/-! ### Words -/

theorem valueOf_congr {count : Nat} {left right : Nat → UInt8}
    (same : ∀ i, i < count → left i = right i) : valueOf count left = valueOf count right := by
  induction count generalizing left right with
  | zero => rfl
  | succ count inductionHypothesis =>
      simp only [valueOf]
      rw [same 0 (by omega), inductionHypothesis (fun i below => same (i + 1) (by omega))]

theorem valueOf_lt (count : Nat) (byteAt : Nat → UInt8) : valueOf count byteAt < 256 ^ count := by
  induction count generalizing byteAt with
  | zero => simp [valueOf]
  | succ count inductionHypothesis =>
      have tail := inductionHypothesis (fun i => byteAt (i + 1))
      have head := (byteAt 0).toNat_lt
      rw [pow_succ]
      simp only [valueOf]
      omega

theorem valueOf_digit (count value : Nat) : valueOf count (digit value) = value % 256 ^ count := by
  induction count generalizing value with
  | zero => simp [valueOf, Nat.mod_one]
  | succ count inductionHypothesis =>
      have shift : (fun i => digit value (i + 1)) = digit (value / 256) := by
        funext i
        simp only [digit]
        rw [pow_succ, Nat.mul_comm, Nat.div_div_eq_div_mul]
      simp only [valueOf]
      rw [shift, inductionHypothesis (value / 256), pow_succ, Nat.mul_comm (256 ^ count) 256,
        Nat.mod_mul]
      simp [digit]

/-- The digits of a value built from bytes are the bytes. -/
theorem digit_valueOf {count position : Nat} (byteAt : Nat → UInt8) (below : position < count) :
    digit (valueOf count byteAt) position = byteAt position := by
  induction count generalizing byteAt position with
  | zero => omega
  | succ count inductionHypothesis =>
      have head := (byteAt 0).toNat_lt
      simp only [valueOf]
      cases position with
      | zero =>
          unfold digit
          rw [pow_zero, Nat.div_one]
          apply UInt8.toNat_inj.mp
          rw [UInt8.toNat_ofNat']
          omega
      | succ position =>
          have tail := inductionHypothesis (fun i => byteAt (i + 1)) (by omega : position < count)
          have shifted : ((byteAt 0).toNat + 256 * valueOf count fun i => byteAt (i + 1)) / 256 =
              valueOf count fun i => byteAt (i + 1) := by
            omega
          rw [← tail]
          unfold digit
          rw [pow_succ', ← Nat.div_div_eq_div_mul, shifted]

theorem readWord_lt (memory : Memory) (address : Nat) : readWord memory address < 2 ^ 64 :=
  valueOf_lt 8 _

/-- Reading back a value that was just written gives its word. -/
theorem readWord_writeWord_mod (memory : Memory) (address value : Nat) :
    readWord (writeWord memory address value) address = value % 2 ^ 64 := by
  have bytes : ∀ i, i < 8 → writeWord memory address value (address + i) = digit value i := by
    intro i below
    unfold writeWord
    rw [writeBytes_inside (by omega) (by omega), Nat.add_sub_cancel_left]
  unfold readWord
  exact (valueOf_congr bytes).trans (valueOf_digit 8 value)

theorem readWord_writeWord {memory : Memory} {address value : Nat} (fits : value < 2 ^ 64) :
    readWord (writeWord memory address value) address = value := by
  rw [readWord_writeWord_mod, Nat.mod_eq_of_lt fits]

/-- A word read depends only on its eight bytes. -/
theorem readWord_congr {left right : Memory} {address : Nat}
    (agree : AgreeOn left right address (address + 8)) :
    readWord left address = readWord right address :=
  valueOf_congr fun i below => agree (address + i) (by omega) (by omega)

theorem readWord_writeBytes {memory : Memory} {start count address : Nat} {byteAt : Nat → UInt8}
    (disjoint : address + 8 ≤ start ∨ start + count ≤ address) :
    readWord (writeBytes memory start count byteAt) address = readWord memory address :=
  readWord_congr fun other lower upper => writeBytes_outside (by omega)

theorem readWord_writeWord_other {memory : Memory} {written address value : Nat}
    (disjoint : address + 8 ≤ written ∨ written + 8 ≤ address) :
    readWord (writeWord memory written value) address = readWord memory address :=
  readWord_writeBytes disjoint

theorem readWord_writeByte {memory : Memory} {written address : Nat} {value : UInt8}
    (disjoint : address + 8 ≤ written ∨ written + 1 ≤ address) :
    readWord (writeByte memory written value) address = readWord memory address :=
  readWord_writeBytes disjoint

/-- A word below `2 ^ 56` has a zero most significant byte. -/
theorem digit_seven_of_small {value : Nat} (small : value < 2 ^ 56) : digit value 7 = 0 := by
  unfold digit
  rw [Nat.div_eq_of_lt (by omega)]
  rfl

/-- The last byte of a word below `2 ^ 56` is zero. -/
theorem last_of_small_word {memory : Memory} {address : Nat}
    (small : readWord memory address < 2 ^ 56) : memory (address + 7) = 0 := by
  rw [← digit_seven_of_small small]
  exact (digit_valueOf (fun i => memory (address + i)) (by omega)).symm

/-! ### Agreement -/

theorem AgreeOn.mono {left right : Memory} {start stop start' stop' : Nat}
    (agree : AgreeOn left right start stop) (lower : start ≤ start') (upper : stop' ≤ stop) :
    AgreeOn left right start' stop' :=
  fun address above below => agree address (lower.trans above) (lt_of_lt_of_le below upper)

theorem AgreeOn.trans {first second third : Memory} {start stop : Nat}
    (left : AgreeOn first second start stop) (right : AgreeOn second third start stop) :
    AgreeOn first third start stop :=
  fun address above below => (left address above below).trans (right address above below)

end TuyaAdapter.Foundation.ByteMemory
