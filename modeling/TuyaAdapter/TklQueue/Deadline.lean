import TuyaAdapter.TklQueue.Model
import Mathlib.Algebra.Order.Group.Nat

/-!
Contract: the absolute deadlines of timed waits.

`set_timeout` of `tkl_queue.c` works on whole milliseconds and on a timeout that
was narrowed to `int`. It always names the time that is `wait_ms` milliseconds
after the current millisecond, but it names it badly when the milliseconds add
up to exactly one second, and the narrowed timeout is negative from `2 ^ 31` on.
`tkl_semaphore_wait` computes its deadline for the same timeout without either
fault.
-/

namespace TuyaAdapter.TklQueue

/-! ## The two computations -/

/-- `struct timespec`. -/
structure Timespec where
  sec : Int
  nsec : Int
deriving DecidableEq, Repr

/-- The conversion of `timeout` to `wait_ms` in `tkl_queue_post` and
`tkl_queue_fetch`; `-1` is `RPA_WAIT_FOREVER`. -/
def waitMs (timeout : UInt32) : Int32 :=
  if timeout = 0xFFFFFFFF then -1 else timeout.toInt32

/-- The `while` loop of `set_timeout`: the seconds and the milliseconds. -/
def carryLoop (sec ms : Int) : Int × Int :=
  if 1000 < ms then carryLoop (sec + 1) (ms - 1000) else (sec, ms)
termination_by ms.toNat
decreasing_by omega

/-- `set_timeout`; `now` is the answer of `clock_gettime`. The divisions of C
truncate toward zero. -/
def setTimeout (now : Timespec) (waitMs : Int32) : Timespec :=
  let sec := now.sec + waitMs.toInt.tdiv 1000
  let ms := now.nsec.tdiv 1000000 + waitMs.toInt.tmod 1000
  let carried := carryLoop sec ms
  ⟨carried.1, carried.2 * 1000000⟩

/-- The deadline of `tkl_semaphore_wait`. -/
def semaphoreDeadline (now : Timespec) (timeout : UInt32) : Timespec :=
  let sec := now.sec + (timeout / 1000).toNat
  let nsec := now.nsec + (timeout % 1000 * 1000000).toNat
  if 1000000000 ≤ nsec then ⟨sec + nsec.tdiv 1000000000, nsec.tmod 1000000000⟩ else ⟨sec, nsec⟩

/-! ## What they compute -/

/-- The time in nanoseconds. -/
def Timespec.nanos (time : Timespec) : Int := time.sec * 1000000000 + time.nsec

/-- What `clock_gettime` answers and `pthread_cond_timedwait` accepts. -/
def Timespec.Valid (time : Timespec) : Prop := 0 ≤ time.nsec ∧ time.nsec < 1000000000

instance (time : Timespec) : Decidable time.Valid := inferInstanceAs (Decidable (_ ∧ _))

/-- The time rounded down to the millisecond. -/
def Timespec.floorMs (time : Timespec) : Int :=
  time.sec * 1000000000 + time.nsec / 1000000 * 1000000

/-- The steps of the queue classify a timeout as the source classifies
`wait_ms`. -/
theorem waitOf_eq (timeout : UInt32) :
    waitOf timeout =
      if waitMs timeout = -1 then .forever else if waitMs timeout = 0 then .none else .timed := by
  unfold waitOf waitMs
  by_cases isForever : timeout = 0xFFFFFFFF
  · rw [if_pos isForever, if_pos isForever, if_pos rfl]
  · have notForever : timeout.toInt32 ≠ -1 := by
      intro same
      apply isForever
      rw [← timeout.toUInt32_toInt32, same]
      rfl
    have isNone : timeout = 0 ↔ timeout.toInt32 = 0 := by
      constructor
      · intro isZero
        rw [isZero]
        rfl
      · intro isZero
        rw [← timeout.toUInt32_toInt32, isZero]
        rfl
    simp only [if_neg isForever, if_neg notForever, isNone]

/-- The narrowing keeps the timeouts below `2 ^ 31` and makes the others
negative. -/
theorem waitMs_toInt {timeout : UInt32} (notForever : timeout ≠ 0xFFFFFFFF) :
    (waitMs timeout).toInt =
      if timeout.toNat < 2 ^ 31 then (timeout.toNat : Int)
      else timeout.toNat - ((2 ^ 32 : Nat) : Int) := by
  rw [waitMs, if_neg notForever]
  have narrowed : timeout.toInt32.toInt = if 2 * timeout.toNat < 2 ^ 32 then
      (timeout.toNat : Int) else timeout.toNat - ((2 ^ 32 : Nat) : Int) :=
    BitVec.toInt_eq_toNat_cond timeout.toBitVec
  rw [narrowed]
  by_cases small : timeout.toNat < 2 ^ 31
  · rw [if_pos (by omega), if_pos small]
  · rw [if_neg (by omega), if_neg small]

theorem carryLoop_of_le {sec ms : Int} (done : ms ≤ 1000) : carryLoop sec ms = (sec, ms) := by
  rw [carryLoop, if_neg (by omega)]

theorem carryLoop_keeps (sec ms : Int) :
    (carryLoop sec ms).1 * 1000 + (carryLoop sec ms).2 = sec * 1000 + ms := by
  fun_induction carryLoop sec ms with
  | case1 sec ms more inductionHypothesis => omega
  | case2 sec ms done => rfl

/-- The loop carries no second out of exactly one thousand milliseconds. -/
theorem carryLoop_ms (sec ms : Int) :
    (carryLoop sec ms).2 ≤ 1000 ∧
      ((carryLoop sec ms).2 = ms ∧ ms ≤ 1000 ∨ 0 < (carryLoop sec ms).2 ∧ 1000 < ms) := by
  fun_induction carryLoop sec ms with
  | case1 sec ms more inductionHypothesis => omega
  | case2 sec ms done => omega

/-- `set_timeout` always names the time `wait_ms` milliseconds after the current
millisecond. -/
theorem setTimeout_nanos {now : Timespec} (valid : now.Valid) (waitMs : Int32) :
    (setTimeout now waitMs).nanos = now.floorMs + waitMs.toInt * 1000000 := by
  have kept := carryLoop_keeps (now.sec + waitMs.toInt.tdiv 1000)
    (now.nsec.tdiv 1000000 + waitMs.toInt.tmod 1000)
  have parts := Int.mul_tdiv_add_tmod waitMs.toInt 1000
  have whole : now.nsec.tdiv 1000000 = now.nsec / 1000000 :=
    Int.tdiv_eq_ediv_of_nonneg valid.1
  unfold Timespec.nanos Timespec.floorMs setTimeout
  dsimp only
  rw [whole] at kept ⊢
  omega

/-- For a timeout below `2 ^ 31` the fields are in range unless the milliseconds
add up to exactly one second. -/
theorem setTimeout_valid_iff {now : Timespec} (valid : now.Valid) {timeout : UInt32}
    (small : timeout.toNat < 2 ^ 31) :
    (setTimeout now (waitMs timeout)).Valid ↔
      now.nsec / 1000000 + (timeout.toNat % 1000 : Nat) ≠ 1000 := by
  obtain ⟨nonnegative, below⟩ := valid
  have notForever : timeout ≠ 0xFFFFFFFF := by
    intro isForever
    rw [isForever] at small
    exact absurd small (by decide)
  have wait := waitMs_toInt notForever
  rw [if_pos small] at wait
  have whole : now.nsec.tdiv 1000000 = now.nsec / 1000000 :=
    Int.tdiv_eq_ediv_of_nonneg nonnegative
  have part : (waitMs timeout).toInt.tmod 1000 = (timeout.toNat % 1000 : Nat) := by
    rw [wait, Int.tmod_eq_emod_of_nonneg (by omega)]
    rfl
  have kept := carryLoop_keeps (now.sec + (waitMs timeout).toInt.tdiv 1000)
    (now.nsec / 1000000 + (timeout.toNat % 1000 : Nat))
  have bounds := carryLoop_ms (now.sec + (waitMs timeout).toInt.tdiv 1000)
    (now.nsec / 1000000 + (timeout.toNat % 1000 : Nat))
  unfold Timespec.Valid setTimeout
  dsimp only
  rw [whole, part]
  omega

/-- The deadline of the semaphore is valid and exact. -/
theorem semaphoreDeadline_exact {now : Timespec} (valid : now.Valid) (timeout : UInt32) :
    (semaphoreDeadline now timeout).Valid ∧
      (semaphoreDeadline now timeout).nanos = now.nanos + timeout.toNat * 1000000 := by
  obtain ⟨nonnegative, below⟩ := valid
  have small := timeout.toNat_lt
  have seconds : (timeout / 1000).toNat = timeout.toNat / 1000 := by
    rw [UInt32.toNat_div]
    rfl
  have rest : (timeout % 1000 * 1000000).toNat = timeout.toNat % 1000 * 1000000 := by
    rw [UInt32.toNat_mul, UInt32.toNat_mod]
    show timeout.toNat % 1000 * 1000000 % 2 ^ 32 = _
    omega
  unfold semaphoreDeadline Timespec.Valid Timespec.nanos
  rw [seconds, rest]
  dsimp only
  split
  · rename_i carries
    dsimp only
    rw [Int.tdiv_eq_ediv_of_nonneg (by omega), Int.tmod_eq_emod_of_nonneg (by omega)]
    omega
  · dsimp only
    omega

/-! ## Deadlines of the queue -/

/-- The deadline of a timed wait: its fields are in range, it is not before the
current millisecond plus the timeout and not after the current time plus the
timeout, and it is less than a millisecond from the deadline of the
semaphore. -/
def DeadlineMeets (now : Timespec) (timeout : UInt32) : Prop :=
  let deadline := setTimeout now (waitMs timeout)
  deadline.Valid ∧
    now.floorMs + timeout.toNat * 1000000 ≤ deadline.nanos ∧
    deadline.nanos ≤ now.nanos + timeout.toNat * 1000000 ∧
    deadline.nanos ≤ (semaphoreDeadline now timeout).nanos ∧
    (semaphoreDeadline now timeout).nanos < deadline.nanos + 1000000

/-- The timeout fits an `int`, and its milliseconds and those of the current time
do not add up to exactly one second. -/
def CarriesRight (now : Timespec) (timeout : UInt32) : Prop :=
  timeout.toNat < 2 ^ 31 ∧ now.nsec / 1000000 + (timeout.toNat % 1000 : Nat) ≠ 1000

instance (now : Timespec) (timeout : UInt32) : Decidable (CarriesRight now timeout) :=
  inferInstanceAs (Decidable (_ ∧ _))

/-- For every current time and every timeout but the one that waits forever, the
deadline is right exactly when the timeout fits an `int` and the milliseconds do
not add up to exactly one second. -/
theorem setTimeout_correct_iff_carriesRight {now : Timespec} (valid : now.Valid)
    {timeout : UInt32} (notForever : timeout ≠ 0xFFFFFFFF) :
    DeadlineMeets now timeout ↔ CarriesRight now timeout := by
  have named := setTimeout_nanos valid (waitMs timeout)
  have wait := waitMs_toInt notForever
  have small := timeout.toNat_lt
  have semaphore := (semaphoreDeadline_exact valid timeout).2
  have rounded : now.floorMs ≤ now.nanos ∧ now.nanos < now.floorMs + 1000000 := by
    unfold Timespec.floorMs Timespec.nanos
    omega
  unfold DeadlineMeets CarriesRight
  dsimp only
  constructor
  · intro meets
    obtain ⟨isValid, notEarlier, -⟩ := meets
    have fits : timeout.toNat < 2 ^ 31 := by
      by_contra large
      rw [if_neg large] at wait
      omega
    exact ⟨fits, (setTimeout_valid_iff valid fits).mp isValid⟩
  · intro carries
    obtain ⟨fits, notThousand⟩ := carries
    rw [if_pos fits] at wait
    refine ⟨(setTimeout_valid_iff valid fits).mpr notThousand, ?_, ?_, ?_, ?_⟩
    · omega
    · omega
    · omega
    · omega

theorem setTimeout_correct_quarterSecond :
    DeadlineMeets ⟨1700000000, 999999999⟩ 1250 :=
  (setTimeout_correct_iff_carriesRight (by decide) (by decide)).mpr (by decide)

/-- Half a second after half a second past, the nanoseconds are a whole second;
and a timeout of `2 ^ 31` milliseconds ends before it begins. -/
theorem setTimeout_wrong_at_exact_carry :
    setTimeout ⟨1700000000, 500000000⟩ (waitMs 500) = ⟨1700000000, 1000000000⟩ ∧
      ¬ DeadlineMeets ⟨1700000000, 500000000⟩ 500 ∧
      (setTimeout ⟨1700000000, 0⟩ (waitMs 2147483648)).nanos <
        Timespec.nanos ⟨1700000000, 0⟩ ∧
      ¬ DeadlineMeets ⟨1700000000, 0⟩ 2147483648 := by
  refine ⟨?_, ?_, ?_, ?_⟩
  · have ms : (waitMs 500).toInt = 500 := by decide
    unfold setTimeout
    dsimp only
    rw [ms, carryLoop_of_le (show Int.tdiv 500000000 1000000 + Int.tmod 500 1000 ≤ 1000 by decide)]
    rfl
  · rw [setTimeout_correct_iff_carriesRight (by decide) (by decide)]
    decide
  · rw [setTimeout_nanos (by decide)]
    decide
  · rw [setTimeout_correct_iff_carriesRight (by decide) (by decide)]
    decide

end TuyaAdapter.TklQueue
