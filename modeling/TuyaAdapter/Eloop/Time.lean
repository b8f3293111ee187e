import TuyaAdapter.Eloop.Model

/-!
Contract: times of the clock in microseconds.

`struct os_time` compares, adds a delay and subtracts as the microseconds do, as
long as the seconds stay far from the end of a `long`.
-/

namespace TuyaAdapter.Eloop

/-- The time in microseconds. -/
def OsTime.due (time : OsTime) : Int := time.sec * 1000000 + time.usec

/-- The microseconds are less than a second. -/
def OsTime.Normal (time : OsTime) : Prop := 0 ≤ time.usec ∧ time.usec < 1000000

/-- The time is one that a `long` has the seconds of. -/
def OsTime.Fits (time : OsTime) : Prop :=
  time.Normal ∧ 0 ≤ time.due ∧ time.due < 2 ^ 63 * 1000000

/-- The clock is far from the end of a `long`. -/
def Sane (micros : Nat) : Prop := micros < 2 ^ 62 * 1000000

instance (micros : Nat) : Decidable (Sane micros) := inferInstanceAs (Decidable (_ < _))

theorem long_eq {value : Int} (above : -2 ^ 63 ≤ value) (below : value < 2 ^ 63) :
    long value = value := by
  unfold long
  apply Int.bmod_eq_of_le
  · omega
  · omega

theorem osTimeBefore_iff {a b : OsTime} (aNormal : a.Normal) (bNormal : b.Normal) :
    osTimeBefore a b = true ↔ a.due < b.due := by
  unfold osTimeBefore
  unfold OsTime.Normal at aNormal bNormal
  unfold OsTime.due
  simp only [Bool.or_eq_true, Bool.and_eq_true, decide_eq_true_eq]
  omega

theorem osGetTime_normal (micros : Nat) : (osGetTime micros).Normal := by
  unfold osGetTime OsTime.Normal
  simp only
  omega

theorem osGetTime_sec {micros : Nat} (sane : Sane micros) :
    (osGetTime micros).sec = (micros / 1000000 : Nat) := by
  unfold Sane at sane
  unfold osGetTime
  simp only
  apply long_eq
  · omega
  · omega

theorem osGetTime_due {micros : Nat} (sane : Sane micros) : (osGetTime micros).due = micros := by
  unfold OsTime.due
  rw [osGetTime_sec sane]
  unfold osGetTime
  simp only
  omega

/-- The loop ends below a second, and it moves what it takes. -/
theorem carry_due (turns : Nat) :
    ∀ (time : OsTime), 0 ≤ time.usec → time.usec < (turns + 1) * 1000000 →
      -2 ^ 63 ≤ time.sec → time.sec + turns < 2 ^ 63 →
      (OsTime.carry turns time).Normal ∧ (OsTime.carry turns time).due = time.due := by
  induction turns with
  | zero =>
      intro time positive small _ _
      have below : time.usec < 1000000 := by omega
      exact ⟨⟨positive, below⟩, rfl⟩
  | succ turns inductionHypothesis =>
      intro time positive small above below
      unfold OsTime.carry
      split
      · rename_i isSecond
        have isSec : long (time.sec + 1) = time.sec + 1 := long_eq (by omega) (by omega)
        rw [isSec]
        have ends := inductionHypothesis ⟨time.sec + 1, time.usec - 1000000⟩
          (by simp only; omega) (by simp only; omega) (by simp only; omega) (by simp only; omega)
        refine ⟨ends.1, ends.2.trans ?_⟩
        unfold OsTime.due
        simp only
        omega
      · rename_i notSecond
        exact ⟨⟨positive, not_le.mp notSecond⟩, rfl⟩

/-- A timeout is due when its delay is over. -/
theorem after_due {micros : Nat} {secs usecs : UInt32} {time : OsTime} (sane : Sane micros)
    (isTime : (osGetTime micros).after secs usecs = some time) :
    time.Fits ∧ time.due = micros + secs.toNat * 1000000 + usecs.toNat := by
  have isDue := osGetTime_due sane
  have isSec := osGetTime_sec sane
  have isNormal := osGetTime_normal micros
  have secsBelow := secs.toNat_lt
  have usecsBelow := usecs.toNat_lt
  unfold Sane at sane
  unfold OsTime.Normal at isNormal
  unfold OsTime.due at isDue
  unfold OsTime.after at isTime
  have isLong : long ((osGetTime micros).sec + secs.toNat) = (osGetTime micros).sec + secs.toNat :=
    long_eq (by omega) (by omega)
  simp only [isLong] at isTime
  split at isTime
  · cases isTime
  · rw [← Option.some.inj isTime]
    have ends := carry_due (((osGetTime micros).usec + usecs.toNat).toNat / 1000000)
      ⟨(osGetTime micros).sec + secs.toNat, (osGetTime micros).usec + usecs.toNat⟩
      (by simp only; omega) (by simp only; omega) (by simp only; omega) (by simp only; omega)
    have isDelayed := ends.2
    simp only [OsTime.due] at isDelayed
    refine ⟨⟨ends.1, ?_, ?_⟩, ?_⟩
    · unfold OsTime.due
      omega
    · unfold OsTime.due
      omega
    · unfold OsTime.due
      omega

/-- What is left until a time that the clock does not show yet. -/
theorem osTimeSub_due {time : OsTime} {micros : Nat} (fits : time.Fits) (sane : Sane micros)
    (isBefore : osTimeBefore (osGetTime micros) time = true) :
    (osTimeSub time (osGetTime micros)).Normal ∧
      (osTimeSub time (osGetTime micros)).due = time.due - micros := by
  have isDue := osGetTime_due sane
  have nowNormal := osGetTime_normal micros
  obtain ⟨isNormal, positive, small⟩ := fits
  have before := (osTimeBefore_iff nowNormal isNormal).mp isBefore
  unfold Sane at sane
  unfold OsTime.Normal at isNormal nowNormal
  unfold OsTime.due at isDue positive small before
  have isLong : long (time.sec - (osGetTime micros).sec) = time.sec - (osGetTime micros).sec := by
    apply long_eq
    · omega
    · omega
  unfold osTimeSub
  rw [isLong]
  simp only
  split
  · have isLess : long (time.sec - (osGetTime micros).sec - 1) =
        time.sec - (osGetTime micros).sec - 1 := by
      apply long_eq
      · omega
      · omega
    rw [isLess]
    unfold OsTime.Normal OsTime.due
    simp only
    omega
  · unfold OsTime.Normal OsTime.due
    simp only
    omega

end TuyaAdapter.Eloop
