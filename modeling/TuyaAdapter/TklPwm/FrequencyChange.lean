import TuyaAdapter.TklPwm.Mirror

/-!
Contract: which changes of frequency go through.

`tkl_pwm_frequency_set` writes the new period before the new duty, so the
period meets the duty of the old configuration in the kernel. Lowering the
frequency always goes through; raising it only down to a period that still
holds the old duty.
-/

namespace TuyaAdapter.TklPwm

open Foundation.Run

/-! ## Legal changes -/

/-- An initialised channel whose period and duty are the configured ones. -/
structure Configured (ctx : PwmCtx) (hardware : Hardware) : Prop where
  inited : ctx.inited = true
  period : hardware.period = periodNsFromFrequency ctx.cfg.frequency
  dutyCycle : hardware.dutyCycle = min (periodNsFromFrequency ctx.cfg.frequency)
    (dutyNsFromCfg (periodNsFromFrequency ctx.cfg.frequency) ctx.cfg)

/-- A frequency with a period of at least one nanosecond. -/
def LegalFrequency (frequency : UInt32) : Prop :=
  1 ≤ frequency.toNat ∧ frequency.toNat ≤ 1000000000

instance (frequency : UInt32) : Decidable (LegalFrequency frequency) :=
  inferInstanceAs (Decidable (_ ∧ _))

/-- What a change of frequency is to leave: the new period, the duty of the new
configuration and the output as it was. -/
structure FrequencyChanged (ctx : PwmCtx) (hardware : Hardware) (frequency : UInt32)
    (result : Machine × OperateRet) : Prop where
  ok : result.2 = .ok
  period : result.1.hardware.period = 1000000000 / frequency.toNat
  dutyCycle : result.1.hardware.dutyCycle = min (1000000000 / frequency.toNat)
    (dutyNsFromCfg (1000000000 / frequency.toNat) { ctx.cfg with frequency := frequency })
  enable : result.1.hardware.enable = hardware.enable

theorem LegalFrequency.ne_zero {frequency : UInt32} (legal : LegalFrequency frequency) :
    frequency ≠ 0 := by
  intro zero
  have positive := legal.1
  rw [zero] at positive
  exact absurd positive (by decide)

theorem periodNsFromFrequency_of_ne_zero {frequency : UInt32} (notZero : frequency ≠ 0) :
    periodNsFromFrequency frequency = 1000000000 / frequency.toNat :=
  if_neg notZero

/-- The kernel's rule on a legal period is about the duty alone. -/
theorem LegalFrequency.periodFits_iff {frequency : UInt32} (legal : LegalFrequency frequency)
    (hardware : Hardware) :
    PeriodFits hardware frequency ↔ hardware.dutyCycle ≤ 1000000000 / frequency.toNat := by
  unfold PeriodFits
  rw [periodNsFromFrequency_of_ne_zero legal.ne_zero]
  have positive : 0 < 1000000000 / frequency.toNat := Nat.div_pos legal.2 legal.1
  exact ⟨fun fits => fits.2, fun below => ⟨Nat.ne_of_gt positive, below⟩⟩

/-! ## The call -/

/-- For any duty in the hardware: the new period has to hold it, and the record
has to know whether the output is on. -/
theorem tklPwmFrequencySet_changed_iff {refusals : Refusals}
    (unrefused : ∀ number write, refusals number write = none) {ctx : PwmCtx}
    (inited : ctx.inited = true) (hardware : Hardware) (writes : Nat) {frequency : UInt32}
    (legal : LegalFrequency frequency) :
    FrequencyChanged ctx hardware frequency
        (tklPwmFrequencySet refusals ⟨ctx, hardware, writes⟩ frequency) ↔
      hardware.dutyCycle ≤ 1000000000 / frequency.toNat ∧ ctx.enabled = hardware.enable := by
  rw [← legal.periodFits_iff]
  by_cases fits : PeriodFits hardware frequency
  · obtain ⟨number, done⟩ :=
      tklPwmFrequencySet_accepted unrefused ctx hardware writes inited fits
    rw [done]
    have newPeriod := periodNsFromFrequency_of_ne_zero legal.ne_zero
    constructor
    · intro changed
      exact ⟨fits, changed.enable⟩
    · intro holds
      refine ⟨rfl, newPeriod, ?_, holds.2⟩
      rw [← newPeriod]
      exact cappedDutyNs_eq_min { ctx.cfg with frequency := frequency }
  · obtain ⟨number, done⟩ :=
      tklPwmFrequencySet_rejected unrefused ctx hardware writes inited legal.ne_zero fits
    rw [done]
    constructor
    · intro changed
      have succeeded : OperateRet.invalidParm = .ok := changed.ok
      exact absurd succeeded (by decide)
    · intro holds
      exact absurd holds.1 fits

theorem Configured.duty_fits_lower {ctx : PwmCtx} {hardware : Hardware}
    (configured : Configured ctx hardware) {frequency : UInt32} (legal : LegalFrequency frequency)
    (lower : frequency ≤ ctx.cfg.frequency) :
    hardware.dutyCycle ≤ 1000000000 / frequency.toNat := by
  have oldNotZero : ctx.cfg.frequency ≠ 0 := by
    intro zero
    rw [zero] at lower
    exact legal.ne_zero (UInt32.le_antisymm lower (UInt32.zero_le))
  calc hardware.dutyCycle
      ≤ periodNsFromFrequency ctx.cfg.frequency := by
        rw [configured.dutyCycle]
        exact Nat.min_le_left _ _
    _ = 1000000000 / ctx.cfg.frequency.toNat := periodNsFromFrequency_of_ne_zero oldNotZero
    _ ≤ 1000000000 / frequency.toNat :=
        Nat.div_le_div_left (UInt32.le_iff_toNat_le.mp lower) legal.1

/-- Lowering the frequency always goes through. -/
theorem tklPwmFrequencySet_lower {refusals : Refusals}
    (unrefused : ∀ number write, refusals number write = none) {ctx : PwmCtx}
    {hardware : Hardware} (configured : Configured ctx hardware)
    (known : ctx.enabled = hardware.enable) (writes : Nat) {frequency : UInt32}
    (legal : LegalFrequency frequency) (lower : frequency ≤ ctx.cfg.frequency) :
    FrequencyChanged ctx hardware frequency
      (tklPwmFrequencySet refusals ⟨ctx, hardware, writes⟩ frequency) := by
  have fits := configured.duty_fits_lower legal lower
  exact (tklPwmFrequencySet_changed_iff unrefused configured.inited hardware writes legal).mpr
    ⟨fits, known⟩

/-- A channel takes a legal frequency if and only if the new period holds the
duty of its present configuration and the record knows whether the output is
on. -/
theorem frequencyChange_correct_iff_duty_fits {system : System} {chId : Nat}
    (valid : chId < pwmNumMax)
    (configured : Configured (system.ctx chId) (system.hardware chId)) {frequency : UInt32}
    (legal : LegalFrequency frequency) :
    FrequencyChanged (system.ctx chId) (system.hardware chId) frequency
        (system.perform ⟨chId, .frequencySet frequency, noRefusals⟩) ↔
      cappedDutyNs (system.ctx chId).cfg ≤ 1000000000 / frequency.toNat ∧
        (system.ctx chId).enabled = (system.hardware chId).enable := by
  have present : (system.hardware chId).dutyCycle = cappedDutyNs (system.ctx chId).cfg := by
    rw [configured.dutyCycle, cappedDutyNs_eq_min]
  have onChannel : system.perform ⟨chId, .frequencySet frequency, noRefusals⟩ =
      tklPwmFrequencySet noRefusals ⟨system.ctx chId, system.hardware chId, 0⟩ frequency :=
    if_pos valid
  rw [onChannel, ← present]
  exact tklPwmFrequencySet_changed_iff (fun _ _ => rfl) configured.inited _ 0 legal

/-- A running channel of 1 kHz with half duty. -/
def halfDuty : List Action :=
  [⟨0, .init (some ⟨.positive, .up, 5000, 10000, 1000⟩) none, noRefusals⟩,
    ⟨0, .start, noRefusals⟩]

/-- The period of 1999 Hz still holds the duty of 500000 ns. -/
theorem frequencyChange_correct_to_1999 :
    ∃ system, run step (System.initial blankHardware) halfDuty = some system ∧
      FrequencyChanged (system.ctx 0) (system.hardware 0) 1999
        (system.perform ⟨0, .frequencySet 1999, noRefusals⟩) := by
  refine ⟨_, rfl, ?_⟩
  apply (frequencyChange_correct_iff_duty_fits ?_ ?_ ?_).mpr
  · decide +kernel
  · decide
  · exact ⟨rfl, rfl, rfl⟩
  · decide

/-- The period of 2001 Hz does not. -/
theorem frequencyChange_fails_to_2001 :
    ∃ system, run step (System.initial blankHardware) halfDuty = some system ∧
      Configured (system.ctx 0) (system.hardware 0) ∧
      (system.ctx 0).enabled = (system.hardware 0).enable ∧ LegalFrequency 2001 ∧
      ¬ FrequencyChanged (system.ctx 0) (system.hardware 0) 2001
        (system.perform ⟨0, .frequencySet 2001, noRefusals⟩) := by
  refine ⟨_, rfl, ⟨rfl, rfl, rfl⟩, rfl, by decide, ?_⟩
  intro changed
  have succeeded := changed.ok
  exact absurd succeeded (by decide)

end TuyaAdapter.TklPwm
