import TuyaAdapter.TklPwm.Model

/-!
Contract: the two scales of `duty_ns_from_cfg`.

A duty up to the configured cycle is a share of the cycle, a duty above it (or
any duty without a cycle) is a share of `TUYA_PWM_DUTY_SCALE`. Inside one scale
a larger duty never gives a shorter pulse; across the switch this depends on
the cycle. The arithmetic of the source is `dutyNsWord`, in the 64-bit type it
uses, and agrees with the exact one.
-/

namespace TuyaAdapter.TklPwm

/-! ## The arithmetic of the source -/

/-- `duty_ns_from_cfg` in `uint64_t`. -/
def dutyNsWord (periodNs : UInt64) (cfg : BaseCfg) : UInt64 :=
  if periodNs = 0 then 0
  else if cfg.cycle ≠ 0 ∧ cfg.duty ≤ cfg.cycle then
    periodNs * cfg.duty.toUInt64 / cfg.cycle.toUInt64
  else
    let duty : UInt32 := if 10000 < cfg.duty then 10000 else cfg.duty
    periodNs * duty.toUInt64 / 10000

theorem periodNsFromFrequency_le (frequency : UInt32) :
    periodNsFromFrequency frequency ≤ 1000000000 := by
  unfold periodNsFromFrequency
  split
  · exact Nat.zero_le _
  · exact Nat.div_le_self _ _

/-- A 64-bit product of a period and a 32-bit factor is the exact one. -/
theorem toNat_mul_of_period {periodNs : UInt64} (periodSmall : periodNs.toNat ≤ 1000000000)
    (factor : UInt32) :
    (periodNs * factor.toUInt64).toNat = periodNs.toNat * factor.toNat := by
  have factorSmall := factor.toNat_lt
  rw [UInt64.toNat_mul, UInt32.toNat_toUInt64]
  apply Nat.mod_eq_of_lt
  calc periodNs.toNat * factor.toNat
      ≤ 1000000000 * 2 ^ 32 := Nat.mul_le_mul periodSmall (Nat.le_of_lt factorSmall)
    _ < 2 ^ 64 := by decide

/-- The duty of the fallback, cut off at the scale. -/
theorem toNat_cappedDuty (duty : UInt32) :
    (if 10000 < duty then 10000 else duty).toNat
      = if dutyScale < duty.toNat then dutyScale else duty.toNat := by
  have compared : 10000 < duty ↔ dutyScale < duty.toNat := UInt32.lt_iff_toNat_lt
  by_cases above : 10000 < duty
  · rw [if_pos above, if_pos (compared.mp above)]
    rfl
  · rw [if_neg above, if_neg (fun beyond => above (compared.mpr beyond))]

/-- On a period of at most a second the machine arithmetic is exact. -/
theorem toNat_dutyNsWord {periodNs : UInt64} (periodSmall : periodNs.toNat ≤ 1000000000)
    (cfg : BaseCfg) : (dutyNsWord periodNs cfg).toNat = dutyNsFromCfg periodNs.toNat cfg := by
  have zeroIff : periodNs = 0 ↔ periodNs.toNat = 0 := by
    rw [← UInt64.toNat_inj]
    rfl
  unfold dutyNsWord dutyNsFromCfg
  by_cases zero : periodNs = 0
  · rw [if_pos zero, if_pos (zeroIff.mp zero)]
    rfl
  · rw [if_neg zero, if_neg (fun noPeriod => zero (zeroIff.mpr noPeriod))]
    by_cases onCycle : cfg.cycle ≠ 0 ∧ cfg.duty ≤ cfg.cycle
    · rw [if_pos onCycle, if_pos onCycle, UInt64.toNat_div, toNat_mul_of_period periodSmall,
        UInt32.toNat_toUInt64]
    · rw [if_neg onCycle, if_neg onCycle]
      simp only
      rw [UInt64.toNat_div, toNat_mul_of_period periodSmall, toNat_cappedDuty]
      rfl

/-! ## The scale a duty is measured on -/

/-- The duty `duty` in the configuration `cfg`, as `tkl_pwm_duty_set` stores it. -/
def BaseCfg.withDuty (cfg : BaseCfg) (duty : UInt32) : BaseCfg := { cfg with duty := duty }

@[simp] theorem BaseCfg.withDuty_duty (cfg : BaseCfg) (duty : UInt32) :
    (cfg.withDuty duty).duty = duty := rfl

@[simp] theorem BaseCfg.withDuty_cycle (cfg : BaseCfg) (duty : UInt32) :
    (cfg.withDuty duty).cycle = cfg.cycle := rfl

/-- The duty is a share of the cycle. -/
def OnCycleScale (cfg : BaseCfg) (duty : UInt32) : Prop :=
  cfg.cycle ≠ 0 ∧ duty ≤ cfg.cycle

instance (cfg : BaseCfg) (duty : UInt32) : Decidable (OnCycleScale cfg duty) :=
  inferInstanceAs (Decidable (_ ∧ _))

theorem dutyNsFromCfg_onCycle {cfg : BaseCfg} {duty : UInt32} (onCycle : OnCycleScale cfg duty)
    (periodNs : Nat) :
    dutyNsFromCfg periodNs (cfg.withDuty duty) = periodNs * duty.toNat / cfg.cycle.toNat := by
  unfold dutyNsFromCfg
  by_cases zero : periodNs = 0
  · rw [if_pos zero, zero, Nat.zero_mul, Nat.zero_div]
  · rw [if_neg zero]
    exact if_pos onCycle

theorem dutyNsFromCfg_onFixed {cfg : BaseCfg} {duty : UInt32} (onFixed : ¬ OnCycleScale cfg duty)
    (periodNs : Nat) :
    dutyNsFromCfg periodNs (cfg.withDuty duty)
      = periodNs * min dutyScale duty.toNat / dutyScale := by
  have capped : (if dutyScale < duty.toNat then dutyScale else duty.toNat)
      = min dutyScale duty.toNat := by
    rw [Nat.min_def]
    split <;> split <;> omega
  unfold dutyNsFromCfg
  by_cases zero : periodNs = 0
  · rw [if_pos zero, zero, Nat.zero_mul, Nat.zero_div]
  · rw [if_neg zero, ← capped]
    exact if_neg onFixed

theorem OnCycleScale.cycle_pos {cfg : BaseCfg} {duty : UInt32} (onCycle : OnCycleScale cfg duty) :
    0 < cfg.cycle.toNat := by
  apply Nat.pos_of_ne_zero
  intro zero
  exact onCycle.1 (UInt32.toNat_inj.mp zero)

/-- A share of at most the whole. -/
theorem share_le {part whole : Nat} (partSmall : part ≤ whole)
    (periodNs : Nat) : periodNs * part / whole ≤ periodNs := by
  apply Nat.div_le_of_le_mul
  rw [Nat.mul_comm whole]
  exact Nat.mul_le_mul_left periodNs partSmall

theorem dutyNsFromCfg_le_period (periodNs : Nat) (cfg : BaseCfg) :
    dutyNsFromCfg periodNs cfg ≤ periodNs := by
  have here : cfg.withDuty cfg.duty = cfg := rfl
  rw [← here]
  by_cases onCycle : OnCycleScale cfg cfg.duty
  · rw [dutyNsFromCfg_onCycle onCycle]
    exact share_le (UInt32.le_iff_toNat_le.mp onCycle.2) periodNs
  · rw [dutyNsFromCfg_onFixed onCycle]
    exact share_le (Nat.min_le_left _ _) periodNs

/-- The setters' cut at the period never bites. -/
theorem cappedDutyNs_eq (cfg : BaseCfg) :
    cappedDutyNs cfg = dutyNsFromCfg (periodNsFromFrequency cfg.frequency) cfg := by
  rw [cappedDutyNs_eq_min]
  exact Nat.min_eq_right (dutyNsFromCfg_le_period _ cfg)

/-! ## Raising the duty -/

/-- Two duties on one scale. -/
def SameScale (cfg : BaseCfg) (low high : UInt32) : Prop :=
  OnCycleScale cfg low ↔ OnCycleScale cfg high

/-- Raising the duty never lowers the on-time. -/
def DutyMonotone (periodNs : Nat) (cfg : BaseCfg) : Prop :=
  ∀ low high : UInt32, low ≤ high →
    dutyNsFromCfg periodNs (cfg.withDuty low) ≤ dutyNsFromCfg periodNs (cfg.withDuty high)

/-- The cycle is absent or reaches the fixed scale, up to the last step. -/
def CycleReachesScale (cfg : BaseCfg) : Prop :=
  cfg.cycle = 0 ∨ dutyScale ≤ cfg.cycle.toNat + 1

theorem dutyNsFromCfg_mono_of_sameScale {cfg : BaseCfg} {low high : UInt32} (ordered : low ≤ high)
    (same : SameScale cfg low high) (periodNs : Nat) :
    dutyNsFromCfg periodNs (cfg.withDuty low) ≤ dutyNsFromCfg periodNs (cfg.withDuty high) := by
  have orderedNat : low.toNat ≤ high.toNat := UInt32.le_iff_toNat_le.mp ordered
  by_cases onCycle : OnCycleScale cfg low
  · rw [dutyNsFromCfg_onCycle onCycle, dutyNsFromCfg_onCycle (same.mp onCycle)]
    exact Nat.div_le_div_right (Nat.mul_le_mul_left periodNs orderedNat)
  · rw [dutyNsFromCfg_onFixed onCycle,
      dutyNsFromCfg_onFixed (fun onHigh => onCycle (same.mpr onHigh))]
    have cappedOrdered : min dutyScale low.toNat ≤ min dutyScale high.toNat := by omega
    exact Nat.div_le_div_right (Nat.mul_le_mul_left periodNs cappedOrdered)

/-- Without a cycle everything is on the fixed scale. -/
theorem not_onCycleScale_of_cycle_zero {cfg : BaseCfg} (noCycle : cfg.cycle = 0)
    (duty : UInt32) : ¬ OnCycleScale cfg duty :=
  fun onCycle => onCycle.1 noCycle

/-- Past the cycle the pulse fills the period when the cycle reaches the scale. -/
theorem dutyNsFromCfg_full {cfg : BaseCfg} {duty : UInt32} (above : cfg.cycle < duty)
    (reaches : dutyScale ≤ cfg.cycle.toNat + 1) (periodNs : Nat) :
    dutyNsFromCfg periodNs (cfg.withDuty duty) = periodNs := by
  have aboveNat : cfg.cycle.toNat < duty.toNat := UInt32.lt_iff_toNat_lt.mp above
  have onFixed : ¬ OnCycleScale cfg duty := by
    intro onCycle
    have below := UInt32.le_iff_toNat_le.mp onCycle.2
    omega
  rw [dutyNsFromCfg_onFixed onFixed, Nat.min_eq_left (by omega)]
  exact Nat.mul_div_cancel periodNs (by decide)

/-- A cycle short of the scale has a next duty. -/
theorem toNat_cycle_succ {cfg : BaseCfg} (short : cfg.cycle.toNat + 1 < dutyScale) :
    (cfg.cycle + 1).toNat = cfg.cycle.toNat + 1 := by
  rw [UInt32.toNat_add]
  apply Nat.mod_eq_of_lt
  calc cfg.cycle.toNat + 1 < dutyScale := short
    _ < 2 ^ 32 := by decide

/-- A cycle short of the scale: one step past it the pulse falls below the period. -/
theorem dutyNsFromCfg_drops {cfg : BaseCfg} (cycleSet : cfg.cycle ≠ 0)
    (short : cfg.cycle.toNat + 1 < dutyScale) {periodNs : Nat} (periodPos : 0 < periodNs) :
    dutyNsFromCfg periodNs (cfg.withDuty (cfg.cycle + 1))
      < dutyNsFromCfg periodNs (cfg.withDuty cfg.cycle) := by
  have onCycle : OnCycleScale cfg cfg.cycle := ⟨cycleSet, UInt32.le_refl _⟩
  have nextNat := toNat_cycle_succ short
  have onFixed : ¬ OnCycleScale cfg (cfg.cycle + 1) := by
    intro next
    have below := UInt32.le_iff_toNat_le.mp next.2
    omega
  rw [dutyNsFromCfg_onCycle onCycle, Nat.mul_div_cancel periodNs onCycle.cycle_pos,
    dutyNsFromCfg_onFixed onFixed, nextNat, Nat.min_eq_right (Nat.le_of_lt short)]
  apply Nat.div_lt_of_lt_mul
  rw [Nat.mul_comm dutyScale]
  exact Nat.mul_lt_mul_of_pos_left short periodPos

/-- Across both scales the on-time is monotone exactly when the pulse already
fills the period at the switch on either scale. -/
theorem dutyMonotone_iff (periodNs : Nat) (cfg : BaseCfg) :
    DutyMonotone periodNs cfg ↔ periodNs = 0 ∨ CycleReachesScale cfg := by
  constructor
  · intro monotone
    by_cases zero : periodNs = 0
    · exact Or.inl zero
    · by_cases noCycle : cfg.cycle = 0
      · exact Or.inr (Or.inl noCycle)
      · refine Or.inr (Or.inr (Nat.le_of_not_lt ?_))
        intro short
        have drops := dutyNsFromCfg_drops noCycle short (Nat.pos_of_ne_zero zero)
        have ordered : cfg.cycle ≤ cfg.cycle + 1 := by
          rw [UInt32.le_iff_toNat_le, toNat_cycle_succ short]
          exact Nat.le_succ _
        exact absurd (monotone cfg.cycle (cfg.cycle + 1) ordered) (Nat.not_le_of_lt drops)
  · intro condition low high ordered
    by_cases same : SameScale cfg low high
    · exact dutyNsFromCfg_mono_of_sameScale ordered same periodNs
    · rcases condition with zero | noCycle | reaches
      · rw [zero]
        exact Nat.le_trans (dutyNsFromCfg_le_period 0 _) (Nat.zero_le _)
      · exfalso
        apply same
        constructor
        · exact fun onCycle => absurd onCycle (not_onCycleScale_of_cycle_zero noCycle low)
        · exact fun onCycle => absurd onCycle (not_onCycleScale_of_cycle_zero noCycle high)
      · -- the switch lies between the two duties: the larger one is past the cycle
        have above : cfg.cycle < high := by
          rw [UInt32.lt_iff_toNat_lt]
          apply Nat.lt_of_not_le
          intro below
          apply same
          have orderedNat := UInt32.le_iff_toNat_le.mp ordered
          constructor
          · exact fun onCycle => ⟨onCycle.1, UInt32.le_iff_toNat_le.mpr below⟩
          · exact fun onCycle =>
              ⟨onCycle.1, UInt32.le_iff_toNat_le.mpr (Nat.le_trans orderedNat below)⟩
        rw [dutyNsFromCfg_full above reaches]
        exact dutyNsFromCfg_le_period periodNs _

/-- The duty of every configuration on every period: the products fit the
machine word, the pulse is at most the period, a larger duty on the same scale
is at least as long, and over all duties the on-time is monotone exactly when
the period is empty, there is no cycle, or the cycle reaches the fixed scale. -/
theorem duty_bounded_and_monotone_per_scale (frequency : UInt32) (cfg : BaseCfg) :
    (∀ factor : UInt32, periodNsFromFrequency frequency * factor.toNat < 2 ^ 64)
      ∧ (dutyNsWord (UInt64.ofNat (periodNsFromFrequency frequency)) cfg).toNat
          = dutyNsFromCfg (periodNsFromFrequency frequency) cfg
      ∧ dutyNsFromCfg (periodNsFromFrequency frequency) cfg ≤ periodNsFromFrequency frequency
      ∧ (∀ low high : UInt32, low ≤ high → SameScale cfg low high →
          dutyNsFromCfg (periodNsFromFrequency frequency) (cfg.withDuty low)
            ≤ dutyNsFromCfg (periodNsFromFrequency frequency) (cfg.withDuty high))
      ∧ (DutyMonotone (periodNsFromFrequency frequency) cfg ↔
          periodNsFromFrequency frequency = 0 ∨ CycleReachesScale cfg) := by
  have periodSmall := periodNsFromFrequency_le frequency
  have wordNat : (UInt64.ofNat (periodNsFromFrequency frequency)).toNat
      = periodNsFromFrequency frequency := by
    rw [UInt64.toNat_ofNat']
    exact Nat.mod_eq_of_lt (Nat.lt_of_le_of_lt periodSmall (by decide))
  refine ⟨duty_product_fits frequency, ?_, dutyNsFromCfg_le_period _ cfg, ?_,
    dutyMonotone_iff _ cfg⟩
  · have exact64 := toNat_dutyNsWord (by rw [wordNat]; exact periodSmall) cfg
    rw [wordNat] at exact64
    exact exact64
  · exact fun low high ordered same => dutyNsFromCfg_mono_of_sameScale ordered same _

/-- At 1 kHz with a cycle of 100 the duty 100 is the whole period and the duty
101 about a hundredth of it. -/
theorem duty_drops_past_cycle :
    periodNsFromFrequency 1000 = 1000000
      ∧ dutyNsFromCfg 1000000 ⟨.positive, .up, 100, 100, 1000⟩ = 1000000
      ∧ dutyNsFromCfg 1000000 ⟨.positive, .up, 101, 100, 1000⟩ = 10100
      ∧ ¬ DutyMonotone (periodNsFromFrequency 1000) ⟨.positive, .up, 100, 100, 1000⟩ := by
  refine ⟨by decide, by decide, by decide, ?_⟩
  intro monotone
  exact absurd (monotone 100 101 (by decide)) (by decide)

end TuyaAdapter.TklPwm
