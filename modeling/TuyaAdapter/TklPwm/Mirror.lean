import TuyaAdapter.Foundation.Run
import TuyaAdapter.TklPwm.Model

/-!
Contract: when the recorded configuration is the one the hardware has.

The writes of this module are refused by the kernel's rule alone. A call leaves
record and hardware apart in three ways: a re-initialisation or a frequency
change whose period is rejected after the channel was switched off, and a new
configuration whose duty was computed with the cycle of the old one.
-/

namespace TuyaAdapter.TklPwm

open Foundation Foundation.Run

/-! ## Agreement -/

/-- Record and hardware agree. -/
structure Agrees (ctx : PwmCtx) (hardware : Hardware) : Prop where
  period : hardware.period = periodNsFromFrequency ctx.cfg.frequency
  dutyCycle : hardware.dutyCycle = min (periodNsFromFrequency ctx.cfg.frequency)
    (dutyNsFromCfg (periodNsFromFrequency ctx.cfg.frequency) ctx.cfg)
  polarity : hardware.inversed = decide (ctx.cfg.polarity = .negative)
  enable : hardware.enable = ctx.enabled

instance (ctx : PwmCtx) (hardware : Hardware) : Decidable (Agrees ctx hardware) :=
  decidable_of_iff
    (hardware.period = periodNsFromFrequency ctx.cfg.frequency ∧
      hardware.dutyCycle = min (periodNsFromFrequency ctx.cfg.frequency)
        (dutyNsFromCfg (periodNsFromFrequency ctx.cfg.frequency) ctx.cfg) ∧
      hardware.inversed = decide (ctx.cfg.polarity = .negative) ∧
      hardware.enable = ctx.enabled)
    ⟨fun ⟨period, dutyCycle, polarity, enable⟩ => ⟨period, dutyCycle, polarity, enable⟩,
      fun agrees => ⟨agrees.period, agrees.dutyCycle, agrees.polarity, agrees.enable⟩⟩

/-- An initialised channel agrees with its record. -/
def Mirrors (ctx : PwmCtx) (hardware : Hardware) : Prop :=
  ctx.inited = true → Agrees ctx hardware

/-- The channel agrees with its record after a call. -/
def MirrorsAfter (result : Machine × OperateRet) : Prop :=
  Mirrors result.1.ctx result.1.hardware

/-- Every initialised channel agrees with its record. -/
def Mirrored (system : System) : Prop :=
  ∀ chId, Mirrors (system.ctx chId) (system.hardware chId)

/-- Every initialised channel whose last call returned `OPRT_OK` agrees with
its record. -/
def MirroredAfterOk (system : System) : Prop :=
  ∀ chId, system.last chId = some .ok → Mirrors (system.ctx chId) (system.hardware chId)

/-- No write is refused but by the kernel's rule. -/
def Unrefused (_system : System) (action : Action) : Prop :=
  ∀ number write, action.refusals number write = none

/-- The kernel accepts the period of this frequency. -/
def PeriodFits (hardware : Hardware) (frequency : UInt32) : Prop :=
  periodNsFromFrequency frequency ≠ 0 ∧ hardware.dutyCycle ≤ periodNsFromFrequency frequency

instance (hardware : Hardware) (frequency : UInt32) : Decidable (PeriodFits hardware frequency) :=
  inferInstanceAs (Decidable (_ ∧ _))

/-- The call does not take one of the three ways apart: an initialised channel
is given a period that fits again, or is not running (and keeps its polarity
when it is initialised again), and a new configuration has the duty that its
numbers have with the old cycle. -/
def Harmless (ctx : PwmCtx) (hardware : Hardware) : Request → Prop
  | .init (some cfg) none =>
      ctx.inited = true → ¬ PeriodFits hardware cfg.frequency →
        ctx.enabled = false ∧ cfg.polarity = ctx.cfg.polarity
  | .frequencySet frequency =>
      ctx.inited = true → frequency ≠ 0 → ¬ PeriodFits hardware frequency → ctx.enabled = false
  | .infoSet (some info) _ =>
      ctx.inited = true → PeriodFits hardware info.frequency →
        cappedDutyNs { info with cycle := ctx.cfg.cycle } = cappedDutyNs info
  | _ => True

instance (ctx : PwmCtx) (hardware : Hardware) :
    ∀ request, Decidable (Harmless ctx hardware request)
  | .init (some _) none => inferInstanceAs (Decidable (_ → _ → _))
  | .init none _ => inferInstanceAs (Decidable True)
  | .init (some _) (some _) => inferInstanceAs (Decidable True)
  | .deinit => inferInstanceAs (Decidable True)
  | .start => inferInstanceAs (Decidable True)
  | .stop => inferInstanceAs (Decidable True)
  | .dutySet _ => inferInstanceAs (Decidable True)
  | .frequencySet _ => inferInstanceAs (Decidable (_ → _ → _ → _))
  | .polaritySet _ => inferInstanceAs (Decidable True)
  | .infoSet none _ => inferInstanceAs (Decidable True)
  | .infoSet (some _) _ => inferInstanceAs (Decidable (_ → _ → _))

/-- The step is harmless to its channel. -/
def HarmlessStep (system : System) (action : Action) : Prop :=
  action.chId < pwmNumMax →
    Harmless (system.ctx action.chId) (system.hardware action.chId) action.request

instance (system : System) (action : Action) : Decidable (HarmlessStep system action) :=
  inferInstanceAs (Decidable (_ → _))

/-! ## A duty that is written -/

theorem tklPwmDutySet_passes {refusals : Refusals} {ctx : PwmCtx} {hardware : Hardware}
    {writes : Nat} (inited : ctx.inited = true) {duty : UInt32}
    (period : hardware.period = periodNsFromFrequency ctx.cfg.frequency)
    (passes : refusals writes (.dutyCycle (cappedDutyNs { ctx.cfg with duty := duty })) = none) :
    tklPwmDutySet refusals ⟨ctx, hardware, writes⟩ duty =
      (⟨{ ctx with cfg := { ctx.cfg with duty := duty } },
        { hardware with dutyCycle := cappedDutyNs { ctx.cfg with duty := duty } }, writes + 1⟩,
        .ok) := by
  have below : cappedDutyNs { ctx.cfg with duty := duty } ≤ hardware.period := by
    rw [period]
    exact cappedDutyNs_le { ctx.cfg with duty := duty }
  simp [tklPwmDutySet, inited, setDutyLocked, writeTextFile, passes, accept, below, orReturn]

/-! ## Calls without refusals -/

section Calls

variable {refusals : Refusals} (unrefused : ∀ number write, refusals number write = none)
  (ctx : PwmCtx) (hardware : Hardware) (writes : Nat)
include unrefused

theorem setEnableLocked_eq (enable : Bool) :
    setEnableLocked refusals ⟨ctx, hardware, writes⟩ enable =
      (⟨ctx, { hardware with enable := enable }, writes + 1⟩, none) := by
  simp [setEnableLocked, writeTextFile, unrefused, accept]

theorem setPolarityLocked_eq (polarity : Polarity) :
    setPolarityLocked refusals ⟨ctx, hardware, writes⟩ polarity =
      (⟨ctx, { hardware with inversed := decide (polarity = .negative) }, writes + 1⟩, none) := by
  simp [setPolarityLocked, writeTextFile, unrefused, accept]

theorem setPeriodLocked_eq (frequency : UInt32) :
    setPeriodLocked refusals ⟨ctx, hardware, writes⟩ (periodNsFromFrequency frequency) =
      if PeriodFits hardware frequency then
        (⟨ctx, { hardware with period := periodNsFromFrequency frequency }, writes + 1⟩, none)
      else (⟨ctx, hardware, writes + 1⟩, some .inval) := by
  by_cases fits : PeriodFits hardware frequency
  · rw [if_pos fits]
    simp [setPeriodLocked, writeTextFile, unrefused, accept, fits.1, fits.2]
  · rw [if_neg fits]
    have rejected : ¬ (periodNsFromFrequency frequency ≠ 0 ∧
        hardware.dutyCycle ≤ periodNsFromFrequency frequency) := fits
    simp only [setPeriodLocked, writeTextFile, unrefused, accept, if_neg rejected]

theorem setDutyLocked_eq {dutyNs : Nat} (below : dutyNs ≤ hardware.period) :
    setDutyLocked refusals ⟨ctx, hardware, writes⟩ dutyNs =
      (⟨ctx, { hardware with dutyCycle := dutyNs }, writes + 1⟩, none) := by
  simp [setDutyLocked, writeTextFile, unrefused, accept, below]

theorem tklPwmInit_accepted {cfg : BaseCfg} (fits : PeriodFits hardware cfg.frequency) :
    ∃ number, tklPwmInit refusals ⟨ctx, hardware, writes⟩ (some cfg) none =
      (⟨⟨true, true, false, cfg⟩,
        ⟨periodNsFromFrequency cfg.frequency, cappedDutyNs cfg,
          decide (cfg.polarity = .negative), false⟩, number⟩, .ok) := by
  refine ⟨writes + 4, ?_⟩
  simp only [tklPwmInit, orReturn, setEnableLocked_eq unrefused, setPolarityLocked_eq unrefused,
    setPeriodLocked_eq unrefused]
  rw [if_neg fits.1, if_pos (by exact fits)]
  simp only
  rw [setDutyLocked_eq unrefused _ _ _ (cappedDutyNs_le cfg)]

theorem tklPwmInit_rejected {cfg : BaseCfg} (unfit : ¬ PeriodFits hardware cfg.frequency) :
    ∃ number, tklPwmInit refusals ⟨ctx, hardware, writes⟩ (some cfg) none =
      (⟨ctx, { hardware with
          inversed := decide (cfg.polarity = .negative), enable := false }, number⟩,
        .invalidParm) := by
  simp only [tklPwmInit, orReturn, setEnableLocked_eq unrefused, setPolarityLocked_eq unrefused,
    setPeriodLocked_eq unrefused]
  by_cases zero : periodNsFromFrequency cfg.frequency = 0
  · exact ⟨writes + 2, by rw [if_pos zero]⟩
  · refine ⟨writes + 3, ?_⟩
    rw [if_neg zero, if_neg (by exact unfit)]
    rfl

theorem enableSet_eq (inited : ctx.inited = true) (enable : Bool) :
    enableSet refusals ⟨ctx, hardware, writes⟩ enable =
      (⟨{ ctx with enabled := enable }, { hardware with enable := enable }, writes + 1⟩, .ok) := by
  simp [enableSet, inited, orReturn, setEnableLocked_eq unrefused]

theorem restore_eq (cfg : BaseCfg) (off : hardware.enable = false) :
    ∃ number, restore refusals ⟨ctx, hardware, writes⟩ ctx.enabled cfg =
      (⟨{ ctx with cfg := cfg }, { hardware with enable := ctx.enabled }, number⟩, .ok) := by
  obtain ⟨inited, exported, enabled, old⟩ := ctx
  obtain ⟨period, dutyCycle, inversed, enable⟩ := hardware
  cases enabled with
  | true =>
      refine ⟨writes + 1, ?_⟩
      simp [restore, orReturn, setEnableLocked_eq unrefused]
  | false =>
      refine ⟨writes, ?_⟩
      have isOff : enable = false := off
      rw [isOff]
      rfl

theorem tklPwmPolaritySet_eq (inited : ctx.inited = true) (polarity : Polarity) :
    ∃ number, tklPwmPolaritySet refusals ⟨ctx, hardware, writes⟩ polarity =
      (⟨{ ctx with cfg := { ctx.cfg with polarity := polarity } },
        { hardware with
          inversed := decide (polarity = .negative), enable := ctx.enabled }, number⟩, .ok) := by
  obtain ⟨number, restored⟩ := restore_eq unrefused ctx
    { hardware with inversed := decide (polarity = .negative), enable := false }
    (writes + 2) { ctx.cfg with polarity := polarity } rfl
  refine ⟨number, ?_⟩
  unfold tklPwmPolaritySet
  rw [if_pos (by exact inited)]
  simp only [orReturn, setEnableLocked_eq unrefused, setPolarityLocked_eq unrefused]
  exact restored

theorem tklPwmFrequencySet_accepted (inited : ctx.inited = true) {frequency : UInt32}
    (fits : PeriodFits hardware frequency) :
    ∃ number, tklPwmFrequencySet refusals ⟨ctx, hardware, writes⟩ frequency =
      (⟨{ ctx with cfg := { ctx.cfg with frequency := frequency } },
        { hardware with
          period := periodNsFromFrequency frequency
          dutyCycle := cappedDutyNs { ctx.cfg with frequency := frequency }
          enable := ctx.enabled }, number⟩, .ok) := by
  have notZero : frequency ≠ 0 := by
    rintro rfl
    exact fits.1 rfl
  obtain ⟨number, restored⟩ := restore_eq unrefused ctx
    { hardware with
      period := periodNsFromFrequency frequency
      dutyCycle := cappedDutyNs { ctx.cfg with frequency := frequency }
      enable := false }
    (writes + 3) { ctx.cfg with frequency := frequency } rfl
  refine ⟨number, ?_⟩
  unfold tklPwmFrequencySet
  rw [if_neg notZero, if_pos (by exact inited)]
  simp only [orReturn, setEnableLocked_eq unrefused, setPeriodLocked_eq unrefused]
  rw [if_pos (by exact fits)]
  simp only
  rw [setDutyLocked_eq unrefused _ _ _ (cappedDutyNs_le { ctx.cfg with frequency := frequency })]
  exact restored

theorem tklPwmFrequencySet_rejected (inited : ctx.inited = true) {frequency : UInt32}
    (notZero : frequency ≠ 0) (unfit : ¬ PeriodFits hardware frequency) :
    ∃ number, tklPwmFrequencySet refusals ⟨ctx, hardware, writes⟩ frequency =
      (⟨ctx, { hardware with enable := false }, number⟩, .invalidParm) := by
  refine ⟨writes + 2, ?_⟩
  simp only [tklPwmFrequencySet, notZero, if_false, inited, if_true, orReturn,
    setEnableLocked_eq unrefused, setPeriodLocked_eq unrefused]
  rw [if_neg (by exact unfit)]
  rfl

theorem tklPwmDutySet_eq (inited : ctx.inited = true)
    (period : hardware.period = periodNsFromFrequency ctx.cfg.frequency) (duty : UInt32) :
    tklPwmDutySet refusals ⟨ctx, hardware, writes⟩ duty =
      (⟨{ ctx with cfg := { ctx.cfg with duty := duty } },
        { hardware with dutyCycle := cappedDutyNs { ctx.cfg with duty := duty } }, writes + 1⟩,
        .ok) := by
  exact tklPwmDutySet_passes inited period (unrefused _ _)

/-! ## One call -/

omit ctx hardware writes unrefused in
/-- The duty depends on frequency, duty and cycle alone. -/
theorem cappedDutyNs_congr {cfg other : BaseCfg} (frequency : cfg.frequency = other.frequency)
    (duty : cfg.duty = other.duty) (cycle : cfg.cycle = other.cycle) :
    cappedDutyNs cfg = cappedDutyNs other := by
  simp only [cappedDutyNs, dutyNsFromCfg, frequency, duty, cycle]

theorem tklPwmInit_mirrors (mirrors : Mirrors ctx hardware) (cfg : BaseCfg) :
    MirrorsAfter (tklPwmInit refusals ⟨ctx, hardware, writes⟩ (some cfg) none) ↔
      (ctx.inited = true → ¬ PeriodFits hardware cfg.frequency →
        ctx.enabled = false ∧ cfg.polarity = ctx.cfg.polarity) := by
  by_cases fits : PeriodFits hardware cfg.frequency
  · obtain ⟨number, done⟩ := tklPwmInit_accepted unrefused ctx hardware writes fits
    rw [done]
    exact ⟨fun _ _ unfit => absurd fits unfit,
      fun _ _ => ⟨rfl, cappedDutyNs_eq_min cfg, rfl, rfl⟩⟩
  · obtain ⟨number, done⟩ := tklPwmInit_rejected unrefused ctx hardware writes fits
    rw [done]
    constructor
    · intro agrees inited _
      have polarity := (agrees inited).polarity
      refine ⟨(agrees inited).enable.symm, ?_⟩
      cases new : cfg.polarity <;> cases old : ctx.cfg.polarity <;> simp [new, old] at polarity ⊢
    · intro harmless inited
      obtain ⟨off, same⟩ := harmless inited fits
      refine ⟨(mirrors inited).period, (mirrors inited).dutyCycle, ?_, off.symm⟩
      rw [← same]

theorem enableSet_mirrors (mirrors : Mirrors ctx hardware) (enable : Bool) :
    MirrorsAfter (enableSet refusals ⟨ctx, hardware, writes⟩ enable) := by
  by_cases inited : ctx.inited = true
  · rw [enableSet_eq unrefused _ _ _ inited]
    intro _
    exact ⟨(mirrors inited).period, (mirrors inited).dutyCycle, (mirrors inited).polarity, rfl⟩
  · unfold enableSet
    rw [if_neg (by exact inited)]
    exact mirrors

theorem tklPwmDutySet_mirrors (mirrors : Mirrors ctx hardware) (duty : UInt32) :
    MirrorsAfter (tklPwmDutySet refusals ⟨ctx, hardware, writes⟩ duty) := by
  by_cases inited : ctx.inited = true
  · rw [tklPwmDutySet_eq unrefused _ _ _ inited (mirrors inited).period]
    intro _
    exact ⟨(mirrors inited).period, cappedDutyNs_eq_min _, (mirrors inited).polarity,
      (mirrors inited).enable⟩
  · unfold tklPwmDutySet
    rw [if_neg (by exact inited)]
    exact mirrors

theorem tklPwmPolaritySet_mirrors (mirrors : Mirrors ctx hardware) (polarity : Polarity) :
    MirrorsAfter (tklPwmPolaritySet refusals ⟨ctx, hardware, writes⟩ polarity) := by
  by_cases inited : ctx.inited = true
  · obtain ⟨number, done⟩ := tklPwmPolaritySet_eq unrefused ctx hardware writes inited polarity
    rw [done]
    intro _
    exact ⟨(mirrors inited).period, (mirrors inited).dutyCycle, rfl, rfl⟩
  · unfold tklPwmPolaritySet
    rw [if_neg (by exact inited)]
    exact mirrors

theorem tklPwmFrequencySet_mirrors (mirrors : Mirrors ctx hardware) (frequency : UInt32) :
    MirrorsAfter (tklPwmFrequencySet refusals ⟨ctx, hardware, writes⟩ frequency) ↔
      (ctx.inited = true → frequency ≠ 0 → ¬ PeriodFits hardware frequency →
        ctx.enabled = false) := by
  by_cases zero : frequency = 0
  · unfold tklPwmFrequencySet
    rw [if_pos zero]
    exact ⟨fun _ _ notZero => absurd zero notZero, fun _ => mirrors⟩
  · by_cases inited : ctx.inited = true
    · by_cases fits : PeriodFits hardware frequency
      · obtain ⟨number, done⟩ := tklPwmFrequencySet_accepted unrefused ctx hardware writes inited fits
        rw [done]
        refine ⟨fun _ _ _ unfit => absurd fits unfit, fun _ _ => ?_⟩
        exact ⟨rfl, cappedDutyNs_eq_min _, (mirrors inited).polarity, rfl⟩
      · obtain ⟨number, done⟩ :=
          tklPwmFrequencySet_rejected unrefused ctx hardware writes inited zero fits
        rw [done]
        constructor
        · intro agrees _ _ _
          exact (agrees inited).enable.symm
        · intro harmless _
          exact ⟨(mirrors inited).period, (mirrors inited).dutyCycle, (mirrors inited).polarity,
            (harmless inited zero fits).symm⟩
    · unfold tklPwmFrequencySet
      rw [if_neg zero, if_neg (by exact inited)]
      exact ⟨fun _ isInited => absurd isInited inited, fun _ => mirrors⟩

/-- The channel of `tkl_pwm_info_set` once it was stopped. -/
theorem stopped_eq (inited : ctx.inited = true) (enable : hardware.enable = ctx.enabled) :
    ∃ number,
      (if ctx.enabled then (tklPwmStop refusals ⟨ctx, hardware, writes⟩).1
        else ⟨ctx, hardware, writes⟩) =
      ⟨{ ctx with enabled := false }, { hardware with enable := false }, number⟩ := by
  cases enabled : ctx.enabled with
  | true =>
      refine ⟨writes + 1, ?_⟩
      simp [tklPwmStop, enableSet_eq unrefused _ _ _ inited]
  | false =>
      refine ⟨writes, ?_⟩
      rw [enabled] at enable
      obtain ⟨isInited, exported, isEnabled, old⟩ := ctx
      obtain ⟨period, dutyCycle, inversed, isEnable⟩ := hardware
      have off : isEnabled = false := enabled
      have offHardware : isEnable = false := enable
      rw [off, offHardware]
      rfl

omit ctx hardware writes unrefused in
theorem ifOk_ok (machine : Machine) (rest : Machine → Machine × OperateRet) :
    ifOk (machine, .ok) rest = rest machine := rfl

omit ctx hardware writes unrefused in
theorem ifOk_failed {machine : Machine} {result : OperateRet}
    {rest : Machine → Machine × OperateRet} (failed : result ≠ .ok) :
    ifOk (machine, result) rest = (machine, result) :=
  if_neg failed

/-- The last steps of `tkl_pwm_info_set`. -/
theorem restart_eq (inited : ctx.inited = true) (wasEnabled : Bool)
    (off : ctx.enabled = false ∧ hardware.enable = false) :
    ∃ number,
      (if wasEnabled then tklPwmStart refusals ⟨ctx, hardware, writes⟩
        else (⟨ctx, hardware, writes⟩, .ok)) =
      (⟨{ ctx with enabled := wasEnabled }, { hardware with enable := wasEnabled }, number⟩,
        .ok) := by
  cases wasEnabled with
  | true =>
      refine ⟨writes + 1, ?_⟩
      simp [tklPwmStart, enableSet_eq unrefused _ _ _ inited]
  | false =>
      refine ⟨writes, ?_⟩
      obtain ⟨isInited, exported, isEnabled, old⟩ := ctx
      obtain ⟨period, dutyCycle, inversed, isEnable⟩ := hardware
      have isOff : isEnabled = false := off.1
      have isOffHardware : isEnable = false := off.2
      rw [isOff, isOffHardware]
      rfl

theorem tklPwmInfoSet_new (uninited : ¬ ctx.inited = true) (info : BaseCfg)
    (exported : Option Errno) :
    MirrorsAfter (tklPwmInfoSet refusals ⟨ctx, hardware, writes⟩ (some info) exported) := by
  have untouched : Mirrors ctx hardware := fun inited => absurd inited uninited
  unfold tklPwmInfoSet
  simp only
  rw [if_neg (by exact uninited)]
  cases exported with
  | some errno =>
      have failed := mapErrnoToOprt_ne_ok errno
      simp only [tklPwmInit, orReturn, ifOk, failed, if_false]
      exact untouched
  | none =>
      by_cases fits : PeriodFits hardware info.frequency
      · obtain ⟨number, done⟩ := tklPwmInit_accepted unrefused ctx hardware writes fits
        rw [done, ifOk_ok]
        obtain ⟨last, restarted⟩ := restart_eq unrefused ⟨true, true, false, info⟩
          ⟨periodNsFromFrequency info.frequency, cappedDutyNs info,
            decide (info.polarity = .negative), false⟩ number rfl ctx.enabled ⟨rfl, rfl⟩
        rw [restarted]
        intro _
        exact ⟨rfl, cappedDutyNs_eq_min info, rfl, rfl⟩
      · obtain ⟨number, done⟩ := tklPwmInit_rejected unrefused ctx hardware writes fits
        rw [done, ifOk_failed (by decide)]
        exact fun inited => absurd inited uninited

theorem tklPwmInfoSet_mirrors (mirrors : Mirrors ctx hardware) (info : BaseCfg)
    (exported : Option Errno) :
    MirrorsAfter (tklPwmInfoSet refusals ⟨ctx, hardware, writes⟩ (some info) exported) ↔
      (ctx.inited = true → PeriodFits hardware info.frequency →
        cappedDutyNs { info with cycle := ctx.cfg.cycle } = cappedDutyNs info) := by
  by_cases inited : ctx.inited = true
  · have agrees := mirrors inited
    obtain ⟨first, stopped⟩ := stopped_eq unrefused ctx hardware writes inited agrees.enable
    obtain ⟨second, polaritySet⟩ := tklPwmPolaritySet_eq unrefused { ctx with enabled := false }
      { hardware with enable := false } first inited info.polarity
    unfold tklPwmInfoSet
    simp only
    rw [if_pos (by exact inited), stopped, polaritySet, ifOk_ok]
    by_cases fits : PeriodFits hardware info.frequency
    · obtain ⟨third, frequencySet⟩ := tklPwmFrequencySet_accepted unrefused
        { ctx with enabled := false, cfg := { ctx.cfg with polarity := info.polarity } }
        { hardware with inversed := decide (info.polarity = .negative), enable := false }
        second inited fits
      have dutySet := tklPwmDutySet_eq unrefused
        { ctx with
          enabled := false
          cfg := { ctx.cfg with polarity := info.polarity, frequency := info.frequency } }
        { hardware with
          period := periodNsFromFrequency info.frequency
          dutyCycle := cappedDutyNs
            { ctx.cfg with polarity := info.polarity, frequency := info.frequency }
          inversed := decide (info.polarity = .negative)
          enable := false }
        third inited (show _ = periodNsFromFrequency info.frequency from rfl) info.duty
      obtain ⟨last, restarted⟩ := restart_eq unrefused
        { ctx with enabled := false, cfg := info }
        { hardware with
          period := periodNsFromFrequency info.frequency
          dutyCycle := cappedDutyNs
            { ctx.cfg with
              polarity := info.polarity, frequency := info.frequency, duty := info.duty }
          inversed := decide (info.polarity = .negative)
          enable := false }
        (third + 1) inited ctx.enabled ⟨rfl, rfl⟩
      have sameDuty : cappedDutyNs
          { ctx.cfg with
            polarity := info.polarity, frequency := info.frequency, duty := info.duty } =
          cappedDutyNs { info with cycle := ctx.cfg.cycle } :=
        cappedDutyNs_congr rfl rfl rfl
      rw [frequencySet, ifOk_ok, dutySet, ifOk_ok, restarted]
      constructor
      · intro after _ _
        rw [cappedDutyNs_eq_min info, ← sameDuty]
        exact (after inited).dutyCycle
      · intro same _
        refine ⟨rfl, ?_, rfl, rfl⟩
        show cappedDutyNs _ = _
        rw [sameDuty, same inited fits, cappedDutyNs_eq_min info]
    · -- The period is rejected: polarity is set, the channel is stopped on both sides.
      refine ⟨fun _ _ isFit => absurd isFit fits, fun _ => ?_⟩
      have agreed : Agrees
          { ctx with enabled := false, cfg := { ctx.cfg with polarity := info.polarity } }
          { hardware with inversed := decide (info.polarity = .negative), enable := false } :=
        ⟨agrees.period, agrees.dutyCycle, rfl, rfl⟩
      by_cases zero : info.frequency = 0
      · rw [tklPwmFrequencySet, if_pos zero, ifOk_failed (by decide)]
        exact fun _ => agreed
      · obtain ⟨third, frequencySet⟩ := tklPwmFrequencySet_rejected unrefused
          { ctx with enabled := false, cfg := { ctx.cfg with polarity := info.polarity } }
          { hardware with inversed := decide (info.polarity = .negative), enable := false }
          second inited zero fits
        rw [frequencySet, ifOk_failed (by decide)]
        exact fun _ => agreed
  · refine ⟨fun _ isInited => absurd isInited inited, fun _ => ?_⟩
    exact tklPwmInfoSet_new unrefused ctx hardware writes inited info exported

theorem perform_mirrors (mirrors : Mirrors ctx hardware) (request : Request) :
    MirrorsAfter (perform refusals ⟨ctx, hardware, writes⟩ request) ↔
      Harmless ctx hardware request := by
  cases request with
  | init cfg exported =>
      cases cfg with
      | none => exact ⟨fun _ => trivial, fun _ => mirrors⟩
      | some cfg =>
          cases exported with
          | some errno => exact ⟨fun _ => trivial, fun _ => mirrors⟩
          | none => exact tklPwmInit_mirrors unrefused ctx hardware writes mirrors cfg
  | deinit => exact ⟨fun _ => trivial, fun _ inited => absurd inited (by simp [perform,
      tklPwmDeinit, PwmCtx.zeroed])⟩
  | start =>
      exact ⟨fun _ => trivial, fun _ => enableSet_mirrors unrefused ctx hardware writes mirrors true⟩
  | stop =>
      exact ⟨fun _ => trivial,
        fun _ => enableSet_mirrors unrefused ctx hardware writes mirrors false⟩
  | dutySet duty =>
      exact ⟨fun _ => trivial,
        fun _ => tklPwmDutySet_mirrors unrefused ctx hardware writes mirrors duty⟩
  | frequencySet frequency =>
      exact tklPwmFrequencySet_mirrors unrefused ctx hardware writes mirrors frequency
  | polaritySet polarity =>
      exact ⟨fun _ => trivial,
        fun _ => tklPwmPolaritySet_mirrors unrefused ctx hardware writes mirrors polarity⟩
  | infoSet info exported =>
      cases info with
      | none => exact ⟨fun _ => trivial, fun _ => mirrors⟩
      | some info =>
          exact tklPwmInfoSet_mirrors unrefused ctx hardware writes mirrors info exported

end Calls

/-! ## Runs -/

theorem step_mirrored {system next : System} {action : Action} (mirrored : Mirrored system)
    (unrefused : Unrefused system action) (stepped : step system action = some next) :
    Mirrored next ↔ HarmlessStep system action := by
  have channel : MirrorsAfter (system.perform action) ↔ HarmlessStep system action := by
    unfold System.perform HarmlessStep
    by_cases valid : action.chId < pwmNumMax
    · rw [if_pos valid]
      have one := perform_mirrors unrefused (system.ctx action.chId)
        (system.hardware action.chId) 0 (mirrored action.chId) action.request
      exact ⟨fun after _ => one.mp after, fun harmless => one.mpr (harmless valid)⟩
    · rw [if_neg valid]
      exact ⟨fun _ isValid => absurd isValid valid, fun _ => mirrored action.chId⟩
  rw [← channel, ← Option.some.inj stepped]
  constructor
  · intro after
    have here := after action.chId
    simp only [Function.update_self] at here
    exact here
  · intro after chId
    by_cases isChannel : chId = action.chId
    · rw [isChannel]
      simp only [Function.update_self]
      exact after
    · simp only [Function.update_of_ne isChannel]
      exact mirrored chId

/-- In every run whose steps are harmless, every initialised channel whose last
call succeeded agrees with its record. The condition is exact: record and
hardware agree on every initialised channel in all states of a run if and only
if all its steps are harmless. -/
theorem pwm_mirrored_of_harmless {hardware : Nat → Hardware} {actions : List Action}
    (unrefused : EveryStep step Unrefused (System.initial hardware) actions) :
    (EveryStep step HarmlessStep (System.initial hardware) actions →
      EveryState step MirroredAfterOk (System.initial hardware) actions) ∧
    (EveryState step Mirrored (System.initial hardware) actions ↔
      EveryStep step HarmlessStep (System.initial hardware) actions) := by
  have progress : ∀ (system : System) action, True → Unrefused system action →
      ∃ next, step system action = some next ∧ True :=
    fun system action _ _ => ⟨_, rfl, trivial⟩
  have oneStep : ∀ (system : System) action next, True → Mirrored system →
      Unrefused system action → step system action = some next →
      (Mirrored next ↔ HarmlessStep system action) :=
    fun _ _ _ _ mirrored isUnrefused stepped => step_mirrored mirrored isUnrefused stepped
  have initially : Mirrored (System.initial hardware) := by
    intro chId inited
    simp [System.initial, PwmCtx.zeroed] at inited
  have exactly := everyState_iff_everyStep progress oneStep trivial initially unrefused
  refine ⟨fun harmless => ?_, exactly⟩
  exact (exactly.mpr harmless).mono fun system mirrored chId _ => mirrored chId

/-- The kernel's rule alone. -/
def noRefusals : Refusals := fun _ _ => none

/-- A channel of 1 kHz with half of a cycle of 10000, then the same numbers
with a cycle of 20000. -/
def changedCycle : List Action :=
  [⟨0, .init (some ⟨.positive, .up, 5000, 10000, 1000⟩) none, noRefusals⟩,
    ⟨0, .infoSet (some ⟨.positive, .up, 5000, 20000, 1000⟩) none, noRefusals⟩]

/-- Hardware with everything at zero. -/
def blankHardware : Nat → Hardware := fun _ => ⟨0, 0, false, false⟩

theorem pwm_unmirrored_after_changedCycle :
    EveryStep step Unrefused (System.initial blankHardware) changedCycle ∧
      ¬ EveryState step MirroredAfterOk (System.initial blankHardware) changedCycle := by
  constructor
  · exact ⟨fun _ _ => rfl, fun _ _ => ⟨fun _ _ => rfl, fun _ _ => trivial⟩⟩
  · intro every
    have last := (every.2 _ rfl).2 _ rfl
    have duty := (last 0 (by decide) (by decide)).dutyCycle
    exact absurd duty (by decide)

/-- A run that changes everything but the cycle. -/
theorem pwm_mirrored_with_fixed_cycle :
    EveryState step MirroredAfterOk (System.initial blankHardware)
      [⟨0, .init (some ⟨.positive, .up, 5000, 10000, 1000⟩) none, noRefusals⟩,
        ⟨0, .start, noRefusals⟩,
        ⟨0, .infoSet (some ⟨.negative, .up, 2500, 10000, 500⟩) none, noRefusals⟩] := by
  apply (pwm_mirrored_of_harmless ?_).1 ?_
  · exact ⟨fun _ _ => rfl, fun _ _ => ⟨fun _ _ => rfl, fun _ _ => ⟨fun _ _ => rfl,
      fun _ _ => trivial⟩⟩⟩
  · decide +kernel

end TuyaAdapter.TklPwm
