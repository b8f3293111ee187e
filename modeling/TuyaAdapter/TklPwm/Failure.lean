import TuyaAdapter.TklPwm.Mirror

/-!
Contract: which failed calls leave a running channel running.

Any write may be refused here, but the ones that switch a channel on again.
The setters switch the channel off first and return at the first error, so a
running channel survives a failed call exactly when the write that switches it
off was itself refused. `tkl_pwm_info_set` records the stop as well.
-/

namespace TuyaAdapter.TklPwm

open Foundation Foundation.Run

/-! ## What a call should leave -/

/-- The recorded state of the output is the real one; only an initialised
channel is recorded as running. -/
def InStep (ctx : PwmCtx) (hardware : Hardware) : Prop :=
  hardware.enable = ctx.enabled ∧ (ctx.inited = false → ctx.enabled = false)

/-- When the call fails, the record and the hardware have the same state of the
output, and an initialised channel that was running still is. -/
def Survives (ctx : PwmCtx) (hardware : Hardware) (result : Machine × OperateRet) : Prop :=
  result.2 ≠ .ok →
    result.1.ctx.enabled = result.1.hardware.enable ∧
      (ctx.inited = true → hardware.enable = true → result.1.hardware.enable = true)

/-- The channel survives, and record and hardware are in step after the call,
whatever it returned. -/
def Upheld (ctx : PwmCtx) (hardware : Hardware) (result : Machine × OperateRet) : Prop :=
  Survives ctx hardware result ∧ InStep result.1.ctx result.1.hardware

/-! ## The condition -/

/-- The write that switches the channel off, as the given write of the call. -/
def SwitchesOff (refusals : Refusals) (number : Nat) : Prop :=
  refusals number (.enable false) = none

instance (refusals : Refusals) (number : Nat) : Decidable (SwitchesOff refusals number) :=
  inferInstanceAs (Decidable (_ = _))

/-- The polarity is written. -/
def PolarityPasses (refusals : Refusals) (number : Nat) (polarity : Polarity) : Prop :=
  refusals number (.polarity (decide (polarity = .negative))) = none

instance (refusals : Refusals) (number : Nat) (polarity : Polarity) :
    Decidable (PolarityPasses refusals number polarity) :=
  inferInstanceAs (Decidable (_ = _))

/-- The period and the duty of a configuration are written. -/
def TimingPasses (refusals : Refusals) (number : Nat) (hardware : Hardware) (cfg : BaseCfg) :
    Prop :=
  PeriodFits hardware cfg.frequency ∧
    refusals number (.period (periodNsFromFrequency cfg.frequency)) = none ∧
    refusals (number + 1) (.dutyCycle (cappedDutyNs cfg)) = none

instance (refusals : Refusals) (number : Nat) (hardware : Hardware) (cfg : BaseCfg) :
    Decidable (TimingPasses refusals number hardware cfg) :=
  inferInstanceAs (Decidable (_ ∧ _))

/-- A running channel is not switched off by a call that fails later, and stays
switched off by a call that succeeds in initialising or deinitialising it. -/
def Steady (refusals : Refusals) (ctx : PwmCtx) (hardware : Hardware) : Request → Prop
  | .init (some cfg) none =>
      ctx.enabled = true →
        (SwitchesOff refusals 0 ↔
          PolarityPasses refusals 1 cfg.polarity ∧ TimingPasses refusals 2 hardware cfg)
  | .deinit => ctx.enabled = true → SwitchesOff refusals 0
  | .frequencySet frequency =>
      ctx.enabled = true → frequency ≠ 0 → SwitchesOff refusals 0 →
        TimingPasses refusals 1 hardware { ctx.cfg with frequency := frequency }
  | .polaritySet polarity =>
      ctx.enabled = true → SwitchesOff refusals 0 → PolarityPasses refusals 1 polarity
  | .infoSet (some info) _ =>
      ctx.enabled = true →
        if SwitchesOff refusals 0 then
          PolarityPasses refusals 2 info.polarity ∧
            TimingPasses refusals 4 hardware { ctx.cfg with frequency := info.frequency } ∧
            refusals 6 (.dutyCycle (cappedDutyNs
              { ctx.cfg with frequency := info.frequency, duty := info.duty })) = none
        else if PolarityPasses refusals 2 info.polarity then
          info.frequency ≠ 0 → SwitchesOff refusals 4 →
            TimingPasses refusals 5 hardware { ctx.cfg with frequency := info.frequency }
        else ¬ SwitchesOff refusals 1
  | _ => True

instance (refusals : Refusals) (ctx : PwmCtx) (hardware : Hardware) :
    ∀ request, Decidable (Steady refusals ctx hardware request)
  | .init (some _) none => inferInstanceAs (Decidable (_ → (_ ↔ _)))
  | .init none _ => inferInstanceAs (Decidable True)
  | .init (some _) (some _) => inferInstanceAs (Decidable True)
  | .deinit => inferInstanceAs (Decidable (_ → _))
  | .start => inferInstanceAs (Decidable True)
  | .stop => inferInstanceAs (Decidable True)
  | .dutySet _ => inferInstanceAs (Decidable True)
  | .frequencySet _ => inferInstanceAs (Decidable (_ → _ → _ → _))
  | .polaritySet _ => inferInstanceAs (Decidable (_ → _ → _))
  | .infoSet none _ => inferInstanceAs (Decidable True)
  | .infoSet (some _) _ => by
      unfold Steady
      infer_instance

/-- The writes that switch a channel on again are not refused;
`tkl_pwm_start` alone may fail. -/
def Restores (action : Action) : Prop :=
  action.request = .start ∨ ∀ number, action.refusals number (.enable true) = none

/-! ## Single writes -/

/-- The enable file after the write that switches the channel off. -/
def afterOff (refusals : Refusals) (number : Nat) (enable : Bool) : Bool :=
  if SwitchesOff refusals number then false else enable

@[simp] theorem afterOff_false (refusals : Refusals) (number : Nat) :
    afterOff refusals number false = false := by
  unfold afterOff
  split <;> rfl

theorem afterOff_true_iff {refusals : Refusals} {number : Nat} :
    afterOff refusals number true = true ↔ ¬ SwitchesOff refusals number := by
  unfold afterOff
  split
  · simpa using ‹_›
  · simpa using ‹_›

section Calls

variable {refusals : Refusals} (ctx : PwmCtx) (hardware : Hardware) (writes : Nat)

theorem setEnableLocked_off :
    (setEnableLocked refusals ⟨ctx, hardware, writes⟩ false).1 =
      ⟨ctx, { hardware with enable := afterOff refusals writes hardware.enable }, writes + 1⟩ := by
  unfold afterOff
  by_cases off : SwitchesOff refusals writes
  · have passed : refusals writes (.enable false) = none := off
    simp [setEnableLocked, writeTextFile, passed, off, accept]
  · obtain ⟨errno, refused⟩ := Option.ne_none_iff_exists'.mp off
    simp [setEnableLocked, writeTextFile, refused, off]

theorem setEnableLocked_on (granted : ∀ number, refusals number (.enable true) = none) :
    setEnableLocked refusals ⟨ctx, hardware, writes⟩ true =
      (⟨ctx, { hardware with enable := true }, writes + 1⟩, none) := by
  simp [setEnableLocked, writeTextFile, granted, accept]

theorem setPolarityLocked_passes {polarity : Polarity}
    (passes : PolarityPasses refusals writes polarity) :
    setPolarityLocked refusals ⟨ctx, hardware, writes⟩ polarity =
      (⟨ctx, { hardware with inversed := decide (polarity = .negative) }, writes + 1⟩, none) := by
  unfold PolarityPasses at passes
  simp [setPolarityLocked, writeTextFile, passes, accept]

theorem setPolarityLocked_fails {polarity : Polarity}
    (fails : ¬ PolarityPasses refusals writes polarity) :
    ∃ errno, setPolarityLocked refusals ⟨ctx, hardware, writes⟩ polarity =
      (⟨ctx, hardware, writes + 1⟩, some errno) := by
  obtain ⟨errno, refused⟩ := Option.ne_none_iff_exists'.mp fails
  exact ⟨errno, by simp [setPolarityLocked, writeTextFile, refused]⟩

/-- The two writes of the timing, as the setters make them. -/
def setTiming (refusals : Refusals) (machine : Machine) (cfg : BaseCfg)
    (rest : Machine → Machine × OperateRet) : Machine × OperateRet :=
  orReturn (setPeriodLocked refusals machine (periodNsFromFrequency cfg.frequency)) fun machine =>
    orReturn (setDutyLocked refusals machine (cappedDutyNs cfg)) rest

theorem setTiming_passes {cfg : BaseCfg} (passes : TimingPasses refusals writes hardware cfg)
    (rest : Machine → Machine × OperateRet) :
    setTiming refusals ⟨ctx, hardware, writes⟩ cfg rest =
      rest ⟨ctx, { hardware with
        period := periodNsFromFrequency cfg.frequency
        dutyCycle := cappedDutyNs cfg }, writes + 2⟩ := by
  obtain ⟨fits, period, duty⟩ := passes
  have below := cappedDutyNs_le cfg
  simp [setTiming, setPeriodLocked, setDutyLocked, writeTextFile, orReturn, accept, period, duty,
    fits.1, fits.2, below]

theorem setTiming_fails {cfg : BaseCfg} (fails : ¬ TimingPasses refusals writes hardware cfg)
    (rest : Machine → Machine × OperateRet) :
    ∃ period number result, result ≠ .ok ∧
      setTiming refusals ⟨ctx, hardware, writes⟩ cfg rest =
        (⟨ctx, { hardware with period := period }, number⟩, result) := by
  cases first : refusals writes (.period (periodNsFromFrequency cfg.frequency)) with
  | some errno =>
      refine ⟨hardware.period, writes + 1, _, mapErrnoToOprt_ne_ok errno, ?_⟩
      simp [setTiming, setPeriodLocked, writeTextFile, orReturn, first]
  | none =>
      by_cases fits : PeriodFits hardware cfg.frequency
      · cases second : refusals (writes + 1) (.dutyCycle (cappedDutyNs cfg)) with
        | some errno =>
            refine ⟨periodNsFromFrequency cfg.frequency, writes + 2, _,
              mapErrnoToOprt_ne_ok errno, ?_⟩
            simp [setTiming, setPeriodLocked, setDutyLocked, writeTextFile, orReturn, accept,
              first, second, fits.1, fits.2]
        | none => exact absurd ⟨fits, first, second⟩ fails
      · have rejected : ¬ (periodNsFromFrequency cfg.frequency ≠ 0 ∧
            hardware.dutyCycle ≤ periodNsFromFrequency cfg.frequency) := fits
        refine ⟨hardware.period, writes + 1, _, mapErrnoToOprt_ne_ok .inval, ?_⟩
        simp only [setTiming, setPeriodLocked, writeTextFile, orReturn, accept, first,
          if_neg rejected]

theorem restore_on (granted : ∀ number, refusals number (.enable true) = none)
    {wasEnabled : Bool} {cfg : BaseCfg} (off : wasEnabled = false → hardware.enable = false) :
    restore refusals ⟨ctx, hardware, writes⟩ wasEnabled cfg =
      (⟨{ ctx with cfg := cfg, enabled := wasEnabled }, { hardware with enable := wasEnabled },
        writes + wasEnabled.toNat⟩, .ok) := by
  cases wasEnabled with
  | true => simp [restore, setEnableLocked_on _ _ _ granted, orReturn]
  | false =>
      obtain ⟨period, dutyCycle, inversed, enable⟩ := hardware
      have isOff : enable = false := off rfl
      rw [isOff]
      rfl

/-! ## Setters -/

section Setters

variable (granted : ∀ number, refusals number (.enable true) = none)
  (inited : ctx.inited = true) (agrees : hardware.enable = ctx.enabled)
include inited agrees

include granted in
theorem tklPwmPolaritySet_passes {polarity : Polarity}
    (passes : PolarityPasses refusals (writes + 1) polarity) :
    tklPwmPolaritySet refusals ⟨ctx, hardware, writes⟩ polarity =
      (⟨{ ctx with cfg := { ctx.cfg with polarity := polarity } },
        { hardware with inversed := decide (polarity = .negative) },
        writes + 2 + ctx.enabled.toNat⟩, .ok) := by
  unfold tklPwmPolaritySet
  rw [if_pos (by exact inited)]
  simp only [setEnableLocked_off, setPolarityLocked_passes _ _ _ passes, orReturn]
  rw [restore_on _ _ _ granted]
  · simp only [agrees]
  · intro off
    rw [agrees, off]
    exact afterOff_false _ _

theorem tklPwmPolaritySet_fails {polarity : Polarity}
    (fails : ¬ PolarityPasses refusals (writes + 1) polarity) :
    ∃ result, result ≠ .ok ∧
      tklPwmPolaritySet refusals ⟨ctx, hardware, writes⟩ polarity =
        (⟨ctx, { hardware with enable := afterOff refusals writes ctx.enabled }, writes + 2⟩,
          result) := by
  obtain ⟨errno, refused⟩ := setPolarityLocked_fails ctx
    { hardware with enable := afterOff refusals writes hardware.enable } (writes + 1) fails
  refine ⟨mapErrnoToOprt errno, mapErrnoToOprt_ne_ok errno, ?_⟩
  unfold tklPwmPolaritySet
  rw [if_pos (by exact inited)]
  rw [agrees] at refused
  simp only [setEnableLocked_off, agrees, refused, orReturn]

include granted in
theorem tklPwmFrequencySet_passes {frequency : UInt32}
    (passes : TimingPasses refusals (writes + 1) hardware
      { ctx.cfg with frequency := frequency }) :
    tklPwmFrequencySet refusals ⟨ctx, hardware, writes⟩ frequency =
      (⟨{ ctx with cfg := { ctx.cfg with frequency := frequency } },
        { hardware with
          period := periodNsFromFrequency frequency
          dutyCycle := cappedDutyNs { ctx.cfg with frequency := frequency } },
        writes + 3 + ctx.enabled.toNat⟩, .ok) := by
  have notZero : frequency ≠ 0 := by
    rintro rfl
    exact passes.1.1 rfl
  have timing := setTiming_passes ctx
    { hardware with enable := afterOff refusals writes hardware.enable } (writes + 1) passes
    fun machine => restore refusals machine ctx.enabled { ctx.cfg with frequency := frequency }
  unfold tklPwmFrequencySet
  rw [if_neg notZero, if_pos (by exact inited), setEnableLocked_off]
  refine Eq.trans timing ?_
  rw [restore_on _ _ _ granted]
  · simp only [agrees]
  · intro off
    show afterOff refusals writes hardware.enable = false
    rw [agrees, off]
    exact afterOff_false _ _

theorem tklPwmFrequencySet_fails {frequency : UInt32} (notZero : frequency ≠ 0)
    (fails : ¬ TimingPasses refusals (writes + 1) hardware
      { ctx.cfg with frequency := frequency }) :
    ∃ period number result, result ≠ .ok ∧
      tklPwmFrequencySet refusals ⟨ctx, hardware, writes⟩ frequency =
        (⟨ctx, { hardware with
          period := period, enable := afterOff refusals writes ctx.enabled }, number⟩,
          result) := by
  obtain ⟨period, number, result, failed, timing⟩ := setTiming_fails ctx
    { hardware with enable := afterOff refusals writes hardware.enable } (writes + 1) fails
    fun machine => restore refusals machine ctx.enabled { ctx.cfg with frequency := frequency }
  refine ⟨period, number, result, failed, ?_⟩
  unfold tklPwmFrequencySet
  rw [if_neg notZero, if_pos (by exact inited), setEnableLocked_off]
  refine Eq.trans timing ?_
  rw [agrees]

end Setters

/-! ## One call -/

section Outcomes

variable {ctx hardware} (inStep : InStep ctx hardware)
include inStep

/-- A call that leaves the record as it was. -/
theorem upheld_recorded_iff {after : Hardware} {number : Nat} {result : OperateRet} :
    Upheld ctx hardware (⟨ctx, after, number⟩, result) ↔ after.enable = ctx.enabled := by
  constructor
  · intro upheld
    exact upheld.2.1
  · intro same
    refine ⟨fun _ => ⟨same.symm, fun _ running => ?_⟩, same, inStep.2⟩
    show after.enable = true
    rw [same, ← inStep.1, running]

/-- A call that changes nothing. -/
theorem upheld_unchanged (number : Nat) (result : OperateRet) :
    Upheld ctx hardware (⟨ctx, hardware, number⟩, result) :=
  ⟨fun _ => ⟨inStep.1.symm, fun _ running => running⟩, inStep⟩

omit inStep in
theorem upheld_ok {machine : Machine} (after : InStep machine.ctx machine.hardware) :
    Upheld ctx hardware (machine, .ok) :=
  ⟨fun failed => absurd rfl failed, after⟩

theorem InStep.inited_of_enabled (enabled : ctx.enabled = true) : ctx.inited = true := by
  by_contra uninited
  rw [inStep.2 (by simpa using uninited)] at enabled
  exact absurd enabled (by decide)

omit inStep in
theorem afterOff_eq_iff {number : Nat} {enable : Bool} :
    afterOff refusals number enable = enable ↔
      (enable = true → ¬ SwitchesOff refusals number) := by
  cases enable with
  | true => simp [afterOff_true_iff]
  | false => simp

theorem tklPwmPolaritySet_upheld (granted : ∀ number, refusals number (.enable true) = none)
    (polarity : Polarity) :
    Upheld ctx hardware (tklPwmPolaritySet refusals ⟨ctx, hardware, writes⟩ polarity) ↔
      (ctx.enabled = true → SwitchesOff refusals writes →
        PolarityPasses refusals (writes + 1) polarity) := by
  by_cases inited : ctx.inited = true
  · by_cases passes : PolarityPasses refusals (writes + 1) polarity
    · rw [tklPwmPolaritySet_passes ctx hardware writes granted inited inStep.1 passes]
      exact ⟨fun _ _ _ => passes, fun _ => upheld_ok inStep⟩
    · obtain ⟨result, failed, done⟩ :=
        tklPwmPolaritySet_fails ctx hardware writes inited inStep.1 passes
      rw [done, upheld_recorded_iff inStep]
      show afterOff refusals writes ctx.enabled = ctx.enabled ↔ _
      rw [afterOff_eq_iff]
      exact ⟨fun stays enabled off => absurd off (stays enabled),
        fun steady enabled off => passes (steady enabled off)⟩
  · unfold tklPwmPolaritySet
    rw [if_neg (by exact inited)]
    exact ⟨fun _ enabled => absurd (inStep.inited_of_enabled enabled) inited,
      fun _ => upheld_unchanged inStep writes _⟩

theorem tklPwmFrequencySet_upheld (granted : ∀ number, refusals number (.enable true) = none)
    (frequency : UInt32) :
    Upheld ctx hardware (tklPwmFrequencySet refusals ⟨ctx, hardware, writes⟩ frequency) ↔
      (ctx.enabled = true → frequency ≠ 0 → SwitchesOff refusals writes →
        TimingPasses refusals (writes + 1) hardware { ctx.cfg with frequency := frequency }) := by
  by_cases zero : frequency = 0
  · unfold tklPwmFrequencySet
    rw [if_pos zero]
    exact ⟨fun _ _ notZero => absurd zero notZero, fun _ => upheld_unchanged inStep writes _⟩
  · by_cases inited : ctx.inited = true
    · by_cases passes :
          TimingPasses refusals (writes + 1) hardware { ctx.cfg with frequency := frequency }
      · rw [tklPwmFrequencySet_passes ctx hardware writes granted inited inStep.1 passes]
        exact ⟨fun _ _ _ _ => passes, fun _ => upheld_ok inStep⟩
      · obtain ⟨period, number, result, failed, done⟩ :=
          tklPwmFrequencySet_fails ctx hardware writes inited inStep.1 zero passes
        rw [done, upheld_recorded_iff inStep]
        show afterOff refusals writes ctx.enabled = ctx.enabled ↔ _
        rw [afterOff_eq_iff]
        exact ⟨fun stays enabled _ off => absurd off (stays enabled),
          fun steady enabled off => passes (steady enabled zero off)⟩
    · unfold tklPwmFrequencySet
      rw [if_neg zero, if_neg (by exact inited)]
      exact ⟨fun _ enabled => absurd (inStep.inited_of_enabled enabled) inited,
        fun _ => upheld_unchanged inStep writes _⟩

omit inStep in
/-- Setting the duty leaves the output alone. -/
theorem tklPwmDutySet_output (duty : UInt32) :
    ∃ cfg dutyCycle number result,
      tklPwmDutySet refusals ⟨ctx, hardware, writes⟩ duty =
        (⟨{ ctx with cfg := cfg }, { hardware with dutyCycle := dutyCycle }, number⟩, result) ∧
      (result ≠ .ok → cfg = ctx.cfg) := by
  unfold tklPwmDutySet
  by_cases inited : ctx.inited = true
  · rw [if_pos (by exact inited)]
    simp only [setDutyLocked, writeTextFile]
    cases refusals writes (.dutyCycle (cappedDutyNs { ctx.cfg with duty := duty })) with
    | some errno => exact ⟨ctx.cfg, hardware.dutyCycle, writes + 1, _, rfl, fun _ => rfl⟩
    | none =>
        simp only [accept]
        split
        · rename_i accepted
          split at accepted
          · rw [← Option.some.inj accepted]
            exact ⟨_, _, writes + 1, .ok, rfl, fun failed => absurd rfl failed⟩
          · exact absurd accepted (by simp)
        · exact ⟨ctx.cfg, hardware.dutyCycle, writes + 1, _, rfl, fun _ => rfl⟩
  · rw [if_neg (by exact inited)]
    exact ⟨ctx.cfg, hardware.dutyCycle, writes, _, rfl, fun _ => rfl⟩

theorem tklPwmDutySet_upheld (duty : UInt32) :
    Upheld ctx hardware (tklPwmDutySet refusals ⟨ctx, hardware, writes⟩ duty) := by
  obtain ⟨cfg, dutyCycle, number, result, done, -⟩ :=
    @tklPwmDutySet_output refusals ctx hardware writes duty
  rw [done]
  exact ⟨fun _ => ⟨inStep.1.symm, fun _ running => running⟩, inStep⟩

omit inStep in
theorem enableSet_output (enable : Bool) :
    enableSet refusals ⟨ctx, hardware, writes⟩ enable =
        (⟨{ ctx with enabled := enable }, { hardware with enable := enable }, writes + 1⟩, .ok) ∧
          ctx.inited = true ∧ refusals writes (.enable enable) = none ∨
      ∃ number result, result ≠ .ok ∧
        enableSet refusals ⟨ctx, hardware, writes⟩ enable =
          (⟨ctx, hardware, number⟩, result) ∧
        (ctx.inited = true → refusals writes (.enable enable) ≠ none ∧ number = writes + 1) := by
  unfold enableSet
  by_cases inited : ctx.inited = true
  · rw [if_pos (by exact inited)]
    cases refused : refusals writes (.enable enable) with
    | some errno =>
        right
        exact ⟨writes + 1, mapErrnoToOprt errno, mapErrnoToOprt_ne_ok errno,
          by simp [setEnableLocked, writeTextFile, refused, orReturn], by simp⟩
    | none =>
        left
        exact ⟨by simp [setEnableLocked, writeTextFile, refused, orReturn, accept], inited, rfl⟩
  · right
    rw [if_neg (by exact inited)]
    exact ⟨writes, .invalidParm, by decide, rfl, fun isInited => absurd isInited inited⟩

theorem enableSet_upheld (enable : Bool) :
    Upheld ctx hardware (enableSet refusals ⟨ctx, hardware, writes⟩ enable) := by
  rcases @enableSet_output refusals ctx hardware writes enable with
    ⟨done, inited, -⟩ | ⟨number, result, -, done, -⟩
  · rw [done]
    refine upheld_ok ⟨rfl, fun uninited => ?_⟩
    rw [inited] at uninited
    exact absurd uninited (by decide)
  · rw [done]
    exact upheld_unchanged inStep number result

theorem tklPwmDeinit_upheld :
    Upheld ctx hardware (tklPwmDeinit refusals ⟨ctx, hardware, writes⟩) ↔
      (ctx.enabled = true → SwitchesOff refusals writes) := by
  unfold tklPwmDeinit
  by_cases enabled : ctx.enabled = true
  · simp only [enabled, if_true, setEnableLocked_off]
    constructor
    · intro upheld _
      have off : afterOff refusals writes hardware.enable = false := upheld.2.1
      rw [inStep.1, enabled] at off
      by_contra stays
      rw [afterOff_true_iff.mpr stays] at off
      exact absurd off (by decide)
    · intro steady
      refine upheld_ok ⟨?_, fun _ => rfl⟩
      show afterOff refusals writes hardware.enable = false
      unfold afterOff
      rw [if_pos (steady trivial)]
  · simp only [enabled]
    refine ⟨fun _ isEnabled => absurd isEnabled (by decide), fun _ => upheld_ok ⟨?_, fun _ => rfl⟩⟩
    show hardware.enable = false
    rw [inStep.1]
    simpa using enabled

omit inStep in
theorem tklPwmInit_passes {cfg : BaseCfg}
    (polarity : PolarityPasses refusals (writes + 1) cfg.polarity)
    (timing : TimingPasses refusals (writes + 2) hardware cfg) :
    tklPwmInit refusals ⟨ctx, hardware, writes⟩ (some cfg) none =
      (⟨⟨true, true, false, cfg⟩,
        ⟨periodNsFromFrequency cfg.frequency, cappedDutyNs cfg,
          decide (cfg.polarity = .negative), afterOff refusals writes hardware.enable⟩,
        writes + 4⟩, .ok) := by
  have written := setTiming_passes ctx
    { hardware with
      inversed := decide (cfg.polarity = .negative)
      enable := afterOff refusals writes hardware.enable }
    (writes + 2) timing fun machine => ({ machine with ctx := ⟨true, true, false, cfg⟩ }, .ok)
  simp only [tklPwmInit, orReturn, setEnableLocked_off, setPolarityLocked_passes _ _ _ polarity]
  rw [if_neg timing.1.1]
  exact written

omit inStep in
theorem tklPwmInit_fails {cfg : BaseCfg}
    (fails : ¬ (PolarityPasses refusals (writes + 1) cfg.polarity ∧
      TimingPasses refusals (writes + 2) hardware cfg)) :
    ∃ after number result, result ≠ .ok ∧
      after.enable = afterOff refusals writes hardware.enable ∧
      tklPwmInit refusals ⟨ctx, hardware, writes⟩ (some cfg) none =
        (⟨ctx, after, number⟩, result) := by
  by_cases polarity : PolarityPasses refusals (writes + 1) cfg.polarity
  · simp only [tklPwmInit, orReturn, setEnableLocked_off, setPolarityLocked_passes _ _ _ polarity]
    by_cases zero : periodNsFromFrequency cfg.frequency = 0
    · rw [if_pos zero]
      exact ⟨_, _, .invalidParm, by decide, rfl, rfl⟩
    · rw [if_neg zero]
      obtain ⟨period, number, result, failed, written⟩ := setTiming_fails ctx
        { hardware with
          inversed := decide (cfg.polarity = .negative)
          enable := afterOff refusals writes hardware.enable }
        (writes + 2) (fun timing => fails ⟨polarity, timing⟩)
        fun machine => ({ machine with ctx := ⟨true, true, false, cfg⟩ }, .ok)
      exact ⟨_, number, result, failed, rfl, written⟩
  · obtain ⟨errno, refused⟩ := setPolarityLocked_fails ctx
      { hardware with enable := afterOff refusals writes hardware.enable } (writes + 1) polarity
    simp only [tklPwmInit, orReturn, setEnableLocked_off, refused]
    exact ⟨_, _, mapErrnoToOprt errno, mapErrnoToOprt_ne_ok errno, rfl, rfl⟩

theorem tklPwmInit_upheld (cfg : BaseCfg) :
    Upheld ctx hardware (tklPwmInit refusals ⟨ctx, hardware, writes⟩ (some cfg) none) ↔
      (ctx.enabled = true →
        (SwitchesOff refusals writes ↔
          PolarityPasses refusals (writes + 1) cfg.polarity ∧
            TimingPasses refusals (writes + 2) hardware cfg)) := by
  by_cases passes : PolarityPasses refusals (writes + 1) cfg.polarity ∧
      TimingPasses refusals (writes + 2) hardware cfg
  · rw [tklPwmInit_passes writes passes.1 passes.2]
    have off : Upheld ctx hardware
        (⟨⟨true, true, false, cfg⟩, ⟨periodNsFromFrequency cfg.frequency, cappedDutyNs cfg,
          decide (cfg.polarity = .negative), afterOff refusals writes hardware.enable⟩,
          writes + 4⟩, .ok) ↔ afterOff refusals writes ctx.enabled = false := by
      rw [← inStep.1]
      exact ⟨fun upheld => upheld.2.1, fun isOff => upheld_ok ⟨isOff, fun _ => rfl⟩⟩
    rw [off]
    cases ctx.enabled with
    | false => simp
    | true => simp [passes, afterOff]
  · obtain ⟨after, number, result, failed, enable, done⟩ := @tklPwmInit_fails refusals ctx hardware
      writes cfg passes
    rw [done, upheld_recorded_iff inStep, enable, inStep.1, afterOff_eq_iff]
    simp [passes]

/-! ## `tkl_pwm_info_set` -/

/-- On a channel that does not run, being in step is all there is to uphold. -/
theorem upheld_of_idle (idle : ctx.enabled = false) {result : Machine × OperateRet}
    (after : InStep result.1.ctx result.1.hardware) : Upheld ctx hardware result := by
  refine ⟨fun _ => ⟨after.1.symm, fun _ running => ?_⟩, after⟩
  rw [inStep.1, idle] at running
  exact absurd running (by decide)

/-- A channel that was running and is recorded as stopped was not upheld by a
call that failed. -/
theorem not_upheld_of_stopped (enabled : ctx.enabled = true) {result : Machine × OperateRet}
    (failed : result.2 ≠ .ok) (stopped : result.1.ctx.enabled = false) :
    ¬ Upheld ctx hardware result := by
  intro upheld
  obtain ⟨same, runs⟩ := upheld.1 failed
  have running := runs (inStep.inited_of_enabled enabled) (inStep.1.trans enabled)
  rw [← same, stopped] at running
  exact absurd running (by decide)

omit inStep in
theorem tklPwmDutySet_refused (inited : ctx.inited = true) {duty : UInt32}
    (refused : refusals writes (.dutyCycle (cappedDutyNs { ctx.cfg with duty := duty })) ≠ none) :
    (tklPwmDutySet refusals ⟨ctx, hardware, writes⟩ duty).2 ≠ .ok := by
  obtain ⟨errno, isErrno⟩ := Option.ne_none_iff_exists'.mp refused
  simp [tklPwmDutySet, inited, setDutyLocked, writeTextFile, isErrno, orReturn,
    mapErrnoToOprt_ne_ok]

/-- The part of `tkl_pwm_info_set` between the stop and the restart. -/
def applyInfo (refusals : Refusals) (machine : Machine) (info : BaseCfg)
    (restart : Machine → Machine × OperateRet) : Machine × OperateRet :=
  ifOk (tklPwmPolaritySet refusals machine info.polarity) fun machine =>
    ifOk (tklPwmFrequencySet refusals machine info.frequency) fun machine =>
      ifOk (tklPwmDutySet refusals machine info.duty) fun machine =>
        restart { machine with ctx := { machine.ctx with cfg := info } }

omit inStep in
theorem ifOk_return (result : Machine × OperateRet) :
    ifOk result (fun machine => (machine, .ok)) = result := by
  unfold ifOk
  split
  · rename_i isOk
    rw [← isOk]
  · rfl

/-- What `tkl_pwm_info_set` writes on a stopped channel. -/
def InfoPasses (refusals : Refusals) (number : Nat) (ctx : PwmCtx) (hardware : Hardware)
    (info : BaseCfg) : Prop :=
  PolarityPasses refusals (number + 1) info.polarity ∧
    TimingPasses refusals (number + 3) hardware { ctx.cfg with frequency := info.frequency } ∧
    refusals (number + 5) (.dutyCycle (cappedDutyNs
      { ctx.cfg with frequency := info.frequency, duty := info.duty })) = none

/-- The record after polarity and frequency are set. -/
def retimed (ctx : PwmCtx) (info : BaseCfg) : PwmCtx :=
  { ctx with cfg := { ctx.cfg with polarity := info.polarity, frequency := info.frequency } }

/-- The hardware after polarity and frequency are set. -/
def retimedHardware (ctx : PwmCtx) (hardware : Hardware) (info : BaseCfg) : Hardware :=
  { hardware with
    period := periodNsFromFrequency info.frequency
    dutyCycle := cappedDutyNs (retimed ctx info).cfg
    inversed := decide (info.polarity = .negative) }

omit inStep in
/-- With polarity and frequency set, the duty is left. -/
theorem applyInfo_timed (granted : ∀ number, refusals number (.enable true) = none)
    (inited : ctx.inited = true) (agrees : hardware.enable = ctx.enabled) {info : BaseCfg}
    (polarity : PolarityPasses refusals (writes + 1) info.polarity)
    (timing : TimingPasses refusals (writes + 2 + ctx.enabled.toNat + 1) hardware
      { ctx.cfg with frequency := info.frequency })
    (restart : Machine → Machine × OperateRet) :
    applyInfo refusals ⟨ctx, hardware, writes⟩ info restart =
      ifOk (tklPwmDutySet refusals ⟨retimed ctx info, retimedHardware ctx hardware info,
          writes + 2 + ctx.enabled.toNat + 3 + ctx.enabled.toNat⟩ info.duty) fun machine =>
        restart { machine with ctx := { machine.ctx with cfg := info } } := by
  have frequencySet := tklPwmFrequencySet_passes
    { ctx with cfg := { ctx.cfg with polarity := info.polarity } }
    { hardware with inversed := decide (info.polarity = .negative) }
    (writes + 2 + ctx.enabled.toNat) granted inited agrees timing
  unfold applyInfo
  rw [tklPwmPolaritySet_passes ctx hardware writes granted inited agrees polarity, ifOk_ok,
    frequencySet, ifOk_ok]
  rfl

omit inStep in
/-- When the frequency cannot be set, the output is what the setter left. -/
theorem applyInfo_untimed (granted : ∀ number, refusals number (.enable true) = none)
    (inited : ctx.inited = true) (agrees : hardware.enable = ctx.enabled) {info : BaseCfg}
    (polarity : PolarityPasses refusals (writes + 1) info.polarity)
    (timing : ¬ TimingPasses refusals (writes + 2 + ctx.enabled.toNat + 1) hardware
      { ctx.cfg with frequency := info.frequency })
    (restart : Machine → Machine × OperateRet) :
    ∃ cfg after number result, result ≠ .ok ∧
      applyInfo refusals ⟨ctx, hardware, writes⟩ info restart =
        (⟨{ ctx with cfg := cfg }, after, number⟩, result) ∧
      after.enable = if info.frequency = 0 then hardware.enable
        else afterOff refusals (writes + 2 + ctx.enabled.toNat) ctx.enabled := by
  unfold applyInfo
  rw [tklPwmPolaritySet_passes ctx hardware writes granted inited agrees polarity, ifOk_ok]
  by_cases zero : info.frequency = 0
  · rw [tklPwmFrequencySet, if_pos zero, ifOk_failed (by decide), if_pos zero]
    exact ⟨_, _, _, _, by decide, rfl, rfl⟩
  · obtain ⟨period, number, result, failed, done⟩ := tklPwmFrequencySet_fails
      { ctx with cfg := { ctx.cfg with polarity := info.polarity } }
      { hardware with inversed := decide (info.polarity = .negative) }
      (writes + 2 + ctx.enabled.toNat) inited agrees zero timing
    rw [done, ifOk_failed failed, if_neg zero]
    exact ⟨_, _, number, result, failed, rfl, rfl⟩

omit inStep in
/-- When the polarity cannot be set, nothing else is. -/
theorem applyInfo_unpolarized (inited : ctx.inited = true)
    (agrees : hardware.enable = ctx.enabled) {info : BaseCfg}
    (polarity : ¬ PolarityPasses refusals (writes + 1) info.polarity)
    (restart : Machine → Machine × OperateRet) :
    ∃ result, result ≠ .ok ∧
      applyInfo refusals ⟨ctx, hardware, writes⟩ info restart =
        (⟨ctx, { hardware with enable := afterOff refusals writes ctx.enabled }, writes + 2⟩,
          result) := by
  obtain ⟨result, failed, done⟩ :=
    tklPwmPolaritySet_fails ctx hardware writes inited agrees polarity
  refine ⟨result, failed, ?_⟩
  unfold applyInfo
  rw [done, ifOk_failed failed]

omit inStep in
/-- On a stopped channel the configuration is applied as a whole, or the call
fails and the channel is still stopped on both sides. -/
theorem applyInfo_stopped (granted : ∀ number, refusals number (.enable true) = none)
    (inited : ctx.inited = true) (idle : ctx.enabled = false) (off : hardware.enable = false)
    (info : BaseCfg) (restart : Machine → Machine × OperateRet) :
    (InfoPasses refusals writes ctx hardware info ∧ ∃ after,
      applyInfo refusals ⟨ctx, hardware, writes⟩ info restart =
        restart ⟨{ ctx with cfg := info }, after, writes + 6⟩ ∧ after.enable = false) ∨
    (¬ InfoPasses refusals writes ctx hardware info ∧
      ∃ cfg after number result, result ≠ .ok ∧
        applyInfo refusals ⟨ctx, hardware, writes⟩ info restart =
          (⟨{ ctx with cfg := cfg }, after, number⟩, result) ∧ after.enable = false) := by
  have agrees : hardware.enable = ctx.enabled := by rw [off, idle]
  have noRestore : ctx.enabled.toNat = 0 := by rw [idle]; rfl
  have staysOff : ∀ number, afterOff refusals number ctx.enabled = false := by
    intro number
    rw [idle]
    exact afterOff_false _ _
  by_cases polarity : PolarityPasses refusals (writes + 1) info.polarity
  · by_cases timing :
        TimingPasses refusals (writes + 3) hardware { ctx.cfg with frequency := info.frequency }
    · have timed := applyInfo_timed writes granted inited agrees polarity
        (by rw [noRestore]; exact timing) restart
      rw [noRestore] at timed
      rw [timed]
      by_cases duty : refusals (writes + 5) (.dutyCycle (cappedDutyNs
          { ctx.cfg with frequency := info.frequency, duty := info.duty })) = none
      · left
        refine ⟨⟨polarity, timing, duty⟩, ?_⟩
        have dutySet := @tklPwmDutySet_passes refusals (retimed ctx info)
          (retimedHardware ctx hardware info) (writes + 5) inited info.duty rfl (by exact duty)
        rw [dutySet, ifOk_ok]
        exact ⟨_, rfl, off⟩
      · right
        refine ⟨fun passes => duty passes.2.2, ?_⟩
        obtain ⟨cfg, dutyCycle, number, result, done, -⟩ := @tklPwmDutySet_output refusals
          (retimed ctx info) (retimedHardware ctx hardware info) (writes + 5) info.duty
        have failed := @tklPwmDutySet_refused refusals (retimed ctx info)
          (retimedHardware ctx hardware info) (writes + 5) inited info.duty (by exact duty)
        rw [done] at failed
        rw [done, ifOk_failed failed]
        exact ⟨cfg, _, number, result, failed, rfl, off⟩
    · right
      refine ⟨fun passes => timing passes.2.1, ?_⟩
      obtain ⟨cfg, after, number, result, failed, done, isOff⟩ := applyInfo_untimed writes granted
        inited agrees polarity (by rw [noRestore]; exact timing) restart
      refine ⟨cfg, after, number, result, failed, done, ?_⟩
      rw [isOff, staysOff, off, ite_self]
  · right
    refine ⟨fun passes => polarity passes.1, ?_⟩
    obtain ⟨result, failed, done⟩ :=
      applyInfo_unpolarized writes inited agrees polarity restart
    exact ⟨ctx.cfg, _, _, result, failed, done, staysOff _⟩

omit inStep in
/-- A channel that runs on both sides after the call was upheld. -/
theorem upheld_of_running {result : Machine × OperateRet} (inited : result.1.ctx.inited = true)
    (enabled : result.1.ctx.enabled = true) (running : result.1.hardware.enable = true) :
    Upheld ctx hardware result := by
  refine ⟨fun _ => ⟨enabled.trans running.symm, fun _ _ => running⟩,
    running.trans enabled.symm, fun uninited => ?_⟩
  rw [inited] at uninited
  exact absurd uninited (by decide)

omit inStep in
/-- The last setter and the start keep a running channel running. -/
theorem duty_start_running (ctx' : PwmCtx) (hardware' : Hardware) (number : Nat)
    (inited : ctx'.inited = true) (enabled : ctx'.enabled = true)
    (running : hardware'.enable = true) (info : BaseCfg) :
    Upheld ctx hardware (ifOk (tklPwmDutySet refusals ⟨ctx', hardware', number⟩ info.duty)
      fun machine => tklPwmStart refusals
        { machine with ctx := { machine.ctx with cfg := info } }) := by
  obtain ⟨cfg, dutyCycle, last, result, done, -⟩ :=
    @tklPwmDutySet_output refusals ctx' hardware' number info.duty
  rw [done]
  by_cases isOk : result = .ok
  · rw [isOk, ifOk_ok]
    rcases @enableSet_output refusals { ctx' with cfg := info }
      { hardware' with dutyCycle := dutyCycle } last true with
      ⟨started, -⟩ | ⟨after, failure, -, started, -⟩
    · refine Eq.mpr (congrArg (Upheld ctx hardware) started) ?_
      exact upheld_of_running inited rfl rfl
    · refine Eq.mpr (congrArg (Upheld ctx hardware) started) ?_
      exact upheld_of_running inited enabled running
  · rw [ifOk_failed isOk]
    exact upheld_of_running inited enabled running

/-- A running channel whose stop was refused: each setter restores what it
switched off, unless it fails. -/
theorem applyInfo_running (granted : ∀ number, refusals number (.enable true) = none)
    (enabled : ctx.enabled = true) (info : BaseCfg) :
    Upheld ctx hardware
        (applyInfo refusals ⟨ctx, hardware, writes⟩ info (tklPwmStart refusals)) ↔
      if PolarityPasses refusals (writes + 1) info.polarity then
        info.frequency ≠ 0 → SwitchesOff refusals (writes + 3) →
          TimingPasses refusals (writes + 4) hardware { ctx.cfg with frequency := info.frequency }
      else ¬ SwitchesOff refusals writes := by
  have inited := inStep.inited_of_enabled enabled
  have running : hardware.enable = true := inStep.1.trans enabled
  have oneRestore : ctx.enabled.toNat = 1 := by rw [enabled]; rfl
  by_cases polarity : PolarityPasses refusals (writes + 1) info.polarity
  · rw [if_pos polarity]
    by_cases timing :
        TimingPasses refusals (writes + 4) hardware { ctx.cfg with frequency := info.frequency }
    · refine ⟨fun _ _ _ => timing, fun _ => ?_⟩
      rw [applyInfo_timed writes granted inited inStep.1 polarity
        (by rw [oneRestore]; exact timing)]
      exact duty_start_running (retimed ctx info) (retimedHardware ctx hardware info) _ inited
        enabled running info
    · obtain ⟨cfg, after, number, result, failed, done, isAfter⟩ := applyInfo_untimed writes
        granted inited inStep.1 polarity (by rw [oneRestore]; exact timing) (tklPwmStart refusals)
      rw [oneRestore] at isAfter
      rw [done]
      by_cases zero : info.frequency = 0
      · rw [if_pos zero] at isAfter
        exact ⟨fun _ notZero => absurd zero notZero,
          fun _ => upheld_of_running inited enabled (isAfter.trans running)⟩
      · rw [if_neg zero] at isAfter
        constructor
        · intro upheld _ off
          have stays : afterOff refusals (writes + 3) ctx.enabled = ctx.enabled :=
            isAfter.symm.trans upheld.2.1
          exact absurd off (afterOff_eq_iff.mp stays enabled)
        · intro steady
          have stays : ¬ SwitchesOff refusals (writes + 3) :=
            fun off => timing (steady zero off)
          refine upheld_of_running inited enabled ?_
          rw [isAfter, enabled]
          exact afterOff_true_iff.mpr stays
  · rw [if_neg polarity]
    obtain ⟨result, failed, done⟩ :=
      applyInfo_unpolarized writes inited inStep.1 polarity (tklPwmStart refusals)
    rw [done, upheld_recorded_iff inStep]
    show afterOff refusals writes ctx.enabled = ctx.enabled ↔ _
    rw [afterOff_eq_iff]
    exact ⟨fun stays => stays enabled, fun stays _ => stays⟩

theorem tklPwmInfoSet_upheld (granted : ∀ number, refusals number (.enable true) = none)
    (info : BaseCfg) (exported : Option Errno) :
    Upheld ctx hardware (tklPwmInfoSet refusals ⟨ctx, hardware, 0⟩ (some info) exported) ↔
      Steady refusals ctx hardware (.infoSet (some info) exported) := by
  by_cases enabled : ctx.enabled = true
  · have inited := inStep.inited_of_enabled enabled
    have running : hardware.enable = true := inStep.1.trans enabled
    have unfolded : tklPwmInfoSet refusals ⟨ctx, hardware, 0⟩ (some info) exported =
        applyInfo refusals (tklPwmStop refusals ⟨ctx, hardware, 0⟩).1 info
          (tklPwmStart refusals) := by
      simp only [tklPwmInfoSet, inited, enabled, if_true]
      rfl
    rw [unfolded]
    by_cases off : SwitchesOff refusals 0
    · have stopped : (tklPwmStop refusals ⟨ctx, hardware, 0⟩).1 =
          ⟨{ ctx with enabled := false }, { hardware with enable := false }, 1⟩ := by
        rcases @enableSet_output refusals ctx hardware 0 false with
          ⟨done, -⟩ | ⟨number, result, -, -, refused⟩
        · rw [tklPwmStop, done]
        · exact absurd off (refused inited).1
      have condition : Steady refusals ctx hardware (.infoSet (some info) exported) ↔
          InfoPasses refusals 1 { ctx with enabled := false } { hardware with enable := false }
            info := by
        simp only [Steady, enabled, true_implies, if_pos off]
        rfl
      rw [stopped, condition]
      rcases applyInfo_stopped 1 granted (show ({ ctx with enabled := false } :
          PwmCtx).inited = true from inited) rfl (show ({ hardware with enable := false } :
          Hardware).enable = false from rfl) info (tklPwmStart refusals) with
        ⟨passes, after, done, -⟩ | ⟨fails, cfg, after, number, result, failed, done, -⟩
      · refine ⟨fun _ => passes, fun _ => ?_⟩
        rw [done]
        rcases @enableSet_output refusals { ctx with enabled := false, cfg := info } after (1 + 6)
          true with ⟨started, -⟩ | ⟨last, failure, -, -, refused⟩
        · refine Eq.mpr (congrArg (Upheld ctx hardware) started) ?_
          exact upheld_of_running inited rfl rfl
        · exact absurd (granted _) (refused inited).1
      · refine ⟨fun upheld => ?_, fun passes => absurd passes fails⟩
        rw [done] at upheld
        exact absurd upheld (not_upheld_of_stopped inStep enabled failed rfl)
    · have unstopped : (tklPwmStop refusals ⟨ctx, hardware, 0⟩).1 = ⟨ctx, hardware, 1⟩ := by
        rcases @enableSet_output refusals ctx hardware 0 false with
          ⟨-, -, granted⟩ | ⟨number, result, -, done, refused⟩
        · exact absurd granted off
        · rw [tklPwmStop, done, (refused inited).2]
      rw [unstopped, applyInfo_running 1 inStep granted enabled]
      simp only [Steady, enabled, true_implies, if_neg off]
  · have idle : ctx.enabled = false := by simpa using enabled
    have off : hardware.enable = false := inStep.1.trans idle
    have vacuous : Steady refusals ctx hardware (.infoSet (some info) exported) :=
      fun isEnabled => absurd isEnabled enabled
    refine ⟨fun _ => vacuous, fun _ => ?_⟩
    by_cases inited : ctx.inited = true
    · have unfolded : tklPwmInfoSet refusals ⟨ctx, hardware, 0⟩ (some info) exported =
          applyInfo refusals ⟨ctx, hardware, 0⟩ info (fun machine => (machine, .ok)) := by
        simp only [tklPwmInfoSet, inited, idle, if_true]
        rfl
      rw [unfolded]
      apply upheld_of_idle inStep idle
      rcases applyInfo_stopped 0 granted inited idle off info (fun machine => (machine, .ok)) with
        ⟨-, after, done, isOff⟩ | ⟨-, cfg, after, number, result, -, done, isOff⟩
      · rw [done]
        exact ⟨isOff.trans idle.symm, inStep.2⟩
      · rw [done]
        exact ⟨isOff.trans idle.symm, inStep.2⟩
    · have unfolded : tklPwmInfoSet refusals ⟨ctx, hardware, 0⟩ (some info) exported =
          tklPwmInit refusals ⟨ctx, hardware, 0⟩ (some info) exported := by
        simp only [tklPwmInfoSet, inited, idle, if_false, Bool.false_eq_true]
        exact ifOk_return _
      rw [unfolded]
      cases exported with
      | some errno => exact upheld_unchanged inStep 0 _
      | none => exact (tklPwmInit_upheld 0 inStep info).mpr fun isEnabled => absurd isEnabled enabled

theorem perform_upheld {request : Request}
    (restores : request = .start ∨ ∀ number, refusals number (.enable true) = none) :
    Upheld ctx hardware (perform refusals ⟨ctx, hardware, 0⟩ request) ↔
      Steady refusals ctx hardware request := by
  cases request with
  | start => exact ⟨fun _ => trivial, fun _ => enableSet_upheld 0 inStep true⟩
  | stop => exact ⟨fun _ => trivial, fun _ => enableSet_upheld 0 inStep false⟩
  | deinit => exact tklPwmDeinit_upheld 0 inStep
  | dutySet duty => exact ⟨fun _ => trivial, fun _ => tklPwmDutySet_upheld 0 inStep duty⟩
  | init cfg exported =>
      cases cfg with
      | none => exact ⟨fun _ => trivial, fun _ => upheld_unchanged inStep 0 _⟩
      | some cfg =>
          cases exported with
          | some errno => exact ⟨fun _ => trivial, fun _ => upheld_unchanged inStep 0 _⟩
          | none => exact tklPwmInit_upheld 0 inStep cfg
  | frequencySet frequency =>
      have granted := restores.resolve_left (by simp)
      exact tklPwmFrequencySet_upheld 0 inStep granted frequency
  | polaritySet polarity =>
      have granted := restores.resolve_left (by simp)
      exact tklPwmPolaritySet_upheld 0 inStep granted polarity
  | infoSet info exported =>
      cases info with
      | none => exact ⟨fun _ => trivial, fun _ => upheld_unchanged inStep 0 _⟩
      | some info =>
          have granted := restores.resolve_left (by simp)
          exact tklPwmInfoSet_upheld inStep granted info exported

end Outcomes

end Calls

/-! ## Runs -/

/-- Record and hardware have the same state of every output. -/
def AllInStep (system : System) : Prop :=
  ∀ chId, InStep (system.ctx chId) (system.hardware chId)

/-- A call that fails leaves a running channel running. -/
def SurvivesStep (system : System) (action : Action) : Prop :=
  Survives (system.ctx action.chId) (system.hardware action.chId) (system.perform action)

def UpheldStep (system : System) (action : Action) : Prop :=
  Upheld (system.ctx action.chId) (system.hardware action.chId) (system.perform action)

def SteadyStep (system : System) (action : Action) : Prop :=
  action.chId < pwmNumMax →
    Steady action.refusals (system.ctx action.chId) (system.hardware action.chId) action.request

instance (system : System) (action : Action) : Decidable (SteadyStep system action) :=
  inferInstanceAs (Decidable (_ → _))

def RestoresStep (_system : System) (action : Action) : Prop := Restores action

theorem step_upheld {system : System} {action : Action} (inStep : AllInStep system)
    (restores : Restores action) : UpheldStep system action ↔ SteadyStep system action := by
  unfold UpheldStep SteadyStep System.perform
  by_cases valid : action.chId < pwmNumMax
  · rw [if_pos valid]
    have one := perform_upheld (inStep action.chId) restores
    exact ⟨fun upheld _ => one.mp upheld, fun steady => one.mpr (steady valid)⟩
  · rw [if_neg valid]
    exact ⟨fun _ isValid => absurd isValid valid,
      fun _ => upheld_unchanged (inStep action.chId) 0 _⟩

theorem step_inStep {system next : System} {action : Action} (inStep : AllInStep system)
    (upheld : UpheldStep system action) (stepped : step system action = some next) :
    AllInStep next := by
  rw [← Option.some.inj stepped]
  intro chId
  by_cases isChannel : chId = action.chId
  · rw [isChannel]
    simp only [Function.update_self]
    exact upheld.2
  · simp only [Function.update_of_ne isChannel]
    exact inStep chId

/-- In every run whose steps are steady, a call that fails leaves record and
hardware with the same state of the output and a running channel running. The
condition is exact: all steps of a run are upheld if and only if all are
steady. -/
theorem pwm_failure_survived_of_steady {hardware : Nat → Hardware} {actions : List Action}
    (off : ∀ chId, (hardware chId).enable = false)
    (restores : EveryStep step RestoresStep (System.initial hardware) actions) :
    (EveryStep step SteadyStep (System.initial hardware) actions →
      EveryStep step SurvivesStep (System.initial hardware) actions) ∧
    (EveryStep step UpheldStep (System.initial hardware) actions ↔
      EveryStep step SteadyStep (System.initial hardware) actions) := by
  have initially : AllInStep (System.initial hardware) := fun chId => ⟨off chId, fun _ => rfl⟩
  have oneStep : ∀ system action, AllInStep system → RestoresStep system action →
      (UpheldStep system action ↔ SteadyStep system action) :=
    fun _ _ inStep restoresStep => step_upheld inStep restoresStep
  have kept : ∀ system action next, AllInStep system → RestoresStep system action →
      UpheldStep system action → step system action = some next → AllInStep next :=
    fun _ _ _ inStep _ upheld stepped => step_inStep inStep upheld stepped
  have exactly := everyStep_iff_everyStep oneStep kept initially restores
  refine ⟨fun steady => ?_, exactly⟩
  exact (exactly.mpr steady).mono fun _ _ upheld => upheld.1

/-- A running channel of 1 kHz with half duty whose frequency is set to 1 MHz:
the kernel rejects a period below the duty. -/
def tooFast : List Action :=
  [⟨0, .init (some ⟨.positive, .up, 5000, 10000, 1000⟩) none, noRefusals⟩,
    ⟨0, .start, noRefusals⟩, ⟨0, .frequencySet 1000000, noRefusals⟩]

theorem pwm_stopped_by_tooFast :
    EveryStep step RestoresStep (System.initial blankHardware) tooFast ∧
      ¬ EveryStep step SurvivesStep (System.initial blankHardware) tooFast := by
  constructor
  · exact ⟨Or.inr fun _ => rfl, fun _ _ => ⟨Or.inl rfl, fun _ _ => ⟨Or.inr fun _ => rfl,
      fun _ _ => trivial⟩⟩⟩
  · intro every
    have last := ((every.2 _ rfl).2 _ rfl).1
    have runs := (last (by decide)).2 (by decide) (by decide)
    exact absurd runs (by decide)

/-- The write that would switch the channel off is refused, and so is the
polarity: the call fails and the channel keeps running. -/
def refusedPolarity : List Action :=
  [⟨0, .init (some ⟨.positive, .up, 5000, 10000, 1000⟩) none, noRefusals⟩,
    ⟨0, .start, noRefusals⟩,
    ⟨0, .polaritySet .negative, fun _ write =>
      if write = .enable true then none else some .other⟩]

theorem pwm_survives_refusedPolarity :
    EveryStep step SurvivesStep (System.initial blankHardware) refusedPolarity := by
  apply (pwm_failure_survived_of_steady (fun _ => rfl) ?_).1
  · decide +kernel
  · exact ⟨Or.inr fun _ => rfl, fun _ _ => ⟨Or.inl rfl, fun _ _ => ⟨Or.inr fun _ => rfl,
      fun _ _ => trivial⟩⟩⟩

end TuyaAdapter.TklPwm
