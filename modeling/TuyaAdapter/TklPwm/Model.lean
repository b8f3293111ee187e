import Mathlib.Algebra.Order.Group.Nat
import Mathlib.Logic.Function.Basic
import TuyaAdapter.OperateRet

/-!
Contract: `tkl_pwm.c` over the sysfs files of its channels.

Every call holds `g_pwm_lock` or runs alone and is one step on one channel. The
kernel accepts a period that is not zero and not below the duty, and a duty
that is not above the period; polarity and enable are always acceptable. On top
of that any single write may be refused: `Refusals` says, for the writes of one
call counted from zero, which are. The result of exporting the channel is part
of the call.

Nanoseconds are natural numbers. No product of the source leaves 64 bits, see
`duty_product_fits`.
-/

namespace TuyaAdapter.TklPwm

/-! ## Configuration -/

/-- `TUYA_PWM_POLARITY_E`. -/
inductive Polarity where
  | negative
  | positive
deriving DecidableEq, Repr

/-- `TUYA_PWM_COUNT_E`. -/
inductive CountMode where
  | up
  | upAndDown
deriving DecidableEq, Repr

/-- `TUYA_PWM_BASE_CFG_T`. -/
structure BaseCfg where
  polarity : Polarity
  countMode : CountMode
  duty : UInt32
  cycle : UInt32
  frequency : UInt32
deriving DecidableEq, Repr

/-- `pwm_ctx_t`. -/
structure PwmCtx where
  inited : Bool
  exported : Bool
  enabled : Bool
  cfg : BaseCfg
deriving DecidableEq, Repr

/-- A context that was cleared with `memset`. -/
def PwmCtx.zeroed : PwmCtx := ⟨false, false, false, ⟨.negative, .up, 0, 0, 0⟩⟩

/-- `TUYA_PWM_DUTY_SCALE`. -/
def dutyScale : Nat := 10000

/-- `period_ns_from_frequency`. -/
def periodNsFromFrequency (frequency : UInt32) : Nat :=
  if frequency = 0 then 0 else 1000000000 / frequency.toNat

/-- `duty_ns_from_cfg`. -/
def dutyNsFromCfg (periodNs : Nat) (cfg : BaseCfg) : Nat :=
  if periodNs = 0 then 0
  else if cfg.cycle ≠ 0 ∧ cfg.duty ≤ cfg.cycle then periodNs * cfg.duty.toNat / cfg.cycle.toNat
  else
    let duty := if dutyScale < cfg.duty.toNat then dutyScale else cfg.duty.toNat
    periodNs * duty / dutyScale

/-- The duty the setters write: `duty_ns_from_cfg` cut off at the period. -/
def cappedDutyNs (cfg : BaseCfg) : Nat :=
  let periodNs := periodNsFromFrequency cfg.frequency
  let dutyNs := dutyNsFromCfg periodNs cfg
  if periodNs < dutyNs then periodNs else dutyNs

theorem cappedDutyNs_le (cfg : BaseCfg) : cappedDutyNs cfg ≤ periodNsFromFrequency cfg.frequency := by
  unfold cappedDutyNs
  simp only
  split
  · exact Nat.le_refl _
  · exact Nat.le_of_not_lt ‹_›

theorem cappedDutyNs_eq_min (cfg : BaseCfg) :
    cappedDutyNs cfg = min (periodNsFromFrequency cfg.frequency)
      (dutyNsFromCfg (periodNsFromFrequency cfg.frequency) cfg) := by
  unfold cappedDutyNs
  simp only [Nat.min_def]
  split
  · rw [if_pos (Nat.le_of_lt ‹_›)]
  · split
    · exact Nat.le_antisymm (Nat.le_of_not_lt ‹_›) ‹_›
    · rfl

/-- The products of `duty_ns_from_cfg` fit `uint64_t`. -/
theorem duty_product_fits (frequency duty : UInt32) :
    periodNsFromFrequency frequency * duty.toNat < 2 ^ 64 := by
  have periodSmall : periodNsFromFrequency frequency ≤ 1000000000 := by
    unfold periodNsFromFrequency
    split
    · exact Nat.zero_le _
    · exact Nat.div_le_self _ _
  have dutySmall := duty.toNat_lt
  calc periodNsFromFrequency frequency * duty.toNat
      ≤ 1000000000 * 2 ^ 32 := Nat.mul_le_mul periodSmall (Nat.le_of_lt dutySmall)
    _ < 2 ^ 64 := by decide

/-! ## sysfs -/

/-- The files of one channel. -/
structure Hardware where
  period : Nat
  dutyCycle : Nat
  inversed : Bool
  enable : Bool
deriving DecidableEq, Repr

inductive Write where
  | enable (on : Bool)
  | polarity (inversed : Bool)
  | period (ns : Nat)
  | dutyCycle (ns : Nat)
deriving DecidableEq, Repr

/-- The errors that `map_errno_to_oprt` tells apart. -/
inductive Errno where
  | inval
  | noent
  | nodev
  | other
deriving DecidableEq, Repr

/-- `map_errno_to_oprt` for a negative result. -/
def mapErrnoToOprt : Errno → OperateRet
  | .inval => .invalidParm
  | .noent => .notFound
  | .nodev => .notFound
  | .other => .comError

theorem mapErrnoToOprt_ne_ok (errno : Errno) : mapErrnoToOprt errno ≠ .ok := by
  cases errno <;> decide

/-- The kernel's own rule. -/
def accept (hardware : Hardware) : Write → Option Hardware
  | .enable on => some { hardware with enable := on }
  | .polarity inversed => some { hardware with inversed := inversed }
  | .period ns =>
      if ns ≠ 0 ∧ hardware.dutyCycle ≤ ns then some { hardware with period := ns } else none
  | .dutyCycle ns =>
      if ns ≤ hardware.period then some { hardware with dutyCycle := ns } else none

/-- Which writes of a call are refused, by their number in the call. -/
abbrev Refusals := Nat → Write → Option Errno

/-- One channel in the middle of a call. -/
structure Machine where
  ctx : PwmCtx
  hardware : Hardware
  writes : Nat
deriving DecidableEq, Repr

/-- `write_text_file` on a file of the channel. -/
def writeTextFile (refusals : Refusals) (machine : Machine) (write : Write) :
    Machine × Option Errno :=
  match refusals machine.writes write with
  | some errno => ({ machine with writes := machine.writes + 1 }, some errno)
  | none =>
      match accept machine.hardware write with
      | some hardware => ({ machine with hardware := hardware, writes := machine.writes + 1 }, none)
      | none => ({ machine with writes := machine.writes + 1 }, some .inval)

section Calls

variable (refusals : Refusals)

def setEnableLocked (machine : Machine) (enable : Bool) := writeTextFile refusals machine (.enable enable)

def setPeriodLocked (machine : Machine) (periodNs : Nat) :=
  writeTextFile refusals machine (.period periodNs)

def setDutyLocked (machine : Machine) (dutyNs : Nat) :=
  writeTextFile refusals machine (.dutyCycle dutyNs)

def setPolarityLocked (machine : Machine) (polarity : Polarity) :=
  writeTextFile refusals machine (.polarity (polarity = .negative))

/-- `if (err < 0) return map_errno_to_oprt(err);` -/
def orReturn (result : Machine × Option Errno) (rest : Machine → Machine × OperateRet) :
    Machine × OperateRet :=
  match result.2 with
  | some errno => (result.1, mapErrnoToOprt errno)
  | none => rest result.1

/-! ## Calls -/

/-- `tkl_pwm_init`; `exported` is the result of `ensure_exported_locked`. -/
def tklPwmInit (machine : Machine) (cfg : Option BaseCfg) (exported : Option Errno) :
    Machine × OperateRet :=
  match cfg with
  | none => (machine, .invalidParm)
  | some cfg =>
      orReturn (machine, exported) fun machine =>
        let machine := (setEnableLocked refusals machine false).1
        orReturn (setPolarityLocked refusals machine cfg.polarity) fun machine =>
          let periodNs := periodNsFromFrequency cfg.frequency
          if periodNs = 0 then (machine, .invalidParm)
          else
            orReturn (setPeriodLocked refusals machine periodNs) fun machine =>
              orReturn (setDutyLocked refusals machine (cappedDutyNs cfg)) fun machine =>
                ({ machine with ctx := ⟨true, true, false, cfg⟩ }, .ok)

/-- `tkl_pwm_deinit`. Unexporting leaves the settings of the channel. -/
def tklPwmDeinit (machine : Machine) : Machine × OperateRet :=
  let machine :=
    if machine.ctx.enabled then
      let machine := (setEnableLocked refusals machine false).1
      { machine with ctx := { machine.ctx with enabled := false } }
    else machine
  ({ machine with ctx := .zeroed }, .ok)

/-- `tkl_pwm_start` and `tkl_pwm_stop`: write the enable file and record it. -/
def enableSet (machine : Machine) (enable : Bool) : Machine × OperateRet :=
  if machine.ctx.inited then
    orReturn (setEnableLocked refusals machine enable) fun machine =>
      ({ machine with ctx := { machine.ctx with enabled := enable } }, .ok)
  else (machine, .invalidParm)

/-- `tkl_pwm_start`. -/
def tklPwmStart (machine : Machine) := enableSet refusals machine true

/-- `tkl_pwm_stop`. -/
def tklPwmStop (machine : Machine) := enableSet refusals machine false

/-- `tkl_pwm_duty_set`. -/
def tklPwmDutySet (machine : Machine) (duty : UInt32) : Machine × OperateRet :=
  if machine.ctx.inited then
    let cfg := { machine.ctx.cfg with duty := duty }
    orReturn (setDutyLocked refusals machine (cappedDutyNs cfg)) fun machine =>
      ({ machine with ctx := { machine.ctx with cfg := cfg } }, .ok)
  else (machine, .invalidParm)

/-- `if (was_enabled) err = set_enable_locked(.., true);` and the record. -/
def restore (machine : Machine) (wasEnabled : Bool) (cfg : BaseCfg) : Machine × OperateRet :=
  orReturn (if wasEnabled then setEnableLocked refusals machine true else (machine, none))
    fun machine =>
      ({ machine with ctx := { machine.ctx with cfg := cfg, enabled := wasEnabled } }, .ok)

/-- `tkl_pwm_frequency_set`. -/
def tklPwmFrequencySet (machine : Machine) (frequency : UInt32) : Machine × OperateRet :=
  if frequency = 0 then (machine, .invalidParm)
  else if machine.ctx.inited then
    let wasEnabled := machine.ctx.enabled
    let machine := (setEnableLocked refusals machine false).1
    let cfg := { machine.ctx.cfg with frequency := frequency }
    orReturn (setPeriodLocked refusals machine (periodNsFromFrequency cfg.frequency)) fun machine =>
      orReturn (setDutyLocked refusals machine (cappedDutyNs cfg)) fun machine =>
        restore refusals machine wasEnabled cfg
  else (machine, .invalidParm)

/-- `tkl_pwm_polarity_set`. -/
def tklPwmPolaritySet (machine : Machine) (polarity : Polarity) : Machine × OperateRet :=
  if machine.ctx.inited then
    let wasEnabled := machine.ctx.enabled
    let machine := (setEnableLocked refusals machine false).1
    orReturn (setPolarityLocked refusals machine polarity) fun machine =>
      restore refusals machine wasEnabled { machine.ctx.cfg with polarity := polarity }
  else (machine, .invalidParm)

/-- `if (rt != OPRT_OK) return rt;` -/
def ifOk (result : Machine × OperateRet) (rest : Machine → Machine × OperateRet) :
    Machine × OperateRet :=
  if result.2 = .ok then rest result.1 else result

/-- `tkl_pwm_info_set`. -/
def tklPwmInfoSet (machine : Machine) (info : Option BaseCfg) (exported : Option Errno) :
    Machine × OperateRet :=
  match info with
  | none => (machine, .invalidParm)
  | some info =>
      let wasEnabled := machine.ctx.enabled
      let restart := fun machine : Machine =>
        if wasEnabled then tklPwmStart refusals machine else (machine, .ok)
      if machine.ctx.inited then
        let machine := if wasEnabled then (tklPwmStop refusals machine).1 else machine
        ifOk (tklPwmPolaritySet refusals machine info.polarity) fun machine =>
          ifOk (tklPwmFrequencySet refusals machine info.frequency) fun machine =>
            ifOk (tklPwmDutySet refusals machine info.duty) fun machine =>
              restart { machine with ctx := { machine.ctx with cfg := info } }
      else ifOk (tklPwmInit refusals machine (some info) exported) restart

end Calls

/-! ## Steps -/

/-- The calls, without the channel; `NULL` configurations are missing. -/
inductive Request where
  | init (cfg : Option BaseCfg) (exported : Option Errno)
  | deinit
  | start
  | stop
  | dutySet (duty : UInt32)
  | frequencySet (frequency : UInt32)
  | polaritySet (polarity : Polarity)
  | infoSet (info : Option BaseCfg) (exported : Option Errno)
deriving DecidableEq, Repr

/-- A call on one valid channel. -/
def perform (refusals : Refusals) (machine : Machine) : Request → Machine × OperateRet
  | .init cfg exported => tklPwmInit refusals machine cfg exported
  | .deinit => tklPwmDeinit refusals machine
  | .start => tklPwmStart refusals machine
  | .stop => tklPwmStop refusals machine
  | .dutySet duty => tklPwmDutySet refusals machine duty
  | .frequencySet frequency => tklPwmFrequencySet refusals machine frequency
  | .polaritySet polarity => tklPwmPolaritySet refusals machine polarity
  | .infoSet info exported => tklPwmInfoSet refusals machine info exported

/-- `TUYA_PWM_NUM_MAX`. -/
def pwmNumMax : Nat := 12

/-- `g_pwm_ctx` with the hardware and, per channel, the result of the last call. -/
structure System where
  ctx : Nat → PwmCtx
  hardware : Nat → Hardware
  last : Nat → Option OperateRet

/-- Right after the library was loaded. -/
def System.initial (hardware : Nat → Hardware) : System :=
  ⟨fun _ => .zeroed, hardware, fun _ => none⟩

/-- A call on channel `chId`. -/
structure Action where
  chId : Nat
  request : Request
  refusals : Refusals

/-- One channel between two calls. -/
def System.machine (system : System) (chId : Nat) : Machine :=
  ⟨system.ctx chId, system.hardware chId, 0⟩

/-- The result of a call; an invalid channel is refused at once. -/
def System.perform (system : System) (action : Action) : Machine × OperateRet :=
  if action.chId < pwmNumMax then
    TklPwm.perform action.refusals (system.machine action.chId) action.request
  else (system.machine action.chId, .invalidParm)

def step (system : System) (action : Action) : Option System :=
  let result := system.perform action
  some
    { ctx := Function.update system.ctx action.chId result.1.ctx
      hardware := Function.update system.hardware action.chId result.1.hardware
      last := Function.update system.last action.chId (some result.2) }

end TuyaAdapter.TklPwm
