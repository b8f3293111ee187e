import Mathlib.Data.List.Basic
import TuyaAdapter.OperateRet

/-!
Contract: the interrupt path of `tkl_gpio.c` on one pin.

Every call holds `g_gpio_lock` and is one step; the contexts of different pins
share nothing else. The thread of the pin takes one step from each point where
it lets go of the lock or asks the kernel: the copy of the context, the poll,
the read, the filter and the callback.

The kernel hands out a line either as a handle or as an event descriptor. What
else it answers is part of a step. A thread that waits takes a step that changes
nothing. An edge is one that the kernel reports on the event descriptor.
-/

namespace TuyaAdapter.TklGpio

/-! ## Configuration -/

/-- `TUYA_GPIO_LEVEL_E` as a line reports it. -/
inductive Level where
  | low
  | high
deriving DecidableEq, Repr

/-- `TUYA_GPIO_DRCT_E`. -/
inductive Direct where
  | input
  | output
deriving DecidableEq, Repr

/-- `TUYA_GPIO_IRQ_E`. -/
inductive IrqMode where
  | rise
  | fall
  | riseFall
  | low
  | high
deriving DecidableEq, Repr

/-- The edge flags of an event request. -/
inductive EventFlags where
  | risingEdge
  | fallingEdge
  | bothEdges
deriving DecidableEq, Repr

/-- The flags `request_event_fd_locked` asks for. -/
def IrqMode.eventFlags : IrqMode → EventFlags
  | .rise => .risingEdge
  | .fall => .fallingEdge
  | .riseFall => .bothEdges
  | .low => .bothEdges
  | .high => .bothEdges

def EventFlags.reports : EventFlags → Bool → Bool
  | .risingEdge, rising => rising
  | .fallingEdge, rising => !rising
  | .bothEdges, _ => true

/-- `irq_mode_match_level`. -/
def irqModeMatchLevel : IrqMode → Level → Bool
  | .low, level => level == .low
  | .high, level => level == .high
  | _, _ => true

/-- A callback with its argument. -/
structure Call where
  cb : Nat
  arg : Nat
deriving DecidableEq, Repr

/-- `TUYA_GPIO_IRQ_T`; a missing `cb` is `NULL`. -/
structure IrqCfg where
  mode : IrqMode
  cb : Option Nat
  arg : Nat
deriving DecidableEq, Repr

def IrqCfg.call (cfg : IrqCfg) : Option Call := cfg.cb.map fun cb => ⟨cb, cfg.arg⟩

/-! ## State -/

/-- `gpio_pin_ctx_t`. A missing descriptor is -1, and the event flags are missing
from a cleared `event_req`. -/
structure Pin where
  direct : Direct
  handleFd : Option Nat
  hreqValid : Bool
  irqCfg : IrqCfg
  eventFd : Option Nat
  eventFlags : Option EventFlags
  irqThreadStarted : Bool
  irqEnabled : Bool
deriving DecidableEq, Repr

/-- An edge with its number, what the pin held when it came, and what the last
call of `tkl_gpio_irq_enable` or `tkl_gpio_irq_disable` had asked for. -/
structure Edge where
  index : Nat
  enabled : Bool
  irqCfg : IrqCfg
  command : Option Bool
deriving DecidableEq, Repr

/-- What the thread copies under the lock. -/
structure Copy where
  efd : Nat
  enabled : Bool
  irqCfg : IrqCfg
deriving DecidableEq, Repr

/-- Where `gpio_irq_thread` stands. -/
inductive ThreadPc where
  | snapshot
  | poll (copy : Copy)
  | read (copy : Copy)
  | filter (copy : Copy) (edge : Edge)
  | callback (call : Call) (edge : Edge)
deriving DecidableEq, Repr

/-- The pin, its thread and its edges. `queue` holds the edges that wait at the
event descriptor and `processed` the calls that were made for each edge the
thread is done with. `initialized` says that the last `tkl_gpio_irq_init`
returned `OPRT_OK` and no `tkl_gpio_deinit` followed. -/
structure Line where
  pin : Pin
  thread : Option ThreadPc
  queue : List Edge
  edges : Nat
  command : Option Bool
  processed : List (Edge × List Call)
  initialized : Bool
deriving DecidableEq, Repr

/-- A pin after `gpio_global_init_once`. -/
def freshLine : Line where
  pin := ⟨.input, none, false, ⟨.rise, none, 0⟩, none, none, false, false⟩
  thread := none
  queue := []
  edges := 0
  command := none
  processed := []
  initialized := false

/-! ## Descriptors -/

/-- `GPIO_GET_LINEHANDLE_IOCTL`: refused while the line has an event descriptor. -/
def getLinehandle (pin : Pin) (answer : Option Nat) : Option Nat :=
  match pin.eventFd with
  | some _ => none
  | none => answer

/-- `GPIO_GET_LINEEVENT_IOCTL`: refused while the line has a handle. -/
def getLineevent (pin : Pin) (answer : Option Nat) : Option Nat :=
  match pin.handleFd with
  | some _ => none
  | none => answer

/-- `ensure_line_handle_locked`, and whether it returned 0. -/
def ensureLineHandleLocked (pin : Pin) (answer : Option Nat) : Pin × Bool :=
  if pin.handleFd.isSome = true ∧ pin.hreqValid = true then (pin, true)
  else
    match getLinehandle pin answer with
    | none => (pin, false)
    | some fd => ({ pin with handleFd := some fd, hreqValid := true }, true)

def closeLineHandleLocked (pin : Pin) : Pin := { pin with handleFd := none, hreqValid := false }

def closeEventFdLocked (pin : Pin) : Pin := { pin with eventFd := none, eventFlags := none }

/-- `request_event_fd_locked`, and whether it returned 0. -/
def requestEventFdLocked (pin : Pin) (answer : Option Nat) : Pin × Bool :=
  match pin.eventFd with
  | some _ => (pin, true)
  | none =>
      match getLineevent pin answer with
      | none => (pin, false)
      | some fd =>
          ({ pin with eventFd := some fd, eventFlags := some pin.irqCfg.mode.eventFlags }, true)

/-! ## Calls -/

/-- `tkl_gpio_init`; `direct` is missing when `cfg` is `NULL`. -/
def tklGpioInit (pin : Pin) (direct : Option Direct) (answer : Option Nat) : Pin × OperateRet :=
  match direct with
  | none => (pin, .invalidParm)
  | some direct =>
      let pin := closeLineHandleLocked { pin with direct := direct }
      match direct with
      | .input => (pin, .ok)
      | .output =>
          let ensured := ensureLineHandleLocked pin answer
          (ensured.1, if ensured.2 then .ok else .comError)

def tklGpioDeinit (pin : Pin) : Pin × OperateRet :=
  (closeLineHandleLocked (closeEventFdLocked { pin with irqEnabled := false }), .ok)

/-- `tkl_gpio_read`; the line answers its level or an error. -/
def tklGpioRead (pin : Pin) (answer : Option Nat) (level : Option Level) : Pin × Option Level :=
  let ensured := ensureLineHandleLocked pin answer
  (ensured.1, if ensured.2 then level else none)

/-- `tkl_gpio_irq_init`, its result and whether it creates the thread. -/
def tklGpioIrqInit (pin : Pin) (cfg : Option IrqCfg) (answer : Option Nat) :
    Pin × OperateRet × Bool :=
  match cfg with
  | none => (pin, .invalidParm, false)
  | some cfg =>
      let pin := closeLineHandleLocked { pin with irqCfg := cfg }
      let requested := requestEventFdLocked pin answer
      if requested.2 then
        ({ requested.1 with irqThreadStarted := true }, .ok, !requested.1.irqThreadStarted)
      else (requested.1, .comError, false)

def tklGpioIrqEnable (pin : Pin) : Pin × OperateRet := ({ pin with irqEnabled := true }, .ok)

def tklGpioIrqDisable (pin : Pin) : Pin × OperateRet := ({ pin with irqEnabled := false }, .ok)

/-! ## The thread -/

/-- What the kernel answers to the thread: whether `poll` reports an event,
whether `read` fails, and what `tkl_gpio_read` gets. -/
structure Kernel where
  pollIn : Bool
  readFails : Bool
  handle : Option Nat
  level : Option Level
deriving DecidableEq, Repr

def Line.finish (line : Line) (edge : Edge) (calls : List Call) : Line :=
  { line with thread := some .snapshot, processed := line.processed ++ [(edge, calls)] }

/-- The top of the loop: the copy under the lock. -/
def threadSnapshot (line : Line) : Line :=
  match line.pin.eventFd with
  | none => { line with thread := none }
  | some efd => { line with thread := some (.poll ⟨efd, line.pin.irqEnabled, line.pin.irqCfg⟩) }

def threadPoll (line : Line) (kernel : Kernel) (copy : Copy) : Line :=
  { line with thread := some (if kernel.pollIn then .read copy else .snapshot) }

/-- The read fails on a descriptor that was closed. -/
def threadRead (line : Line) (kernel : Kernel) (copy : Copy) : Line :=
  if kernel.readFails = true ∨ line.pin.eventFd ≠ some copy.efd then { line with thread := none }
  else
    match line.queue with
    | [] => line
    | edge :: rest => { line with thread := some (.filter copy edge), queue := rest }

def threadFilter (line : Line) (kernel : Kernel) (copy : Copy) (edge : Edge) : Line :=
  match copy.enabled, copy.irqCfg.call with
  | true, some call =>
      if copy.irqCfg.mode = .low ∨ copy.irqCfg.mode = .high then
        let level := tklGpioRead line.pin kernel.handle kernel.level
        let line := { line with pin := level.1 }
        match level.2 with
        | none => { line with thread := some (.callback call edge) }
        | some level =>
            if irqModeMatchLevel copy.irqCfg.mode level then
              { line with thread := some (.callback call edge) }
            else line.finish edge []
      else { line with thread := some (.callback call edge) }
  | _, _ => line.finish edge []

/-- One step of `gpio_irq_thread`. -/
def gpioIrqThread (line : Line) (kernel : Kernel) : Line :=
  match line.thread with
  | none => line
  | some .snapshot => threadSnapshot line
  | some (.poll copy) => threadPoll line kernel copy
  | some (.read copy) => threadRead line kernel copy
  | some (.filter copy edge) => threadFilter line kernel copy edge
  | some (.callback call edge) => line.finish edge [call]

/-! ## Steps -/

inductive Action where
  | init (direct : Option Direct) (answer : Option Nat)
  | deinit
  | irqInit (cfg : Option IrqCfg) (answer : Option Nat)
  | irqEnable
  | irqDisable
  | edge (rising : Bool)
  | thread (kernel : Kernel)
deriving DecidableEq, Repr

/-- An edge on the line waits at the event descriptor when that asks for it. -/
def edgeOccurs (line : Line) (rising : Bool) : Line :=
  if line.pin.eventFd.isSome = true ∧ line.pin.eventFlags.any (·.reports rising) = true then
    { line with
      queue :=
        line.queue ++ [⟨line.edges, line.pin.irqEnabled, line.pin.irqCfg, line.command⟩]
      edges := line.edges + 1 }
  else line

def afterIrqInit (line : Line) (cfg : Option IrqCfg) (answer : Option Nat) : Line :=
  let result := tklGpioIrqInit line.pin cfg answer
  { line with
    pin := result.1
    thread := if result.2.2 then some .snapshot else line.thread
    initialized := result.2.1 == .ok }

def after (line : Line) : Action → Line
  | .init direct answer => { line with pin := (tklGpioInit line.pin direct answer).1 }
  | .deinit => { line with pin := (tklGpioDeinit line.pin).1, queue := [], initialized := false }
  | .irqInit cfg answer => afterIrqInit line cfg answer
  | .irqEnable => { line with pin := (tklGpioIrqEnable line.pin).1, command := some true }
  | .irqDisable => { line with pin := (tklGpioIrqDisable line.pin).1, command := some false }
  | .edge rising => edgeOccurs line rising
  | .thread kernel => gpioIrqThread line kernel

def step (line : Line) (action : Action) : Option Line := some (after line action)

/-! ## The three outcomes of an initialization -/

section Initialization

variable {line : Line}

/-- The line after a successful initialization with this descriptor and flags. -/
def Line.initializedWith (line : Line) (cfg : IrqCfg) (fd : Nat) (flags : Option EventFlags) :
    Line :=
  { line with
    pin :=
      { line.pin with
        handleFd := none
        hreqValid := false
        irqCfg := cfg
        eventFd := some fd
        eventFlags := flags
        irqThreadStarted := true }
    thread := if line.pin.irqThreadStarted then line.thread else some .snapshot
    initialized := true }

theorem afterIrqInit_open {fd : Nat} (opened : line.pin.eventFd = some fd) (cfg : IrqCfg)
    (answer : Option Nat) :
    afterIrqInit line (some cfg) answer = line.initializedWith cfg fd line.pin.eventFlags := by
  simp only [afterIrqInit, tklGpioIrqInit, requestEventFdLocked, closeLineHandleLocked, opened]
  cases started : line.pin.irqThreadStarted <;> simp [Line.initializedWith, started]

theorem afterIrqInit_granted (closed : line.pin.eventFd = none) (cfg : IrqCfg) (fd : Nat) :
    afterIrqInit line (some cfg) (some fd) =
      line.initializedWith cfg fd (some cfg.mode.eventFlags) := by
  simp only [afterIrqInit, tklGpioIrqInit, requestEventFdLocked, getLineevent,
    closeLineHandleLocked, closed]
  cases started : line.pin.irqThreadStarted <;> simp [Line.initializedWith, started]

theorem afterIrqInit_refused (closed : line.pin.eventFd = none) (cfg : IrqCfg) :
    afterIrqInit line (some cfg) none =
      { line with
        pin := { line.pin with handleFd := none, hreqValid := false, irqCfg := cfg }
        initialized := false } := by
  simp [afterIrqInit, tklGpioIrqInit, requestEventFdLocked, getLineevent, closeLineHandleLocked,
    closed]

end Initialization

end TuyaAdapter.TklGpio
