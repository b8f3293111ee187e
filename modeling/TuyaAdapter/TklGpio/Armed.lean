import TuyaAdapter.Foundation.Run
import TuyaAdapter.TklGpio.Model

/-!
Contract: when a successful `tkl_gpio_irq_init` leaves the interrupt armed.

An initialization keeps an event descriptor that is already open, whatever
edges that asks for, and it starts a thread once only, whatever became of the
first. `Rearms` says of one step that neither matters.
-/

namespace TuyaAdapter.TklGpio

open Foundation Foundation.Run

/-! ## The property -/

/-- The thread is alive, and it waits at this descriptor unless it is about to
copy the context again. -/
def Watches (thread : Option ThreadPc) (fd : Nat) : Prop :=
  match thread with
  | none => False
  | some (.poll copy) => copy.efd = fd
  | some (.read copy) => copy.efd = fd
  | some _ => True

instance decidableWatches : ∀ thread fd, Decidable (Watches thread fd)
  | none, _ => inferInstanceAs (Decidable False)
  | some (.poll copy), fd => inferInstanceAs (Decidable (copy.efd = fd))
  | some (.read copy), fd => inferInstanceAs (Decidable (copy.efd = fd))
  | some .snapshot, _ => inferInstanceAs (Decidable True)
  | some (.filter _ _), _ => inferInstanceAs (Decidable True)
  | some (.callback _ _), _ => inferInstanceAs (Decidable True)

/-- An event descriptor with the edges of the latest configuration is open and
the thread waits at it. -/
def WatchesPin (pin : Pin) (thread : Option ThreadPc) : Prop :=
  pin.eventFlags = some pin.irqCfg.mode.eventFlags ∧ ∃ fd ∈ pin.eventFd, Watches thread fd

instance (pin : Pin) (thread : Option ThreadPc) : Decidable (WatchesPin pin thread) :=
  inferInstanceAs (Decidable (_ ∧ _))

def Armed (line : Line) : Prop := line.initialized = true → WatchesPin line.pin line.thread

instance (line : Line) : Decidable (Armed line) := inferInstanceAs (Decidable (_ → _))

/-! ## The condition -/

/-- An initialization that finds a descriptor open finds the edges of its own
mode there, and one that finds the thread started finds it alive and not
waiting at another descriptor than the one the pin has or gets. A read of an
armed line does not fail. -/
def Rearms (line : Line) : Action → Prop
  | .irqInit (some cfg) answer =>
      match line.pin.eventFd, answer with
      | some fd, _ =>
          line.pin.eventFlags = some cfg.mode.eventFlags ∧
            (line.pin.irqThreadStarted = true → Watches line.thread fd)
      | none, some fd => line.pin.irqThreadStarted = true → Watches line.thread fd
      | none, none => True
  | .thread kernel =>
      match line.initialized, line.thread with
      | true, some (.read _) => kernel.readFails = false
      | _, _ => True
  | _ => True

/-! ## One step -/

section Steps

variable {line : Line}

/-- What an armed line rests on. -/
def SameEvents (next line : Line) : Prop :=
  next.initialized = line.initialized ∧ next.pin.eventFd = line.pin.eventFd ∧
    next.pin.eventFlags = line.pin.eventFlags ∧ next.pin.irqCfg = line.pin.irqCfg

/-- A step that keeps the descriptor, its flags and the configuration keeps an
armed line when the thread goes on watching. -/
theorem Armed.keep {next : Line} (armed : Armed line) (same : SameEvents next line)
    (goesOn : ∀ fd, line.pin.eventFd = some fd → Watches line.thread fd → Watches next.thread fd) :
    Armed next := by
  obtain ⟨initialized, eventFd, eventFlags, irqCfg⟩ := same
  intro isInitialized
  obtain ⟨flags, fd, opened, watches⟩ := armed (initialized ▸ isInitialized)
  refine ⟨?_, fd, eventFd.trans opened, goesOn fd opened watches⟩
  rw [eventFlags, irqCfg]
  exact flags

theorem ensureLineHandleLocked_keeps (pin : Pin) (answer : Option Nat) :
    (ensureLineHandleLocked pin answer).1.eventFd = pin.eventFd ∧
      (ensureLineHandleLocked pin answer).1.eventFlags = pin.eventFlags ∧
      (ensureLineHandleLocked pin answer).1.irqCfg = pin.irqCfg := by
  unfold ensureLineHandleLocked
  split
  · exact ⟨rfl, rfl, rfl⟩
  · split <;> exact ⟨rfl, rfl, rfl⟩

theorem tklGpioInit_keeps (pin : Pin) (direct : Option Direct) (answer : Option Nat) :
    (tklGpioInit pin direct answer).1.eventFd = pin.eventFd ∧
      (tklGpioInit pin direct answer).1.eventFlags = pin.eventFlags ∧
      (tklGpioInit pin direct answer).1.irqCfg = pin.irqCfg := by
  cases direct with
  | none => exact ⟨rfl, rfl, rfl⟩
  | some direct =>
      cases direct with
      | input => exact ⟨rfl, rfl, rfl⟩
      | output => exact ensureLineHandleLocked_keeps _ answer

theorem initializedWith_armed_iff (cfg : IrqCfg) (fd : Nat) (flags : Option EventFlags) :
    Armed (line.initializedWith cfg fd flags) ↔
      flags = some cfg.mode.eventFlags ∧
        (line.pin.irqThreadStarted = true → Watches line.thread fd) := by
  cases started : line.pin.irqThreadStarted <;>
    simp [Armed, WatchesPin, Line.initializedWith, Watches, started]

theorem afterIrqInit_armed_iff (cfg : Option IrqCfg) (answer : Option Nat) :
    Armed (afterIrqInit line cfg answer) ↔ Rearms line (.irqInit cfg answer) := by
  cases cfg with
  | none =>
      exact ⟨fun _ => trivial, fun _ isInitialized => absurd isInitialized Bool.false_ne_true⟩
  | some cfg =>
      cases opened : line.pin.eventFd with
      | some fd =>
          rw [afterIrqInit_open opened, initializedWith_armed_iff]
          simp only [Rearms, opened]
      | none =>
          cases answer with
          | none =>
              rw [afterIrqInit_refused opened]
              simp [Armed, Rearms, opened]
          | some fd =>
              rw [afterIrqInit_granted opened, initializedWith_armed_iff]
              simp [Rearms, opened]

/-- The read of a thread that waits at the open descriptor ends it only when the
kernel refuses. -/
theorem threadRead_armed_iff {kernel : Kernel} {copy : Copy}
    (isThread : line.thread = some (.read copy)) (armed : Armed line) :
    Armed (threadRead line kernel copy) ↔ (line.initialized = true → kernel.readFails = false) := by
  have same : SameEvents (threadRead line kernel copy) line := by
    unfold threadRead
    split
    · exact ⟨rfl, rfl, rfl, rfl⟩
    · split <;> exact ⟨rfl, rfl, rfl, rfl⟩
  constructor
  · intro kept initialized
    by_contra fails
    have ended : (threadRead line kernel copy).thread = none := by
      unfold threadRead
      rw [if_pos (Or.inl (Bool.not_eq_false _ ▸ fails))]
    obtain ⟨-, fd, -, watches⟩ := kept (same.1.trans initialized)
    rw [ended] at watches
    exact watches
  · intro answers
    by_cases initialized : line.initialized = true
    · obtain ⟨-, fd, opened, watches⟩ := armed initialized
      have isFd : copy.efd = fd := by
        rw [isThread] at watches
        exact watches
      have succeeds : ¬ (kernel.readFails = true ∨ line.pin.eventFd ≠ some copy.efd) := by
        rw [answers initialized, isFd]
        simpa using opened
      apply armed.keep same
      intro other _ watchesOther
      unfold threadRead
      rw [if_neg succeeds]
      cases line.queue with
      | nil => exact watchesOther
      | cons edge rest => trivial
    · intro isInitialized
      exact absurd (same.1 ▸ isInitialized) initialized

theorem threadFilter_sameEvents (kernel : Kernel) (copy : Copy) (edge : Edge) :
    SameEvents (threadFilter line kernel copy edge) line := by
  have read : SameEvents
      { line with pin := (tklGpioRead line.pin kernel.handle kernel.level).1 } line :=
    ⟨rfl, ensureLineHandleLocked_keeps line.pin kernel.handle⟩
  unfold threadFilter
  split
  · split
    · dsimp only
      split
      · exact read
      · split
        · exact read
        · exact read
    · exact ⟨rfl, rfl, rfl, rfl⟩
  · exact ⟨rfl, rfl, rfl, rfl⟩

/-- After the filter the thread is about to call back or to copy again. -/
theorem threadFilter_watches (kernel : Kernel) (copy : Copy) (edge : Edge) (fd : Nat) :
    Watches (threadFilter line kernel copy edge).thread fd := by
  unfold threadFilter
  split
  · split
    · dsimp only
      split
      · trivial
      · split
        · trivial
        · trivial
    · trivial
  · trivial

/-- Everywhere else the thread goes on at the open descriptor. -/
theorem thread_armed {kernel : Kernel} (armed : Armed line)
    (reading : ∀ copy, line.thread ≠ some (.read copy)) : Armed (gpioIrqThread line kernel) := by
  unfold gpioIrqThread
  cases isThread : line.thread with
  | none => exact armed
  | some pc =>
      cases pc with
      | snapshot =>
          apply armed.keep
          · show SameEvents (threadSnapshot line) line
            unfold threadSnapshot
            cases line.pin.eventFd <;> exact ⟨rfl, rfl, rfl, rfl⟩
          · intro fd opened _
            simp only [threadSnapshot, opened, Watches]
      | poll copy =>
          refine armed.keep ⟨rfl, rfl, rfl, rfl⟩ fun fd _ watches => ?_
          rw [isThread] at watches
          cases pollIn : kernel.pollIn with
          | true => simpa [threadPoll, pollIn, Watches] using watches
          | false => simp [threadPoll, pollIn, Watches]
      | read copy => exact absurd isThread (reading copy)
      | filter copy edge =>
          exact armed.keep (threadFilter_sameEvents kernel copy edge)
            fun fd _ _ => threadFilter_watches kernel copy edge fd
      | callback call edge => exact armed.keep ⟨rfl, rfl, rfl, rfl⟩ fun _ _ _ => trivial

theorem gpioIrqThread_armed_iff (kernel : Kernel) (armed : Armed line) :
    Armed (gpioIrqThread line kernel) ↔ Rearms line (.thread kernel) := by
  by_cases reading : ∃ copy, line.thread = some (.read copy)
  · obtain ⟨copy, isThread⟩ := reading
    have reads : gpioIrqThread line kernel = threadRead line kernel copy := by
      simp only [gpioIrqThread, isThread]
    rw [reads, threadRead_armed_iff isThread armed]
    cases initialized : line.initialized <;> simp [Rearms, initialized, isThread]
  · have elsewhere : ∀ copy, line.thread ≠ some (.read copy) :=
      fun copy isThread => reading ⟨copy, isThread⟩
    have rearms : Rearms line (.thread kernel) := by
      dsimp only [Rearms]
      split
      · rename_i isThread
        exact absurd isThread (elsewhere _)
      · trivial
    exact ⟨fun _ => rearms, fun _ => thread_armed armed elsewhere⟩

theorem step_armed_iff {next : Line} {action : Action} (armed : Armed line)
    (stepped : step line action = some next) : Armed next ↔ Rearms line action := by
  have isNext := Option.some.inj (stepped)
  rw [← isNext]
  cases action with
  | init direct answer =>
      have kept := armed.keep
        (show SameEvents { line with pin := (tklGpioInit line.pin direct answer).1 } line from
          ⟨rfl, tklGpioInit_keeps line.pin direct answer⟩) fun _ _ watches => watches
      exact ⟨fun _ => trivial, fun _ => kept⟩
  | deinit =>
      exact ⟨fun _ => trivial, fun _ isInitialized => absurd isInitialized Bool.false_ne_true⟩
  | irqInit cfg answer => exact afterIrqInit_armed_iff cfg answer
  | irqEnable => exact ⟨fun _ => trivial, fun _ => armed⟩
  | irqDisable => exact ⟨fun _ => trivial, fun _ => armed⟩
  | edge rising =>
      refine ⟨fun _ => trivial, fun _ => ?_⟩
      show Armed (edgeOccurs line rising)
      unfold edgeOccurs
      split
      · exact armed
      · exact armed
  | thread kernel => exact gpioIrqThread_armed_iff kernel armed

end Steps

/-! ## Runs -/

/-- In every state of a run the interrupt is armed after a successful
initialization, exactly when every step of the run rearms it. -/
theorem gpio_armed_iff (actions : List Action) :
    EveryState step Armed freshLine actions ↔ EveryStep step Rearms freshLine actions := by
  have initially : Armed freshLine := fun isInitialized => absurd isInitialized (by decide)
  have always : EveryStep step (fun _ _ => True) freshLine actions :=
    everyStep_of_forall (fun _ _ => trivial) freshLine actions
  have progress : ∀ (line : Line) (action : Action), True → True →
      ∃ next, step line action = some next ∧ True :=
    fun line action _ _ => ⟨after line action, rfl, trivial⟩
  exact everyState_iff_everyStep progress
    (fun _ _ _ _ armed _ stepped => step_armed_iff armed stepped) trivial initially always

/-- Initialized for rising edges, then for falling ones. -/
def modeChange : List Action :=
  [.irqInit (some ⟨.rise, some 1, 0⟩) (some 5), .irqInit (some ⟨.fall, some 1, 0⟩) none]

/-- Initialized, released until the thread found no descriptor, initialized
again. -/
def initializedAgain : List Action :=
  [.irqInit (some ⟨.rise, some 1, 0⟩) (some 5), .deinit, .thread ⟨false, false, none, none⟩,
    .irqInit (some ⟨.rise, some 1, 0⟩) (some 5)]

theorem gpio_unarmed_after_second_init :
    ¬ EveryState step Armed freshLine modeChange ∧
      ¬ EveryState step Armed freshLine initializedAgain := by
  constructor
  · decide +kernel
  · decide +kernel

end TuyaAdapter.TklGpio
