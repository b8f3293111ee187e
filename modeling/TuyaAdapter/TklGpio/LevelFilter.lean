import TuyaAdapter.Foundation.Run
import TuyaAdapter.TklGpio.Model

/-!
Contract: when a callback of a pin configured LOW or HIGH follows the level.

The thread filters an edge with `tkl_gpio_read`, which needs a handle on a line
that the event descriptor holds, and goes on to the callback when the read is
refused. The machine of `Model` is put on a wire: the wire has a level, the
clients may also read and write the pin, and `decisions` keeps, for every edge
that passed the filter, the configured mode and the level that was read.

The level may change at any time, also without an edge that the kernel reports.
-/

namespace TuyaAdapter.TklGpio

open Foundation Foundation.Run

/-! ## The wire -/

/-- What a callback rests on: the mode configured at the moment of the filter
and the level that was read there. -/
structure Decision where
  configured : IrqMode
  read : Option Level
deriving DecidableEq, Repr

structure Wire where
  line : Line
  level : Level
  decisions : List Decision
deriving DecidableEq, Repr

def freshWire (level : Level) : Wire := ⟨freshLine, level, []⟩

/-- `tkl_gpio_write`; `sets` is whether the line takes the value. -/
def tklGpioWrite (pin : Pin) (answer : Option Nat) (sets : Bool) : Pin × OperateRet :=
  let ensured := ensureLineHandleLocked pin answer
  (ensured.1, if ensured.2 = true ∧ sets = true then .ok else .comError)

inductive WireAction where
  | call (action : Action)
  | read (answer : Option Nat) (level : Option Level)
  | write (level : Level) (answer : Option Nat) (sets : Bool)
  | drive (level : Level)
deriving DecidableEq, Repr

/-- A kernel that answers a level answers the level of the wire. -/
def Kernel.seeing (kernel : Kernel) (level : Level) : Kernel :=
  { kernel with level := kernel.level.map fun _ => level }

def IrqMode.IsLevel (mode : IrqMode) : Prop := mode = .low ∨ mode = .high

instance (mode : IrqMode) : Decidable mode.IsLevel := inferInstanceAs (Decidable (_ ∨ _))

/-- The level the filter of the thread reads. -/
def levelRead (line : Line) (kernel : Kernel) (copy : Copy) : Option Level :=
  if copy.irqCfg.mode.IsLevel then (tklGpioRead line.pin kernel.handle kernel.level).2 else none

/-- The decision of one step of the thread, when it goes on to the callback. -/
def decisionOf (line : Line) (kernel : Kernel) : List Decision :=
  match line.thread, (gpioIrqThread line kernel).thread with
  | some (.filter copy _), some (.callback _ _) =>
      [⟨line.pin.irqCfg.mode, levelRead line kernel copy⟩]
  | _, _ => []

def Wire.after (wire : Wire) : WireAction → Wire
  | .call (.thread kernel) =>
      { wire with
        line := TklGpio.after wire.line (.thread (kernel.seeing wire.level))
        decisions := wire.decisions ++ decisionOf wire.line (kernel.seeing wire.level) }
  | .call (.edge rising) =>
      { wire with
        line := TklGpio.after wire.line (.edge rising)
        level := if rising then .high else .low }
  | .call action => { wire with line := TklGpio.after wire.line action }
  | .read answer level =>
      { wire with
        line :=
          { wire.line with
            pin := (tklGpioRead wire.line.pin answer (level.map fun _ => wire.level)).1 } }
  | .write level answer sets =>
      let written := tklGpioWrite wire.line.pin answer sets
      { wire with
        line := { wire.line with pin := written.1 }
        level := if written.2 = .ok then level else wire.level }
  | .drive level => { wire with level := level }

def wireStep (wire : Wire) (action : WireAction) : Option Wire := some (wire.after action)

/-! ## The property and the condition -/

/-- A level was read and is the configured one. -/
def Decision.Respects (decision : Decision) : Prop :=
  decision.configured.IsLevel →
    ∃ level ∈ decision.read, irqModeMatchLevel decision.configured level = true

instance (decision : Decision) : Decidable decision.Respects :=
  inferInstanceAs (Decidable (_ → _))

/-- Every callback of a pin configured LOW or HIGH followed the level. -/
def LevelsRespected (wire : Wire) : Prop := ∀ decision ∈ wire.decisions, decision.Respects

instance (wire : Wire) : Decidable (LevelsRespected wire) :=
  inferInstanceAs (Decidable (∀ _ ∈ _, _))

/-- The event descriptor is closed, a handle is open or granted and the line
answers its level. -/
def Readable (pin : Pin) (kernel : Kernel) : Prop :=
  pin.eventFd = none ∧
    ((pin.handleFd.isSome = true ∧ pin.hreqValid = true) ∨ kernel.handle.isSome = true) ∧
    kernel.level.isSome = true

instance (pin : Pin) (kernel : Kernel) : Decidable (Readable pin kernel) :=
  inferInstanceAs (Decidable (_ ∧ _))

/-- The copy the thread filters with asks for a level, the level can be read,
and it is not one that only an outdated copy accepts. -/
def FiltersByLevel (wire : Wire) (kernel : Kernel) (copy : Copy) : Prop :=
  copy.irqCfg.mode.IsLevel ∧ Readable wire.line.pin kernel ∧
    (irqModeMatchLevel copy.irqCfg.mode wire.level = true →
      copy.irqCfg.mode = wire.line.pin.irqCfg.mode)

instance (wire : Wire) (kernel : Kernel) (copy : Copy) :
    Decidable (FiltersByLevel wire kernel copy) :=
  inferInstanceAs (Decidable (_ ∧ _))

/-- When the thread filters an edge of a pin configured LOW or HIGH, with the
interrupt enabled and a callback in its copy, it filters by level. -/
def FilterEffective (wire : Wire) : WireAction → Prop
  | .call (.thread kernel) =>
      match wire.line.thread with
      | some (.filter copy _) =>
          wire.line.pin.irqCfg.mode.IsLevel → copy.enabled = true →
            copy.irqCfg.cb.isSome = true → FiltersByLevel wire kernel copy
      | _ => True
  | _ => True

/-! ## Handle and event descriptor exclude each other -/

/-- The rule of the kernel, on what the pin holds. -/
def Exclusive (pin : Pin) : Prop := pin.eventFd.isSome = true → pin.handleFd = none

theorem ensureLineHandleLocked_exclusive {pin : Pin} (exclusive : Exclusive pin)
    (answer : Option Nat) : Exclusive (ensureLineHandleLocked pin answer).1 := by
  unfold ensureLineHandleLocked getLinehandle
  split
  · exact exclusive
  · cases opened : pin.eventFd with
    | some fd => exact exclusive
    | none =>
        cases answer with
        | none => exact exclusive
        | some fd => exact fun isOpen => absurd isOpen (by simp)

theorem closeLineHandleLocked_exclusive (pin : Pin) : Exclusive (closeLineHandleLocked pin) :=
  fun _ => rfl

theorem requestEventFdLocked_exclusive {pin : Pin} (exclusive : Exclusive pin)
    (answer : Option Nat) : Exclusive (requestEventFdLocked pin answer).1 := by
  unfold requestEventFdLocked getLineevent
  cases opened : pin.eventFd with
  | some fd => exact exclusive
  | none =>
      cases held : pin.handleFd with
      | some fd => exact exclusive
      | none =>
          cases answer with
          | none => exact exclusive
          | some fd => exact fun _ => rfl

theorem tklGpioInit_exclusive {pin : Pin} (exclusive : Exclusive pin) (direct : Option Direct)
    (answer : Option Nat) : Exclusive (tklGpioInit pin direct answer).1 := by
  cases direct with
  | none => exact exclusive
  | some direct =>
      cases direct with
      | input => exact closeLineHandleLocked_exclusive _
      | output =>
          exact ensureLineHandleLocked_exclusive (closeLineHandleLocked_exclusive _) answer

theorem tklGpioIrqInit_exclusive {pin : Pin} (exclusive : Exclusive pin) (cfg : Option IrqCfg)
    (answer : Option Nat) : Exclusive (tklGpioIrqInit pin cfg answer).1 := by
  cases cfg with
  | none => exact exclusive
  | some cfg =>
      have requested := requestEventFdLocked_exclusive
        (closeLineHandleLocked_exclusive { pin with irqCfg := cfg }) answer
      unfold tklGpioIrqInit
      dsimp only
      split
      · exact requested
      · exact requested

theorem threadFilter_exclusive {line : Line} (exclusive : Exclusive line.pin) (kernel : Kernel)
    (copy : Copy) (edge : Edge) : Exclusive (threadFilter line kernel copy edge).pin := by
  have read : Exclusive (tklGpioRead line.pin kernel.handle kernel.level).1 :=
    ensureLineHandleLocked_exclusive exclusive kernel.handle
  unfold threadFilter
  split
  · split
    · dsimp only
      split
      · exact read
      · split
        · exact read
        · exact read
    · exact exclusive
  · exact exclusive

theorem gpioIrqThread_exclusive {line : Line} (exclusive : Exclusive line.pin) (kernel : Kernel) :
    Exclusive (gpioIrqThread line kernel).pin := by
  unfold gpioIrqThread
  cases isThread : line.thread with
  | none => exact exclusive
  | some pc =>
      cases pc with
      | snapshot =>
          dsimp only
          unfold threadSnapshot
          cases line.pin.eventFd <;> exact exclusive
      | poll copy => exact exclusive
      | read copy =>
          dsimp only
          unfold threadRead
          split
          · exact exclusive
          · cases line.queue <;> exact exclusive
      | filter copy edge => exact threadFilter_exclusive exclusive kernel copy edge
      | callback call edge => exact exclusive

/-- No action breaks the rule. -/
theorem after_exclusive {wire : Wire} (exclusive : Exclusive wire.line.pin)
    (action : WireAction) : Exclusive (wire.after action).line.pin := by
  cases action with
  | call action =>
      cases action with
      | init direct answer => exact tklGpioInit_exclusive exclusive direct answer
      | deinit => exact closeLineHandleLocked_exclusive _
      | irqInit cfg answer => exact tklGpioIrqInit_exclusive exclusive cfg answer
      | irqEnable => exact exclusive
      | irqDisable => exact exclusive
      | edge rising =>
          have kept : (edgeOccurs wire.line rising).pin = wire.line.pin := by
            unfold edgeOccurs
            split <;> rfl
          show Exclusive (edgeOccurs wire.line rising).pin
          rw [kept]
          exact exclusive
      | thread kernel => exact gpioIrqThread_exclusive exclusive _
  | read answer level => exact ensureLineHandleLocked_exclusive exclusive answer
  | write level answer sets => exact ensureLineHandleLocked_exclusive exclusive answer
  | drive level => exact exclusive

/-! ## The read of the filter -/

/-- While the event descriptor is open every read of the pin is refused. -/
theorem tklGpioRead_refused {pin : Pin} (exclusive : Exclusive pin)
    (opened : pin.eventFd.isSome = true) (answer : Option Nat) (level : Option Level) :
    (tklGpioRead pin answer level).2 = none := by
  obtain ⟨fd, isOpen⟩ := Option.isSome_iff_exists.mp opened
  have noHandle := exclusive opened
  simp [tklGpioRead, ensureLineHandleLocked, getLinehandle, noHandle, isOpen]

/-- The read goes through exactly on a readable pin, and then reads the wire. -/
theorem tklGpioRead_seeing {pin : Pin} (exclusive : Exclusive pin) (kernel : Kernel)
    (level : Level) :
    (tklGpioRead pin (kernel.seeing level).handle (kernel.seeing level).level).2 =
      if Readable pin kernel then some level else none := by
  by_cases opened : pin.eventFd.isSome = true
  · rw [tklGpioRead_refused exclusive opened, if_neg]
    intro readable
    rw [readable.1] at opened
    exact absurd opened (by decide)
  · have closed : pin.eventFd = none := by simpa using opened
    cases answered : kernel.level with
    | none =>
        rw [if_neg (fun readable => by
          have given := readable.2.2
          rw [answered] at given
          exact absurd given (by decide))]
        simp [tklGpioRead, Kernel.seeing, answered]
    | some given =>
        by_cases held : pin.handleFd.isSome = true ∧ pin.hreqValid = true
        · rw [if_pos ⟨closed, Or.inl held, by simp [answered]⟩]
          simp [tklGpioRead, Kernel.seeing, ensureLineHandleLocked, held, answered]
        · cases granted : kernel.handle with
          | none =>
              rw [if_neg (fun readable => by
                rcases readable.2.1 with has | isGranted
                · exact held has
                · rw [granted] at isGranted
                  exact absurd isGranted (by decide))]
              simp [tklGpioRead, Kernel.seeing, ensureLineHandleLocked, getLinehandle, held,
                closed, granted]
          | some fd =>
              rw [if_pos ⟨closed, Or.inr (by simp [granted]), by simp [answered]⟩]
              simp [tklGpioRead, Kernel.seeing, ensureLineHandleLocked, getLinehandle, held,
                closed, granted, answered]

/-- What the filter of a copy with callback goes on with: no level asked for,
none read, or one that matches. -/
def Passes (line : Line) (kernel : Kernel) (copy : Copy) : Prop :=
  copy.irqCfg.mode.IsLevel →
    ∀ level ∈ levelRead line kernel copy, irqModeMatchLevel copy.irqCfg.mode level = true

instance (line : Line) (kernel : Kernel) (copy : Copy) : Decidable (Passes line kernel copy) :=
  inferInstanceAs (Decidable (_ → ∀ _ ∈ _, _))

/-- The thread goes on to the callback exactly when the filter passes. -/
theorem threadFilter_callback_iff {line : Line} {kernel : Kernel} {copy : Copy} {edge : Edge} :
    (∃ call, (threadFilter line kernel copy edge).thread = some (.callback call edge)) ↔
      copy.enabled = true ∧ copy.irqCfg.cb.isSome = true ∧ Passes line kernel copy := by
  unfold threadFilter Passes levelRead IrqCfg.call
  cases copy.enabled with
  | false => simp [Line.finish]
  | true =>
      cases copy.irqCfg.cb with
      | none => simp [Line.finish]
      | some cb =>
          by_cases isLevel : copy.irqCfg.mode.IsLevel
          · have asksLevel : copy.irqCfg.mode = .low ∨ copy.irqCfg.mode = .high := isLevel
            simp only [Option.map_some, if_pos asksLevel, if_pos isLevel]
            cases read : (tklGpioRead line.pin kernel.handle kernel.level).2 with
            | none => simp
            | some level =>
                by_cases matching : irqModeMatchLevel copy.irqCfg.mode level = true
                · simp [matching]
                · simp [matching, isLevel, Line.finish]
          · have asksNoLevel : ¬ (copy.irqCfg.mode = .low ∨ copy.irqCfg.mode = .high) := isLevel
            simp only [Option.map_some, if_neg asksNoLevel]
            simp [isLevel]

/-- After the filter the thread stands at the callback or at the top. -/
theorem threadFilter_thread (line : Line) (kernel : Kernel) (copy : Copy) (edge : Edge) :
    (∃ call, (threadFilter line kernel copy edge).thread = some (.callback call edge)) ∨
      (threadFilter line kernel copy edge).thread = some .snapshot := by
  unfold threadFilter
  split
  · split
    · dsimp only
      split
      · exact Or.inl ⟨_, rfl⟩
      · split
        · exact Or.inl ⟨_, rfl⟩
        · exact Or.inr rfl
    · exact Or.inl ⟨_, rfl⟩
  · exact Or.inr rfl

theorem decisionOf_filter {line : Line} {copy : Copy} {edge : Edge}
    (isThread : line.thread = some (.filter copy edge)) (kernel : Kernel) :
    decisionOf line kernel =
      if copy.enabled = true ∧ copy.irqCfg.cb.isSome = true ∧ Passes line kernel copy then
        [⟨line.pin.irqCfg.mode, levelRead line kernel copy⟩]
      else [] := by
  have isFilter : (gpioIrqThread line kernel).thread
      = (threadFilter line kernel copy edge).thread := by
    simp only [gpioIrqThread, isThread]
  simp only [decisionOf, isFilter, isThread]
  rcases threadFilter_thread line kernel copy edge with ⟨call, called⟩ | returned
  · rw [called, if_pos (threadFilter_callback_iff.mp ⟨call, called⟩)]
  · rw [returned, if_neg]
    intro passes
    obtain ⟨call, called⟩ := threadFilter_callback_iff.mpr passes
    rw [returned] at called
    cases called

theorem decisionOf_elsewhere {line : Line}
    (notFilter : ∀ copy edge, line.thread ≠ some (.filter copy edge)) (kernel : Kernel) :
    decisionOf line kernel = [] := by
  unfold decisionOf
  split
  · rename_i isThread _
    exact absurd isThread (notFilter _ _)
  · rfl

/-! ## One step -/

/-- A level mode accepts one level only. -/
theorem matches_both {first second : IrqMode} (firstLevel : first.IsLevel)
    (secondLevel : second.IsLevel) {level : Level}
    (acceptsFirst : irqModeMatchLevel first level = true)
    (acceptsSecond : irqModeMatchLevel second level = true) : first = second := by
  rcases firstLevel with rfl | rfl <;> rcases secondLevel with rfl | rfl <;> cases level <;>
    first
      | rfl
      | exact absurd acceptsFirst (by decide)
      | exact absurd acceptsSecond (by decide)

/-- The decision of a filter respects the level exactly when it filters by level. -/
theorem filter_respects_iff {wire : Wire} {copy : Copy}
    (exclusive : Exclusive wire.line.pin) (kernel : Kernel)
    (isLevel : wire.line.pin.irqCfg.mode.IsLevel) :
    (Passes wire.line (kernel.seeing wire.level) copy →
        (Decision.mk wire.line.pin.irqCfg.mode
          (levelRead wire.line (kernel.seeing wire.level) copy)).Respects) ↔
      FiltersByLevel wire kernel copy := by
  have read := tklGpioRead_seeing exclusive kernel wire.level
  unfold Passes levelRead Decision.Respects FiltersByLevel
  dsimp only
  rw [read]
  by_cases copyLevel : copy.irqCfg.mode.IsLevel
  · by_cases readable : Readable wire.line.pin kernel
    · simp only [if_pos copyLevel, if_pos readable, Option.mem_some_iff, exists_eq_left',
        forall_eq']
      constructor
      · intro respects
        refine ⟨copyLevel, readable, fun accepted => ?_⟩
        exact matches_both copyLevel isLevel accepted (respects (fun _ => accepted) isLevel)
      · rintro ⟨-, -, current⟩ passes _
        have accepted := passes copyLevel
        rw [← current accepted]
        exact accepted
    · simp only [if_pos copyLevel, if_neg readable]
      constructor
      · intro respects
        obtain ⟨level, isRead, -⟩ := respects (fun _ _ none_ => by simp at none_) isLevel
        simp at isRead
      · exact fun filters => absurd filters.2.1 readable
  · simp only [if_neg copyLevel]
    constructor
    · intro respects
      obtain ⟨level, isRead, -⟩ := respects (fun asks => absurd asks copyLevel) isLevel
      simp at isRead
    · exact fun filters => absurd filters.1 copyLevel

theorem thread_respected_iff {wire : Wire} (exclusive : Exclusive wire.line.pin)
    (kernel : Kernel) :
    (∀ decision ∈ decisionOf wire.line (kernel.seeing wire.level), decision.Respects) ↔
      FilterEffective wire (.call (.thread kernel)) := by
  by_cases filtering : ∃ copy edge, wire.line.thread = some (.filter copy edge)
  · obtain ⟨copy, edge, isThread⟩ := filtering
    have condition : FilterEffective wire (.call (.thread kernel)) ↔
        (wire.line.pin.irqCfg.mode.IsLevel → copy.enabled = true →
          copy.irqCfg.cb.isSome = true → FiltersByLevel wire kernel copy) := by
      simp only [FilterEffective, isThread]
    rw [condition, decisionOf_filter isThread]
    by_cases isLevel : wire.line.pin.irqCfg.mode.IsLevel
    · rw [← filter_respects_iff exclusive kernel isLevel]
      constructor
      · intro respects _ enabled called passes
        rw [if_pos ⟨enabled, called, passes⟩] at respects
        exact respects _ (List.mem_singleton_self _)
      · intro effective decision member
        split at member
        · rename_i asked
          rw [List.mem_singleton.mp member]
          exact effective isLevel asked.1 asked.2.1 asked.2.2
        · exact absurd member List.not_mem_nil
    · constructor
      · exact fun _ asks => absurd asks isLevel
      · intro _ decision member asks
        split at member
        · rw [List.mem_singleton.mp member] at asks
          exact absurd asks isLevel
        · exact absurd member List.not_mem_nil
  · have elsewhere : ∀ copy edge, wire.line.thread ≠ some (.filter copy edge) :=
      fun copy edge isThread => filtering ⟨copy, edge, isThread⟩
    rw [decisionOf_elsewhere elsewhere]
    constructor
    · intro _
      dsimp only [FilterEffective]
      split
      · rename_i isThread
        exact absurd isThread (elsewhere _ _)
      · trivial
    · exact fun _ decision member => absurd member List.not_mem_nil

theorem after_respected_iff {wire : Wire} {action : WireAction}
    (exclusive : Exclusive wire.line.pin) (respected : LevelsRespected wire) :
    LevelsRespected (wire.after action) ↔ FilterEffective wire action := by
  cases action with
  | call action =>
      cases action with
      | thread kernel =>
          rw [← thread_respected_iff exclusive kernel]
          constructor
          · exact fun all decision member => all decision (List.mem_append_right _ member)
          · intro new decision member
            rcases List.mem_append.mp member with old | fresh
            · exact respected decision old
            · exact new decision fresh
      | init direct answer => exact ⟨fun _ => trivial, fun _ => respected⟩
      | deinit => exact ⟨fun _ => trivial, fun _ => respected⟩
      | irqInit cfg answer => exact ⟨fun _ => trivial, fun _ => respected⟩
      | irqEnable => exact ⟨fun _ => trivial, fun _ => respected⟩
      | irqDisable => exact ⟨fun _ => trivial, fun _ => respected⟩
      | edge rising => exact ⟨fun _ => trivial, fun _ => respected⟩
  | read answer level => exact ⟨fun _ => trivial, fun _ => respected⟩
  | write level answer sets => exact ⟨fun _ => trivial, fun _ => respected⟩
  | drive level => exact ⟨fun _ => trivial, fun _ => respected⟩

/-! ## Runs -/

/-- In every state of a run every callback of a pin configured LOW or HIGH
followed the level, exactly when every filter of the run is effective. -/
theorem gpio_level_respected_iff (level : Level) (actions : List WireAction) :
    EveryState wireStep LevelsRespected (freshWire level) actions ↔
      EveryStep wireStep FilterEffective (freshWire level) actions := by
  have start : Exclusive (freshWire level).line.pin := fun _ => rfl
  have initially : LevelsRespected (freshWire level) :=
    fun decision member => absurd member List.not_mem_nil
  have always : EveryStep wireStep (fun _ _ => True) (freshWire level) actions :=
    everyStep_of_forall (fun _ _ => trivial) _ actions
  have progress : ∀ (wire : Wire) (action : WireAction), Exclusive wire.line.pin → True →
      ∃ next, wireStep wire action = some next ∧ Exclusive next.line.pin :=
    fun wire action exclusive _ => ⟨_, rfl, after_exclusive exclusive action⟩
  refine everyState_iff_everyStep progress ?_ start initially always
  intro wire action next exclusive respected _ stepped
  rw [← Option.some.inj stepped]
  exact after_respected_iff exclusive respected

/-- A pin configured LOW and enabled, on a line that rises: the chip would grant
a handle and answer the level. -/
def risesOnLow : List WireAction :=
  [.call (.irqInit (some ⟨.low, some 1, 0⟩) (some 5)), .call .irqEnable,
    .call (.thread ⟨false, false, none, none⟩), .call (.edge true),
    .call (.thread ⟨true, false, none, none⟩), .call (.thread ⟨false, false, none, none⟩),
    .call (.thread ⟨false, false, some 6, some .high⟩),
    .call (.thread ⟨false, false, none, none⟩)]

/-- The callback of the LOW interrupt is called on the high line. -/
theorem gpio_low_called_on_high :
    ¬ EveryState wireStep LevelsRespected (freshWire .low) risesOnLow ∧
      (run wireStep (freshWire .low) risesOnLow).any (fun wire =>
        wire.level == .high && wire.line.processed.map Prod.snd == [[⟨1, 0⟩]]) = true := by
  constructor
  · decide +kernel
  · decide +kernel

end TuyaAdapter.TklGpio
