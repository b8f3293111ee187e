import TuyaAdapter.Foundation.Run
import TuyaAdapter.TklGpio.Model

/-!
Contract: when an edge is answered as the last enable or disable asked.

The thread copies the enable flag and the configuration before it waits and
uses the copy after the wait. An edge is answered as asked when the copy it is
read with still says what the pin held when the edge came.
-/

namespace TuyaAdapter.TklGpio

open Foundation Foundation.Run

/-! ## The property -/

/-- An edge after an enable led to exactly one call, of the callback of the
latest initialization; an edge after a disable led to none. -/
def Heeded (edge : Edge) (calls : List Call) : Prop :=
  (edge.command = some true → edge.irqCfg.call.map ([·]) = some calls) ∧
    (edge.command = some false → calls = [])

instance (edge : Edge) (calls : List Call) : Decidable (Heeded edge calls) :=
  inferInstanceAs (Decidable (_ ∧ _))

/-- The edge the thread has read and is not done with. -/
def inHand : Option ThreadPc → List Edge
  | some (.filter _ edge) => [edge]
  | some (.callback _ edge) => [edge]
  | _ => []

/-- The edges in the order they are processed. -/
def Line.trail (line : Line) : List Edge :=
  line.processed.map Prod.fst ++ inHand line.thread ++ line.queue

/-- Every processed edge was heeded, and every edge is processed, in hand or
waiting, once and in order. -/
def Heeds (line : Line) : Prop :=
  (∀ entry ∈ line.processed, Heeded entry.1 entry.2) ∧
    line.trail.map Edge.index = List.range line.edges

instance (line : Line) : Decidable (Heeds line) := inferInstanceAs (Decidable (_ ∧ _))

/-! ## Legal runs and the condition -/

/-- A configuration with an edge mode and a callback. -/
def Callable (cfg : IrqCfg) : Prop :=
  cfg.mode ≠ .low ∧ cfg.mode ≠ .high ∧ cfg.cb.isSome = true

instance (cfg : IrqCfg) : Decidable (Callable cfg) := inferInstanceAs (Decidable (_ ∧ _ ∧ _))

def Legal (_line : Line) : Action → Prop
  | .irqInit cfg _ => ∀ given ∈ cfg, Callable given
  | .irqEnable => True
  | .irqDisable => True
  | .edge _ => True
  | .thread _ => True
  | _ => False

instance : ∀ line action, Decidable (Legal line action)
  | _, .irqInit _ _ => inferInstanceAs (Decidable (∀ _ ∈ _, _))
  | _, .irqEnable => inferInstanceAs (Decidable True)
  | _, .irqDisable => inferInstanceAs (Decidable True)
  | _, .edge _ => inferInstanceAs (Decidable True)
  | _, .thread _ => inferInstanceAs (Decidable True)
  | _, .init _ _ => inferInstanceAs (Decidable False)
  | _, .deinit => inferInstanceAs (Decidable False)

/-- The copy says of the flag, and of the callback when that is to be called,
what the pin held when the edge came. -/
def Copy.Fresh (copy : Copy) (edge : Edge) : Prop :=
  copy.enabled = edge.enabled ∧ (edge.enabled = true → copy.irqCfg.call = edge.irqCfg.call)

instance (copy : Copy) (edge : Edge) : Decidable (copy.Fresh edge) :=
  inferInstanceAs (Decidable (_ ∧ _))

/-- The copy the thread is about to read with. -/
def readCopy : Option ThreadPc → Option Copy
  | some (.read copy) => some copy
  | _ => none

/-- An edge that the thread reads finds a fresh copy. -/
def ReadsFresh (line : Line) : Action → Prop
  | .thread kernel =>
      kernel.readFails = false →
        ∀ copy ∈ readCopy line.thread, ∀ edge ∈ line.queue.head?, copy.Fresh edge
  | _ => True

instance : ∀ line action, Decidable (ReadsFresh line action)
  | _, .thread _ => inferInstanceAs (Decidable (_ → _))
  | _, .init _ _ => isTrue trivial
  | _, .deinit => isTrue trivial
  | _, .irqInit _ _ => isTrue trivial
  | _, .irqEnable => isTrue trivial
  | _, .irqDisable => isTrue trivial
  | _, .edge _ => isTrue trivial

/-! ## Invariant -/

/-- What was asked for is what the pin held, and that had a callback. -/
def Edge.Sound (edge : Edge) : Prop :=
  (∀ command, edge.command = some command → edge.enabled = command) ∧ Callable edge.irqCfg

def ThreadSound : Option ThreadPc → Prop
  | some (.poll copy) => Callable copy.irqCfg
  | some (.read copy) => Callable copy.irqCfg
  | some (.filter copy edge) => Callable copy.irqCfg ∧ edge.Sound ∧ copy.Fresh edge
  | some (.callback call edge) =>
      edge.Sound ∧ edge.enabled = true ∧ edge.irqCfg.call = some call
  | _ => True

structure LineSound (line : Line) : Prop where
  cfg : line.pin.eventFd.isSome = true → Callable line.pin.irqCfg
  command : ∀ command, line.command = some command → line.pin.irqEnabled = command
  unstarted : line.pin.irqThreadStarted = false → line.thread = none
  thread : ThreadSound line.thread
  waiting : ∀ edge ∈ line.queue, edge.Sound
  heeds : Heeds line

section Steps

variable {line : Line}

theorem freshLine_sound : LineSound freshLine where
  cfg := fun opened => absurd opened (by decide)
  command := fun _ isCommand => absurd isCommand nofun
  unstarted := fun _ => rfl
  thread := trivial
  waiting := fun _ member => absurd member List.not_mem_nil
  heeds := ⟨fun _ member => absurd member List.not_mem_nil, rfl⟩

theorem heeded_of_called {edge : Edge} {call : Call} (sound : edge.Sound)
    (enabled : edge.enabled = true) (isCall : edge.irqCfg.call = some call) :
    Heeded edge [call] := by
  constructor
  · intro _
    rw [isCall]
    rfl
  · intro disabled
    have isDisabled := sound.1 false disabled
    rw [enabled] at isDisabled
    exact absurd isDisabled (by decide)

theorem heeded_of_skipped {edge : Edge} (sound : edge.Sound) (disabled : edge.enabled = false) :
    Heeded edge [] := by
  constructor
  · intro enabled
    have isEnabled := sound.1 true enabled
    rw [disabled] at isEnabled
    exact absurd isEnabled (by decide)
  · intro _
    rfl

/-- The thread is done with an edge it had in hand. -/
theorem LineSound.finish (sound : LineSound line) {edge : Edge} {calls : List Call}
    (held : inHand line.thread = [edge]) (heeded : Heeded edge calls) :
    LineSound (line.finish edge calls) where
  cfg := sound.cfg
  command := sound.command
  unstarted := fun started => by
    rw [sound.unstarted started] at held
    exact absurd held nofun
  thread := trivial
  waiting := sound.waiting
  heeds := by
    constructor
    · intro entry member
      rcases List.mem_append.mp member with earlier | last
      · exact sound.heeds.1 entry earlier
      · rw [List.mem_singleton.mp last]
        exact heeded
    · have before := sound.heeds.2
      simp only [Line.trail, held] at before
      simpa [Line.finish, Line.trail, inHand] using before

/-- The thread moves on with the same edge in hand. -/
theorem LineSound.move (sound : LineSound line) {thread : Option ThreadPc}
    (threadSound : ThreadSound thread) (held : inHand thread = inHand line.thread)
    (alive : line.thread ≠ none) : LineSound { line with thread := thread } where
  cfg := sound.cfg
  command := sound.command
  unstarted := fun started => absurd (sound.unstarted started) alive
  thread := threadSound
  waiting := sound.waiting
  heeds := by
    refine ⟨sound.heeds.1, ?_⟩
    have before := sound.heeds.2
    simp only [Line.trail] at before ⊢
    rw [held]
    exact before

theorem threadRead_sound (sound : LineSound line) {kernel : Kernel} {copy : Copy}
    (isThread : line.thread = some (.read copy))
    (fresh : kernel.readFails = false → ∀ edge ∈ line.queue.head?, copy.Fresh edge) :
    LineSound (threadRead line kernel copy) := by
  have alive : line.thread ≠ none := by simp [isThread]
  unfold threadRead
  by_cases fails : kernel.readFails = true ∨ line.pin.eventFd ≠ some copy.efd
  · rw [if_pos fails]
    exact sound.move trivial (by rw [isThread]; rfl) alive
  · rw [if_neg fails]
    have threadSound := sound.thread
    rw [isThread] at threadSound
    cases waiting : line.queue with
    | nil => exact sound
    | cons edge rest =>
        have answers : kernel.readFails = false := by
          simpa using fun isTrue => fails (Or.inl isTrue)
        have edgeSound := sound.waiting edge (by rw [waiting]; exact List.mem_cons_self)
        exact {
          cfg := sound.cfg
          command := sound.command
          unstarted := fun started => absurd (sound.unstarted started) alive
          thread := ⟨threadSound, edgeSound, fresh answers edge (by rw [waiting]; rfl)⟩
          waiting := fun other member =>
            sound.waiting other (by rw [waiting]; exact List.mem_cons_of_mem _ member)
          heeds := by
            refine ⟨sound.heeds.1, ?_⟩
            have before := sound.heeds.2
            simpa [Line.trail, isThread, waiting, inHand] using before }

theorem threadFilter_sound (sound : LineSound line) {kernel : Kernel} {copy : Copy} {edge : Edge}
    (isThread : line.thread = some (.filter copy edge)) :
    LineSound (threadFilter line kernel copy edge) := by
  obtain ⟨callable, edgeSound, sameFlag, sameCall⟩ : Callable copy.irqCfg ∧ edge.Sound ∧
      copy.Fresh edge := by
    have threadSound := sound.thread
    rw [isThread] at threadSound
    exact threadSound
  have edgeMode : ¬ (copy.irqCfg.mode = .low ∨ copy.irqCfg.mode = .high) :=
    fun level => level.elim callable.1 callable.2.1
  obtain ⟨cb, isCb⟩ := Option.isSome_iff_exists.mp callable.2.2
  have isCall : copy.irqCfg.call = some ⟨cb, copy.irqCfg.arg⟩ := by
    simp only [IrqCfg.call, isCb, Option.map_some]
  unfold threadFilter
  cases enabled : copy.enabled with
  | true =>
      have edgeEnabled : edge.enabled = true := sameFlag ▸ enabled
      simp only [isCall, if_neg edgeMode]
      apply sound.move
      · exact ⟨edgeSound, edgeEnabled, (sameCall edgeEnabled) ▸ isCall⟩
      · rw [isThread]
        rfl
      · simp [isThread]
  | false =>
      have edgeDisabled : edge.enabled = false := sameFlag ▸ enabled
      simp only
      exact sound.finish (by rw [isThread]; rfl) (heeded_of_skipped edgeSound edgeDisabled)

theorem gpioIrqThread_sound (sound : LineSound line) {kernel : Kernel}
    (fresh : ReadsFresh line (.thread kernel)) : LineSound (gpioIrqThread line kernel) := by
  have threadSound := sound.thread
  unfold gpioIrqThread
  cases isThread : line.thread with
  | none => exact sound
  | some pc =>
      have alive : line.thread ≠ none := by simp [isThread]
      rw [isThread] at threadSound
      cases pc with
      | snapshot =>
          show LineSound (threadSnapshot line)
          unfold threadSnapshot
          cases opened : line.pin.eventFd with
          | none => exact sound.move trivial (by rw [isThread]; rfl) alive
          | some efd =>
              exact sound.move (sound.cfg (by rw [opened]; rfl)) (by rw [isThread]; rfl) alive
      | poll copy =>
          apply sound.move
          · cases kernel.pollIn with
            | true => exact threadSound
            | false => trivial
          · rw [isThread]
            cases kernel.pollIn <;> rfl
          · exact alive
      | read copy =>
          exact threadRead_sound sound isThread fun answers =>
            fresh answers copy (by rw [isThread]; rfl)
      | filter copy edge => exact threadFilter_sound sound isThread
      | callback call edge =>
          exact sound.finish (by rw [isThread]; rfl)
            (heeded_of_called threadSound.1 threadSound.2.1 threadSound.2.2)

theorem edgeOccurs_sound (sound : LineSound line) (rising : Bool) :
    LineSound (edgeOccurs line rising) := by
  unfold edgeOccurs
  split
  · rename_i reported
    exact {
      cfg := sound.cfg
      command := sound.command
      unstarted := sound.unstarted
      thread := sound.thread
      waiting := by
        intro edge member
        rcases List.mem_append.mp member with earlier | last
        · exact sound.waiting edge earlier
        · rw [List.mem_singleton.mp last]
          exact ⟨sound.command, sound.cfg reported.1⟩
      heeds := by
        refine ⟨sound.heeds.1, ?_⟩
        have before := sound.heeds.2
        simp only [Line.trail, List.map_append] at before ⊢
        rw [List.range_succ, ← before]
        simp }
  · exact sound

theorem initializedWith_sound (sound : LineSound line) {cfg : IrqCfg} (callable : Callable cfg)
    (fd : Nat) (flags : Option EventFlags) : LineSound (line.initializedWith cfg fd flags) := by
  cases started : line.pin.irqThreadStarted with
  | true =>
      have same : (line.initializedWith cfg fd flags).thread = line.thread := by
        simp [Line.initializedWith, started]
      exact {
        cfg := fun _ => callable
        command := sound.command
        unstarted := fun isStarted => absurd isStarted (by simp [Line.initializedWith])
        thread := same ▸ sound.thread
        waiting := sound.waiting
        heeds := by
          refine ⟨sound.heeds.1, ?_⟩
          have before := sound.heeds.2
          simp only [Line.trail] at before ⊢
          rw [same]
          exact before }
  | false =>
      have created : (line.initializedWith cfg fd flags).thread = some .snapshot := by
        simp [Line.initializedWith, started]
      exact {
        cfg := fun _ => callable
        command := sound.command
        unstarted := fun isStarted => absurd isStarted (by simp [Line.initializedWith])
        thread := created ▸ trivial
        waiting := sound.waiting
        heeds := by
          refine ⟨sound.heeds.1, ?_⟩
          have before := sound.heeds.2
          simp only [Line.trail, sound.unstarted started] at before
          simp only [Line.trail, created]
          exact before }

theorem afterIrqInit_sound (sound : LineSound line) {cfg : Option IrqCfg} {answer : Option Nat}
    (callable : ∀ given ∈ cfg, Callable given) : LineSound (afterIrqInit line cfg answer) := by
  cases cfg with
  | none =>
      exact ⟨sound.cfg, sound.command, sound.unstarted, sound.thread, sound.waiting, sound.heeds⟩
  | some cfg =>
      have isCallable := callable cfg rfl
      cases opened : line.pin.eventFd with
      | some fd =>
          rw [afterIrqInit_open opened]
          exact initializedWith_sound sound isCallable fd _
      | none =>
          cases answer with
          | some fd =>
              rw [afterIrqInit_granted opened]
              exact initializedWith_sound sound isCallable fd _
          | none =>
              rw [afterIrqInit_refused opened]
              exact ⟨fun _ => isCallable, sound.command, sound.unstarted, sound.thread,
                sound.waiting, sound.heeds⟩

end Steps

theorem step_sound {line next : Line} {action : Action} (sound : LineSound line)
    (legal : Legal line action) (fresh : ReadsFresh line action)
    (stepped : step line action = some next) : LineSound next := by
  rw [← Option.some.inj stepped]
  cases action with
  | init direct answer => exact absurd legal id
  | deinit => exact absurd legal id
  | irqInit cfg answer => exact afterIrqInit_sound sound legal
  | irqEnable =>
      exact ⟨sound.cfg, fun _ isCommand => Option.some.inj isCommand, sound.unstarted,
        sound.thread, sound.waiting, sound.heeds⟩
  | irqDisable =>
      exact ⟨sound.cfg, fun _ isCommand => Option.some.inj isCommand, sound.unstarted,
        sound.thread, sound.waiting, sound.heeds⟩
  | edge rising => exact edgeOccurs_sound sound rising
  | thread kernel => exact gpioIrqThread_sound sound fresh

/-! ## Runs -/

/-- In every run in which the thread reads every edge with a fresh copy, every
edge it is done with was answered as the last enable or disable before the edge
asked, with the callback of the latest initialization before it; the edges are
taken once each and in order. -/
theorem gpio_heeded_of_fresh {actions : List Action}
    (legal : EveryStep step Legal freshLine actions)
    (fresh : EveryStep step ReadsFresh freshLine actions) :
    EveryState step Heeds freshLine actions := by
  have sound : EveryState step LineSound freshLine actions :=
    everyState_of_everyStep (fun _ _ _ => step_sound) freshLine_sound legal fresh
  exact sound.mono fun _ isSound => isSound.heeds

/-- Enabled before the thread takes its first copy: one edge, one callback. -/
def enabledInTime : List Action :=
  [.irqInit (some ⟨.rise, some 1, 9⟩) (some 5), .irqEnable, .thread ⟨true, false, none, none⟩,
    .edge true, .thread ⟨true, false, none, none⟩, .thread ⟨true, false, none, none⟩,
    .thread ⟨true, false, none, none⟩, .thread ⟨true, false, none, none⟩]

theorem gpio_heeded_enabledInTime :
    EveryState step Heeds freshLine enabledInTime ∧
      (run step freshLine enabledInTime).map (fun line => line.processed.map Prod.snd) =
        some [[⟨1, 9⟩]] := by
  constructor
  · exact gpio_heeded_of_fresh (by decide +kernel) (by decide +kernel)
  · decide +kernel

/-- Enabled while the thread already waits: the edge is thrown away. -/
def enabledWhileWaiting : List Action :=
  [.irqInit (some ⟨.rise, some 1, 9⟩) (some 5), .thread ⟨true, false, none, none⟩, .irqEnable,
    .edge true, .thread ⟨true, false, none, none⟩, .thread ⟨true, false, none, none⟩,
    .thread ⟨true, false, none, none⟩]

/-- Disabled while the thread already waits: the edge is called back. -/
def disabledWhileWaiting : List Action :=
  [.irqInit (some ⟨.rise, some 1, 9⟩) (some 5), .irqEnable, .thread ⟨true, false, none, none⟩,
    .irqDisable, .edge true, .thread ⟨true, false, none, none⟩,
    .thread ⟨true, false, none, none⟩, .thread ⟨true, false, none, none⟩,
    .thread ⟨true, false, none, none⟩]

theorem gpio_unheeded_while_waiting :
    (EveryStep step Legal freshLine enabledWhileWaiting ∧
        ¬ EveryState step Heeds freshLine enabledWhileWaiting) ∧
      EveryStep step Legal freshLine disabledWhileWaiting ∧
        ¬ EveryState step Heeds freshLine disabledWhileWaiting := by
  refine ⟨⟨?_, ?_⟩, ?_, ?_⟩
  · decide +kernel
  · decide +kernel
  · decide +kernel
  · decide +kernel

end TuyaAdapter.TklGpio
