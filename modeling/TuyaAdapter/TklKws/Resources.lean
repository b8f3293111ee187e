import TuyaAdapter.Foundation.Run
import TuyaAdapter.TklKws.Model

/-!
Contract: what keyword spotting obtains and releases, over any number of calls
of `tkl_kws_init` and `tkl_kws_deinit` with steps of the tasks and of the feed
callback between them.

`tkl_kws_deinit` frees no ring buffer; where it should, it passes the thread
handle. Every run that goes wrong does so because a ring buffer is outstanding
that the context does not hold any more, or that nothing will release.
-/

namespace TuyaAdapter.TklKws

open Foundation Foundation.Run TuyaRingbuf

/-! ## Steps -/

inductive Action where
  | init (answers : InitAnswers)
  | deinit
  | task (index : Nat) (allocates : Bool)
  | feed (micData : Option (Nat → UInt8)) (frames : UInt32)

def step (kws : Kws) : Action → Option Kws
  | .init answers => some (tklKwsInit kws answers).1
  | .deinit => some (tklKwsDeinit kws).1
  | .task index allocates => some (tklKwsTask kws index allocates)
  | .feed micData frames => some (tklKwsProcess kws micData frames)

/-! ## The property and the condition -/

/-- What a pointer of the context owns: nothing when keyword spotting is not
initialised, since `tkl_kws_deinit` then does nothing. -/
def owner (kws : Kws) (pointer : Option Nat) : Option Nat := if kws.module then pointer else none

/-- Nothing was used that was not held and everything released was held, so that
nothing was released twice or by the wrong function; what was not released
belongs to the initialised context. -/
structure Orderly (kws : Kws) : Prop where
  rings : kws.rings.Accounted (owner kws kws.micRingbuf)
  threads : kws.threads.Accounted (owner kws kws.kwsThread)
  instances : kws.instances.Accounted (owner kws kws.self)

/-- The initialisation gets no ring buffer; or it is the first to get one, and
does not end with a callback that cannot be set. Nothing is deinitialised. -/
def NeverReleases (kws : Kws) : Action → Prop
  | .init answers =>
      answers.memory = none ∨
        kws.micRingbuf = none ∧ ¬ (answers.creation = .succeeds ∧ answers.callbackSet = false)
  | .deinit => kws.module = false
  | .task _ _ => True
  | .feed _ _ => True

/-! ## Initialisation by its answers -/

/-- Where an initialisation ends that has got a ring buffer. -/
inductive Ended (started : Kws) (answers : InitAnswers) (final : Kws) : Prop where
  | notCreated (self : Option Nat) (failed : answers.creation = .fails self)
      (isFinal : final = { started with self := self })
  | noCallback (created : answers.creation = .succeeds) (unset : answers.callbackSet = false)
      (isFinal : final = (tklKwsDeinit (withInstance started)).1)
  | noThread (isSet : answers.callbackSet = true) (isFinal : final = withInstance started)
  | running (isSet : answers.callbackSet = true)
      (isFinal : final = withThread (withInstance started))

theorem init_cases (kws : Kws) (answers : InitAnswers) :
    answers.memory = none ∧ (tklKwsInit kws answers).1 = kws ∨
      answers.memory ≠ none ∧
        ∃ rbuff, Ended (withRing kws rbuff) answers (tklKwsInit kws answers).1 := by
  cases found : answers.memory with
  | none =>
      refine Or.inl ⟨rfl, ?_⟩
      unfold tklKwsInit
      rw [found]
      rfl
  | some memory =>
      have isCreated : tuyaRingBuffCreate kwsRingBuffLen .overflowStop answers.memory =
          (some (ringbuffInit ⟨0, 0, 0, memory⟩ kwsRingBuffLen), .ok) := by
        rw [found]
        rfl
      refine Or.inr ⟨by simp, ringbuffInit ⟨0, 0, 0, memory⟩ kwsRingBuffLen, ?_⟩
      unfold tklKwsInit
      rw [isCreated]
      cases isCreation : answers.creation with
      | fails self => exact .notCreated self isCreation rfl
      | succeeds =>
          cases isSet : answers.callbackSet with
          | false => exact .noCallback isCreation isSet rfl
          | true =>
              cases answers.threadCreated with
              | false => exact .noThread isSet rfl
              | true => exact .running isSet rfl

/-! ## The invariant -/

/-- While nothing was released: an initialised context holds its ring buffer, and
tasks run only with an instance of the module. -/
structure Holds (kws : Kws) : Prop where
  orderly : Orderly kws
  idle : kws.module = false → kws.tasks = []
  ring : ∀ name, kws.micRingbuf = some name → kws.module = true ∧ kws.rings.Held name
  initialised : kws.module = true → kws.micRingbuf ≠ none
  running : kws.tasks ≠ [] → ∃ name, kws.self = some name ∧ kws.instances.Held name

theorem holds_fresh : Holds .fresh where
  orderly := ⟨Ledger.accounted_fresh _, Ledger.accounted_fresh _, Ledger.accounted_fresh _⟩
  idle := fun _ => rfl
  ring := fun name isRing => by cases isRing
  initialised := fun isModule => by cases isModule
  running := fun some_ => absurd rfl some_

variable {kws : Kws}

theorem Holds.module_of_none (holds : Holds kws) (noRing : kws.micRingbuf = none) :
    kws.module = false := by
  cases isModule : kws.module with
  | false => rfl
  | true => exact absurd noRing (holds.initialised isModule)

/-- Before the first ring buffer nothing is outstanding. -/
theorem Holds.nothing (holds : Holds kws) (noRing : kws.micRingbuf = none) :
    kws.rings.Accounted none ∧ kws.threads.Accounted none ∧ kws.instances.Accounted none := by
  have orderly := holds.orderly
  have notOwned (pointer : Option Nat) : owner kws pointer = none := by
    simp [owner, holds.module_of_none noRing]
  exact ⟨notOwned kws.micRingbuf ▸ orderly.rings, notOwned kws.kwsThread ▸ orderly.threads,
    notOwned kws.self ▸ orderly.instances⟩

/-- A ring buffer that is held and not owned is never released. -/
theorem not_orderly_of_held {name : Nat} (held : kws.rings.Held name)
    (lost : owner kws kws.micRingbuf ≠ some name) : ¬ Orderly kws := by
  intro orderly
  exact lost (orderly.rings.owned name held)

/-! ## Steps that keep it -/

theorem held_withRing (accounted : kws.rings.Accounted none) (rbuff : Ringbuff) :
    (withRing kws rbuff).rings.Held kws.rings.nextName :=
  (Ledger.held_obtain accounted.kept () _).mpr (Or.inr rfl)

/-- The first ring buffer, whatever is in `self` after it. -/
theorem holds_withRing (holds : Holds kws) (noRing : kws.micRingbuf = none) (rbuff : Ringbuff)
    (self : Option Nat) : Holds { withRing kws rbuff with self := self } := by
  obtain ⟨rings, threads, instances⟩ := holds.nothing noRing
  refine ⟨⟨Ledger.accounted_obtain rings (), threads.of_none _, instances.of_none _⟩, ?_, ?_, ?_, ?_⟩
  · intro isModule
    cases isModule
  · intro name isRing
    cases isRing
    exact ⟨rfl, held_withRing rings rbuff⟩
  · intro _ missing
    cases missing
  · intro some_
    exact absurd (holds.idle (holds.module_of_none noRing)) some_

/-- The first instance of the module. -/
theorem holds_withInstance (holds : Holds kws) (isModule : kws.module = true)
    (instances : kws.instances.Accounted none) : Holds (withInstance kws) := by
  have owned : owner (withInstance kws) (withInstance kws).self =
      some kws.instances.nextName := by
    simp [owner, withInstance, isModule]
  refine ⟨⟨holds.orderly.rings, holds.orderly.threads, ?_⟩, holds.idle, holds.ring,
    holds.initialised, fun _ => ⟨_, rfl, ?_⟩⟩
  · rw [owned]
    exact Ledger.accounted_obtain instances ()
  · exact (Ledger.held_obtain instances.kept () _).mpr (Or.inr rfl)

/-- The first task, which has an instance to run with. -/
theorem holds_withThread (holds : Holds kws) (isModule : kws.module = true)
    (threads : kws.threads.Accounted none)
    (running : ∃ name, kws.self = some name ∧ kws.instances.Held name) :
    Holds (withThread kws) := by
  have owned : owner (withThread kws) (withThread kws).kwsThread = some kws.threads.nextName := by
    simp [owner, withThread, isModule]
  refine ⟨⟨holds.orderly.rings, ?_, holds.orderly.instances⟩, ?_, holds.ring, holds.initialised,
    fun _ => running⟩
  · rw [owned]
    exact Ledger.accounted_obtain threads ()
  · intro notModule
    exact absurd (notModule.symm.trans isModule) (by decide)

theorem holds_init (holds : Holds kws) {answers : InitAnswers}
    (never : NeverReleases kws (.init answers)) : Holds (tklKwsInit kws answers).1 := by
  rcases init_cases kws answers with ⟨-, isInit⟩ | ⟨found, rbuff, ended⟩
  · rw [isInit]
    exact holds
  · obtain ⟨noRing, callback⟩ := never.resolve_left found
    obtain ⟨-, threads, instances⟩ := holds.nothing noRing
    have started : Holds (withRing kws rbuff) := holds_withRing holds noRing rbuff kws.self
    have created : Holds (withInstance (withRing kws rbuff)) :=
      holds_withInstance started rfl instances
    cases ended with
    | notCreated self failed isFinal =>
        rw [isFinal]
        exact holds_withRing holds noRing rbuff self
    | noCallback isCreated unset _ => exact absurd ⟨isCreated, unset⟩ callback
    | noThread _ isFinal =>
        rw [isFinal]
        exact created
    | running _ isFinal =>
        rw [isFinal]
        refine holds_withThread created rfl threads ⟨_, rfl, ?_⟩
        exact (Ledger.held_obtain instances.kept () _).mpr (Or.inr rfl)

theorem useRing_of_holds (holds : Holds kws) : useRing kws = kws := by
  unfold useRing
  split
  · rfl
  · rename_i name isRing
    rw [Ledger.use_of_held (holds.ring name isRing).2]

theorem useModule_of_holds (holds : Holds kws) (some_ : kws.tasks ≠ []) : useModule kws = kws := by
  obtain ⟨name, isSelf, held⟩ := holds.running some_
  have isModule : kws.module = true := by
    cases isModule : kws.module with
    | true => rfl
    | false => exact absurd (holds.idle isModule) some_
  unfold useModule
  split
  · rename_i other _ isOther
    have same : name = other := Option.some.inj (isSelf.symm.trans isOther)
    rw [Ledger.use_of_held (same ▸ held)]
  · rename_i missing
    exact absurd isSelf (missing name isModule)

theorem holds_buffers (holds : Holds kws) (buffers : Nat → Ringbuff) :
    Holds { kws with buffers := buffers } :=
  ⟨⟨holds.orderly.rings, holds.orderly.threads, holds.orderly.instances⟩, holds.idle, holds.ring,
    holds.initialised, holds.running⟩

theorem holds_readChunk (holds : Holds kws) : Holds (readChunk kws) := by
  unfold readChunk
  split
  · exact holds
  · split
    · exact holds
    · exact holds_buffers holds _

theorem holds_setTask (holds : Holds kws) (index : Nat) (task : Task) :
    Holds (setTask kws index task) := by
  refine ⟨⟨holds.orderly.rings, holds.orderly.threads, holds.orderly.instances⟩, ?_, holds.ring,
    holds.initialised, ?_⟩
  · intro notModule
    simp [setTask, holds.idle notModule]
  · intro some_
    exact holds.running fun noTasks => some_ (by simp [setTask, noTasks])

theorem holds_task (holds : Holds kws) (index : Nat) (allocates : Bool) :
    Holds (tklKwsTask kws index allocates) := by
  unfold tklKwsTask
  rw [useRing_of_holds holds]
  split
  · exact holds
  · rename_i task isTask
    split
    · simp only
      split_ifs
      · exact holds
      · exact holds
      · exact holds_setTask holds _ _
    · exact holds_setTask (holds_readChunk holds) _ _
    · have some_ : kws.tasks ≠ [] := by
        intro noTasks
        rw [noTasks] at isTask
        cases isTask
      rw [useModule_of_holds holds some_]
      exact holds_setTask holds _ _

theorem holds_feed (holds : Holds kws) (micData : Option (Nat → UInt8)) (frames : UInt32) :
    Holds (tklKwsProcess kws micData frames) := by
  unfold tklKwsProcess
  simp only [useRing_of_holds holds]
  split
  · split_ifs
    · exact holds
    · split
      · exact holds
      · exact holds_buffers holds _
  · exact holds

/-! ## Steps that lose a ring buffer -/

theorem release_rings (kws : Kws) (thread : Option Nat) :
    (tklThreadRelease kws thread).1.rings = kws.rings := by
  cases thread <;> rfl

theorem destroy_rings (kws : Kws) (self : Option Nat) : (destroy kws self).rings = kws.rings := by
  cases self <;> rfl

/-- The only thing passed to `tuya_ring_buff_free` is a thread handle. -/
theorem deinit_rings (isModule : kws.module = true) :
    (tklKwsDeinit kws).1.rings =
      if kws.kwsThread = none then kws.rings else kws.rings.misuse := by
  unfold tklKwsDeinit
  rw [if_neg (by simp [isModule])]
  simp only [destroy_rings, release_rings]
  split <;> rename_i isThread <;> rw [isThread] <;> rfl

theorem deinit_module (kws : Kws) : (tklKwsDeinit kws).1.module = false := by
  unfold tklKwsDeinit
  split_ifs with notModule
  · exact notModule
  · rfl

/-- Deinitialisation leaves every ring buffer that is held as it is, and owned by
nothing. -/
theorem deinit_loses {name : Nat} (isModule : kws.module = true) (held : kws.rings.Held name) :
    ¬ Orderly (tklKwsDeinit kws).1 := by
  have stillHeld : (tklKwsDeinit kws).1.rings.Held name := by
    rw [deinit_rings isModule]
    split_ifs <;> exact held
  refine not_orderly_of_held stillHeld ?_
  simp [owner, deinit_module]

/-- An initialisation that gets a ring buffer while another one is held, or that
deinitialises in the end, loses one. -/
theorem init_loses {answers : InitAnswers} {rbuff : Ringbuff} {final : Kws}
    (kept : kws.rings.Kept) (ended : Ended (withRing kws rbuff) answers final)
    (lost : (∃ name, kws.rings.Held name) ∨
      answers.creation = .succeeds ∧ answers.callbackSet = false) : ¬ Orderly final := by
  have replaced (other : Kws) (sameRings : other.rings = (withRing kws rbuff).rings)
      (isRing : other.micRingbuf = some kws.rings.nextName) (held : ∃ name, kws.rings.Held name) :
      ¬ Orderly other := by
    obtain ⟨name, isHeld⟩ := held
    have stillHeld : other.rings.Held name := by
      rw [sameRings]
      exact (Ledger.held_obtain kept () name).mpr (Or.inl isHeld)
    refine not_orderly_of_held stillHeld ?_
    rw [isRing]
    unfold owner
    split_ifs
    · intro same
      have isNext : kws.rings.nextName = name := Option.some.inj same
      exact absurd isHeld.1 (by rw [← isNext]; exact Nat.lt_irrefl _)
    · intro same
      cases same
  cases ended with
  | notCreated self failed isFinal =>
      have held := lost.resolve_right fun both => by
        rw [failed] at both
        cases both.1
      rw [isFinal]
      exact replaced _ rfl rfl held
  | noCallback _ _ isFinal =>
      have new : (withRing kws rbuff).rings.Held kws.rings.nextName :=
        (Ledger.held_obtain kept () _).mpr (Or.inr rfl)
      rw [isFinal]
      exact deinit_loses rfl new
  | noThread isSet isFinal =>
      have held := lost.resolve_right fun both => by simp [isSet] at both
      rw [isFinal]
      exact replaced _ rfl rfl held
  | running isSet isFinal =>
      have held := lost.resolve_right fun both => by simp [isSet] at both
      rw [isFinal]
      exact replaced _ rfl rfl held

/-! ## All runs -/

theorem holds_step (holds : Holds kws) {action : Action} (never : NeverReleases kws action) :
    ∃ next, step kws action = some next ∧ Holds next := by
  cases action with
  | init answers => exact ⟨_, rfl, holds_init holds never⟩
  | deinit =>
      refine ⟨_, rfl, ?_⟩
      have notModule : kws.module = false := never
      unfold tklKwsDeinit
      rw [if_pos notModule]
      exact holds
  | task index allocates => exact ⟨_, rfl, holds_task holds index allocates⟩
  | feed micData frames => exact ⟨_, rfl, holds_feed holds micData frames⟩

theorem not_orderly_step (holds : Holds kws) {action : Action}
    (releases : ¬ NeverReleases kws action) :
    ∃ next, step kws action = some next ∧ ¬ Orderly next := by
  cases action with
  | init answers =>
      refine ⟨_, rfl, ?_⟩
      obtain ⟨found, notFirst⟩ := not_or.mp releases
      obtain ⟨-, rbuff, ended⟩ := (init_cases kws answers).resolve_left fun none_ => found none_.1
      refine init_loses holds.orderly.rings.kept ended ?_
      cases isRing : kws.micRingbuf with
      | none => exact Or.inr (not_not.mp fun callback => notFirst ⟨isRing, callback⟩)
      | some name => exact Or.inl ⟨name, (holds.ring name isRing).2⟩
  | deinit =>
      have isModule : kws.module = true := by simpa [NeverReleases] using releases
      obtain ⟨name, isRing⟩ := Option.ne_none_iff_exists'.mp (holds.initialised isModule)
      exact ⟨_, rfl, deinit_loses isModule (holds.ring name isRing).2⟩
  | task _ _ => exact absurd trivial releases
  | feed _ _ => exact absurd trivial releases

/-- Ring buffers, thread handles and instances are released once, by their own
functions, and not used afterwards exactly in the runs that release nothing:
with one initialisation that gets a ring buffer, and without deinitialisation
after it. -/
theorem resources_in_order_iff (actions : List Action) :
    EveryState step Orderly .fresh actions ↔ EveryStep step NeverReleases .fresh actions := by
  have anything : EveryStep step (fun _ _ => True) .fresh actions :=
    everyStep_of_forall (fun _ _ => trivial) _ _
  exact everyState_iff_of_broken (fun _ holds => holds.orderly)
    (fun _ _ holds _ never => holds_step holds never)
    (fun _ _ holds _ releases => not_orderly_step holds releases) holds_fresh anything

def allSucceed : InitAnswers := ⟨some fun _ => 0, .succeeds, true, true⟩

/-- One initialisation and one deinitialisation: the ring buffer is not freed, and
the thread handle is freed twice, first as a ring buffer. A task that has read
its chunk goes on with a module that is gone. -/
theorem deinit_not_in_order :
    ¬ EveryState step Orderly .fresh [.init allSucceed, .deinit] ∧
      (run step .fresh [.init allSucceed, .deinit]).map (fun kws =>
        (kws.rings.returnedNames, kws.rings.misuses, kws.threads.returnedNames)) =
          some ([], 1, [0, 0]) ∧
      (run step .fresh [.init allSucceed, .feed (some fun _ => 0) 4800, .task 0 true,
        .task 0 true, .deinit, .task 0 true]).map (fun kws => kws.instances.misuses) =
          some 1 := by
  refine ⟨fun every => ?_, by decide +kernel, by decide +kernel⟩
  have atEnd : Orderly (tklKwsDeinit (tklKwsInit .fresh allSucceed).1).1 :=
    (every.2 _ rfl).2 _ rfl
  exact absurd atEnd.rings.kept.faultless (by decide +kernel)

end TuyaAdapter.TklKws
