import Mathlib.Data.List.Basic
import Mathlib.Order.MinMax

/-!
Owns runs of a deterministic transition system whose step may fail to produce
a state. `EveryStep` asks a condition of every step of a run, in the state the
step is taken in; `EveryState` asks one of every state the run reaches. The
rules turn one-step facts into facts about whole runs: an invariant that every
admitted step preserves, and a property that survives a step exactly when the
step meets a condition.
-/

namespace TuyaAdapter.Foundation.Run

variable {State Action : Type*} (step : State → Action → Option State)

/-- The state after a list of actions, when every step produces one. -/
def run : State → List Action → Option State
  | state, [] => some state
  | state, action :: rest => (step state action).bind fun next => run next rest

/-- Every step of the run is admitted in the state it is taken in. -/
def EveryStep (admitted : State → Action → Prop) : State → List Action → Prop
  | _, [] => True
  | state, action :: rest =>
      admitted state action ∧
        ∀ next, step state action = some next → EveryStep admitted next rest

instance decidableEveryStep (admitted : State → Action → Prop)
    [∀ state action, Decidable (admitted state action)] :
    ∀ state actions, Decidable (EveryStep step admitted state actions)
  | _, [] => isTrue trivial
  | state, action :: rest =>
      match isStep : step state action with
      | none =>
          decidable_of_iff (admitted state action)
            ⟨fun isAdmitted => ⟨isAdmitted, fun next stepped => by simp [isStep] at stepped⟩,
              fun every => every.1⟩
      | some next =>
          have := decidableEveryStep admitted next rest
          decidable_of_iff (admitted state action ∧ EveryStep step admitted next rest)
            ⟨fun both => ⟨both.1, fun other stepped => by
                rw [isStep] at stepped
                rw [← Option.some.inj stepped]
                exact both.2⟩,
              fun every => ⟨every.1, every.2 next isStep⟩⟩

/-- Some run of admitted steps leads from one state to the other. -/
def Reaches (admitted : State → Action → Prop) (state final : State) : Prop :=
  ∃ actions, EveryStep step admitted state actions ∧ run step state actions = some final

/-- Every state the run reaches has the property, the first and last included. -/
def EveryState (holds : State → Prop) : State → List Action → Prop
  | state, [] => holds state
  | state, action :: rest =>
      holds state ∧ ∀ next, step state action = some next → EveryState holds next rest

instance decidableEveryState (holds : State → Prop) [∀ state, Decidable (holds state)] :
    ∀ state actions, Decidable (EveryState step holds state actions)
  | state, [] => inferInstanceAs (Decidable (holds state))
  | state, action :: rest =>
      match isStep : step state action with
      | none =>
          decidable_of_iff (holds state)
            ⟨fun isHeld => ⟨isHeld, fun next stepped => by simp [isStep] at stepped⟩,
              fun every => every.1⟩
      | some next =>
          have := decidableEveryState holds next rest
          decidable_of_iff (holds state ∧ EveryState step holds next rest)
            ⟨fun both => ⟨both.1, fun other stepped => by
                rw [isStep] at stepped
                rw [← Option.some.inj stepped]
                exact both.2⟩,
              fun every => ⟨every.1, every.2 next isStep⟩⟩

/-- The states a run passes through, the first included. -/
def states : State → List Action → List State
  | state, [] => [state]
  | state, action :: rest =>
      state :: (match step state action with
        | none => []
        | some next => states next rest)

variable {step} {invariant holds : State → Prop} {admitted meets : State → Action → Prop}

theorem run_cons_eq_some {state final : State} {action : Action} {rest : List Action} :
    run step state (action :: rest) = some final ↔
      ∃ next, step state action = some next ∧ run step next rest = some final := by
  simp only [run, Option.bind_eq_some_iff]

theorem EveryStep.mono {weaker : State → Action → Prop}
    (implies : ∀ state action, admitted state action → weaker state action)
    {state : State} {actions : List Action} (every : EveryStep step admitted state actions) :
    EveryStep step weaker state actions := by
  induction actions generalizing state with
  | nil => trivial
  | cons action rest inductionHypothesis =>
      exact ⟨implies state action every.1,
        fun next stepped => inductionHypothesis (every.2 next stepped)⟩

theorem EveryStep.and {state : State} {actions : List Action}
    (every : EveryStep step admitted state actions) (also_ : EveryStep step meets state actions) :
    EveryStep step (fun state action => admitted state action ∧ meets state action) state
      actions := by
  induction actions generalizing state with
  | nil => trivial
  | cons action rest inductionHypothesis =>
      exact ⟨⟨every.1, also_.1⟩,
        fun next stepped => inductionHypothesis (every.2 next stepped) (also_.2 next stepped)⟩

theorem everyStep_of_forall (always : ∀ state action, admitted state action) (state : State)
    (actions : List Action) : EveryStep step admitted state actions := by
  induction actions generalizing state with
  | nil => trivial
  | cons action rest inductionHypothesis =>
      exact ⟨always state action, fun next _ => inductionHypothesis next⟩

theorem everyStep_of_mem {actions : List Action}
    (each : ∀ action ∈ actions, ∀ state, admitted state action) (state : State) :
    EveryStep step admitted state actions := by
  induction actions generalizing state with
  | nil => trivial
  | cons action rest inductionHypothesis =>
      refine ⟨each action (by simp) state, fun next _ => inductionHypothesis ?_ next⟩
      intro later member
      exact each later (by simp [member])

theorem EveryState.mono {weaker : State → Prop} (implies : ∀ state, holds state → weaker state)
    {state : State} {actions : List Action} (every : EveryState step holds state actions) :
    EveryState step weaker state actions := by
  induction actions generalizing state with
  | nil => exact implies state every
  | cons action rest inductionHypothesis =>
      exact ⟨implies state every.1,
        fun next stepped => inductionHypothesis (every.2 next stepped)⟩

/-- Every step of a run that reaches its end produces a state. -/
theorem everyStep_of_run {state final : State} {actions : List Action}
    (ran : run step state actions = some final) :
    EveryStep step (fun state action => (step state action).isSome) state actions := by
  induction actions generalizing state with
  | nil => trivial
  | cons action rest inductionHypothesis =>
      obtain ⟨next, stepped, tail⟩ := run_cons_eq_some.mp ran
      refine ⟨Option.isSome_iff_exists.mpr ⟨next, stepped⟩, fun other produced => ?_⟩
      rw [stepped] at produced
      rw [← Option.some.inj produced]
      exact inductionHypothesis tail

/-- An invariant that every produced step preserves holds at the end of a run. -/
theorem run_invariant
    (preserved : ∀ state action next, invariant state → step state action = some next →
      invariant next)
    {state final : State} {actions : List Action} (start : invariant state)
    (ran : run step state actions = some final) : invariant final := by
  induction actions generalizing state with
  | nil =>
      cases ran
      exact start
  | cons action rest inductionHypothesis =>
      obtain ⟨next, stepped, tail⟩ := run_cons_eq_some.mp ran
      exact inductionHypothesis (preserved state action next start stepped) tail

/-- An invariant that every admitted step preserves holds at the end of an
admitted run. -/
theorem run_admitted
    (preserved : ∀ state action next, invariant state → admitted state action →
      step state action = some next → invariant next)
    {state final : State} {actions : List Action} (start : invariant state)
    (legal : EveryStep step admitted state actions)
    (ran : run step state actions = some final) : invariant final := by
  induction actions generalizing state with
  | nil =>
      cases ran
      exact start
  | cons action rest inductionHypothesis =>
      obtain ⟨next, stepped, tail⟩ := run_cons_eq_some.mp ran
      exact inductionHypothesis (preserved state action next start legal.1 stepped)
        (legal.2 next stepped) tail

/-- When every admitted step produces a state that satisfies the invariant
again, an admitted run reaches its end and the invariant holds there. -/
theorem run_total
    (progress : ∀ state action, invariant state → admitted state action →
      ∃ next, step state action = some next ∧ invariant next)
    {state : State} {actions : List Action} (start : invariant state)
    (legal : EveryStep step admitted state actions) :
    ∃ final, run step state actions = some final ∧ invariant final := by
  induction actions generalizing state with
  | nil => exact ⟨state, rfl, start⟩
  | cons action rest inductionHypothesis =>
      obtain ⟨next, stepped, kept⟩ := progress state action start legal.1
      obtain ⟨final, ran, finally_⟩ := inductionHypothesis kept (legal.2 next stepped)
      exact ⟨final, run_cons_eq_some.mpr ⟨next, stepped, ran⟩, finally_⟩

/-- The invariant holds in every state that admitted steps reach. -/
theorem Reaches.preserves
    (progress : ∀ state action, invariant state → admitted state action →
      ∃ next, step state action = some next ∧ invariant next)
    {state final : State} (start : invariant state) (reaches : Reaches step admitted state final) :
    invariant final := by
  obtain ⟨actions, legal, ran⟩ := reaches
  obtain ⟨other, isRun, holds⟩ := run_total progress start legal
  rw [ran] at isRun
  rw [Option.some.inj isRun]
  exact holds

/-- An invariant that every step preserves that is admitted and meets a condition
holds in every state of a run of such steps. -/
theorem everyState_of_everyStep
    (preserved : ∀ state action next, invariant state → admitted state action →
      meets state action → step state action = some next → invariant next)
    {state : State} {actions : List Action} (start : invariant state)
    (legal : EveryStep step admitted state actions) (met : EveryStep step meets state actions) :
    EveryState step invariant state actions := by
  induction actions generalizing state with
  | nil => exact start
  | cons action rest inductionHypothesis =>
      refine ⟨start, fun next stepped => ?_⟩
      exact inductionHypothesis (preserved state action next start legal.1 met.1 stepped)
        (legal.2 next stepped) (met.2 next stepped)

/-- When every admitted step produces a state that satisfies the invariant
again, it holds in every state of an admitted run. -/
theorem everyState_of_progress
    (progress : ∀ state action, invariant state → admitted state action →
      ∃ next, step state action = some next ∧ invariant next)
    {state : State} {actions : List Action} (start : invariant state)
    (legal : EveryStep step admitted state actions) :
    EveryState step invariant state actions := by
  refine everyState_of_everyStep ?_ start legal legal
  intro before action next kept isLegal _ stepped
  obtain ⟨other, isOther, otherKept⟩ := progress before action kept isLegal
  rw [stepped] at isOther
  rw [Option.some.inj isOther]
  exact otherKept

/-- A mark that every step lowers to the new value, when that is smaller, is in
the end the least value of the run. -/
theorem run_minimum {mark value : State → Nat}
    (progress : ∀ state action, invariant state → admitted state action →
      ∃ next, step state action = some next ∧ invariant next ∧
        mark next = min (mark state) (value next))
    (bounded : ∀ state, invariant state → mark state ≤ value state)
    {state : State} {actions : List Action} (start : invariant state)
    (legal : EveryStep step admitted state actions) :
    ∃ final, run step state actions = some final ∧ mark final ≤ mark state ∧
      (∀ passed ∈ states step state actions, mark final ≤ value passed) ∧
      (mark final = mark state ∨ ∃ passed ∈ states step state actions,
        mark final = value passed) := by
  induction actions generalizing state with
  | nil =>
      refine ⟨state, rfl, le_refl _, ?_, Or.inl rfl⟩
      intro passed member
      rw [List.mem_singleton.mp member]
      exact bounded state start
  | cons action rest inductionHypothesis =>
      obtain ⟨next, stepped, kept, lowered⟩ := progress state action start legal.1
      obtain ⟨final, ran, below, least, attained⟩ := inductionHypothesis kept (legal.2 next stepped)
      have passes : states step state (action :: rest) = state :: states step next rest := by
        simp only [states, stepped]
      have nextMember : next ∈ states step next rest := by
        cases rest <;> simp [states]
      have belowMark : mark final ≤ mark state := by
        rw [lowered] at below
        exact below.trans (min_le_left _ _)
      refine ⟨final, run_cons_eq_some.mpr ⟨next, stepped, ran⟩, belowMark, ?_, ?_⟩
      · rw [passes]
        intro passed member
        rcases List.mem_cons.mp member with isState | later
        · rw [isState]
          exact belowMark.trans (bounded state start)
        · exact least passed later
      · rw [passes]
        rcases attained with isMark | ⟨passed, member, isValue⟩
        · rw [lowered] at isMark
          rcases min_choice (mark state) (value next) with isOld | isNew
          · exact Or.inl (isMark.trans isOld)
          · exact Or.inr ⟨next, by simp [nextMember], isMark.trans isNew⟩
        · exact Or.inr ⟨passed, by simp [member], isValue⟩

/-- A property that one step keeps exactly when the step meets a condition
holds in every state of a run exactly when every step of it meets the
condition. -/
theorem everyState_iff_everyStep
    (progress : ∀ state action, invariant state → admitted state action →
      ∃ next, step state action = some next ∧ invariant next)
    (exact_ : ∀ state action next, invariant state → holds state → admitted state action →
      step state action = some next → (holds next ↔ meets state action))
    {state : State} {actions : List Action} (start : invariant state) (initially : holds state)
    (legal : EveryStep step admitted state actions) :
    EveryState step holds state actions ↔ EveryStep step meets state actions := by
  induction actions generalizing state with
  | nil => exact ⟨fun _ => trivial, fun _ => initially⟩
  | cons action rest inductionHypothesis =>
      obtain ⟨next, stepped, kept⟩ := progress state action start legal.1
      have onlyNext : ∀ other, step state action = some other → other = next := by
        intro other produced
        exact Option.some.inj (produced.symm.trans stepped)
      have oneStep := exact_ state action next start initially legal.1 stepped
      constructor
      · rintro ⟨-, later⟩
        have nextHolds : holds next := by
          have atNext := later next stepped
          cases rest with
          | nil => exact atNext
          | cons _ _ => exact atNext.1
        refine ⟨oneStep.mp nextHolds, fun other produced => ?_⟩
        rw [onlyNext other produced]
        exact (inductionHypothesis kept nextHolds (legal.2 next stepped)).mp (later next stepped)
      · rintro ⟨met, later⟩
        have nextHolds : holds next := oneStep.mpr met
        refine ⟨initially, fun other produced => ?_⟩
        rw [onlyNext other produced]
        exact (inductionHypothesis kept nextHolds (legal.2 next stepped)).mpr (later next stepped)

/-- A property that an invariant gives, where steps that meet a condition keep
the invariant and the others lose the property, holds in every state of a run
exactly when every step of it meets the condition. -/
theorem everyState_iff_of_broken
    (sound : ∀ state, invariant state → holds state)
    (kept : ∀ state action, invariant state → admitted state action → meets state action →
      ∃ next, step state action = some next ∧ invariant next)
    (broken : ∀ state action, invariant state → admitted state action → ¬ meets state action →
      ∃ next, step state action = some next ∧ ¬ holds next)
    {state : State} {actions : List Action} (start : invariant state)
    (legal : EveryStep step admitted state actions) :
    EveryState step holds state actions ↔ EveryStep step meets state actions := by
  induction actions generalizing state with
  | nil => exact ⟨fun _ => trivial, fun _ => sound state start⟩
  | cons action rest inductionHypothesis =>
      by_cases met : meets state action
      · obtain ⟨next, stepped, nextKept⟩ := kept state action start legal.1 met
        have onlyNext : ∀ other, step state action = some other → other = next := by
          intro other produced
          exact Option.some.inj (produced.symm.trans stepped)
        have later := inductionHypothesis nextKept (legal.2 next stepped)
        constructor
        · rintro ⟨-, states⟩
          refine ⟨met, fun other produced => ?_⟩
          rw [onlyNext other produced]
          exact later.mp (states next stepped)
        · rintro ⟨-, steps⟩
          refine ⟨sound state start, fun other produced => ?_⟩
          rw [onlyNext other produced]
          exact later.mpr (steps next stepped)
      · obtain ⟨next, stepped, lost⟩ := broken state action start legal.1 met
        constructor
        · rintro ⟨-, states⟩
          have atNext := states next stepped
          cases rest with
          | nil => exact absurd atNext lost
          | cons _ _ => exact absurd atNext.1 lost
        · rintro ⟨isMet, -⟩
          exact absurd isMet met

/-- Two conditions on steps that agree as long as an invariant holds, and that
keep it, hold of every step of the same runs. -/
theorem everyStep_iff_everyStep {good : State → Action → Prop}
    (oneStep : ∀ state action, invariant state → admitted state action →
      (good state action ↔ meets state action))
    (kept : ∀ state action next, invariant state → admitted state action → good state action →
      step state action = some next → invariant next)
    {state : State} {actions : List Action} (start : invariant state)
    (legal : EveryStep step admitted state actions) :
    EveryStep step good state actions ↔ EveryStep step meets state actions := by
  induction actions generalizing state with
  | nil => exact Iff.rfl
  | cons action rest inductionHypothesis =>
      have here := oneStep state action start legal.1
      constructor
      · rintro ⟨isGood, later⟩
        refine ⟨here.mp isGood, fun next stepped => ?_⟩
        have nextKept := kept state action next start legal.1 isGood stepped
        exact (inductionHypothesis nextKept (legal.2 next stepped)).mp (later next stepped)
      · rintro ⟨met, later⟩
        have isGood := here.mpr met
        refine ⟨isGood, fun next stepped => ?_⟩
        have nextKept := kept state action next start legal.1 isGood stepped
        exact (inductionHypothesis nextKept (legal.2 next stepped)).mpr (later next stepped)

end TuyaAdapter.Foundation.Run
