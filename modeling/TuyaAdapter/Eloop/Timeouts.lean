import Mathlib.Data.List.Perm.Basic
import Mathlib.Data.List.Range
import TuyaAdapter.Eloop.Time
import TuyaAdapter.Foundation.History
import TuyaAdapter.Foundation.Run
import TuyaAdapter.Foundation.StableOrder

/-!
Contract: the timeouts of `eloop.c` over whole runs.

`Timers` says what timeouts are for, read off the log alone: they wait in the
order they were registered, a cancel takes those that match, and a call takes
one. The list of the loop is these in the order they are due. A handler is
called when its delay is over, never before an earlier one, and once.
-/

namespace TuyaAdapter.Eloop

open Foundation.History Foundation.Run Foundation.StableOrder

/-! ## What timeouts are for -/

structure Timers where
  pending : List Timeout
  called : List Timeout
  cancelled : List Timeout
deriving DecidableEq, Repr

def Timers.next (timers : Timers) : Event → Timers
  | .timeoutRegistered timeout _ _ _ =>
      { timers with pending := timers.pending ++ [timeout] }
  | .timeoutsCancelled handler eloopData userData =>
      let matching := Timeout.cancelled handler eloopData userData
      { timers with
        pending := timers.pending.filter fun timeout => !matching timeout
        cancelled := timers.cancelled ++ timers.pending.filter matching }
  | .timeoutCalled timeout _ =>
      { timers with
        pending := timers.pending.filter fun other => other ≠ timeout
        called := timers.called ++ [timeout] }
  | _ => timers

/-- The timers that a log leaves. -/
def timers (log : List Event) : Timers := log.foldl Timers.next ⟨[], [], []⟩

def Timeout.due (timeout : Timeout) : Int := timeout.time.due

def Timers.all (timers : Timers) : List Timeout :=
  timers.pending ++ timers.called ++ timers.cancelled

/-- An event may come next. -/
def Timers.Allows (timers : Timers) : Event → Prop
  | .timeoutRegistered timeout micros secs usecs =>
      (∀ other ∈ timers.all, other.number < timeout.number) ∧
        timeout.due = micros + secs.toNat * 1000000 + usecs.toNat
  | .timeoutCalled timeout micros =>
      timeout ∈ timers.pending ∧ timeout.due ≤ micros ∧
        ∀ other ∈ timers.pending, timeout.due < other.due ∨
          timeout.due = other.due ∧ timeout.number ≤ other.number
  | _ => True

/-! ## What a step does to the timeouts -/

def Event.ofTimeout : Event → Bool
  | .timeoutRegistered _ _ _ _ => true
  | .timeoutsCancelled _ _ _ => true
  | .timeoutCalled _ _ => true
  | _ => false

/-- The clock is sane when a step reads it. -/
def Action.Sane : Action → Prop
  | .eloopRegisterTimeout micros _ _ _ _ _ => Eloop.Sane micros
  | .advance micros => Eloop.Sane micros
  | _ => True

instance : ∀ action : Action, Decidable action.Sane
  | .eloopRegisterTimeout micros _ _ _ _ _ => inferInstanceAs (Decidable (Eloop.Sane micros))
  | .advance micros => inferInstanceAs (Decidable (Eloop.Sane micros))
  | .eloopRegisterSock _ _ | .eloopUnregisterSock _ _ | .eloopCancelTimeout _ _ _
  | .eloopRegisterSignal _ _ _ | .eloopTerminate | .eloopRun | .return_ | .arrive _
  | .select _ => inferInstanceAs (Decidable True)

inductive TimeoutStep (state next : State) : Prop where
  | other (event : Option Event) (isLog : next.log = state.log ++ event.toList)
      (others : ∀ event_ ∈ event, event_.ofTimeout = false)
      (sameTimeouts : next.eloop.timeout = state.eloop.timeout)
      (sameCount : next.registered = state.registered)
  | register (micros : Nat) (secs usecs : UInt32) (timeout : Timeout) (sane : Sane micros)
      (isTime : (osGetTime micros).after secs usecs = some timeout.time)
      (isNumber : timeout.number = state.registered)
      (isLog : next.log = state.log ++ [.timeoutRegistered timeout micros secs usecs])
      (isTimeouts : next.eloop.timeout = (eloopRegisterTimeout state.eloop timeout).timeout)
      (isCount : next.registered = state.registered + 1)
  | cancel (handler eloopData userData : Pointer)
      (isLog : next.log = state.log ++ [.timeoutsCancelled handler eloopData userData])
      (isTimeouts : next.eloop.timeout =
        (eloopCancelTimeout state.eloop handler eloopData userData).timeout)
      (sameCount : next.registered = state.registered)
  | call (micros : Nat) (timeout : Timeout) (sane : Sane micros)
      (isDue : osTimeBefore (osGetTime micros) timeout.time ≠ true)
      (isLog : next.log = state.log ++ [.timeoutCalled timeout micros])
      (isTimeouts : state.eloop.timeout = timeout :: next.eloop.timeout)
      (sameCount : next.registered = state.registered)

section Steps

variable {state next : State}

theorem TimeoutStep.silent (isLog : next.log = state.log)
    (sameTimeouts : next.eloop.timeout = state.eloop.timeout)
    (sameCount : next.registered = state.registered) : TimeoutStep state next :=
  .other none (by rw [isLog]; exact (List.append_nil _).symm) (fun _ member => nomatch member)
    sameTimeouts sameCount

theorem TimeoutStep.logged (event : Event) (isLog : next.log = state.log ++ [event])
    (others : event.ofTimeout = false) (sameTimeouts : next.eloop.timeout = state.eloop.timeout)
    (sameCount : next.registered = state.registered) : TimeoutStep state next :=
  .other (some event) isLog (fun _ member => Option.some.inj member ▸ others) sameTimeouts sameCount

theorem advance_timeouts {micros : Nat} (sane : Sane micros)
    (stepped : advance state micros = some next) : TimeoutStep state next := by
  unfold advance at stepped
  cases isPoint : state.point with
  | loop =>
      simp only [isPoint] at stepped
      split at stepped <;> cases stepped <;> exact .silent rfl rfl rfl
  | pending found =>
      simp only [isPoint] at stepped
      split at stepped <;> cases stepped <;> exact .silent rfl rfl rfl
  | clearing found =>
      simp only [isPoint] at stepped
      cases stepped
      exact .silent rfl rfl rfl
  | terminating found =>
      simp only [isPoint] at stepped
      split at stepped <;> cases stepped <;> exact .silent rfl rfl rfl
  | disarming found =>
      simp only [isPoint] at stepped
      cases stepped
      exact .silent rfl rfl rfl
  | disarmed found =>
      simp only [isPoint] at stepped
      cases stepped
      exact .silent rfl rfl rfl
  | signal found i =>
      simp only [isPoint] at stepped
      split at stepped
      · cases stepped
        exact .silent rfl rfl rfl
      · split at stepped <;> cases stepped <;> exact .silent rfl rfl rfl
  | marked found i =>
      simp only [isPoint] at stepped
      cases stepped
      exact .logged (.signalCalled i) rfl rfl rfl rfl
  | timeouts found =>
      simp only [isPoint] at stepped
      split at stepped
      · cases stepped
        exact .silent rfl rfl rfl
      · rename_i timeout rest isTimeouts
        split at stepped
        · cases stepped
          exact .silent rfl rfl rfl
        · rename_i isDue
          cases stepped
          exact .call micros timeout sane isDue rfl isTimeouts rfl
  | dispatch sockets type =>
      simp only [isPoint] at stepped
      cases stepped
      exact .silent rfl rfl rfl
  | sock sockets type i =>
      simp only [isPoint] at stepped
      split at stepped
      · cases stepped
        exact .logged _ rfl rfl rfl rfl
      · split at stepped <;> cases stepped <;> exact .silent rfl rfl rfl
  | idle | selecting _ | inSignal _ _ | inTimeout _ | inSock _ _ _ =>
      simp only [isPoint] at stepped
      cases stepped

theorem returns_timeouts (stepped : returns state = some next) : TimeoutStep state next := by
  unfold returns at stepped
  split at stepped
  · cases stepped
    exact .silent rfl rfl rfl
  · cases stepped
    exact .silent rfl rfl rfl
  · split at stepped
    · cases stepped
      exact .logged _ rfl rfl rfl rfl
    · cases stepped
      exact .silent rfl rfl rfl
  · cases stepped

theorem selects_timeouts {outcome : Outcome} (stepped : selects state outcome = some next) :
    TimeoutStep state next := by
  unfold selects at stepped
  split at stepped
  · cases stepped
    exact .silent rfl rfl rfl
  · cases stepped
    exact .silent rfl rfl rfl
  · rw [← Option.some.inj (Option.ite_none_right_eq_some.mp stepped).2]
    exact .silent rfl rfl rfl
  · cases stepped

theorem calls_timeouts {action : Action} (sane : action.Sane)
    (stepped : calls state action = some next) : TimeoutStep state next := by
  cases action with
  | eloopRegisterSock type sock =>
      cases stepped
      exact .silent rfl rfl rfl
  | eloopUnregisterSock type sock =>
      obtain ⟨tables, isUnregistered⟩ := eloopUnregisterSock_frame state.eloop type sock
      cases stepped
      exact .silent rfl (by simp only [isUnregistered]) rfl
  | eloopRegisterTimeout micros secs usecs handler eloopData userData =>
      rw [← Option.some.inj stepped]
      cases isTime : (osGetTime micros).after secs usecs with
      | none => exact .silent rfl rfl rfl
      | some time => exact .register micros secs usecs _ sane isTime rfl rfl rfl rfl
  | eloopCancelTimeout handler eloopData userData =>
      cases stepped
      exact .cancel handler eloopData userData rfl rfl rfl
  | eloopRegisterSignal sig handler userData =>
      cases stepped
      exact .logged _ rfl rfl rfl rfl
  | eloopTerminate =>
      cases stepped
      exact .silent rfl rfl rfl
  | _ => cases stepped

theorem eloopHandleSignal_timeout (eloop : EloopData) (sig : Nat) :
    (eloopHandleSignal eloop sig).timeout = eloop.timeout := by
  unfold eloopHandleSignal
  simp only
  split <;> rfl

theorem step_timeouts {action : Action} (sane : action.Sane)
    (stepped : step state action = some next) : TimeoutStep state next := by
  unfold step at stepped
  split at stepped
  · exact advance_timeouts sane stepped
  · exact returns_timeouts stepped
  · exact selects_timeouts stepped
  · split at stepped
    · cases stepped
    · cases stepped
      exact .logged _ rfl rfl (eloopHandleSignal_timeout _ _) rfl
  · split at stepped
    · cases stepped
      exact .silent rfl rfl rfl
    · cases stepped
  · exact calls_timeouts sane (Option.ite_none_right_eq_some.mp stepped).2

end Steps

/-! ## The list of the loop -/

/-- The list of the loop is what the log leaves, in the order it is due. -/
structure Timed (state : State) : Prop where
  list : state.eloop.timeout = inOrder Timeout.due (timers state.log).pending
  ranked : (timers state.log).pending.Pairwise fun left right => left.number < right.number
  fits : ∀ timeout ∈ (timers state.log).pending, timeout.time.Fits
  counted : ((timers state.log).all.map Timeout.number).Perm (List.range state.registered)
  honest : Every (fun before => (timers before).Allows) state.log

section Invariant

variable {state next : State}

theorem timers_append (log : List Event) (event : Event) :
    timers (log ++ [event]) = (timers log).next event := by
  unfold timers
  rw [List.foldl_append]
  rfl

theorem Timers.next_other (timers : Timers) {event : Event} (other : event.ofTimeout = false) :
    timers.next event = timers := by
  cases event <;> first | rfl | cases other

theorem Timers.allows_other (timers : Timers) {event : Event} (other : event.ofTimeout = false) :
    timers.Allows event := by
  cases event with
  | timeoutRegistered timeout micros secs usecs => cases other
  | timeoutCalled timeout micros => cases other
  | _ => trivial

theorem Timed.below (timed : Timed state) {timeout : Timeout}
    (member : timeout ∈ (timers state.log).all) : timeout.number < state.registered :=
  List.mem_range.mp (timed.counted.mem_iff.mp (List.mem_map_of_mem member))

theorem Timed.other (timed : Timed state) {event : Event} (other : event.ofTimeout = false)
    (isLog : next.log = state.log ++ [event])
    (sameTimeouts : next.eloop.timeout = state.eloop.timeout)
    (sameCount : next.registered = state.registered) : Timed next := by
  have sameTimers : timers next.log = timers state.log := by
    rw [isLog, timers_append, Timers.next_other _ other]
  constructor
  · rw [sameTimers, sameTimeouts]
    exact timed.list
  · rw [sameTimers]
    exact timed.ranked
  · rw [sameTimers]
    exact timed.fits
  · rw [sameTimers, sameCount]
    exact timed.counted
  · rw [isLog]
    exact timed.honest.append (Timers.allows_other _ other)

theorem orderedInsert_eq_place {timeout : Timeout} (isNormal : timeout.time.Normal) :
    ∀ {items : List Timeout}, (∀ item ∈ items, item.time.Normal) →
      items.orderedInsert (fun new tmp => osTimeBefore new.time tmp.time = true) timeout =
        place Timeout.due timeout items := by
  intro items
  induction items with
  | nil => intro _; rfl
  | cons first rest inductionHypothesis =>
      intro normal
      have isBefore := osTimeBefore_iff isNormal (normal first List.mem_cons_self)
      have inRest := inductionHypothesis fun item member =>
        normal item (List.mem_cons_of_mem _ member)
      unfold place at inRest ⊢
      rw [List.orderedInsert_cons, List.orderedInsert_cons, inRest]
      by_cases before : timeout.time.due < first.time.due
      · rw [if_pos (isBefore.mpr before), if_pos (by exact before)]
      · rw [if_neg (mt isBefore.mp before), if_neg (by exact before)]

theorem Timed.register (timed : Timed state) {micros : Nat} {secs usecs : UInt32}
    {timeout : Timeout} (sane : Sane micros)
    (isTime : (osGetTime micros).after secs usecs = some timeout.time)
    (isNumber : timeout.number = state.registered)
    (isLog : next.log = state.log ++ [.timeoutRegistered timeout micros secs usecs])
    (isTimeouts : next.eloop.timeout = (eloopRegisterTimeout state.eloop timeout).timeout)
    (isCount : next.registered = state.registered + 1) : Timed next := by
  obtain ⟨isFit, isDue⟩ := after_due sane isTime
  have isTimers : timers next.log =
      { timers state.log with pending := (timers state.log).pending ++ [timeout] } := by
    rw [isLog, timers_append]
    rfl
  constructor
  · rw [isTimers, inOrder_append, isTimeouts, ← timed.list]
    refine orderedInsert_eq_place isFit.1 fun item member => (timed.fits item ?_).1
    rw [timed.list] at member
    exact mem_inOrder.mp member
  · rw [isTimers]
    refine List.pairwise_append.mpr ⟨timed.ranked, List.pairwise_singleton _ _, ?_⟩
    intro older isOlder new isNew
    rw [List.mem_singleton.mp isNew, isNumber]
    exact timed.below (List.mem_append_left _ (List.mem_append_left _ isOlder))
  · rw [isTimers]
    intro item member
    rcases List.mem_append.mp member with older | new
    · exact timed.fits item older
    · rw [List.mem_singleton.mp new]
      exact isFit
  · have moved : (timers next.log).all.Perm ((timers state.log).all ++ [timeout]) := by
      have behind : ([timeout] ++ ((timers state.log).called ++ (timers state.log).cancelled)).Perm
          (((timers state.log).called ++ (timers state.log).cancelled) ++ [timeout]) :=
        List.perm_append_comm
      rw [isTimers]
      simp only [Timers.all, List.append_assoc] at behind ⊢
      exact behind.append_left _
    rw [isCount, List.range_succ]
    refine (moved.map Timeout.number).trans ?_
    rw [List.map_append, List.map_singleton, isNumber]
    exact timed.counted.append_right _
  · rw [isLog]
    refine timed.honest.append ⟨fun other member => ?_, isDue⟩
    rw [isNumber]
    exact timed.below member

theorem Timed.cancel (timed : Timed state) {handler eloopData userData : Pointer}
    (isLog : next.log = state.log ++ [.timeoutsCancelled handler eloopData userData])
    (isTimeouts : next.eloop.timeout =
      (eloopCancelTimeout state.eloop handler eloopData userData).timeout)
    (sameCount : next.registered = state.registered) : Timed next := by
  have isTimers : timers next.log =
      (timers state.log).next (.timeoutsCancelled handler eloopData userData) := by
    rw [isLog, timers_append]
  constructor
  · rw [isTimers, isTimeouts]
    simp only [Timers.next, eloopCancelTimeout, inOrder_filter, timed.list]
  · rw [isTimers]
    exact timed.ranked.filter _
  · rw [isTimers]
    intro item member
    exact timed.fits item (List.mem_of_mem_filter member)
  · have moved : (timers next.log).all.Perm (timers state.log).all := by
      rw [isTimers]
      have kept := List.filter_append_perm (Timeout.cancelled handler eloopData userData)
        (timers state.log).pending
      simp only [Timers.next, Timers.all]
      refine List.Perm.trans ?_ ((kept.append_right _).append_right _)
      grind
    rw [sameCount]
    exact (moved.map Timeout.number).trans timed.counted
  · rw [isLog]
    exact timed.honest.append trivial

theorem Timed.nodup (timed : Timed state) : (timers state.log).pending.Nodup :=
  timed.ranked.imp fun below same => absurd (same ▸ below) (lt_irrefl _)

theorem Timed.call (timed : Timed state) {micros : Nat} {timeout : Timeout} (sane : Sane micros)
    (isDue : osTimeBefore (osGetTime micros) timeout.time ≠ true)
    (isLog : next.log = state.log ++ [.timeoutCalled timeout micros])
    (isTimeouts : state.eloop.timeout = timeout :: next.eloop.timeout)
    (sameCount : next.registered = state.registered) : Timed next := by
  have isTimers : timers next.log = (timers state.log).next (.timeoutCalled timeout micros) := by
    rw [isLog, timers_append]
  have inList : inOrder Timeout.due (timers state.log).pending =
      timeout :: next.eloop.timeout := timed.list.symm.trans isTimeouts
  have isPending := first_mem inList
  have others : inOrder Timeout.due ((timers state.log).pending.filter fun other =>
      other ≠ timeout) = next.eloop.timeout := by
    have once : (timeout :: next.eloop.timeout).Nodup := by
      rw [← inList]
      exact inOrder_perm.nodup_iff.mpr timed.nodup
    rw [inOrder_filter, inList, List.filter_cons_of_neg (by simp)]
    refine List.filter_eq_self.mpr fun other member => ?_
    have notSame : other ≠ timeout := fun same => (List.nodup_cons.mp once).1 (same ▸ member)
    simpa using notSame
  constructor
  · rw [isTimers]
    exact others.symm
  · rw [isTimers]
    exact timed.ranked.filter _
  · rw [isTimers]
    intro item member
    exact timed.fits item (List.mem_of_mem_filter member)
  · have moved : (timers next.log).all.Perm (timers state.log).all := by
      have first : (timeout :: next.eloop.timeout).Perm (timers state.log).pending := by
        rw [← inList]
        exact inOrder_perm
      have rest : ((timers state.log).pending.filter fun other => other ≠ timeout).Perm
          next.eloop.timeout := by
        rw [← others]
        exact inOrder_perm.symm
      have split := (rest.cons timeout).trans first
      rw [isTimers]
      simp only [Timers.next, Timers.all]
      refine List.Perm.trans ?_ ((split.append_right _).append_right _)
      grind
    rw [sameCount]
    exact (moved.map Timeout.number).trans timed.counted
  · rw [isLog]
    refine timed.honest.append ⟨isPending, ?_, fun other member => ?_⟩
    · have notBefore := mt (osTimeBefore_iff (osGetTime_normal micros)
        (timed.fits timeout isPending).1).mpr isDue
      rw [osGetTime_due sane] at notBefore
      exact not_lt.mp notBefore
    · rcases first_before inList (inOrder_stable timed.ranked) member with
        isTimeout | before | ⟨same, below⟩
      · rw [isTimeout]
        exact Or.inr ⟨rfl, le_refl _⟩
      · exact Or.inl before
      · exact Or.inr ⟨same, below.le⟩

theorem step_timed {action : Action} (timed : Timed state) (sane : action.Sane)
    (stepped : step state action = some next) : Timed next := by
  cases step_timeouts sane stepped with
  | other event isLog others sameTimeouts sameCount =>
      cases event with
      | none =>
          rw [Option.toList_none, List.append_nil] at isLog
          constructor
          · rw [isLog, sameTimeouts]
            exact timed.list
          · rw [isLog]
            exact timed.ranked
          · rw [isLog]
            exact timed.fits
          · rw [isLog, sameCount]
            exact timed.counted
          · rw [isLog]
            exact timed.honest
      | some event => exact timed.other (others event rfl) isLog sameTimeouts sameCount
  | register micros secs usecs timeout sane isTime isNumber isLog isTimeouts isCount =>
      exact timed.register sane isTime isNumber isLog isTimeouts isCount
  | cancel handler eloopData userData isLog isTimeouts sameCount =>
      exact timed.cancel isLog isTimeouts sameCount
  | call micros timeout sane isDue isLog isTimeouts sameCount =>
      exact timed.call sane isDue isLog isTimeouts sameCount

theorem start_timed : Timed start where
  list := rfl
  ranked := List.Pairwise.nil
  fits := fun _ member => absurd member List.not_mem_nil
  counted := List.Perm.refl _
  honest := every_nil

theorem run_timed {actions : List Action}
    (sane : EveryStep step (fun _ => Action.Sane) start actions)
    (ran : run step start actions = some state) : Timed state :=
  run_admitted (fun _ _ _ timed isSane stepped => step_timed timed isSane stepped) start_timed
    sane ran

/-! ## What is passed to `select` -/

theorem advance_waits (isLoop : state.point = .loop) {micros : Nat}
    (stepped : step state (.advance micros) = some next) {wait : Option OsTime}
    (isWait : next.point = .selecting wait) : wait = waitFor state.eloop micros := by
  simp only [step, advance, isLoop] at stepped
  split at stepped
  · cases stepped
    exact (Point.selecting.inj isWait).symm
  · cases stepped
    cases isWait

/-- What is left until the first timeout is due, if anything is left. -/
theorem waitFor_first {eloop : EloopData} {first : Timeout} {rest : List Timeout} {micros : Nat}
    (sane : Sane micros) (fits : first.time.Fits) (isFirst : eloop.timeout = first :: rest) :
    ∃ time, waitFor eloop micros = some time ∧ time.Normal ∧
      time.due = max 0 (first.due - micros) := by
  have before := osTimeBefore_iff (osGetTime_normal micros) fits.1
  rw [osGetTime_due sane] at before
  unfold waitFor
  rw [isFirst]
  refine ⟨_, rfl, ?_⟩
  dsimp only
  split
  · rename_i isBefore
    obtain ⟨isNormal, isDue⟩ := osTimeSub_due fits sane isBefore
    have positive : (micros : Int) < first.due := before.mp isBefore
    rw [isDue]
    exact ⟨isNormal, (max_eq_right (Int.sub_nonneg_of_le positive.le)).symm⟩
  · rename_i notBefore
    have passed : ¬ (micros : Int) < first.due := mt before.mpr notBefore
    exact ⟨⟨le_refl _, by decide⟩,
      (max_eq_left (Int.sub_nonpos_of_le (not_lt.mp passed))).symm⟩

/-! ## Results -/

/-- A timeout is called when it is pending, its delay is over and none is due
before it, and the list of the loop is what waits, in that order. -/
theorem timeouts_served {actions : List Action}
    (sane : EveryStep step (fun _ => Action.Sane) start actions)
    (ran : run step start actions = some state) :
    state.eloop.timeout = inOrder Timeout.due (timers state.log).pending ∧
      Every (fun before => (timers before).Allows) state.log :=
  ⟨(run_timed sane ran).list, (run_timed sane ran).honest⟩

/-- Each registered timeout is pending, called or cancelled, and one of these
once. -/
theorem timeouts_counted {actions : List Action}
    (sane : EveryStep step (fun _ => Action.Sane) start actions)
    (ran : run step start actions = some state) :
    ((timers state.log).all.map Timeout.number).Perm (List.range state.registered) :=
  (run_timed sane ran).counted

/-- `select` may wait until the first timeout is due, and no longer. -/
theorem select_waits {actions : List Action}
    (sane : EveryStep step (fun _ => Action.Sane) start actions)
    (ran : run step start actions = some state) (isLoop : state.point = .loop) {micros : Nat}
    (saneNow : Sane micros) (stepped : step state (.advance micros) = some next)
    {wait : Option OsTime} (isWait : next.point = .selecting wait) :
    (wait = none ↔ (timers state.log).pending = []) ∧
      ∀ time ∈ wait, time.Normal ∧ ∃ first ∈ (timers state.log).pending,
        (∀ other ∈ (timers state.log).pending, first.due ≤ other.due) ∧
          time.due = max 0 (first.due - micros) := by
  have timed := run_timed sane ran
  have isList := timed.list
  rw [advance_waits isLoop stepped isWait]
  cases isTimeouts : state.eloop.timeout with
  | nil =>
      rw [isTimeouts] at isList
      have isNone : waitFor state.eloop micros = none := by
        rw [waitFor, isTimeouts]
        rfl
      rw [isNone]
      exact ⟨⟨fun _ => inOrder_eq_nil.mp isList.symm, fun _ => rfl⟩, nofun⟩
  | cons first rest =>
      rw [isTimeouts] at isList
      have isPending := first_mem isList.symm
      obtain ⟨left, isSome, isNormal, isDue⟩ :=
        waitFor_first saneNow (timed.fits first isPending) isTimeouts
      rw [isSome]
      refine ⟨⟨nofun, fun isEmpty => ?_⟩, fun time member => ?_⟩
      · rw [isEmpty] at isPending
        exact absurd isPending List.not_mem_nil
      · rw [← Option.some.inj member]
        refine ⟨isNormal, first, isPending, fun other isOther => ?_, isDue⟩
        rcases first_before isList.symm inOrder_pairwise isOther with isFirst | earlier
        · rw [isFirst]
        · exact earlier

/-! ## A run -/

/-- Two timeouts are due together, a third is due earlier, and one of the two is
cancelled by the handler of the third. -/
def threeTimeouts : List Action :=
  [.eloopRegisterTimeout 0 2 0 1 1 1, .eloopRegisterTimeout 500000 1 500000 2 1 1,
    .eloopRegisterTimeout 1000000 0 300000 3 1 1, .eloopRun, .advance 1000000, .select .nothing,
    .advance 1300000, .advance 1300000, .eloopCancelTimeout 1 eloopAllCtx 1, .return_]

theorem threeTimeouts_sane : EveryStep step (fun _ => Action.Sane) start threeTimeouts :=
  everyStep_of_mem (fun action member _ =>
    (by decide : ∀ action ∈ threeTimeouts, action.Sane) action member) _

theorem timeouts_served_three :
    ∃ state, run step start threeTimeouts = some state ∧
      state.eloop.timeout = [⟨1, ⟨2, 0⟩, 2, 1, 1⟩] ∧
      state.eloop.timeout = inOrder Timeout.due (timers state.log).pending ∧
      Every (fun before => (timers before).Allows) state.log :=
  ⟨_, rfl, rfl, timeouts_served threeTimeouts_sane rfl⟩

theorem timeouts_counted_three :
    ∃ state, run step start threeTimeouts = some state ∧
      (timers state.log).all.map Timeout.number = [1, 2, 0] ∧
      ((timers state.log).all.map Timeout.number).Perm (List.range state.registered) :=
  ⟨_, rfl, rfl, timeouts_counted threeTimeouts_sane rfl⟩

theorem select_waits_two :
    ∃ state next, run step start (threeTimeouts.take 4) = some state ∧
      step state (.advance 1100000) = some next ∧
      next.point = .selecting (some ⟨0, 200000⟩) ∧
      (some (⟨0, 200000⟩ : OsTime) = none ↔ (timers state.log).pending = []) ∧
      ∀ time ∈ some (⟨0, 200000⟩ : OsTime), time.Normal ∧ ∃ first ∈ (timers state.log).pending,
        (∀ other ∈ (timers state.log).pending, first.due ≤ other.due) ∧
          time.due = max 0 (first.due - (1100000 : Nat)) := by
  have sane : EveryStep step (fun _ => Action.Sane) start (threeTimeouts.take 4) :=
    everyStep_of_mem (fun action member _ =>
      (by decide : ∀ action ∈ threeTimeouts.take 4, action.Sane) action member) _
  exact ⟨_, _, rfl, rfl, rfl, select_waits sane rfl rfl (by decide) rfl rfl⟩

end Invariant

end TuyaAdapter.Eloop
