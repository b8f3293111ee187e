import TuyaAdapter.Eloop.Model
import TuyaAdapter.Foundation.History
import TuyaAdapter.Foundation.Run

/-!
Contract: the signals of `eloop.c` over whole runs.

A signal marks the first entry that is registered for it and counts up
`eloop.signaled`. A mark stays until the handler is called, and while it stays
the count is positive or the pass over the entries has yet to reach it. So no
signal is lost, wherever in the loop it comes.
-/

namespace TuyaAdapter.Eloop

open Foundation.History Foundation.Run

/-! ## Marks -/

/-- Entry `i` is marked. -/
def Marked (signals : List Signal) (i : Nat) : Prop :=
  ∃ entry, signals[i]? = some entry ∧ entry.signaled ≠ 0

/-- The pass over the entries has yet to reach entry `i`. -/
def Point.Visits (i : Nat) : Point → Prop
  | .terminating _ => True
  | .disarming _ => True
  | .disarmed _ => True
  | .signal _ j => j ≤ i
  | .marked _ j => j ≤ i
  | .inSignal _ j => j < i
  | _ => False

/-- A signal for entry `i` came after its last call. -/
def Unserved (log : List Event) (i : Nat) : Prop :=
  ∃ before sig after, log = before ++ .signalArrived sig i :: after ∧ .signalCalled i ∉ after

section Lists

variable {signals : List Signal} {sig i j : Nat}

theorem marked_lt (marked : Marked signals i) : i < signals.length := by
  obtain ⟨entry, isEntry, -⟩ := marked
  exact (List.getElem?_eq_some_iff.mp isEntry).1

theorem markSignal_eq (isFirst : (signals.findIdx? fun entry => entry.sig = sig) = some i) :
    markSignal sig signals =
      signals.modify i fun entry => { entry with signaled := entry.signaled + 1 } := by
  induction signals generalizing i with
  | nil => cases isFirst
  | cons entry rest inductionHypothesis =>
      rw [List.findIdx?_cons] at isFirst
      unfold markSignal
      by_cases isSig : entry.sig = sig
      · simp only [isSig, decide_true, if_true, Option.some.injEq] at isFirst
        rw [if_pos isSig, ← isFirst]
        rfl
      · simp only [isSig, decide_false, Bool.false_eq_true, if_false, Option.map_eq_some_iff]
          at isFirst
        obtain ⟨j, isJ, isI⟩ := isFirst
        rw [if_neg isSig, ← isI, inductionHypothesis isJ]
        rfl

theorem marked_markSignal
    (isFirst : (signals.findIdx? fun entry => entry.sig = sig) = some i) :
    Marked (markSignal sig signals) j ↔ Marked signals j ∨ j = i := by
  have inside : i < signals.length := (List.findIdx?_eq_some_iff_getElem.mp isFirst).1
  unfold Marked
  rw [markSignal_eq isFirst, List.getElem?_modify]
  by_cases same : i = j
  · rw [← same, List.getElem?_eq_getElem inside]
    simp
  · simp [same, Ne.symm same, eq_comm]

theorem marked_clearMark : Marked (clearMark i signals) j ↔ Marked signals j ∧ j ≠ i := by
  unfold Marked clearMark
  rw [List.getElem?_modify]
  by_cases same : i = j
  · simp [same]
  · simp [same, Ne.symm same]

theorem marked_append {entry : Signal} (unmarked : entry.signaled = 0) :
    Marked (signals ++ [entry]) j ↔ Marked signals j := by
  constructor
  · rintro ⟨other, isOther, isMarked⟩
    by_cases inside : j < signals.length
    · rw [List.getElem?_append_left inside] at isOther
      exact ⟨other, isOther, isMarked⟩
    · rw [List.getElem?_append_right (not_lt.mp inside)] at isOther
      have isEntry := List.mem_singleton.mp (List.mem_of_getElem? isOther)
      rw [isEntry] at isMarked
      exact absurd unmarked isMarked
  · rintro ⟨other, isOther, isMarked⟩
    refine ⟨other, ?_, isMarked⟩
    rw [List.getElem?_append_left (List.getElem?_eq_some_iff.mp isOther).1]
    exact isOther

end Lists

section Logs

variable {log : List Event} {i : Nat}

/-- Only calls of the entry serve its signals. -/
theorem unserved_append {event : Event} :
    Unserved (log ++ [event]) i ↔
      (∃ sig, event = .signalArrived sig i) ∨ Unserved log i ∧ event ≠ .signalCalled i := by
  constructor
  · rintro ⟨before, sig, after, isLog, notCalled⟩
    rcases append_split isLog with ⟨-, isEvent, -⟩ | ⟨earlier, isAfter, isLeft⟩
    · exact Or.inl ⟨sig, isEvent.symm⟩
    · rw [isAfter] at notCalled
      refine Or.inr ⟨⟨before, sig, earlier, isLeft, ?_⟩, ?_⟩
      · exact fun member => notCalled (List.mem_append_left _ member)
      · intro isCall
        exact notCalled (List.mem_append_right _ (by rw [isCall]; exact List.mem_singleton_self _))
  · rintro (⟨sig, isArrival⟩ | ⟨⟨before, sig, after, isLog, notCalled⟩, notCall⟩)
    · exact ⟨log, sig, [], by rw [isArrival], List.not_mem_nil⟩
    · refine ⟨before, sig, after ++ [event], by rw [isLog]; simp, fun member => ?_⟩
      rcases List.mem_append.mp member with old | new
      · exact notCalled old
      · exact notCall (List.mem_singleton.mp new).symm

theorem not_unserved_nil : ¬ Unserved [] i := by
  rintro ⟨before, sig, after, isLog, -⟩
  simp at isLog

end Logs

/-! ## What a step does to the signals -/

def Event.ofSignal : Event → Bool
  | .signalArrived _ _ => true
  | .signalCalled _ => true
  | _ => false

inductive SignalStep (state next : State) : Prop where
  | other (event : Option Event) (isLog : next.log = state.log ++ event.toList)
      (others : ∀ event_ ∈ event, event_.ofSignal = false)
      (sigs : ∀ sig i, (state.eloop.signals.findIdx? fun entry => entry.sig = sig) = some i →
        (next.eloop.signals.findIdx? fun entry => entry.sig = sig) = some i)
      (sameMarks : ∀ i, Marked next.eloop.signals i ↔ Marked state.eloop.signals i)
      (sameCount : next.eloop.signaled = state.eloop.signaled)
      (visits : ∀ i, Marked state.eloop.signals i → state.point.Visits i → next.point.Visits i)
      (found : ∀ sockets i, next.point = .marked sockets i →
        next.point = state.point ∨ Marked state.eloop.signals i)
  | arrive (sig i : Nat)
      (isFirst : (state.eloop.signals.findIdx? fun entry => entry.sig = sig) = some i)
      (isLog : next.log = state.log ++ [.signalArrived sig i])
      (isSignals : next.eloop.signals = markSignal sig state.eloop.signals)
      (isCount : next.eloop.signaled = state.eloop.signaled + 1)
      (samePoint : next.point = state.point)
  | clear (sockets : Found) (isPoint : next.point = .terminating sockets)
      (sameLog : next.log = state.log)
      (sameSignals : next.eloop.signals = state.eloop.signals)
  | call (sockets : Found) (i : Nat) (wasPoint : state.point = .marked sockets i)
      (isPoint : next.point = .inSignal sockets i)
      (isLog : next.log = state.log ++ [.signalCalled i])
      (isSignals : next.eloop.signals = clearMark i state.eloop.signals)
      (sameCount : next.eloop.signaled = state.eloop.signaled)

section Steps

variable {state next : State}

/-- The signals are not touched. -/
theorem SignalStep.same (event : Option Event) (isLog : next.log = state.log ++ event.toList)
    (others : ∀ event_ ∈ event, event_.ofSignal = false)
    (sameSignals : next.eloop.signals = state.eloop.signals)
    (sameCount : next.eloop.signaled = state.eloop.signaled)
    (visits : ∀ i, Marked state.eloop.signals i → state.point.Visits i → next.point.Visits i)
    (found : ∀ sockets i, next.point = .marked sockets i →
      next.point = state.point ∨ Marked state.eloop.signals i) : SignalStep state next :=
  .other event isLog others (fun _ _ isFirst => by rw [sameSignals]; exact isFirst)
    (fun _ => by rw [sameSignals]) sameCount visits found

/-- The loop goes from a place outside the pass to another. -/
theorem SignalStep.outside (isLog : next.log = state.log)
    (sameSignals : next.eloop.signals = state.eloop.signals)
    (sameCount : next.eloop.signaled = state.eloop.signaled)
    (visits : ∀ i, ¬ state.point.Visits i) (found : ∀ sockets i, next.point ≠ .marked sockets i) :
    SignalStep state next :=
  .same none (by rw [isLog]; exact (List.append_nil _).symm) (fun _ member => nomatch member)
    sameSignals sameCount (fun i _ isVisit => absurd isVisit (visits i))
    (fun sockets i isPoint => absurd isPoint (found sockets i))

/-- The pass goes on to a place that has as much to visit. -/
theorem SignalStep.inside (isLog : next.log = state.log)
    (sameSignals : next.eloop.signals = state.eloop.signals)
    (sameCount : next.eloop.signaled = state.eloop.signaled)
    (visits : ∀ i, Marked state.eloop.signals i → state.point.Visits i → next.point.Visits i)
    (found : ∀ sockets i, next.point = .marked sockets i → Marked state.eloop.signals i) :
    SignalStep state next :=
  .same none (by rw [isLog]; exact (List.append_nil _).symm) (fun _ member => nomatch member)
    sameSignals sameCount visits (fun sockets i isPoint => Or.inr (found sockets i isPoint))

theorem afterTimeouts_ne_marked (found sockets : Found) (i : Nat) :
    afterTimeouts found ≠ .marked sockets i := by
  cases found <;> exact nofun

theorem afterPass_ne_marked (sockets : EventType → List Nat) (type : EventType) (found : Found)
    (i : Nat) : afterPass sockets type ≠ .marked found i := by
  cases type <;> exact nofun

theorem passed_signals (sockets : EventType → List Nat) (type : EventType)
    (visits : ∀ i, ¬ state.point.Visits i) : SignalStep state (state.passed sockets type) :=
  .same (some _) rfl (fun _ member => by rw [← Option.some.inj member]; rfl) rfl rfl
    (fun i _ isVisit => absurd isVisit (visits i))
    (fun found i isPoint => absurd isPoint (afterPass_ne_marked sockets type found i))

theorem advance_signals {micros : Nat} (stepped : advance state micros = some next) :
    SignalStep state next := by
  unfold advance at stepped
  cases isPoint : state.point with
  | loop =>
      have visits : ∀ i, ¬ state.point.Visits i := fun i => by rw [isPoint]; exact id
      simp only [isPoint] at stepped
      split at stepped <;> cases stepped <;> exact .outside rfl rfl rfl visits nofun
  | pending found =>
      have visits : ∀ i, ¬ state.point.Visits i := fun i => by rw [isPoint]; exact id
      simp only [isPoint] at stepped
      split at stepped <;> cases stepped <;> exact .outside rfl rfl rfl visits nofun
  | clearing found =>
      simp only [isPoint] at stepped
      cases stepped
      exact .clear found rfl rfl rfl
  | terminating found =>
      simp only [isPoint] at stepped
      split at stepped
      · cases stepped
        exact .inside rfl rfl rfl (fun _ _ _ => trivial) nofun
      · cases stepped
        exact .inside rfl rfl rfl (fun _ _ _ => Nat.zero_le _) nofun
  | disarming found =>
      simp only [isPoint] at stepped
      cases stepped
      exact .inside rfl rfl rfl (fun _ _ _ => trivial) nofun
  | disarmed found =>
      simp only [isPoint] at stepped
      cases stepped
      exact .inside rfl rfl rfl (fun _ _ _ => Nat.zero_le _) nofun
  | signal found i =>
      simp only [isPoint] at stepped
      split at stepped
      · rename_i isNone
        cases stepped
        refine .inside rfl rfl rfl (fun j isMarked isVisit => ?_) nofun
        rw [isPoint] at isVisit
        have above : i ≤ j := isVisit
        exact absurd (marked_lt isMarked) (by have := List.getElem?_eq_none_iff.mp isNone; omega)
      · rename_i entry isEntry
        split at stepped
        · rename_i unmarked
          cases stepped
          refine .inside rfl rfl rfl (fun j isMarked isVisit => ?_) nofun
          rw [isPoint] at isVisit
          refine Nat.lt_of_le_of_ne isVisit fun same => ?_
          obtain ⟨other, isOther, notZero⟩ := isMarked
          rw [← same, isEntry] at isOther
          exact notZero (Option.some.inj isOther ▸ unmarked)
        · rename_i isMarked
          cases stepped
          refine .inside rfl rfl rfl (fun j _ isVisit => ?_) (fun sockets j isNext => ?_)
          · rw [isPoint] at isVisit
            exact isVisit
          · cases isNext
            exact ⟨entry, isEntry, isMarked⟩
  | marked found i =>
      simp only [isPoint] at stepped
      cases stepped
      exact .call found i isPoint rfl rfl rfl rfl
  | timeouts found =>
      have visits : ∀ i, ¬ state.point.Visits i := fun i => by rw [isPoint]; exact id
      simp only [isPoint] at stepped
      split at stepped
      · cases stepped
        exact .outside rfl rfl rfl visits (afterTimeouts_ne_marked found)
      · split at stepped
        · cases stepped
          exact .outside rfl rfl rfl visits (afterTimeouts_ne_marked found)
        · cases stepped
          exact .same (some _) rfl (fun _ member => by rw [← Option.some.inj member]; rfl) rfl rfl
            (fun i _ isVisit => absurd isVisit (visits i)) nofun
  | dispatch sockets type =>
      have visits : ∀ i, ¬ state.point.Visits i := fun i => by rw [isPoint]; exact id
      simp only [isPoint] at stepped
      cases stepped
      exact .outside rfl rfl rfl visits nofun
  | sock sockets type i =>
      have visits : ∀ i, ¬ state.point.Visits i := fun i => by rw [isPoint]; exact id
      simp only [isPoint] at stepped
      split at stepped
      · cases stepped
        exact passed_signals sockets type visits
      · split at stepped <;> cases stepped <;> exact .outside rfl rfl rfl visits nofun
  | idle | selecting _ | inSignal _ _ | inTimeout _ | inSock _ _ _ =>
      simp only [isPoint] at stepped
      cases stepped

theorem returns_signals (stepped : returns state = some next) : SignalStep state next := by
  unfold returns at stepped
  split at stepped
  · rename_i found i isPoint
    cases stepped
    refine .inside rfl rfl rfl (fun j _ isVisit => ?_) nofun
    rw [isPoint] at isVisit
    exact isVisit
  · rename_i found isPoint
    cases stepped
    exact .outside rfl rfl rfl (fun i => by rw [isPoint]; exact id) (afterTimeouts_ne_marked found)
  · rename_i sockets type i isPoint
    have visits : ∀ i, ¬ state.point.Visits i := fun i => by rw [isPoint]; exact id
    split at stepped
    · cases stepped
      exact passed_signals sockets type visits
    · cases stepped
      exact .outside rfl rfl rfl visits nofun
  · cases stepped

theorem selects_signals {outcome : Outcome} (stepped : selects state outcome = some next) :
    SignalStep state next := by
  unfold selects at stepped
  split at stepped
  · rename_i isPoint
    cases stepped
    exact .outside rfl rfl rfl (fun i => by rw [isPoint]; exact id) nofun
  · rename_i isPoint
    cases stepped
    exact .outside rfl rfl rfl (fun i => by rw [isPoint]; exact id) nofun
  · rename_i isPoint
    rw [← Option.some.inj (Option.ite_none_right_eq_some.mp stepped).2]
    exact .outside rfl rfl rfl (fun i => by rw [isPoint]; exact id) nofun
  · cases stepped

theorem calls_signals {action : Action} (stepped : calls state action = some next) :
    SignalStep state next := by
  cases action with
  | eloopRegisterSock type sock =>
      cases stepped
      exact .same none (List.append_nil _).symm (fun _ member => nomatch member) rfl rfl
        (fun _ _ isVisit => isVisit) (fun _ _ _ => Or.inl rfl)
  | eloopUnregisterSock type sock =>
      obtain ⟨tables, isUnregistered⟩ := eloopUnregisterSock_frame state.eloop type sock
      cases stepped
      exact .same none (List.append_nil _).symm (fun _ member => nomatch member)
        (by simp only [isUnregistered]) (by simp only [isUnregistered])
        (fun _ _ isVisit => isVisit) (fun _ _ _ => Or.inl rfl)
  | eloopRegisterTimeout micros secs usecs handler eloopData userData =>
      rw [← Option.some.inj stepped]
      cases isTime : (osGetTime micros).after secs usecs with
      | none =>
          exact .same none (List.append_nil _).symm (fun _ member => nomatch member) rfl rfl
            (fun _ _ isVisit => isVisit) (fun _ _ _ => Or.inl rfl)
      | some time =>
          exact .same (some _) rfl (fun _ member => by rw [← Option.some.inj member]; rfl) rfl rfl
            (fun _ _ isVisit => isVisit) (fun _ _ _ => Or.inl rfl)
  | eloopCancelTimeout handler eloopData userData =>
      cases stepped
      exact .same (some _) rfl (fun _ member => by rw [← Option.some.inj member]; rfl) rfl rfl
        (fun _ _ isVisit => isVisit) (fun _ _ _ => Or.inl rfl)
  | eloopRegisterSignal sig handler userData =>
      cases stepped
      refine .other (some _) rfl (fun _ member => by rw [← Option.some.inj member]; rfl)
        (fun other i isFirst => ?_) (fun i => marked_append rfl) rfl (fun _ _ isVisit => isVisit)
        (fun _ _ _ => Or.inl rfl)
      simp only [eloopRegisterSignal, List.findIdx?_append, isFirst, Option.some_or]
  | eloopTerminate =>
      cases stepped
      exact .same none (List.append_nil _).symm (fun _ member => nomatch member) rfl rfl
        (fun _ _ isVisit => isVisit) (fun _ _ _ => Or.inl rfl)
  | _ => cases stepped

theorem step_signals {action : Action} (stepped : step state action = some next) :
    SignalStep state next := by
  unfold step at stepped
  split at stepped
  · exact advance_signals stepped
  · exact returns_signals stepped
  · exact selects_signals stepped
  · split at stepped
    · cases stepped
    · rename_i sig _ i isFirst
      cases stepped
      exact .arrive sig i isFirst rfl rfl rfl rfl
  · split at stepped
    · rename_i isPoint
      cases stepped
      exact .outside rfl rfl rfl (fun i => by rw [isPoint]; exact id) nofun
    · cases stepped
  · exact calls_signals (Option.ite_none_right_eq_some.mp stepped).2

end Steps

/-! ## No signal is lost -/

/-- Marks say which signals wait, and the loop will find them. -/
structure Heard (state : State) : Prop where
  registered : ∀ sig i, .signalArrived sig i ∈ state.log →
    (state.eloop.signals.findIdx? fun entry => entry.sig = sig) = some i
  marks : ∀ i, Marked state.eloop.signals i ↔ Unserved state.log i
  found : ∀ i, Marked state.eloop.signals i →
    0 < state.eloop.signaled ∨ state.point.Visits i
  here : ∀ sockets i, state.point = .marked sockets i → Marked state.eloop.signals i
  caused : Every (fun before event => ∀ i, event = .signalCalled i → Unserved before i) state.log

section Invariant

variable {state next : State}

theorem findIdx?_markSignal (sig other : Nat) (signals : List Signal) :
    ((markSignal sig signals).findIdx? fun entry => entry.sig = other) =
      signals.findIdx? fun entry => entry.sig = other := by
  induction signals with
  | nil => rfl
  | cons entry rest inductionHypothesis =>
      unfold markSignal
      split
      · rfl
      · rw [List.findIdx?_cons, List.findIdx?_cons, inductionHypothesis]

theorem findIdx?_clearMark (i other : Nat) (signals : List Signal) :
    ((clearMark i signals).findIdx? fun entry => entry.sig = other) =
      signals.findIdx? fun entry => entry.sig = other := by
  unfold clearMark
  induction signals generalizing i with
  | nil => simp
  | cons entry rest inductionHypothesis =>
      cases i with
      | zero => rfl
      | succ i =>
          rw [List.modify_succ_cons, List.findIdx?_cons, List.findIdx?_cons, inductionHypothesis]

theorem unserved_other {log : List Event} {event : Option Event} {i : Nat}
    (others : ∀ event_ ∈ event, event_.ofSignal = false) :
    Unserved (log ++ event.toList) i ↔ Unserved log i := by
  cases event with
  | none => rw [Option.toList_none, List.append_nil]
  | some event =>
      have other := others event rfl
      rw [Option.toList_some, unserved_append]
      constructor
      · rintro (⟨sig, isArrival⟩ | ⟨unserved, -⟩)
        · rw [isArrival] at other
          cases other
        · exact unserved
      · intro unserved
        refine Or.inr ⟨unserved, fun isCall => ?_⟩
        rw [isCall] at other
        cases other

theorem Heard.other (heard : Heard state) {event : Option Event}
    (isLog : next.log = state.log ++ event.toList)
    (others : ∀ event_ ∈ event, event_.ofSignal = false)
    (sigs : ∀ sig i, (state.eloop.signals.findIdx? fun entry => entry.sig = sig) = some i →
      (next.eloop.signals.findIdx? fun entry => entry.sig = sig) = some i)
    (sameMarks : ∀ i, Marked next.eloop.signals i ↔ Marked state.eloop.signals i)
    (sameCount : next.eloop.signaled = state.eloop.signaled)
    (visits : ∀ i, Marked state.eloop.signals i → state.point.Visits i → next.point.Visits i)
    (found : ∀ sockets i, next.point = .marked sockets i →
      next.point = state.point ∨ Marked state.eloop.signals i) : Heard next where
  registered := fun sig i member => by
    rw [isLog] at member
    rcases List.mem_append.mp member with old | new
    · exact sigs sig i (heard.registered sig i old)
    · exact absurd (others _ (Option.mem_toList.mp new)) (by simp [Event.ofSignal])
  marks := fun i => by rw [sameMarks, isLog, unserved_other others, heard.marks]
  found := fun i isMarked => by
    rw [sameMarks] at isMarked
    rw [sameCount]
    exact (heard.found i isMarked).imp_right (visits i isMarked)
  here := fun sockets i isPoint => by
    rw [sameMarks]
    rcases found sockets i isPoint with same | isMarked
    · exact heard.here sockets i (same ▸ isPoint)
    · exact isMarked
  caused := by
    rw [isLog]
    cases event with
    | none =>
        rw [Option.toList_none, List.append_nil]
        exact heard.caused
    | some event =>
        refine heard.caused.append fun i isCall => ?_
        have other := others event rfl
        rw [isCall] at other
        cases other

theorem Heard.arrive (heard : Heard state) {sig i : Nat}
    (isFirst : (state.eloop.signals.findIdx? fun entry => entry.sig = sig) = some i)
    (isLog : next.log = state.log ++ [.signalArrived sig i])
    (isSignals : next.eloop.signals = markSignal sig state.eloop.signals)
    (isCount : next.eloop.signaled = state.eloop.signaled + 1)
    (samePoint : next.point = state.point) : Heard next where
  registered := fun other j member => by
    rw [isSignals, findIdx?_markSignal]
    rw [isLog] at member
    rcases List.mem_append.mp member with old | new
    · exact heard.registered other j old
    · obtain ⟨isSig, isJ⟩ := Event.signalArrived.inj (List.mem_singleton.mp new)
      rw [isSig, isJ]
      exact isFirst
  marks := fun j => by
    rw [isSignals, marked_markSignal isFirst, isLog, unserved_append, heard.marks]
    constructor
    · rintro (unserved | isI)
      · exact Or.inr ⟨unserved, nofun⟩
      · exact Or.inl ⟨sig, by rw [isI]⟩
    · rintro (⟨other, isArrival⟩ | ⟨unserved, -⟩)
      · exact Or.inr (Event.signalArrived.inj isArrival).2.symm
      · exact Or.inl unserved
  found := fun _ _ => Or.inl (by rw [isCount]; exact Nat.succ_pos _)
  here := fun sockets j isPoint => by
    rw [isSignals, marked_markSignal isFirst]
    rw [samePoint] at isPoint
    exact Or.inl (heard.here sockets j isPoint)
  caused := by
    rw [isLog]
    exact heard.caused.append nofun

theorem Heard.clear (heard : Heard state) {sockets : Found}
    (isPoint : next.point = .terminating sockets) (sameLog : next.log = state.log)
    (sameSignals : next.eloop.signals = state.eloop.signals) : Heard next where
  registered := by
    rw [sameLog, sameSignals]
    exact heard.registered
  marks := by
    rw [sameLog, sameSignals]
    exact heard.marks
  found := fun i _ => Or.inr (by rw [isPoint]; trivial)
  here := fun others i isMarked => by
    rw [isPoint] at isMarked
    cases isMarked
  caused := by
    rw [sameLog]
    exact heard.caused

theorem Heard.call (heard : Heard state) {sockets : Found} {i : Nat}
    (wasPoint : state.point = .marked sockets i) (isPoint : next.point = .inSignal sockets i)
    (isLog : next.log = state.log ++ [.signalCalled i])
    (isSignals : next.eloop.signals = clearMark i state.eloop.signals)
    (sameCount : next.eloop.signaled = state.eloop.signaled) : Heard next where
  registered := fun sig j member => by
    rw [isSignals, findIdx?_clearMark]
    rw [isLog] at member
    rcases List.mem_append.mp member with old | new
    · exact heard.registered sig j old
    · exact absurd (List.mem_singleton.mp new) nofun
  marks := fun j => by
    rw [isSignals, marked_clearMark, isLog, unserved_append, heard.marks]
    constructor
    · rintro ⟨unserved, notI⟩
      exact Or.inr ⟨unserved, fun isCall => notI (Event.signalCalled.inj isCall).symm⟩
    · rintro (⟨sig, isArrival⟩ | ⟨unserved, notCall⟩)
      · cases isArrival
      · exact ⟨unserved, fun isI => notCall (by rw [isI])⟩
  found := fun j isMarked => by
    rw [isSignals, marked_clearMark] at isMarked
    rw [sameCount]
    refine (heard.found j isMarked.1).imp_right fun isVisit => ?_
    rw [wasPoint] at isVisit
    rw [isPoint]
    exact Nat.lt_of_le_of_ne isVisit (Ne.symm isMarked.2)
  here := fun others j isMarked => by
    rw [isPoint] at isMarked
    cases isMarked
  caused := by
    rw [isLog]
    refine heard.caused.append fun j isCall => ?_
    rw [← Event.signalCalled.inj isCall]
    exact (heard.marks i).mp (heard.here sockets i wasPoint)

theorem step_heard {action : Action} (heard : Heard state)
    (stepped : step state action = some next) : Heard next := by
  cases step_signals stepped with
  | other event isLog others sigs sameMarks sameCount visits found =>
      exact heard.other isLog others sigs sameMarks sameCount visits found
  | arrive sig i isFirst isLog isSignals isCount samePoint =>
      exact heard.arrive isFirst isLog isSignals isCount samePoint
  | clear sockets isPoint sameLog sameSignals => exact heard.clear isPoint sameLog sameSignals
  | call sockets i wasPoint isPoint isLog isSignals sameCount =>
      exact heard.call wasPoint isPoint isLog isSignals sameCount

theorem not_marked_nil (i : Nat) : ¬ Marked [] i := by
  rintro ⟨entry, isEntry, -⟩
  cases isEntry

theorem start_heard : Heard start where
  registered := fun _ _ member => absurd member List.not_mem_nil
  marks := fun i => iff_of_false (not_marked_nil i) not_unserved_nil
  found := fun i isMarked => absurd isMarked (not_marked_nil i)
  here := fun _ _ isPoint => nomatch isPoint
  caused := every_nil

/-- `SIGINT` comes while the loop turns to a `SIGTERM`, and is answered in the
same pass. -/
def twoSignals : List Action :=
  [.eloopRegisterSignal sigterm 1 0, .eloopRegisterSignal sigint 2 0,
    .eloopRegisterSock .read ⟨4, 3, 0, 0⟩, .eloopRun, .advance 0, .arrive sigterm,
    .select .nothing, .advance 0, .advance 0, .advance 0, .advance 0, .arrive sigint, .advance 0,
    .advance 0, .advance 0, .return_, .advance 0, .advance 0]

end Invariant

end TuyaAdapter.Eloop
