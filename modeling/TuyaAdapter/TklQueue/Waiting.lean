import TuyaAdapter.TklQueue.Delivery

/-!
Contract: when a call that waits forever fails.

`rpa_queue_timedpush` and `rpa_queue_timedpop` look at the ring once more after
the wait and give up when it is still full or empty. A wait without a deadline
therefore fails exactly when the ring, at the moment the mutex is taken again,
is still in the state that made the call wait.
-/

namespace TuyaAdapter.TklQueue

open Foundation Foundation.Run

variable {Thread Message : Type}

/-- A call that waits forever and returned has stored or taken a message. -/
def Event.Fulfilled (stored : List (Nat × Message)) : Event Message → Prop
  | .posted .forever (some buffer) ok => ok = true ∧ buffer ∈ stored.map Prod.fst
  | .posted .forever none _ => False
  | .fetched .forever (some message) => message ∈ stored
  | .fetched .forever none => False
  | _ => True

instance [DecidableEq Message] (stored : List (Nat × Message)) :
    ∀ event : Event Message, Decidable (event.Fulfilled stored)
  | .posted .forever (some _) _ => inferInstanceAs (Decidable (_ ∧ _))
  | .posted .forever none _ => inferInstanceAs (Decidable False)
  | .fetched .forever (some _) => inferInstanceAs (Decidable (_ ∈ _))
  | .fetched .forever none => inferInstanceAs (Decidable False)
  | .posted .none _ _ => inferInstanceAs (Decidable True)
  | .posted .timed _ _ => inferInstanceAs (Decidable True)
  | .fetched .none _ => inferInstanceAs (Decidable True)
  | .fetched .timed _ => inferInstanceAs (Decidable True)

/-- No call that waits forever has failed. -/
def ForeverFulfilled (world : World Thread Message) : Prop :=
  ∀ event ∈ world.history, event.Fulfilled world.stored

instance [DecidableEq Message] (world : World Thread Message) :
    Decidable (ForeverFulfilled world) :=
  inferInstanceAs (Decidable (∀ _ ∈ _, _))

/-- The steps of a run in which `data` is never `NULL` and `malloc` succeeds. -/
def Supplied [DecidableEq Thread] (world : World Thread Message)
    (action : Action Thread Message) : Prop :=
  (step world action).isSome = true ∧
    match action with
    | .post _ data _ granted => data.isSome = true ∧ granted = true
    | _ => True

instance [DecidableEq Thread] (world : World Thread Message) :
    ∀ action : Action Thread Message, Decidable (Supplied world action)
  | .post _ _ _ _ => inferInstanceAs (Decidable (_ ∧ _))
  | .fetch _ _ => inferInstanceAs (Decidable (_ ∧ _))
  | .wake _ _ => inferInstanceAs (Decidable (_ ∧ _))

/-- A thread that waits forever finds, when it has the mutex again, room for
its message or a message to take. -/
def WakesServed (world : World Thread Message) : Action Thread Message → Prop
  | .wake thread _ =>
      match world.activity thread with
      | .posting _ .forever => ¬ world.queue.full
      | .fetching .forever => ¬ world.queue.empty
      | _ => True
  | _ => True

instance (world : World Thread Message) :
    ∀ action : Action Thread Message, Decidable (WakesServed world action)
  | .post _ _ _ _ => inferInstanceAs (Decidable True)
  | .fetch _ _ => inferInstanceAs (Decidable True)
  | .wake thread _ => by
      unfold WakesServed
      dsimp only
      split <;> infer_instance

/-! ## One event -/

/-- What the event itself says: the call did not wait forever, or it succeeded. -/
def Event.Succeeds : Event Message → Prop
  | .posted .forever buffer ok => ok = true ∧ buffer.isSome = true
  | .fetched .forever message => message.isSome = true
  | _ => True

/-- In a coherent world an event is fulfilled when it says so. -/
theorem Coherent.fulfilled_iff {world : World Thread Message} (coherent : Coherent [] world)
    {event : Event Message} (member : event ∈ world.history) :
    event.Fulfilled world.stored ↔ event.Succeeds := by
  cases event with
  | posted wait buffer ok =>
      cases wait with
      | none => rfl
      | timed => rfl
      | forever =>
          cases buffer with
          | none => simp [Event.Fulfilled, Event.Succeeds]
          | some buffer =>
              have isStored : ok = true → buffer ∈ world.stored.map Prod.fst := by
                intro succeeded
                rw [← coherent.succeeded]
                exact List.mem_filterMap.mpr
                  ⟨.posted .forever (some buffer) ok, member, by simp [succeeded]⟩
              simpa [Event.Fulfilled, Event.Succeeds] using isStored
  | fetched wait message =>
      cases wait with
      | none => rfl
      | timed => rfl
      | forever =>
          cases message with
          | none => simp [Event.Fulfilled, Event.Succeeds]
          | some message =>
              have isStored : message ∈ world.stored := by
                rw [← coherent.order]
                exact List.mem_append_left _ (List.mem_filterMap.mpr
                  ⟨.fetched .forever (some message), member, rfl⟩)
              simpa [Event.Fulfilled, Event.Succeeds] using isStored

theorem Coherent.foreverFulfilled_iff {world : World Thread Message}
    (coherent : Coherent [] world) :
    ForeverFulfilled world ↔ ∀ event ∈ world.history, event.Succeeds := by
  constructor
  · intro fulfilled event member
    exact (coherent.fulfilled_iff member).mp (fulfilled event member)
  · intro succeed event member
    exact (coherent.fulfilled_iff member).mpr (succeed event member)

/-! ## One step -/

section Steps

variable [DecidableEq Thread] {world next : World Thread Message}

/-- The step appends the events listed, and they succeed exactly when the
condition holds. -/
def Appends (world next : World Thread Message) (condition : Prop) : Prop :=
  ∃ events, next.history = world.history ++ events ∧
    ((∀ event ∈ events, event.Succeeds) ↔ condition)

omit [DecidableEq Thread] in
theorem Appends.one {event : Event Message} {condition : Prop}
    (recorded : next.history = world.history ++ [event]) (succeeds : event.Succeeds ↔ condition) :
    Appends world next condition :=
  ⟨[event], recorded, by simpa using succeeds⟩

omit [DecidableEq Thread] in
theorem Appends.quiet {condition : Prop} (same : next.history = world.history)
    (holds : condition) : Appends world next condition :=
  ⟨[], by simpa using same, by simpa using holds⟩

theorem tklQueuePost_appends (thread : Thread) (data : Message) (wait : Wait) :
    Appends world (tklQueuePost world thread data wait) True := by
  unfold tklQueuePost
  simp only
  by_cases isFull : (world.copy data).queue.full
  · rw [if_pos isFull]
    by_cases noWait : wait = .none
    · rw [if_pos noWait]
      exact .one rfl (by simp [noWait, Event.Succeeds])
    · rw [if_neg noWait]
      exact .quiet rfl trivial
  · rw [if_neg isFull]
    exact .one rfl (by cases wait <;> simp [Event.Succeeds])

theorem tklQueueFetch_appends (thread : Thread) (wait : Wait) :
    Appends world (tklQueueFetch world thread wait) True := by
  unfold tklQueueFetch
  by_cases isEmpty : world.queue.empty
  · rw [if_pos isEmpty]
    by_cases noWait : wait = .none
    · rw [if_pos noWait]
      exact .one rfl (by simp [noWait, Event.Succeeds])
    · rw [if_neg noWait]
      exact .quiet rfl trivial
  · rw [if_neg isEmpty]
    exact .one rfl (by cases wait <;> simp [Event.Succeeds])

theorem resumePost_appends (thread : Thread) (buffer : Nat) (wait : Wait) {reason : Wake}
    (deadline : reason = .timedOut → wait = .timed) :
    Appends world (resumePost world thread buffer wait reason)
      (wait = .forever → ¬ world.queue.full) := by
  unfold resumePost
  simp only
  by_cases failed : reason.failed = true
  · rw [if_pos failed]
    have isTimed : wait = .timed := by
      cases reason with
      | timedOut => exact deadline rfl
      | signalled => simp [Wake.failed] at failed
      | spurious => simp [Wake.failed] at failed
    exact .one rfl (by simp [isTimed, Event.Succeeds])
  · rw [if_neg failed]
    by_cases isFull : (world.resumeRoom thread).queue.full
    · rw [if_pos isFull]
      have stillFull : world.queue.full := isFull
      exact .one rfl (by cases wait <;> simp [Event.Succeeds, stillFull])
    · rw [if_neg isFull]
      have notFull : ¬ world.queue.full := isFull
      exact .one rfl (by cases wait <;> simp [Event.Succeeds, notFull])

theorem resumeFetch_appends (thread : Thread) (wait : Wait) {reason : Wake}
    (deadline : reason = .timedOut → wait = .timed) :
    Appends world (resumeFetch world thread wait reason)
      (wait = .forever → ¬ world.queue.empty) := by
  unfold resumeFetch
  simp only
  by_cases failed : reason.failed = true
  · rw [if_pos failed]
    have isTimed : wait = .timed := by
      cases reason with
      | timedOut => exact deadline rfl
      | signalled => simp [Wake.failed] at failed
      | spurious => simp [Wake.failed] at failed
    exact .one rfl (by simp [isTimed, Event.Succeeds])
  · rw [if_neg failed]
    by_cases isEmpty : (world.resumeMessage thread).queue.empty
    · rw [if_pos isEmpty]
      have stillEmpty : world.queue.empty := isEmpty
      exact .one rfl (by cases wait <;> simp [Event.Succeeds, stillEmpty])
    · rw [if_neg isEmpty]
      have notEmpty : ¬ world.queue.empty := isEmpty
      exact .one rfl (by cases wait <;> simp [Event.Succeeds, notEmpty])

theorem step_appends {action : Action Thread Message} (supplied : Supplied world action)
    (stepped : step world action = some next) :
    Appends world next (WakesServed world action) := by
  cases Turn.of_step stepped with
  | unsent idle refused =>
      rcases refused with isNull | notGranted
      · exact absurd supplied.2.1 (by simp [isNull])
      · exact absurd supplied.2.2 (by simp [notGranted])
  | post idle => exact tklQueuePost_appends _ _ _
  | fetch idle => exact tklQueueFetch_appends _ _
  | @wakePost thread reason buffer wait waits deadline =>
      have served : WakesServed world (.wake thread reason) ↔
          (wait = .forever → ¬ world.queue.full) := by
        cases wait <;> simp [WakesServed, waits]
      rw [served]
      exact resumePost_appends thread buffer wait deadline
  | @wakeFetch thread reason wait waits deadline =>
      have served : WakesServed world (.wake thread reason) ↔
          (wait = .forever → ¬ world.queue.empty) := by
        cases wait <;> simp [WakesServed, waits]
      rw [served]
      exact resumeFetch_appends thread wait deadline

end Steps

/-! ## Runs -/

/-- In every interleaving, no call that waits forever ever fails exactly when
every wake-up of such a call finds what it waits for. -/
theorem waitForever_fulfilled_iff {Thread Message : Type} [DecidableEq Thread]
    {data : Nat → Nat} {content : Nat → Message} {msgcount : UInt32}
    (positive : 0 < msgcount.toNat) {actions : List (Action Thread Message)}
    (supplied : EveryStep step Supplied (World.created data content msgcount) actions) :
    EveryState step ForeverFulfilled (World.created data content msgcount) actions ↔
      EveryStep step WakesServed (World.created data content msgcount) actions := by
  have progress : ∀ (world : World Thread Message) action, Coherent [] world →
      Supplied world action → ∃ next, step world action = some next ∧ Coherent [] next := by
    intro world action coherent isSupplied
    obtain ⟨next, stepped⟩ := Option.isSome_iff_exists.mp isSupplied.1
    exact ⟨next, stepped, step_coherent coherent stepped⟩
  have oneStep : ∀ (world : World Thread Message) action next, Coherent [] world →
      ForeverFulfilled world → Supplied world action → step world action = some next →
      (ForeverFulfilled next ↔ WakesServed world action) := by
    intro world action next coherent fulfilled isSupplied stepped
    obtain ⟨events, isHistory, succeed⟩ := step_appends isSupplied stepped
    rw [(step_coherent coherent stepped).foreverFulfilled_iff, ← succeed, isHistory]
    have before := coherent.foreverFulfilled_iff.mp fulfilled
    constructor
    · intro all event member
      exact all event (List.mem_append_right _ member)
    · intro new event member
      rcases List.mem_append.mp member with old | added
      · exact before event old
      · exact new event added
  exact everyState_iff_everyStep progress oneStep (created_coherent positive)
    (by simp [ForeverFulfilled, World.created]) supplied

/-- Thread 0 waits for a message, thread 1 posts one, thread 2 fetches it
before thread 0 has the mutex again. -/
def overtakenFetch : List (Action (Fin 3) Nat) :=
  [.fetch 0 0xFFFFFFFF, .post 1 (some 7) 0xFFFFFFFF true, .fetch 2 0xFFFFFFFF,
    .wake 0 .signalled]

theorem waitForever_fails_when_overtaken :
    EveryStep step Supplied (World.created (fun _ => 0) (fun _ => 0) 1) overtakenFetch ∧
      ¬ EveryState step ForeverFulfilled (World.created (fun _ => 0) (fun _ => 0) 1)
        overtakenFetch := by
  decide +kernel

/-- The same threads when thread 2 does not fetch. -/
theorem waitForever_fulfilled_undisturbed :
    EveryState step ForeverFulfilled (World.created (fun _ => 0) (fun _ => 0) 1)
      ([.fetch 0 0xFFFFFFFF, .post 1 (some 7) 0xFFFFFFFF true, .wake 0 .signalled] :
        List (Action (Fin 3) Nat)) :=
  (waitForever_fulfilled_iff (by decide) (by decide +kernel)).mpr (by decide +kernel)

end TuyaAdapter.TklQueue
