import Mathlib.Logic.Function.Basic

/-!
Contract: `tkl_queue.c` as threads that take turns in critical sections.

A step is one critical section of `one_big_mutex`: a call up to its return or
up to the wait that gives the mutex up, or a waiting thread from the moment it
has the mutex again to its return. Locking and signalling succeed. Waking is
free: a wait returns because of a signal, spuriously, or, when it has a
deadline, because the deadline passed. `terminated` is never set by the source.

Buffers are named by the order of the `malloc` calls of `tkl_queue_post`, so a
buffer names the post that made it. The record of what was stored, returned and
freed is history: no step reads it.
-/

namespace TuyaAdapter.TklQueue

/-! ## The ring -/

/-- `rpa_queue_t`, less the synchronisation objects. -/
structure RpaQueue where
  data : Nat → Nat
  nelts : UInt32
  inn : UInt32
  out : UInt32
  bounds : UInt32
  fullWaiters : UInt32
  emptyWaiters : UInt32

/-- `rpa_queue_create` with every allocation granted. The array is not
initialised. -/
def rpaQueueCreate (data : Nat → Nat) (queueCapacity : UInt32) : RpaQueue :=
  ⟨data, 0, 0, 0, queueCapacity, 0, 0⟩

def RpaQueue.full (queue : RpaQueue) : Prop := queue.nelts = queue.bounds

def RpaQueue.empty (queue : RpaQueue) : Prop := queue.nelts = 0

instance (queue : RpaQueue) : Decidable queue.full := inferInstanceAs (Decidable (_ = _))
instance (queue : RpaQueue) : Decidable queue.empty := inferInstanceAs (Decidable (_ = _))

/-- Advance an index of the ring. -/
def advance (queue : RpaQueue) (index : UInt32) : UInt32 :=
  let index := index + 1
  if queue.bounds ≤ index then index - queue.bounds else index

/-- The tail of `rpa_queue_trypush` and `rpa_queue_timedpush`. -/
def RpaQueue.push (queue : RpaQueue) (buffer : Nat) : RpaQueue :=
  { queue with
    data := Function.update queue.data queue.inn.toNat buffer
    inn := advance queue queue.inn
    nelts := queue.nelts + 1 }

/-- The tail of `rpa_queue_trypop` and `rpa_queue_timedpop`: the buffer taken
and the queue. -/
def RpaQueue.pop (queue : RpaQueue) : Nat × RpaQueue :=
  (queue.data queue.out.toNat,
    { queue with nelts := queue.nelts - 1, out := advance queue queue.out })

/-! ## Threads -/

/-- `wait_ms` as the two calls pass it on. -/
inductive Wait where
  | none
  | forever
  | timed
deriving DecidableEq, Repr

/-- The conversion of the `timeout` parameter. -/
def waitOf (timeout : UInt32) : Wait :=
  if timeout = 0xFFFFFFFF then .forever else if timeout = 0 then .none else .timed

/-- Where a thread stands between two critical sections. -/
inductive Activity where
  | idle
  | posting (buffer : Nat) (wait : Wait)
  | fetching (wait : Wait)
deriving DecidableEq, Repr

/-- Why a wait returned. -/
inductive Wake where
  | signalled
  | spurious
  | timedOut
deriving DecidableEq, Repr

/-- The value `pthread_cond_wait` or `pthread_cond_timedwait` returned is not
zero. -/
def Wake.failed : Wake → Bool
  | .timedOut => true
  | _ => false

/-- One entry of the history: a call that returned. -/
inductive Event (Message : Type) where
  /-- `tkl_queue_post` returned; the buffer is missing when it was refused
  before the copy was made. -/
  | posted (wait : Wait) (buffer : Option Nat) (ok : Bool)
  /-- `tkl_queue_fetch` returned, with the message it copied out. -/
  | fetched (wait : Wait) (message : Option (Nat × Message))
deriving DecidableEq

/-- The queue, its threads and the buffers. `sent` holds the messages of the
posts that made a copy: the position of a message is the name of its buffer. -/
structure World (Thread Message : Type) where
  queue : RpaQueue
  activity : Thread → Activity
  content : Nat → Message
  sent : List Message
  stored : List (Nat × Message)
  freed : List Nat
  history : List (Event Message)

inductive Action (Thread Message : Type) where
  /-- `data` is missing for `NULL`; `granted` says whether `malloc` succeeds. -/
  | post (thread : Thread) (data : Option Message) (timeout : UInt32) (granted : Bool)
  | fetch (thread : Thread) (timeout : UInt32)
  | wake (thread : Thread) (reason : Wake)

variable {Thread Message : Type}

def World.record (world : World Thread Message) (event : Event Message) :
    World Thread Message :=
  { world with history := world.history ++ [event] }

/-- A post stores its buffer and returns. -/
def World.store (world : World Thread Message) (buffer : Nat) (wait : Wait) :
    World Thread Message :=
  World.record
    { world with
      queue := world.queue.push buffer
      stored := world.stored ++ [(buffer, world.content buffer)] }
    (.posted wait (some buffer) true)

/-- A fetch takes a buffer, copies it out, frees it and returns. -/
def World.take (world : World Thread Message) (wait : Wait) : World Thread Message :=
  World.record
    { world with
      queue := world.queue.pop.2
      freed := world.freed ++ [world.queue.pop.1] }
    (.fetched wait (some (world.queue.pop.1, world.content world.queue.pop.1)))

/-- The buffer of the next post: `malloc` and `memcpy`. -/
def World.copy (world : World Thread Message) (data : Message) : World Thread Message :=
  { world with
    sent := world.sent ++ [data]
    content := Function.update world.content world.sent.length data }

/-- A post gives the mutex up and waits for room. -/
def World.awaitRoom [DecidableEq Thread] (world : World Thread Message) (thread : Thread)
    (buffer : Nat) (wait : Wait) : World Thread Message :=
  { world with
    queue := { world.queue with fullWaiters := world.queue.fullWaiters + 1 }
    activity := Function.update world.activity thread (.posting buffer wait) }

/-- A waiting post has the mutex again. -/
def World.resumeRoom [DecidableEq Thread] (world : World Thread Message) (thread : Thread) :
    World Thread Message :=
  { world with
    queue := { world.queue with fullWaiters := world.queue.fullWaiters - 1 }
    activity := Function.update world.activity thread .idle }

/-- A fetch gives the mutex up and waits for a message. -/
def World.awaitMessage [DecidableEq Thread] (world : World Thread Message) (thread : Thread)
    (wait : Wait) : World Thread Message :=
  { world with
    queue := { world.queue with emptyWaiters := world.queue.emptyWaiters + 1 }
    activity := Function.update world.activity thread (.fetching wait) }

/-- A waiting fetch has the mutex again. -/
def World.resumeMessage [DecidableEq Thread] (world : World Thread Message) (thread : Thread) :
    World Thread Message :=
  { world with
    queue := { world.queue with emptyWaiters := world.queue.emptyWaiters - 1 }
    activity := Function.update world.activity thread .idle }

/-- `tkl_queue_post` from the copy of the message on. -/
def tklQueuePost [DecidableEq Thread] (world : World Thread Message) (thread : Thread)
    (data : Message) (wait : Wait) : World Thread Message :=
  let buffer := world.sent.length
  let world := world.copy data
  if world.queue.full then
    if wait = .none then world.record (.posted wait (some buffer) false)
    else world.awaitRoom thread buffer wait
  else world.store buffer wait

/-- `tkl_queue_fetch`. -/
def tklQueueFetch [DecidableEq Thread] (world : World Thread Message) (thread : Thread)
    (wait : Wait) : World Thread Message :=
  if world.queue.empty then
    if wait = .none then world.record (.fetched wait none)
    else world.awaitMessage thread wait
  else world.take wait

/-- `rpa_queue_timedpush` from the return of the wait on. -/
def resumePost [DecidableEq Thread] (world : World Thread Message) (thread : Thread)
    (buffer : Nat) (wait : Wait) (reason : Wake) : World Thread Message :=
  let world := world.resumeRoom thread
  if reason.failed then world.record (.posted wait (some buffer) false)
  else if world.queue.full then world.record (.posted wait (some buffer) false)
  else world.store buffer wait

/-- `rpa_queue_timedpop` from the return of the wait on. -/
def resumeFetch [DecidableEq Thread] (world : World Thread Message) (thread : Thread)
    (wait : Wait) (reason : Wake) : World Thread Message :=
  let world := world.resumeMessage thread
  if reason.failed then world.record (.fetched wait none)
  else if world.queue.empty then world.record (.fetched wait none)
  else world.take wait

/-- One critical section; `none` when the thread is not in a position to take
it. Only a wait with a deadline times out. -/
def step [DecidableEq Thread] (world : World Thread Message) :
    Action Thread Message → Option (World Thread Message)
  | .post thread data timeout granted =>
      match world.activity thread with
      | .idle =>
          match data with
          | none => some (world.record (.posted (waitOf timeout) none false))
          | some message =>
              if granted then some (tklQueuePost world thread message (waitOf timeout))
              else some (world.record (.posted (waitOf timeout) none false))
      | _ => none
  | .fetch thread timeout =>
      match world.activity thread with
      | .idle => some (tklQueueFetch world thread (waitOf timeout))
      | _ => none
  | .wake thread reason =>
      match world.activity thread with
      | .idle => none
      | .posting buffer wait =>
          if reason = .timedOut ∧ wait ≠ .timed then none
          else some (resumePost world thread buffer wait reason)
      | .fetching wait =>
          if reason = .timedOut ∧ wait ≠ .timed then none
          else some (resumeFetch world thread wait reason)

/-- What one critical section does, by the position of the thread. -/
inductive Turn [DecidableEq Thread] (world : World Thread Message) :
    Action Thread Message → World Thread Message → Prop
  | unsent {thread : Thread} {data : Option Message} {timeout : UInt32} {granted : Bool}
      (idle : world.activity thread = .idle) (refused : data = none ∨ granted = false) :
      Turn world (.post thread data timeout granted)
        (world.record (.posted (waitOf timeout) none false))
  | post {thread : Thread} {message : Message} {timeout : UInt32}
      (idle : world.activity thread = .idle) :
      Turn world (.post thread (some message) timeout true)
        (tklQueuePost world thread message (waitOf timeout))
  | fetch {thread : Thread} {timeout : UInt32} (idle : world.activity thread = .idle) :
      Turn world (.fetch thread timeout) (tklQueueFetch world thread (waitOf timeout))
  | wakePost {thread : Thread} {reason : Wake} {buffer : Nat} {wait : Wait}
      (waits : world.activity thread = .posting buffer wait)
      (deadline : reason = .timedOut → wait = .timed) :
      Turn world (.wake thread reason) (resumePost world thread buffer wait reason)
  | wakeFetch {thread : Thread} {reason : Wake} {wait : Wait}
      (waits : world.activity thread = .fetching wait)
      (deadline : reason = .timedOut → wait = .timed) :
      Turn world (.wake thread reason) (resumeFetch world thread wait reason)

/-- A step is one of these turns. -/
theorem Turn.of_step [DecidableEq Thread] {world next : World Thread Message}
    {action : Action Thread Message} (stepped : step world action = some next) :
    Turn world action next := by
  cases action with
  | post thread data timeout granted =>
      cases activity : world.activity thread with
      | idle =>
          simp only [step, activity] at stepped
          cases data with
          | none =>
              rw [← Option.some.inj stepped]
              exact .unsent activity (Or.inl rfl)
          | some message =>
              cases granted with
              | true =>
                  rw [← Option.some.inj stepped]
                  exact .post activity
              | false =>
                  rw [← Option.some.inj stepped]
                  exact .unsent activity (Or.inr rfl)
      | posting buffer wait => simp [step, activity] at stepped
      | fetching wait => simp [step, activity] at stepped
  | fetch thread timeout =>
      cases activity : world.activity thread with
      | idle =>
          simp only [step, activity] at stepped
          rw [← Option.some.inj stepped]
          exact .fetch activity
      | posting buffer wait => simp [step, activity] at stepped
      | fetching wait => simp [step, activity] at stepped
  | wake thread reason =>
      cases activity : world.activity thread with
      | idle => simp [step, activity] at stepped
      | posting buffer wait =>
          simp only [step, activity] at stepped
          split at stepped
          · exact absurd stepped (by simp)
          · rename_i deadline
            rw [← Option.some.inj stepped]
            exact .wakePost activity fun timedOut =>
              Decidable.byContradiction fun other => deadline ⟨timedOut, other⟩
      | fetching wait =>
          simp only [step, activity] at stepped
          split at stepped
          · exact absurd stepped (by simp)
          · rename_i deadline
            rw [← Option.some.inj stepped]
            exact .wakeFetch activity fun timedOut =>
              Decidable.byContradiction fun other => deadline ⟨timedOut, other⟩

/-- A queue right after `tkl_queue_create_init`. -/
def World.created (data : Nat → Nat) (content : Nat → Message) (msgcount : UInt32) :
    World Thread Message :=
  ⟨rpaQueueCreate data msgcount, fun _ => .idle, content, [], [], [], []⟩

end TuyaAdapter.TklQueue
