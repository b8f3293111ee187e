import TuyaAdapter.Foundation.RingWindow
import TuyaAdapter.Foundation.Run
import TuyaAdapter.TklQueue.Model

/-!
Contract: every message is delivered once and in order.

`Coherent` is the invariant over all interleavings. It relates the ring to the
history: what was fetched, followed by what the ring holds, is what was stored.
Its argument `held` is the buffer the running thread has in its hands in the
middle of a critical section; between critical sections it is empty.
-/

namespace TuyaAdapter.TklQueue

open Foundation Foundation.RingWindow Foundation.Run

variable {Thread Message : Type}

/-! ## Reading the history -/

/-- The messages that successful fetches returned, in order. -/
def delivered (history : List (Event Message)) : List (Nat × Message) :=
  history.filterMap fun
    | .fetched _ message => message
    | .posted _ _ _ => none

/-- The buffers of the posts that returned with this result, in order. -/
def returned (ok : Bool) (history : List (Event Message)) : List Nat :=
  history.filterMap fun
    | .fetched _ _ => none
    | .posted _ buffer result => if result = ok then buffer else none

/-- The buffers in the ring from `out` to `in`. -/
def ringBuffers (queue : RpaQueue) : List Nat :=
  window queue.data queue.bounds.toNat queue.out.toNat queue.nelts.toNat

/-- The messages in the ring from `out` to `in`. -/
def ringContents (world : World Thread Message) : List (Nat × Message) :=
  (ringBuffers world.queue).map fun buffer => (buffer, world.content buffer)

/-- A buffer that a post holds or waits with. -/
def InFlight (held : List Nat) (world : World Thread Message) (buffer : Nat) : Prop :=
  buffer ∈ held ∨ ∃ thread wait, world.activity thread = .posting buffer wait

/-! ## Invariant -/

/-- The index arithmetic of the ring. -/
structure RingHolds (queue : RpaQueue) : Prop where
  positive : 0 < queue.bounds.toNat
  count : queue.nelts.toNat ≤ queue.bounds.toNat
  outBelow : queue.out.toNat < queue.bounds.toNat
  inn : queue.inn.toNat = (queue.out.toNat + queue.nelts.toNat) % queue.bounds.toNat

structure Coherent (held : List Nat) (world : World Thread Message) : Prop where
  ring : RingHolds world.queue
  order : delivered world.history ++ ringContents world = world.stored
  sent : ∀ buffer, buffer < world.sent.length →
    world.sent[buffer]? = some (world.content buffer)
  succeeded : returned true world.history = world.stored.map Prod.fst
  freed : world.freed = (delivered world.history).map Prod.fst
  different : (world.stored.map Prod.fst).Nodup
  storedSent : ∀ entry ∈ world.stored,
    entry.1 < world.sent.length ∧ entry.2 = world.content entry.1
  failedSent : ∀ buffer ∈ returned false world.history,
    buffer < world.sent.length ∧ buffer ∉ world.stored.map Prod.fst
  inFlight : ∀ buffer, InFlight held world buffer →
    buffer < world.sent.length ∧ buffer ∉ world.stored.map Prod.fst ∧
      buffer ∉ returned false world.history
  apart : ∀ thread thread' buffer wait wait',
    world.activity thread = .posting buffer wait →
    world.activity thread' = .posting buffer wait' → thread = thread'
  heldApart : ∀ buffer ∈ held, ∀ thread wait, world.activity thread ≠ .posting buffer wait
  covered : ∀ buffer, buffer < world.sent.length →
    buffer ∈ world.stored.map Prod.fst ∨ buffer ∈ returned false world.history ∨
      InFlight held world buffer

/-! ## The ring -/

section Ring

theorem advance_eq {queue : RpaQueue} {index : UInt32} (below : index.toNat < queue.bounds.toNat) :
    (advance queue index).toNat = (index.toNat + 1) % queue.bounds.toNat := by
  have small := queue.bounds.toNat_lt
  have sum : (index + 1).toNat = index.toNat + 1 := by
    rw [UInt32.toNat_add]
    exact Nat.mod_eq_of_lt (by have := UInt32.toNat_one; omega)
  unfold advance
  rw [← next_index below]
  simp only [UInt32.le_iff_toNat_le, sum]
  split
  · rename_i atEnd
    rw [UInt32.toNat_sub_of_le _ _ (by rw [UInt32.le_iff_toNat_le, sum]; exact atEnd), sum]
  · exact sum

variable {queue : RpaQueue} (holds : RingHolds queue)
include holds

theorem RingHolds.inBelow : queue.inn.toNat < queue.bounds.toNat := by
  rw [holds.inn]
  exact Nat.mod_lt _ holds.positive

theorem RingHolds.push {buffer : Nat} (room : ¬ queue.full) :
    RingHolds (queue.push buffer) ∧
      ringBuffers (queue.push buffer) = ringBuffers queue ++ [buffer] := by
  have count := holds.count
  have small := queue.bounds.toNat_lt
  have notFull : queue.nelts.toNat < queue.bounds.toNat := by
    apply lt_of_le_of_ne count
    intro same
    exact room (UInt32.toNat_inj.mp same)
  have counted : (queue.nelts + 1).toNat = queue.nelts.toNat + 1 := by
    rw [UInt32.toNat_add]
    exact Nat.mod_eq_of_lt (by have := UInt32.toNat_one; omega)
  have next := advance_eq holds.inBelow
  refine ⟨⟨holds.positive, ?_, holds.outBelow, ?_⟩, ?_⟩
  · show (queue.nelts + 1).toNat ≤ queue.bounds.toNat
    omega
  · show (advance queue queue.inn).toNat =
      (queue.out.toNat + (queue.nelts + 1).toNat) % queue.bounds.toNat
    rw [next, counted, holds.inn, Nat.mod_add_mod, Nat.add_assoc]
  · show window (Function.update queue.data queue.inn.toNat buffer) queue.bounds.toNat
      queue.out.toNat (queue.nelts + 1).toNat = _
    rw [counted, holds.inn, window_push notFull]
    rfl

theorem RingHolds.pop (filled : ¬ queue.empty) :
    RingHolds queue.pop.2 ∧ ringBuffers queue = queue.pop.1 :: ringBuffers queue.pop.2 := by
  have count := holds.count
  have small := queue.bounds.toNat_lt
  have notEmpty : 0 < queue.nelts.toNat := by
    apply Nat.pos_of_ne_zero
    intro isZero
    exact filled (UInt32.toNat_inj.mp isZero)
  obtain ⟨rest, isRest⟩ : ∃ rest, queue.nelts.toNat = rest + 1 :=
    ⟨queue.nelts.toNat - 1, by omega⟩
  have counted : (queue.nelts - 1).toNat = rest := by
    rw [UInt32.toNat_sub_of_le _ _ (by
      rw [UInt32.le_iff_toNat_le]
      have := UInt32.toNat_one
      omega), isRest]
    rfl
  have next := advance_eq holds.outBelow
  refine ⟨⟨holds.positive, ?_, ?_, ?_⟩, ?_⟩
  · show (queue.nelts - 1).toNat ≤ queue.bounds.toNat
    omega
  · show (advance queue queue.out).toNat < queue.bounds.toNat
    rw [next]
    exact Nat.mod_lt _ holds.positive
  · show queue.inn.toNat =
      ((advance queue queue.out).toNat + (queue.nelts - 1).toNat) % queue.bounds.toNat
    rw [next, counted, holds.inn, isRest, Nat.mod_add_mod, Nat.add_assoc, Nat.add_comm rest 1]
  · show window queue.data queue.bounds.toNat queue.out.toNat queue.nelts.toNat =
      queue.data queue.out.toNat :: window queue.data queue.bounds.toNat
        (advance queue queue.out).toNat (queue.nelts - 1).toNat
    rw [next, counted, isRest, window_pop holds.outBelow]

end Ring

/-! ## What each part of a critical section keeps -/

section Parts

variable {world : World Thread Message} {held : List Nat}

/-- With no buffer in a post's hands, one in flight belongs to a post that
waits. -/
theorem InFlight.waiting {buffer : Nat} (flight : InFlight [] world buffer) :
    ∃ thread wait, world.activity thread = .posting buffer wait := by
  rcases flight with isHeld | waiting
  · simp at isHeld
  · exact waiting

/-- The copy of a message puts a new buffer in the post's hands. -/
theorem Coherent.copy (coherent : Coherent [] world) (data : Message) :
    Coherent [world.sent.length] (world.copy data) := by
  have bounded : ∀ entry ∈ world.stored, entry.1 ≠ world.sent.length := by
    intro entry member
    have below := (coherent.storedSent entry member).1
    omega
  have unchanged : ∀ buffer, buffer < world.sent.length →
      (world.copy data).content buffer = world.content buffer := by
    intro buffer below
    exact Function.update_of_ne (by omega) _ _
  have contents : ringContents (world.copy data) = ringContents world := by
    apply List.map_congr_left
    intro buffer inRing
    have member : (buffer, world.content buffer) ∈ world.stored := by
      rw [← coherent.order]
      exact List.mem_append_right _ (List.mem_map.mpr ⟨buffer, inRing, rfl⟩)
    rw [unchanged buffer (coherent.storedSent _ member).1]
  have notStored : world.sent.length ∉ world.stored.map Prod.fst := by
    intro member
    obtain ⟨entry, inStored, isEntry⟩ := List.mem_map.mp member
    exact bounded entry inStored isEntry
  have flying : ∀ buffer, InFlight [world.sent.length] (world.copy data) buffer →
      buffer = world.sent.length ∨ InFlight [] world buffer := by
    intro buffer flight
    rcases flight with isHeld | waiting
    · exact Or.inl (List.mem_singleton.mp isHeld)
    · exact Or.inr (Or.inr waiting)
  have length : (world.copy data).sent.length = world.sent.length + 1 := by
    simp [World.copy]
  constructor
  · exact coherent.ring
  · rw [contents]
    exact coherent.order
  · intro buffer below
    rw [length] at below
    rcases Nat.lt_succ_iff_lt_or_eq.mp below with old | new
    · rw [unchanged buffer old, ← coherent.sent buffer old]
      exact List.getElem?_append_left old
    · rw [new]
      simp [World.copy]
  · exact coherent.succeeded
  · exact coherent.freed
  · exact coherent.different
  · intro entry member
    have facts := coherent.storedSent entry member
    rw [length, unchanged _ facts.1]
    exact ⟨by omega, facts.2⟩
  · intro buffer failed
    have facts := coherent.failedSent buffer failed
    rw [length]
    exact ⟨by omega, facts.2⟩
  · intro buffer flight
    rw [length]
    rcases flying buffer flight with isNew | old
    · rw [isNew]
      refine ⟨by omega, notStored, ?_⟩
      intro failed
      have below := (coherent.failedSent _ failed).1
      omega
    · have facts := coherent.inFlight buffer old
      exact ⟨by omega, facts.2⟩
  · exact coherent.apart
  · intro buffer isHeld thread wait waiting
    have below := (coherent.inFlight buffer (Or.inr ⟨thread, wait, waiting⟩)).1
    have isNew := List.mem_singleton.mp isHeld
    omega
  · intro buffer below
    rw [length] at below
    rcases Nat.lt_succ_iff_lt_or_eq.mp below with old | new
    · rcases coherent.covered buffer old with stored | failed | flight
      · exact Or.inl stored
      · exact Or.inr (Or.inl failed)
      · exact Or.inr (Or.inr (Or.inr (InFlight.waiting flight)))
    · exact Or.inr (Or.inr (Or.inl (List.mem_singleton.mpr new)))

/-- An entry of the history that stores, returns and drops nothing. -/
theorem Coherent.record_quiet (coherent : Coherent held world) {event : Event Message}
    (noDelivery : delivered [event] = []) (noReturn : ∀ ok, returned ok [event] = []) :
    Coherent held (world.record event) := by
  have sameDelivered : delivered (world.history ++ [event]) = delivered world.history := by
    unfold delivered at noDelivery ⊢
    rw [List.filterMap_append, noDelivery, List.append_nil]
  have sameReturned : ∀ ok, returned ok (world.history ++ [event]) = returned ok world.history := by
    intro ok
    have nothing := noReturn ok
    unfold returned at nothing ⊢
    rw [List.filterMap_append, nothing, List.append_nil]
  exact {
    ring := coherent.ring
    order := by
      show delivered (world.history ++ [event]) ++ ringContents world = world.stored
      rw [sameDelivered]
      exact coherent.order
    sent := coherent.sent
    succeeded := by
      show returned true (world.history ++ [event]) = _
      rw [sameReturned]
      exact coherent.succeeded
    freed := by
      show world.freed = (delivered (world.history ++ [event])).map Prod.fst
      rw [sameDelivered]
      exact coherent.freed
    different := coherent.different
    storedSent := coherent.storedSent
    failedSent := by
      show ∀ buffer ∈ returned false (world.history ++ [event]), _
      rw [sameReturned]
      exact coherent.failedSent
    inFlight := by
      show ∀ buffer, InFlight held world buffer →
        _ ∧ _ ∧ buffer ∉ returned false (world.history ++ [event])
      rw [sameReturned]
      exact coherent.inFlight
    apart := coherent.apart
    heldApart := coherent.heldApart
    covered := by
      show ∀ buffer, _ → _ ∨ buffer ∈ returned false (world.history ++ [event]) ∨ _
      rw [sameReturned]
      exact coherent.covered }

/-- A post gives up and returns failure; its buffer is never stored. -/
theorem Coherent.giveUp {buffer : Nat} (coherent : Coherent [buffer] world) (wait : Wait) :
    Coherent [] (world.record (.posted wait (some buffer) false)) := by
  have facts := coherent.inFlight buffer (Or.inl (by simp))
  have sameDelivered : delivered (world.history ++ [.posted wait (some buffer) false]) =
      delivered world.history := by
    simp [delivered]
  have sameSucceeded : returned true (world.history ++ [.posted wait (some buffer) false]) =
      returned true world.history := by
    simp [returned]
  have failed : returned false (world.history ++ [.posted wait (some buffer) false]) =
      returned false world.history ++ [buffer] := by
    simp [returned]
  exact {
    ring := coherent.ring
    order := by
      show delivered (world.history ++ _) ++ ringContents world = world.stored
      rw [sameDelivered]
      exact coherent.order
    sent := coherent.sent
    succeeded := sameSucceeded.trans coherent.succeeded
    freed := by
      show world.freed = (delivered (world.history ++ _)).map Prod.fst
      rw [sameDelivered]
      exact coherent.freed
    different := coherent.different
    storedSent := coherent.storedSent
    failedSent := by
      intro other member
      have isFailed : other ∈ returned false world.history ++ [buffer] := failed ▸ member
      rcases List.mem_append.mp isFailed with old | new
      · exact coherent.failedSent other old
      · rw [List.mem_singleton.mp new]
        exact ⟨facts.1, facts.2.1⟩
    inFlight := by
      intro other flight
      have waiting : ∃ thread wait, world.activity thread = .posting other wait := flight.waiting
      have otherFacts := coherent.inFlight other (Or.inr waiting)
      refine ⟨otherFacts.1, otherFacts.2.1, ?_⟩
      intro member
      have isFailed : other ∈ returned false world.history ++ [buffer] := failed ▸ member
      rcases List.mem_append.mp isFailed with old | new
      · exact otherFacts.2.2 old
      · obtain ⟨thread, otherWait, isWaiting⟩ := waiting
        exact coherent.heldApart other (by simpa using new) thread otherWait isWaiting
    apart := coherent.apart
    heldApart := by simp
    covered := by
      intro other below
      show _ ∨ other ∈ returned false (world.history ++ _) ∨ _
      rw [failed]
      rcases coherent.covered other below with stored | old | isHeld | waiting
      · exact Or.inl stored
      · exact Or.inr (Or.inl (by simp [old]))
      · exact Or.inr (Or.inl (by simp [List.mem_singleton.mp isHeld]))
      · exact Or.inr (Or.inr (Or.inr waiting)) }

/-- A post stores its buffer and returns success. -/
theorem Coherent.store {buffer : Nat} (coherent : Coherent [buffer] world)
    (room : ¬ world.queue.full) (wait : Wait) : Coherent [] (world.store buffer wait) := by
  have facts := coherent.inFlight buffer (Or.inl (by simp))
  have pushed := @RingHolds.push world.queue coherent.ring buffer room
  have isDelivered : delivered (world.store buffer wait).history = delivered world.history := by
    simp [World.store, World.record, delivered]
  have isSucceeded : returned true (world.store buffer wait).history =
      returned true world.history ++ [buffer] := by
    simp [World.store, World.record, returned]
  have isFailed : returned false (world.store buffer wait).history =
      returned false world.history := by
    simp [World.store, World.record, returned]
  have isStored : (world.store buffer wait).stored =
      world.stored ++ [(buffer, world.content buffer)] := rfl
  have contents : ringContents (world.store buffer wait) =
      ringContents world ++ [(buffer, world.content buffer)] := by
    show (ringBuffers (world.queue.push buffer)).map _ = _
    rw [pushed.2, List.map_append]
    rfl
  have ids : (world.store buffer wait).stored.map Prod.fst =
      world.stored.map Prod.fst ++ [buffer] := by
    rw [isStored, List.map_append]
    rfl
  constructor
  · exact pushed.1
  · rw [isDelivered, contents, isStored, ← List.append_assoc, coherent.order]
  · exact coherent.sent
  · rw [isSucceeded, ids, coherent.succeeded]
  · rw [isDelivered]
    exact coherent.freed
  · rw [ids]
    refine List.nodup_append.mpr ⟨coherent.different, by simp, ?_⟩
    intro other inStored new isNew same
    rw [same, List.mem_singleton.mp isNew] at inStored
    exact facts.2.1 inStored
  · intro entry member
    rw [isStored] at member
    rcases List.mem_append.mp member with old | new
    · exact coherent.storedSent entry old
    · rw [List.mem_singleton.mp new]
      exact ⟨facts.1, rfl⟩
  · intro other failed
    rw [isFailed] at failed
    have otherFacts := coherent.failedSent other failed
    rw [ids]
    refine ⟨otherFacts.1, ?_⟩
    intro member
    rcases List.mem_append.mp member with old | new
    · exact otherFacts.2 old
    · rw [List.mem_singleton.mp new] at failed
      exact facts.2.2 failed
  · intro other flight
    have waiting : ∃ thread wait, world.activity thread = .posting other wait := flight.waiting
    have otherFacts := coherent.inFlight other (Or.inr waiting)
    rw [isFailed, ids]
    refine ⟨otherFacts.1, ?_, otherFacts.2.2⟩
    intro member
    rcases List.mem_append.mp member with old | new
    · exact otherFacts.2.1 old
    · obtain ⟨thread, otherWait, isWaiting⟩ := waiting
      exact coherent.heldApart other (by simpa using new) thread otherWait isWaiting
  · exact coherent.apart
  · simp
  · intro other below
    rw [isFailed, ids]
    rcases coherent.covered other below with stored | failed | isHeld | waiting
    · exact Or.inl (by simp [stored])
    · exact Or.inr (Or.inl failed)
    · exact Or.inl (by simp [List.mem_singleton.mp isHeld])
    · exact Or.inr (Or.inr (Or.inr waiting))

/-- A fetch takes the oldest message of the ring. -/
theorem Coherent.take (coherent : Coherent [] world) (filled : ¬ world.queue.empty)
    (wait : Wait) : Coherent [] (world.take wait) := by
  have popped := coherent.ring.pop filled
  have isDelivered : delivered (world.take wait).history =
      delivered world.history ++
        [(world.queue.pop.1, world.content world.queue.pop.1)] := by
    simp [World.take, World.record, delivered]
  have isReturned : ∀ ok, returned ok (world.take wait).history = returned ok world.history := by
    intro ok
    simp [World.take, World.record, returned]
  have contents : ringContents world =
      (world.queue.pop.1, world.content world.queue.pop.1) :: ringContents (world.take wait) := by
    unfold ringContents
    rw [popped.2, List.map_cons]
    rfl
  constructor
  · exact popped.1
  · rw [isDelivered, List.append_assoc, List.singleton_append, ← contents]
    exact coherent.order
  · exact coherent.sent
  · rw [isReturned]
    exact coherent.succeeded
  · rw [isDelivered, List.map_append, ← coherent.freed]
    rfl
  · exact coherent.different
  · exact coherent.storedSent
  · intro buffer failed
    rw [isReturned] at failed
    exact coherent.failedSent buffer failed
  · intro buffer flight
    rw [isReturned]
    exact coherent.inFlight buffer flight
  · exact coherent.apart
  · simp
  · intro buffer below
    rw [isReturned]
    exact coherent.covered buffer below

/-- Only the waiting threads, and the buffers that are held, have changed. -/
theorem Coherent.rewait {held held' : List Nat} (coherent : Coherent held world)
    {activity : Thread → Activity} {fullWaiters emptyWaiters : UInt32}
    (flying : ∀ buffer, InFlight held'
        { world with
          queue := { world.queue with fullWaiters := fullWaiters, emptyWaiters := emptyWaiters }
          activity := activity } buffer ↔
      InFlight held world buffer)
    (apart : ∀ thread thread' buffer wait wait', activity thread = .posting buffer wait →
      activity thread' = .posting buffer wait' → thread = thread')
    (heldApart : ∀ buffer ∈ held', ∀ thread wait, activity thread ≠ .posting buffer wait) :
    Coherent held'
      { world with
        queue := { world.queue with fullWaiters := fullWaiters, emptyWaiters := emptyWaiters }
        activity := activity } := by
  constructor
  · exact ⟨coherent.ring.positive, coherent.ring.count,
      coherent.ring.outBelow, coherent.ring.inn⟩
  · exact coherent.order
  · exact coherent.sent
  · exact coherent.succeeded
  · exact coherent.freed
  · exact coherent.different
  · exact coherent.storedSent
  · exact coherent.failedSent
  · intro other flight
    exact coherent.inFlight other ((flying other).mp flight)
  · exact apart
  · exact heldApart
  · intro other below
    rcases coherent.covered other below with stored | failed | flight
    · exact Or.inl stored
    · exact Or.inr (Or.inl failed)
    · exact Or.inr (Or.inr ((flying other).mpr flight))

variable [DecidableEq Thread]

/-- A post waits with its buffer. -/
theorem Coherent.awaitRoom {buffer : Nat} {thread : Thread} (coherent : Coherent [buffer] world)
    (idle : world.activity thread = .idle) (wait : Wait) :
    Coherent [] (world.awaitRoom thread buffer wait) := by
  have flying : ∀ other, InFlight [] (world.awaitRoom thread buffer wait) other ↔
      InFlight [buffer] world other := by
    intro other
    constructor
    · rintro (isHeld | ⟨waiter, itsWait, waiting⟩)
      · simp at isHeld
      · by_cases isThread : waiter = thread
        · subst isThread
          have same : Activity.posting buffer wait = .posting other itsWait := by
            simpa [World.awaitRoom] using waiting
          injection same with isBuffer
          exact Or.inl (by simp [isBuffer])
        · exact Or.inr ⟨waiter, itsWait, by simpa [World.awaitRoom, isThread] using waiting⟩
    · rintro (isHeld | ⟨waiter, itsWait, waiting⟩)
      · rw [List.mem_singleton.mp isHeld]
        exact Or.inr ⟨thread, wait, by simp [World.awaitRoom]⟩
      · have different : waiter ≠ thread := by
          intro same
          rw [same, idle] at waiting
          exact absurd waiting (by simp)
        exact Or.inr ⟨waiter, itsWait, by simpa [World.awaitRoom, different] using waiting⟩
  refine coherent.rewait flying ?_ ?_
  · intro one two other wait' wait'' oneWaits twoWaits
    by_cases isOne : one = thread <;> by_cases isTwo : two = thread
    · rw [isOne, isTwo]
    · subst isOne
      have same : Activity.posting buffer wait = .posting other wait' := by
        simpa [World.awaitRoom] using oneWaits
      injection same with isBuffer
      have waits : world.activity two = .posting other wait'' := by
        simpa [World.awaitRoom, isTwo] using twoWaits
      exact absurd waits (coherent.heldApart other (by simp [isBuffer]) two wait'')
    · subst isTwo
      have same : Activity.posting buffer wait = .posting other wait'' := by
        simpa [World.awaitRoom] using twoWaits
      injection same with isBuffer
      have waits : world.activity one = .posting other wait' := by
        simpa [World.awaitRoom, isOne] using oneWaits
      exact absurd waits (coherent.heldApart other (by simp [isBuffer]) one wait')
    · exact coherent.apart one two other wait' wait''
        (by simpa [World.awaitRoom, isOne] using oneWaits)
        (by simpa [World.awaitRoom, isTwo] using twoWaits)
  · simp

/-- A waiting post takes its buffer back into its hands. -/
theorem Coherent.resumeRoom {buffer : Nat} {thread : Thread} {wait : Wait}
    (coherent : Coherent [] world) (waits : world.activity thread = .posting buffer wait) :
    Coherent [buffer] (world.resumeRoom thread) := by
  have flying : ∀ other, InFlight [buffer] (world.resumeRoom thread) other ↔
      InFlight [] world other := by
    intro other
    constructor
    · rintro (isHeld | ⟨waiter, itsWait, waiting⟩)
      · rw [List.mem_singleton.mp isHeld]
        exact Or.inr ⟨thread, wait, waits⟩
      · by_cases isThread : waiter = thread
        · simp [World.resumeRoom, isThread] at waiting
        · exact Or.inr ⟨waiter, itsWait, by simpa [World.resumeRoom, isThread] using waiting⟩
    · rintro (isHeld | ⟨waiter, itsWait, waiting⟩)
      · simp at isHeld
      · by_cases isThread : waiter = thread
        · rw [isThread, waits] at waiting
          injection waiting with isBuffer
          exact Or.inl (by simp [isBuffer])
        · exact Or.inr ⟨waiter, itsWait, by simpa [World.resumeRoom, isThread] using waiting⟩
  refine coherent.rewait flying ?_ ?_
  · intro one two other wait' wait'' oneWaits twoWaits
    by_cases isOne : one = thread
    · simp [isOne] at oneWaits
    · by_cases isTwo : two = thread
      · simp [isTwo] at twoWaits
      · exact coherent.apart one two other wait' wait''
          (by simpa [World.resumeRoom, isOne] using oneWaits)
          (by simpa [World.resumeRoom, isTwo] using twoWaits)
  · intro other isHeld waiter itsWait waiting
    by_cases isThread : waiter = thread
    · simp [isThread] at waiting
    · have itWaits : world.activity waiter = .posting buffer itsWait := by
        rw [← List.mem_singleton.mp isHeld]
        simpa [World.resumeRoom, isThread] using waiting
      exact isThread (coherent.apart waiter thread buffer itsWait wait itWaits waits)

/-- Changing the counter of waiting fetches and the activity of a thread that
holds no buffer. -/
theorem Coherent.fetchWaits (coherent : Coherent [] world) (thread : Thread)
    (activity : Activity) (waiters : UInt32)
    (before : ∀ buffer wait, world.activity thread ≠ .posting buffer wait)
    (after : ∀ buffer wait, activity ≠ .posting buffer wait) :
    Coherent []
      { world with
        queue := { world.queue with emptyWaiters := waiters }
        activity := Function.update world.activity thread activity } := by
  have posting : ∀ waiter buffer wait,
      Function.update world.activity thread activity waiter = .posting buffer wait ↔
        world.activity waiter = .posting buffer wait := by
    intro waiter buffer wait
    by_cases isThread : waiter = thread
    · subst isThread
      rw [Function.update_self]
      exact ⟨fun same => absurd same (after buffer wait),
        fun same => absurd same (before buffer wait)⟩
    · rw [Function.update_of_ne isThread]
  have flying : ∀ other, InFlight []
      { world with
        queue := { world.queue with emptyWaiters := waiters }
        activity := Function.update world.activity thread activity } other ↔
      InFlight [] world other := by
    intro other
    unfold InFlight
    simp only [posting]
  refine coherent.rewait flying ?_ ?_
  · intro one two other wait wait' oneWaits twoWaits
    exact coherent.apart one two other wait wait' ((posting _ _ _).mp oneWaits)
      ((posting _ _ _).mp twoWaits)
  · simp

end Parts

/-! ## Critical sections -/

section Steps

variable [DecidableEq Thread] {world next : World Thread Message}

theorem tklQueuePost_coherent (coherent : Coherent [] world) {thread : Thread}
    (idle : world.activity thread = .idle) (data : Message) (wait : Wait) :
    Coherent [] (tklQueuePost world thread data wait) := by
  have copied := coherent.copy data
  unfold tklQueuePost
  simp only
  by_cases isFull : (world.copy data).queue.full
  · rw [if_pos isFull]
    by_cases noWait : wait = .none
    · rw [if_pos noWait]
      exact copied.giveUp wait
    · rw [if_neg noWait]
      exact copied.awaitRoom idle wait
  · rw [if_neg isFull]
    exact copied.store isFull wait

theorem tklQueueFetch_coherent (coherent : Coherent [] world) {thread : Thread}
    (idle : world.activity thread = .idle) (wait : Wait) :
    Coherent [] (tklQueueFetch world thread wait) := by
  unfold tklQueueFetch
  by_cases isEmpty : world.queue.empty
  · rw [if_pos isEmpty]
    by_cases noWait : wait = .none
    · rw [if_pos noWait]
      exact coherent.record_quiet rfl (fun _ => rfl)
    · rw [if_neg noWait]
      exact coherent.fetchWaits thread (.fetching wait) (world.queue.emptyWaiters + 1)
        (by simp [idle]) (by simp)
  · rw [if_neg isEmpty]
    exact coherent.take isEmpty wait

theorem resumePost_coherent (coherent : Coherent [] world) {thread : Thread} {buffer : Nat}
    {wait : Wait} (waits : world.activity thread = .posting buffer wait) (reason : Wake) :
    Coherent [] (resumePost world thread buffer wait reason) := by
  have resumed := coherent.resumeRoom waits
  unfold resumePost
  simp only
  by_cases failed : reason.failed = true
  · rw [if_pos failed]
    exact resumed.giveUp wait
  · rw [if_neg failed]
    by_cases isFull : (world.resumeRoom thread).queue.full
    · rw [if_pos isFull]
      exact resumed.giveUp wait
    · rw [if_neg isFull]
      exact resumed.store isFull wait

theorem resumeFetch_coherent (coherent : Coherent [] world) {thread : Thread} {wait : Wait}
    (waits : world.activity thread = .fetching wait) (reason : Wake) :
    Coherent [] (resumeFetch world thread wait reason) := by
  have resumed : Coherent [] (world.resumeMessage thread) :=
    coherent.fetchWaits thread .idle (world.queue.emptyWaiters - 1) (by simp [waits]) (by simp)
  unfold resumeFetch
  simp only
  by_cases failed : reason.failed = true
  · rw [if_pos failed]
    exact resumed.record_quiet rfl (fun _ => rfl)
  · rw [if_neg failed]
    by_cases isEmpty : (world.resumeMessage thread).queue.empty
    · rw [if_pos isEmpty]
      exact resumed.record_quiet rfl (fun _ => rfl)
    · rw [if_neg isEmpty]
      exact resumed.take isEmpty wait

theorem step_coherent {action : Action Thread Message} (coherent : Coherent [] world)
    (stepped : step world action = some next) : Coherent [] next := by
  cases Turn.of_step stepped with
  | unsent idle refused => exact coherent.record_quiet rfl (fun ok => by cases ok <;> rfl)
  | post idle => exact tklQueuePost_coherent coherent idle _ _
  | fetch idle => exact tklQueueFetch_coherent coherent idle _
  | wakePost waits deadline => exact resumePost_coherent coherent waits _
  | wakeFetch waits deadline => exact resumeFetch_coherent coherent waits _

omit [DecidableEq Thread] in
theorem created_coherent {data : Nat → Nat} {content : Nat → Message} {msgcount : UInt32}
    (positive : 0 < msgcount.toNat) :
    Coherent [] (World.created data content msgcount : World Thread Message) := by
  constructor
  · exact ⟨positive, Nat.zero_le _, positive, (Nat.zero_mod _).symm⟩
  · rfl
  · simp [World.created]
  · rfl
  · rfl
  · simp [World.created]
  · simp [World.created]
  · simp [World.created, returned]
  · intro buffer flight
    obtain ⟨thread, wait, waiting⟩ := flight.waiting
    simp [World.created] at waiting
  · simp [World.created]
  · simp
  · simp [World.created]

theorem Coherent.of_run {data : Nat → Nat} {content : Nat → Message} {msgcount : UInt32}
    (positive : 0 < msgcount.toNat)
    {actions : List (Action Thread Message)}
    (ran : run step (World.created data content msgcount) actions = some next) :
    Coherent [] next :=
  run_invariant (fun _ _ _ coherent stepped => step_coherent coherent stepped)
    (created_coherent positive) ran

end Steps

/-- In every interleaving of posts, fetches and wake-ups, what the successful
fetches returned followed by what the ring holds is what the successful posts
stored, in that order and with the bytes that were posted; no message is
delivered twice; the ring stays within its bounds; and the message of a post
that returned failure is never delivered. -/
theorem delivery_exactly_once_in_order {Thread Message : Type} [DecidableEq Thread]
    {data : Nat → Nat} {content : Nat → Message} {msgcount : UInt32}
    (positive : 0 < msgcount.toNat)
    {actions : List (Action Thread Message)} {final : World Thread Message}
    (ran : run step (World.created data content msgcount) actions = some final) :
    delivered final.history ++ ringContents final = final.stored ∧
      final.stored.map Prod.fst = returned true final.history ∧
      (∀ entry ∈ final.stored, final.sent[entry.1]? = some entry.2) ∧
      ((delivered final.history).map Prod.fst).Nodup ∧
      final.queue.nelts.toNat ≤ final.queue.bounds.toNat ∧
      final.queue.inn.toNat < final.queue.bounds.toNat ∧
      final.queue.out.toNat < final.queue.bounds.toNat ∧
      final.queue.inn.toNat =
        (final.queue.out.toNat + final.queue.nelts.toNat) % final.queue.bounds.toNat ∧
      ∀ buffer ∈ returned false final.history,
        buffer ∉ (delivered final.history).map Prod.fst := by
  have coherent := Coherent.of_run positive ran
  have isPrefix : ∀ buffer, buffer ∈ (delivered final.history).map Prod.fst →
      buffer ∈ final.stored.map Prod.fst := by
    intro buffer member
    rw [← coherent.order, List.map_append]
    exact List.mem_append_left _ member
  refine ⟨coherent.order, coherent.succeeded.symm, ?_, ?_, coherent.ring.count,
    coherent.ring.inBelow, coherent.ring.outBelow, coherent.ring.inn, ?_⟩
  · intro entry member
    have facts := coherent.storedSent entry member
    rw [coherent.sent entry.1 facts.1, facts.2]
  · have different := coherent.different
    rw [← coherent.order, List.map_append] at different
    exact (List.nodup_append.mp different).1
  · intro buffer failed isDelivered
    exact (coherent.failedSent buffer failed).2 (isPrefix buffer isDelivered)

/-- A fetch that waits before the first post, a post that succeeds after it was
served, and a post refused by the full ring. -/
def blockedFetch : List (Action Bool Nat) :=
  [.fetch true 0xFFFFFFFF, .post false (some 7) 0 true, .wake true .signalled,
    .post false (some 8) 5 true, .post true (some 9) 0 true]

theorem delivery_to_blockedFetch :
    ∃ final, run step (World.created (fun _ => 0) (fun _ => 0) 1) blockedFetch = some final ∧
      delivered final.history ++ ringContents final = final.stored ∧
      delivered final.history = [(0, 7)] ∧ final.stored = [(0, 7), (1, 8)] ∧
      returned false final.history = [2] := by
  obtain ⟨final, ran⟩ := Option.isSome_iff_exists.mp
    (show (run step (World.created (fun _ => 0) (fun _ => 0) 1) blockedFetch).isSome by decide)
  have observed :
      (run step (World.created (fun _ => 0) (fun _ => 0) 1) blockedFetch).map
        (fun world => (delivered world.history, world.stored, returned false world.history)) =
      some ([(0, 7)], [(0, 7), (1, 8)], [2]) := by
    decide
  rw [ran, Option.map_some, Option.some.injEq, Prod.mk.injEq, Prod.mk.injEq] at observed
  exact ⟨final, ran, (delivery_exactly_once_in_order (by decide) ran).1, observed⟩

end TuyaAdapter.TklQueue
