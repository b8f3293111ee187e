import Mathlib.Data.List.Nodup
import TuyaAdapter.TklQueue.Delivery

/-!
Contract: what a queue has allocated and what is left of it.

Six objects are allocated by `tkl_queue_create_init`, one buffer by every post
that gets as far as its copy. `tkl_queue_free` destroys the synchronisation
objects without releasing their memory and frees the handle alone. A buffer
whose post failed is in no slot and is never freed.
-/

namespace TuyaAdapter.TklQueue

open Foundation Foundation.RingWindow Foundation.Run

variable {Thread Message : Type}

/-- What `malloc` was called for on behalf of one queue. -/
inductive Object where
  | handle
  | rpaQueue
  | oneBigMutex
  | notEmpty
  | notFull
  | data
  | buffer (name : Nat)
deriving DecidableEq, Repr

/-- The `malloc` calls of a `tkl_queue_create_init` that succeeds, in order. -/
def tklQueueCreateInit : List Object :=
  [.handle, .rpaQueue, .oneBigMutex, .notEmpty, .notFull, .data]

/-- The objects that are allocated and not freed. -/
def World.live (world : World Thread Message) : List Object :=
  tklQueueCreateInit ++
    ((List.range world.sent.length).filter (· ∉ world.freed)).map .buffer

/-- `rpa_queue_destroy` calls `pthread_cond_destroy` and
`pthread_mutex_destroy`, which release no memory. -/
def rpaQueueDestroy (live : List Object) : List Object := live

/-- `tkl_queue_free`. -/
def tklQueueFree (live : List Object) : List Object :=
  (rpaQueueDestroy live).erase .handle

/-- The buffer of every post that returned is in one occupied slot of the ring
or was freed once, and not both. -/
def BuffersOwned (world : World Thread Message) : Prop :=
  ∀ buffer, buffer < world.sent.length → ¬ InFlight [] world buffer →
    ((ringBuffers world.queue).count buffer = 1 ∧ buffer ∉ world.freed) ∨
      (buffer ∉ ringBuffers world.queue ∧ world.freed.count buffer = 1)

/-- A queue that is freed in this state has owned everything exactly once. -/
def OwnedOnce (world : World Thread Message) : Prop :=
  BuffersOwned world ∧ ∀ object, object ∉ tklQueueFree world.live

/-! ## Live objects -/

theorem mem_live {world : World Thread Message} {buffer : Nat} :
    Object.buffer buffer ∈ world.live ↔ buffer < world.sent.length ∧ buffer ∉ world.freed := by
  simp [World.live, tklQueueCreateInit]

/-- The five objects of the queue besides its handle outlive it. -/
theorem leaked_by_free (world : World Thread Message) :
    [.rpaQueue, .oneBigMutex, .notEmpty, .notFull, .data] ⊆ tklQueueFree world.live := by
  intro object member
  apply (List.mem_erase_of_ne ?_).mpr
  · exact List.mem_append_left _ (List.mem_cons_of_mem _ member)
  · intro isHandle
    rw [isHandle] at member
    exact absurd member (by decide)

theorem handle_released (world : World Thread Message) :
    Object.handle ∉ tklQueueFree world.live := by
  simp [tklQueueFree, rpaQueueDestroy, World.live, tklQueueCreateInit]

theorem buffer_mem_free {world : World Thread Message} {buffer : Nat} :
    Object.buffer buffer ∈ tklQueueFree world.live ↔
      buffer < world.sent.length ∧ buffer ∉ world.freed := by
  rw [← mem_live]
  exact List.mem_erase_of_ne (by simp)

/-! ## Buffers -/

section Coherence

variable {world : World Thread Message} (coherent : Coherent [] world)
include coherent

/-- The buffers that left through a fetch, then those in the ring. -/
theorem Coherent.freed_append_ring :
    world.freed ++ ringBuffers world.queue = world.stored.map Prod.fst := by
  rw [coherent.freed, ← coherent.order, List.map_append, ringContents, List.map_map]
  congr 1
  exact (List.map_id _).symm

theorem Coherent.freed_nodup : (world.freed ++ ringBuffers world.queue).Nodup := by
  rw [coherent.freed_append_ring]
  exact coherent.different

/-- A stored buffer is in the ring or freed, once. -/
theorem Coherent.stored_owned {buffer : Nat} (isStored : buffer ∈ world.stored.map Prod.fst) :
    ((ringBuffers world.queue).count buffer = 1 ∧ buffer ∉ world.freed) ∨
      (buffer ∉ ringBuffers world.queue ∧ world.freed.count buffer = 1) := by
  obtain ⟨freedOnce, ringOnce, apart⟩ := List.nodup_append.mp coherent.freed_nodup
  rw [← coherent.freed_append_ring] at isStored
  rcases List.mem_append.mp isStored with isFreed | inRing
  · right
    exact ⟨fun inRing => apart buffer isFreed buffer inRing rfl,
      List.count_eq_one_of_mem freedOnce isFreed⟩
  · left
    exact ⟨List.count_eq_one_of_mem ringOnce inRing,
      fun isFreed => apart buffer isFreed buffer inRing rfl⟩

/-- A buffer that was never stored is neither in the ring nor freed. -/
theorem Coherent.unstored_nowhere {buffer : Nat}
    (unstored : buffer ∉ world.stored.map Prod.fst) :
    buffer ∉ ringBuffers world.queue ∧ buffer ∉ world.freed := by
  rw [← coherent.freed_append_ring, List.mem_append, not_or] at unstored
  exact ⟨unstored.2, unstored.1⟩

theorem Coherent.buffersOwned_iff :
    BuffersOwned world ↔ returned false world.history = [] := by
  constructor
  · intro owned
    by_contra someFailed
    obtain ⟨buffer, failed⟩ := List.exists_mem_of_ne_nil _ someFailed
    obtain ⟨below, unstored⟩ := coherent.failedSent buffer failed
    have landed : ¬ InFlight [] world buffer :=
      fun flight => (coherent.inFlight buffer flight).2.2 failed
    have nowhere := coherent.unstored_nowhere unstored
    rcases owned buffer below landed with ⟨inRing, -⟩ | ⟨-, isFreed⟩
    · rw [List.count_eq_zero_of_not_mem nowhere.1] at inRing
      exact absurd inRing (by decide)
    · rw [List.count_eq_zero_of_not_mem nowhere.2] at isFreed
      exact absurd isFreed (by decide)
  · intro noneFailed buffer below landed
    rcases coherent.covered buffer below with isStored | failed | flight
    · exact coherent.stored_owned isStored
    · rw [noneFailed] at failed
      exact absurd failed (List.not_mem_nil)
    · exact absurd flight landed

/-- The buffers that are live: those in the ring, those of failed posts and
those of posts that are still waiting. -/
theorem Coherent.live_buffer_iff (buffer : Nat) :
    (buffer < world.sent.length ∧ buffer ∉ world.freed) ↔
      buffer ∈ ringBuffers world.queue ∨ buffer ∈ returned false world.history ∨
        InFlight [] world buffer := by
  have storedBelow : ∀ buffer ∈ world.stored.map Prod.fst, buffer < world.sent.length := by
    intro buffer isStored
    obtain ⟨entry, member, isEntry⟩ := List.mem_map.mp isStored
    rw [← isEntry]
    exact (coherent.storedSent entry member).1
  constructor
  · rintro ⟨below, unfreed⟩
    rcases coherent.covered buffer below with isStored | failed | flight
    · rw [← coherent.freed_append_ring] at isStored
      exact Or.inl ((List.mem_append.mp isStored).resolve_left unfreed)
    · exact Or.inr (Or.inl failed)
    · exact Or.inr (Or.inr flight)
  · rintro (inRing | failed | flight)
    · have isStored : buffer ∈ world.stored.map Prod.fst := by
        rw [← coherent.freed_append_ring]
        exact List.mem_append_right _ inRing
      refine ⟨storedBelow buffer isStored, fun isFreed => ?_⟩
      exact (List.nodup_append.mp coherent.freed_nodup).2.2 buffer isFreed buffer inRing rfl
    · obtain ⟨below, unstored⟩ := coherent.failedSent buffer failed
      exact ⟨below, (coherent.unstored_nowhere unstored).2⟩
    · obtain ⟨below, unstored, -⟩ := coherent.inFlight buffer flight
      exact ⟨below, (coherent.unstored_nowhere unstored).2⟩

end Coherence

/-- No queue ever owns everything exactly once: when it is freed, all its
objects but the handle stay allocated, with every buffer that is in the ring,
belongs to a failed post or to a post that still waits. Short of that, the
buffers are owned once exactly as long as no post has failed after its copy was
made. -/
theorem queue_never_ownedOnce {Thread Message : Type} [DecidableEq Thread]
    {data : Nat → Nat} {content : Nat → Message} {msgcount : UInt32}
    (positive : 0 < msgcount.toNat) {actions : List (Action Thread Message)}
    {final : World Thread Message}
    (ran : run step (World.created data content msgcount) actions = some final) :
    ¬ OwnedOnce final ∧
      (BuffersOwned final ↔ returned false final.history = []) ∧
      ∀ object, object ∈ tklQueueFree final.live ↔
        object ∈ [.rpaQueue, .oneBigMutex, .notEmpty, .notFull, .data] ∨
          ∃ buffer, object = .buffer buffer ∧
            (buffer ∈ ringBuffers final.queue ∨ buffer ∈ returned false final.history ∨
              InFlight [] final buffer) := by
  have coherent := Coherent.of_run positive ran
  refine ⟨?_, coherent.buffersOwned_iff, ?_⟩
  · intro owned
    exact owned.2 .rpaQueue (leaked_by_free final (by decide))
  · intro object
    cases object with
    | handle => simp [handle_released]
    | buffer name =>
        rw [buffer_mem_free, coherent.live_buffer_iff]
        simp
    | _ => exact ⟨fun _ => Or.inl (by decide), fun _ => leaked_by_free final (by decide)⟩

/-- A ring of one slot: the second post is refused, the first is fetched. -/
def refusedPost : List (Action Unit Nat) :=
  [.post () (some 7) 0 true, .post () (some 8) 0 true, .fetch () 0]

theorem queue_leaks_after_refusedPost :
    ∃ final, run step (World.created (fun _ => 0) (fun _ => 0) 1) refusedPost = some final ∧
      ¬ OwnedOnce final ∧ ¬ BuffersOwned final ∧
      tklQueueFree final.live =
        [.rpaQueue, .oneBigMutex, .notEmpty, .notFull, .data, .buffer 1] := by
  obtain ⟨final, ran⟩ := Option.isSome_iff_exists.mp
    (show (run step (World.created (fun _ => 0) (fun _ => 0) 1) refusedPost).isSome by decide)
  have observed :
      (run step (World.created (fun _ => 0) (fun _ => 0) 1) refusedPost).map
        (fun world => (returned false world.history, tklQueueFree world.live)) =
      some ([1], [.rpaQueue, .oneBigMutex, .notEmpty, .notFull, .data, .buffer 1]) := by
    decide
  rw [ran, Option.map_some, Option.some.injEq, Prod.mk.injEq] at observed
  have unowned : ¬ BuffersOwned final := by
    rw [(Coherent.of_run (by decide) ran).buffersOwned_iff, observed.1]
    decide
  exact ⟨final, ran, fun owned => unowned owned.1, unowned, observed.2⟩

/-- A queue that was never used leaves five objects behind. -/
theorem queue_never_ownedOnce_unused :
    ¬ OwnedOnce (World.created (fun _ => 0) (fun _ => 0) 1 : World Unit Nat) :=
  (queue_never_ownedOnce (by decide)
    (show run step (World.created (fun _ => 0) (fun _ => 0) 1) [] = some _ from rfl)).1

end TuyaAdapter.TklQueue
