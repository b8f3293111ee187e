import Mathlib.Logic.Function.Basic
import TuyaAdapter.Foundation.Ledger
import TuyaAdapter.TuyaRingbuf.Model

/-!
Contract: keyword spotting, `tkl_kws.c`, with the thread handles of
`tkl_thread.c`.

Ring buffers, thread handles and instances of the module are named by the order
in which they were created, with an account for each kind. The module is a
library that says which of its calls succeed. `tkl_kws_init` and
`tkl_kws_deinit` are single steps; a task is at one of the places where it reads
the context, and anything may happen between two of its steps. Releasing a
thread handle frees it and leaves the thread running.
-/

namespace TuyaAdapter.TklKws

open Foundation TuyaRingbuf

/-! ## State -/

/-- `KWS_RING_BUFF_LEN`. -/
def kwsRingBuffLen : UInt32 := 640 * (2000 / 20)

/-- `MODEL_CHUNK_SIZE`. -/
def modelChunkSize : UInt32 := 300 / 20 * 640

/-- Where `__tkl_kws_task` is in its loop. -/
inductive Place where
  /-- Before `tuya_ring_buff_used_size_get`. -/
  | check
  /-- Before `tuya_ring_buff_read`. -/
  | read
  /-- Before `module->process`. -/
  | process
deriving DecidableEq, Repr

/-- A running `__tkl_kws_task`; `micData` says that its buffer is allocated. -/
structure Task where
  place : Place
  micData : Bool
deriving DecidableEq, Repr

/-- `g_kws_ctx`, with the `self` of the module, and what surrounds it. Pointers
are missing when they are `NULL`; `module` says that the pointer to the one
module there is was set. -/
structure Kws where
  module : Bool
  self : Option Nat
  kwsThread : Option Nat
  micRingbuf : Option Nat
  rings : Ledger Unit
  threads : Ledger Unit
  instances : Ledger Unit
  buffers : Nat → Ringbuff
  tasks : List Task

def Kws.fresh : Kws where
  module := false
  self := none
  kwsThread := none
  micRingbuf := none
  rings := .fresh
  threads := .fresh
  instances := .fresh
  buffers := fun _ => ⟨0, 0, 0, fun _ => 0⟩
  tasks := []

/-! ## Releasing -/

/-- What is passed to a function that frees. -/
inductive Handle where
  | ring (name : Nat)
  | thread (name : Nat)
deriving DecidableEq, Repr

/-- `tuya_ring_buff_free`: the memory behind the pointer is freed, whatever it
is. -/
def tuyaRingBuffFree (kws : Kws) : Handle → Kws
  | .ring name => { kws with rings := kws.rings.giveBack name () }
  | .thread name =>
      { kws with rings := kws.rings.misuse, threads := kws.threads.giveBack name () }

def tklThreadRelease (kws : Kws) : Option Nat → Kws × OperateRet
  | none => (kws, .invalidParm)
  | some name => ({ kws with threads := kws.threads.giveBack name () }, .ok)

/-- `module->destroy`. -/
def destroy (kws : Kws) : Option Nat → Kws
  | none => { kws with instances := kws.instances.misuse }
  | some name => { kws with instances := kws.instances.giveBack name () }

def tklKwsDeinit (kws : Kws) : Kws × OperateRet :=
  if kws.module = false then (kws, .ok)
  else
    let freed :=
      match kws.kwsThread with
      | none => kws
      | some name => tuyaRingBuffFree kws (.thread name)
    let released := (tklThreadRelease freed freed.kwsThread).1
    let destroyed := destroy released released.self
    ({ destroyed with module := false }, .ok)

/-! ## Creating -/

/-- What `module->create` does; a creation that fails may leave anything in
`self`. -/
inductive Creation where
  | succeeds
  | fails (self : Option Nat)
deriving DecidableEq, Repr

/-- What the calls of `tkl_kws_init` answer; `memory` is what the bytes allocated
for the ring buffer hold, missing when there are none. -/
structure InitAnswers where
  memory : Option (Nat → UInt8)
  creation : Creation
  callbackSet : Bool
  threadCreated : Bool

/-- The ring buffer is in the context, and the pointer to the module set. -/
def withRing (kws : Kws) (rbuff : Ringbuff) : Kws :=
  { kws with
    rings := kws.rings.obtain ()
    buffers := Function.update kws.buffers kws.rings.nextName rbuff
    micRingbuf := some kws.rings.nextName
    module := true }

/-- `module->create` succeeds. -/
def withInstance (kws : Kws) : Kws :=
  { kws with self := some kws.instances.nextName, instances := kws.instances.obtain () }

/-- `tkl_thread_create` succeeds. -/
def withThread (kws : Kws) : Kws :=
  { kws with
    kwsThread := some kws.threads.nextName
    threads := kws.threads.obtain ()
    tasks := kws.tasks ++ [⟨.check, false⟩] }

/-- The result of `tkl_thread_create` is not checked. -/
def tklKwsInit (kws : Kws) (answers : InitAnswers) : Kws × OperateRet :=
  match tuyaRingBuffCreate kwsRingBuffLen .overflowStop answers.memory with
  | (none, ret) => (kws, ret)
  | (some rbuff, ret) =>
      let started := withRing kws rbuff
      match answers.creation with
      | .fails self => ({ started with self := self }, .comError)
      | .succeeds =>
          let created := withInstance started
          if answers.callbackSet = false then ((tklKwsDeinit created).1, .comError)
          else if answers.threadCreated = false then (created, ret)
          else (withThread created, ret)

/-! ## Using -/

/-- The ring buffer functions look at the ring buffer when there is one. -/
def useRing (kws : Kws) : Kws :=
  match kws.micRingbuf with
  | none => kws
  | some name => { kws with rings := kws.rings.use name }

/-- `module->process` on `module->self`, both read from the context. -/
def useModule (kws : Kws) : Kws :=
  match kws.module, kws.self with
  | true, some name => { kws with instances := kws.instances.use name }
  | _, _ => { kws with instances := kws.instances.misuse }

/-- `tuya_ring_buff_used_size_get`; with `wrapping` there is always a value. -/
def usedSize (kws : Kws) : UInt32 :=
  match kws.micRingbuf with
  | none => 0
  | some name => (tuyaRingBuffUsedSizeGet wrapping (kws.buffers name)).getD 0

/-- `tuya_ring_buff_read` of a chunk. -/
def readChunk (kws : Kws) : Kws :=
  match kws.micRingbuf with
  | none => kws
  | some name =>
      match tuyaRingBuffRead wrapping (kws.buffers name) true modelChunkSize with
      | none => kws
      | some (rbuff, _) => { kws with buffers := Function.update kws.buffers name rbuff }

/-- `__tkl_kws_process`. -/
def tklKwsProcess (kws : Kws) (micData : Option (Nat → UInt8)) (frames : UInt32) : Kws :=
  match kws.module, kws.micRingbuf with
  | true, some name =>
      let looked := useRing kws
      let rbFree := (tuyaRingBuffFreeSizeGet wrapping (kws.buffers name)).getD 0
      if rbFree < frames * 2 then looked
      else
        match tuyaRingBuffWrite wrapping (kws.buffers name) micData (frames * 2) with
        | none => looked
        | some (rbuff, _) =>
            { useRing looked with buffers := Function.update kws.buffers name rbuff }
  | _, _ => kws

def setTask (kws : Kws) (index : Nat) (task : Task) : Kws :=
  { kws with tasks := kws.tasks.set index task }

/-- One step of a task. It goes on from `check` when a chunk is there and its
buffer is, or can be, allocated. -/
def tklKwsTask (kws : Kws) (index : Nat) (allocates : Bool) : Kws :=
  match kws.tasks[index]? with
  | none => kws
  | some task =>
      match task.place with
      | .check =>
          let looked := useRing kws
          if usedSize kws < modelChunkSize then looked
          else if task.micData = false ∧ allocates = false then looked
          else setTask looked index ⟨.read, true⟩
      | .read => setTask (readChunk (useRing kws)) index ⟨.process, task.micData⟩
      | .process => setTask (useModule kws) index ⟨.check, task.micData⟩

end TuyaAdapter.TklKws
