import TuyaAdapter.Foundation.Ledger
import TuyaAdapter.OperateRet

/-!
Contract: `tkl_camera_v4l2.c` over a driver that may refuse any request.

Regions are accounted for in a ledger: `mmap` obtains one with its length,
`munmap` gives it back with a length. A pointer to a region is its name; the
kernel never places a mapping at `NULL`. What the driver answers to the
requests of one call is part of the call. Format and frame rate are set once
by open and read by no other call.
-/

namespace TuyaAdapter.TklCamera

open Foundation

/-! ## Context -/

/-- `v4l2_buf_t`; `start` is missing when it is `NULL`. -/
structure V4l2Buf where
  start : Option Nat
  length : Nat
deriving DecidableEq, Repr

/-- An entry of the array that `calloc` cleared. -/
def V4l2Buf.zeroed : V4l2Buf := ⟨none, 0⟩

/-- `tkl_v4l2_ctx_t`; `buffers` is missing when it is `NULL`. -/
structure V4l2Ctx where
  fd : Int
  streaming : Bool
  bufferCount : UInt32
  buffers : Option (List V4l2Buf)
  buffersNum : Nat
deriving DecidableEq, Repr

/-- A camera: its context and the regions that were mapped for it. -/
structure Camera where
  ctx : V4l2Ctx
  regions : Ledger Nat
deriving DecidableEq, Repr

/-! ## Open -/

/-- What the system answers to `tkl_camera_v4l2_open`. -/
structure OpenAnswers where
  calloc : Bool
  /-- The descriptor `open` returns, negative for an error. -/
  fd : Int
  querycap : Bool
  videoCapture : Bool
  streaming : Bool
  setFormat : Bool
deriving DecidableEq, Repr

/-- `tkl_camera_v4l2_open` of a device node that is not `NULL`; `knownFormat`
says that the pixel format is one of the two of the interface. -/
def tklCameraV4l2Open (answers : OpenAnswers) (bufferCount : UInt32) (knownFormat : Bool) :
    Option Camera × OperateRet :=
  if answers.calloc = false then (none, .mallocFailed)
  else if knownFormat = false then (none, .invalidParm)
  else if answers.fd < 0 then (none, .comError)
  else if answers.querycap = false then (none, .comError)
  else if answers.videoCapture = false then (none, .notSupported)
  else if answers.streaming = false then (none, .notSupported)
  else if answers.setFormat = false then (none, .comError)
  else
    let bufferCount := if bufferCount = 0 then 4 else bufferCount
    (some ⟨⟨answers.fd, false, bufferCount, none, 0⟩, .fresh⟩, .ok)

/-! ## Stop -/

/-- What `munmap` is called with for an entry of the array. -/
def V4l2Buf.region (buf : V4l2Buf) : Option (Nat × Nat) :=
  match buf.start with
  | none => none
  | some start => if buf.length = 0 then none else some (start, buf.length)

/-- `tkl_camera_v4l2_stop`. The result of `VIDIOC_STREAMOFF` is not looked at. -/
def tklCameraV4l2Stop (camera : Camera) : Camera × OperateRet :=
  if camera.ctx.fd < 0 then (camera, .invalidParm)
  else
    let ctx := { camera.ctx with streaming := false }
    match ctx.buffers with
    | none => ({ camera with ctx := ctx }, .ok)
    | some buffers =>
        (⟨{ ctx with buffers := none, buffersNum := 0 },
          camera.regions.giveBackAll ((buffers.take ctx.buffersNum).filterMap V4l2Buf.region)⟩, .ok)

/-! ## Start -/

/-- What the driver answers for one buffer. -/
structure BufferAnswers where
  /-- The length `VIDIOC_QUERYBUF` reports, missing when it fails. -/
  querybuf : Option UInt32
  mmap : Bool
  qbuf : Bool
deriving DecidableEq, Repr

/-- What the driver answers to the requests of `tkl_camera_v4l2_start`. -/
structure StartAnswers where
  /-- The count `VIDIOC_REQBUFS` grants, missing when it fails. -/
  reqbufs : Option UInt32
  calloc : Bool
  buffer : Nat → BufferAnswers
  streamon : Bool

/-- The array, the regions, and whether the loop has gone on. -/
structure Mapping where
  buffers : List V4l2Buf
  regions : Ledger Nat
  going : Bool
deriving DecidableEq, Repr

/-- The body of the loop for one buffer. `mmap` of length zero fails. -/
def mapBuffer (answers : BufferAnswers) (index : Nat) (mapping : Mapping) : Mapping :=
  match answers.querybuf with
  | none => { mapping with going := false }
  | some length =>
      if length = 0 ∨ answers.mmap = false then
        ⟨mapping.buffers.set index ⟨none, length.toNat⟩, mapping.regions, false⟩
      else
        ⟨mapping.buffers.set index ⟨some mapping.regions.nextName, length.toNat⟩,
          mapping.regions.obtain length.toNat, answers.qbuf⟩

/-- The loop over the buffers from an index on, left at the first failure. -/
def mapBuffers (answers : Nat → BufferAnswers) : Nat → Nat → Mapping → Mapping
  | 0, _, mapping => mapping
  | left + 1, index, mapping =>
      let mapped := mapBuffer (answers index) index mapping
      if mapped.going then mapBuffers answers left (index + 1) mapped else mapped

/-- `tkl_camera_v4l2_start`. -/
def tklCameraV4l2Start (answers : StartAnswers) (camera : Camera) : Camera × OperateRet :=
  if camera.ctx.fd < 0 then (camera, .invalidParm)
  else if camera.ctx.streaming then (camera, .ok)
  else
    match answers.reqbufs with
    | none => (camera, .comError)
    | some count =>
        if count < 2 then (camera, .comError)
        else if answers.calloc = false then
          ({ camera with ctx := { camera.ctx with buffers := none } }, .mallocFailed)
        else
          let mapped := mapBuffers answers.buffer count.toNat 0
            ⟨List.replicate count.toNat .zeroed, camera.regions, true⟩
          let camera : Camera :=
            ⟨{ camera.ctx with buffers := some mapped.buffers, buffersNum := count.toNat },
              mapped.regions⟩
          if mapped.going = false then ((tklCameraV4l2Stop camera).1, .comError)
          else if answers.streamon = false then ((tklCameraV4l2Stop camera).1, .comError)
          else ({ camera with ctx := { camera.ctx with streaming := true } }, .ok)

/-! ## Frames -/

/-- A turn of the loop of `tkl_camera_v4l2_dequeue`. -/
inductive Attempt where
  /-- `select` was interrupted. -/
  | interrupted
  | selectError
  | timeout
  /-- `VIDIOC_DQBUF` says `EAGAIN`. -/
  | again
  | dqbufError
  | filled (index : UInt32) (bytesused : UInt32)
deriving DecidableEq, Repr

/-- What a successful dequeue gives to its caller. -/
structure Frame where
  data : Option Nat
  len : UInt32
  index : UInt32
deriving DecidableEq, Repr

/-- The loop of `tkl_camera_v4l2_dequeue`; no result while it still waits. -/
def dequeueLoop (ctx : V4l2Ctx) : List Attempt → Option (OperateRet × Option Frame)
  | [] => none
  | .interrupted :: rest => dequeueLoop ctx rest
  | .again :: rest => dequeueLoop ctx rest
  | .selectError :: _ => some (.comError, none)
  | .timeout :: _ => some (.timeout, none)
  | .dqbufError :: _ => some (.comError, none)
  | .filled index bytesused :: _ =>
      if ctx.buffersNum ≤ index.toNat then some (.comError, none)
      else
        let buf := (ctx.buffers.getD []).getD index.toNat .zeroed
        some (.ok, some ⟨buf.start, bytesused, index⟩)

/-- `tkl_camera_v4l2_dequeue` with places for its results. -/
def tklCameraV4l2Dequeue (camera : Camera) (attempts : List Attempt) :
    Option (OperateRet × Option Frame) :=
  if camera.ctx.streaming = false then some (.invalidParm, none)
  else dequeueLoop camera.ctx attempts

/-- `tkl_camera_v4l2_queue`; `qbuf` says that `VIDIOC_QBUF` succeeds. -/
def tklCameraV4l2Queue (camera : Camera) (index : UInt32) (qbuf : Bool) : OperateRet :=
  if camera.ctx.buffersNum ≤ index.toNat then .invalidParm
  else if qbuf = false then .comError
  else .ok

/-! ## Calls -/

/-- `tkl_camera_v4l2_close`: what is left of the regions when the context is
freed, and the array it still had. -/
def tklCameraV4l2Close (camera : Camera) : Ledger Nat × Option (List V4l2Buf) :=
  let stopped := (tklCameraV4l2Stop camera).1
  (stopped.regions, stopped.ctx.buffers)

inductive Call where
  | start (answers : StartAnswers)
  | stop
  | dequeue (attempts : List Attempt)
  | queue (index : UInt32) (qbuf : Bool)

/-- What a call returned, when it did. -/
inductive Reply where
  | started (result : OperateRet)
  | stopped (result : OperateRet)
  | dequeued (result : OperateRet) (frame : Option Frame)
  | queued (result : OperateRet)
  /-- Dequeue is still waiting for a frame. -/
  | waiting
deriving DecidableEq, Repr

def perform (camera : Camera) : Call → Camera × Reply
  | .start answers =>
      let started := tklCameraV4l2Start answers camera
      (started.1, .started started.2)
  | .stop =>
      let stopped := tklCameraV4l2Stop camera
      (stopped.1, .stopped stopped.2)
  | .dequeue attempts =>
      match tklCameraV4l2Dequeue camera attempts with
      | none => (camera, .waiting)
      | some result => (camera, .dequeued result.1 result.2)
  | .queue index qbuf => (camera, .queued (tklCameraV4l2Queue camera index qbuf))

end TuyaAdapter.TklCamera
