import Mathlib.Data.List.Basic
import Mathlib.Logic.Function.Basic
import TuyaAdapter.OperateRet

/-!
Contract: the master transfers of `tkl_i2c.c` and what they put on the bus.

Every call holds `sg_i2c_lock` and is one step on one port. The answers of the
kernel are part of a call: whether the slave address was set, and how many
bytes `write` or `read` moved. The history of a port records the pending writes
that were accepted, the transactions on the bus and what each successful call
moved; no step reads it.
-/

namespace TuyaAdapter.TklI2c

/-! ## Port state -/

/-- A transaction on the bus. -/
inductive Transaction where
  | probe (addr : UInt16)
  | write (addr : UInt16) (bytes : List UInt8)
  | read (addr : UInt16) (count : Nat)
  /-- A write and a read joined by a repeated start. -/
  | writeRead (addr : UInt16) (bytes : List UInt8) (count : Nat)
deriving DecidableEq, Repr

inductive Event where
  /-- A pending write was accepted: what the caller asked to be written. -/
  | queued (addr : UInt16) (bytes : List UInt8)
  | bus (transaction : Transaction)
  /-- A call returned `OPRT_OK`: what `tkl_i2c_get_data_count` says and how many
  bytes of its own the call moved or queued. -/
  | returned (count : Int) (moved : Nat)
deriving DecidableEq, Repr

/-- `tkl_i2c_ctx_t`. `pendingBuf` is the part of the buffer that is in use. -/
structure I2cCtx where
  initialized : Bool
  pendingValid : Bool
  pendingAddr : UInt16
  pendingBuf : List UInt8
  lastCount : UInt32
deriving DecidableEq, Repr

structure Port where
  ctx : I2cCtx
  history : List Event
deriving DecidableEq, Repr

/-- `sizeof(ctx->pending_buf)`. -/
def pendingCapacity : UInt32 := 32

/-- What the kernel answers to the system calls of a call: whether the address
is set, and the number of bytes moved, missing for an error. -/
structure Kernel where
  slave : Bool
  moved : Option UInt32
deriving DecidableEq, Repr

/-- The first bytes at a pointer. -/
def bytesAt (data : Nat → UInt8) (size : UInt32) : List UInt8 :=
  (List.range size.toNat).map data

/-- `tkl_i2c_get_data_count` of a valid port: the counter as `int32_t`. -/
def tklI2cGetDataCount (ctx : I2cCtx) : Int := ctx.lastCount.toBitVec.toInt

def Port.record (port : Port) (events : List Event) : Port :=
  { port with history := port.history ++ events }

/-- A call returns `OPRT_OK` after it moved bytes. -/
def Port.finish (port : Port) (events : List Event) (moved : Nat) : Port :=
  port.record (events ++ [.returned (tklI2cGetDataCount port.ctx) moved])

def Port.setLastCount (port : Port) (lastCount : UInt32) : Port :=
  { port with ctx := { port.ctx with lastCount := lastCount } }

/-! ## Calls -/

/-- The address probe of a send without data. -/
def prvProbeAddr (port : Port) (kernel : Kernel) (devAddr : UInt16) : Port × OperateRet :=
  if kernel.slave then
    match kernel.moved with
    | none => (port, .comError)
    | some _ => (port.finish [.bus (.probe devAddr)] 0, .ok)
  else (port, .comError)

/-- `tkl_i2c_master_send` on a valid port. -/
def tklI2cMasterSend (port : Port) (kernel : Kernel) (devAddr : UInt16)
    (data : Option (Nat → UInt8)) (size : UInt32) (xferPending : Bool) : Port × OperateRet :=
  if port.ctx.initialized then
    let port := port.setLastCount 0
    if size = 0 then prvProbeAddr port kernel devAddr
    else
      match data with
      | none => (port, .invalidParm)
      | some data =>
          if xferPending then
            let copyLen := if pendingCapacity < size then pendingCapacity else size
            let port : Port :=
              { port with
                ctx :=
                  { port.ctx with
                    pendingBuf := bytesAt data copyLen
                    pendingAddr := devAddr
                    pendingValid := true
                    lastCount := copyLen } }
            (port.finish [.queued devAddr (bytesAt data size)] copyLen.toNat, .ok)
          else if kernel.slave then
            match kernel.moved with
            | none => (port, .comError)
            | some moved =>
                ((port.setLastCount moved).finish [.bus (.write devAddr (bytesAt data moved))]
                  moved.toNat, .ok)
          else (port, .comError)
  else (port, .comError)

/-- `tkl_i2c_master_receive` on a valid port; `hasData` says that `data` is not
`NULL`. -/
def tklI2cMasterReceive (port : Port) (kernel : Kernel) (devAddr : UInt16) (hasData : Bool)
    (size : UInt32) : Port × OperateRet :=
  if hasData = false ∨ size = 0 then (port, .invalidParm)
  else if port.ctx.initialized then
    let port := port.setLastCount 0
    if port.ctx.pendingValid = true ∧ port.ctx.pendingAddr = devAddr then
      let written := port.ctx.pendingBuf
      -- Both lengths are cut to the 16 bits of `struct i2c_msg`.
      let count := size.toUInt16.toNat
      let port : Port :=
        { port with ctx := { port.ctx with pendingValid := false, pendingBuf := [] } }
      match kernel.moved with
      | none => (port, .comError)
      | some _ =>
          ((port.setLastCount size).finish [.bus (.writeRead devAddr written count)] count, .ok)
    else if kernel.slave then
      match kernel.moved with
      | none => (port, .comError)
      | some moved =>
          ((port.setLastCount moved).finish [.bus (.read devAddr moved.toNat)] moved.toNat, .ok)
    else (port, .comError)
  else (port, .comError)

inductive Request where
  | send (devAddr : UInt16) (data : Option (Nat → UInt8)) (size : UInt32) (xferPending : Bool)
  | receive (devAddr : UInt16) (hasData : Bool) (size : UInt32)

def perform (port : Port) (kernel : Kernel) : Request → Port × OperateRet
  | .send devAddr data size xferPending =>
      tklI2cMasterSend port kernel devAddr data size xferPending
  | .receive devAddr hasData size => tklI2cMasterReceive port kernel devAddr hasData size

/-- `TUYA_I2C_NUM_MAX` and `TKL_I2C_MAX_PORT`. -/
def i2cNumMax : Nat := 6

structure Action where
  port : Nat
  request : Request
  kernel : Kernel

/-- A call; an invalid port is refused at once. -/
def step (ports : Nat → Port) (action : Action) : Option (Nat → Port) :=
  if action.port < i2cNumMax then
    some (Function.update ports action.port
      (perform (ports action.port) action.kernel action.request).1)
  else some ports

/-- Ports right after `tkl_i2c_init` or before it. -/
def freshPorts (initialized : Nat → Bool) : Nat → Port :=
  fun port => ⟨⟨initialized port, false, 0, [], 0⟩, []⟩

end TuyaAdapter.TklI2c
