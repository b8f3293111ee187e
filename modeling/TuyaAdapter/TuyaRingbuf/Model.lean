import Mathlib.Data.List.Range
import TuyaAdapter.OperateRet

/-!
Contract: `tuya_ringbuf.c`.

Every `uint32_t` subtraction of the source goes through a parameter. With
`wrapping` the functions are those of the source; with `checked` they stop at a
subtraction that would wrap, so that a function which returns never wrapped.
-/

namespace TuyaAdapter.TuyaRingbuf

/-! ## Subtractions -/

/-- `minuend - subtrahend` on `uint32_t`. -/
def wrapping (minuend subtrahend : UInt32) : Option UInt32 := some (minuend - subtrahend)

/-- The same, given up when it would wrap. -/
def checked (minuend subtrahend : UInt32) : Option UInt32 :=
  if subtrahend ≤ minuend then some (minuend - subtrahend) else none

/-! ## State -/

/-- `__RINGBUFF_T`. -/
structure Ringbuff where
  in_ : UInt32
  out : UInt32
  len : UInt32
  buff : Nat → UInt8

inductive RingbuffType where
  | overflowStop
  | overflowCoverage
deriving DecidableEq, Repr

def ringbuffInit (rbuff : Ringbuff) (len : UInt32) : Ringbuff :=
  { rbuff with in_ := 0, out := 0, len := len }

/-- `tuya_ring_buff_create` where the caller passes a place for the handle;
`memory` is what the allocated bytes hold. -/
def tuyaRingBuffCreate (len : UInt32) (type : RingbuffType) (memory : Option (Nat → UInt8)) :
    Option Ringbuff × OperateRet :=
  if type = .overflowCoverage then (none, .notSupported)
  else if len = 0 then (none, .invalidParm)
  else
    match memory with
    | none => (none, .mallocFailed)
    | some buff => (some (ringbuffInit ⟨0, 0, 0, buff⟩ len), .ok)

def tuyaRingBuffReset (rbuff : Ringbuff) : Ringbuff := ringbuffInit rbuff rbuff.len

/-! ## Sizes -/

section Operations

variable (sub : UInt32 → UInt32 → Option UInt32)

/-- The `size` of `tuya_ring_buff_free_size_get` before its last line. -/
def unusedSize (rbuff : Ringbuff) : Option UInt32 :=
  if rbuff.in_ = rbuff.out then some rbuff.len
  else if rbuff.out > rbuff.in_ then sub rbuff.out rbuff.in_
  else do
    let used ← sub rbuff.in_ rbuff.out
    sub rbuff.len used

def tuyaRingBuffFreeSizeGet (rbuff : Ringbuff) : Option UInt32 := do
  let size ← unusedSize sub rbuff
  sub size 1

def tuyaRingBuffUsedSizeGet (rbuff : Ringbuff) : Option UInt32 :=
  if rbuff.in_ = rbuff.out then some 0
  else if rbuff.in_ > rbuff.out then sub rbuff.in_ rbuff.out
  else do
    let free ← sub rbuff.out rbuff.in_
    sub rbuff.len free

/-! ## Transfers -/

/-- `GET_MIN`. -/
def getMin (one other : UInt32) : UInt32 := if one < other then one else other

/-- `memcpy` into the buffer. -/
def copyTo (buff : Nat → UInt8) (start count : UInt32) (data : Nat → UInt8) : Nat → UInt8 :=
  fun index =>
    if start.toNat ≤ index ∧ index < start.toNat + count.toNat then data (index - start.toNat)
    else buff index

/-- `memcpy` out of the buffer. -/
def copyFrom (buff : Nat → UInt8) (start count : UInt32) : List UInt8 :=
  (List.range count.toNat).map fun offset => buff (start.toNat + offset)

/-- The index after the two parts of a transfer, with the check for the end of
the buffer. -/
def moveIndex (index tmpLen rest len : UInt32) : UInt32 :=
  let moved := if rest > 0 then rest else index + tmpLen
  if moved ≥ len then 0 else moved

/-- `tuya_ring_buff_write`; `data` is missing when it is `NULL`. -/
def tuyaRingBuffWrite (rbuff : Ringbuff) (data : Option (Nat → UInt8)) (len : UInt32) :
    Option (Ringbuff × UInt32) :=
  match data with
  | none => some (rbuff, 0)
  | some pdata =>
      if len = 0 then some (rbuff, 0)
      else do
        let freeLen ← tuyaRingBuffFreeSizeGet sub rbuff
        let len := getMin freeLen len
        if len = 0 then some (rbuff, 0)
        else do
          let room ← sub rbuff.len rbuff.in_
          let tmpLen := getMin room len
          let buff := copyTo rbuff.buff rbuff.in_ tmpLen pdata
          let rest ← sub len tmpLen
          let buff :=
            if rest > 0 then copyTo buff 0 rest (fun offset => pdata (tmpLen.toNat + offset))
            else buff
          some ({ rbuff with buff := buff, in_ := moveIndex rbuff.in_ tmpLen rest rbuff.len },
            tmpLen + rest)

/-- The bytes of the two parts of a transfer. -/
def copyParts (rbuff : Ringbuff) (tmpLen rest : UInt32) : List UInt8 :=
  copyFrom rbuff.buff rbuff.out tmpLen ++
    (if rest > 0 then copyFrom rbuff.buff 0 rest else [])

/-- `tuya_ring_buff_read`, with the bytes it puts at `data`; `wanted` says that
`data` is not `NULL`. -/
def tuyaRingBuffRead (rbuff : Ringbuff) (wanted : Bool) (len : UInt32) :
    Option (Ringbuff × UInt32 × List UInt8) :=
  if wanted = false ∨ len = 0 then some (rbuff, 0, [])
  else do
    let usedLen ← tuyaRingBuffUsedSizeGet sub rbuff
    let len := getMin usedLen len
    if len = 0 then some (rbuff, 0, [])
    else do
      let linear ← sub rbuff.len rbuff.out
      let tmpLen := getMin linear len
      let rest ← sub len tmpLen
      some ({ rbuff with out := moveIndex rbuff.out tmpLen rest rbuff.len }, tmpLen + rest,
        copyParts rbuff tmpLen rest)

def tuyaRingBuffDiscard (rbuff : Ringbuff) (len : UInt32) : Option (Ringbuff × UInt32) :=
  if len = 0 then some (rbuff, 0)
  else do
    let usedLen ← tuyaRingBuffUsedSizeGet sub rbuff
    let len := getMin usedLen len
    if len = 0 then some (rbuff, 0)
    else do
      let linear ← sub rbuff.len rbuff.out
      let tmpLen := getMin linear len
      let rest ← sub len tmpLen
      some ({ rbuff with out := moveIndex rbuff.out tmpLen rest rbuff.len }, tmpLen + rest)

/-- `tuya_ring_buff_peek`, with the bytes it puts at `data`. -/
def tuyaRingBuffPeek (rbuff : Ringbuff) (wanted : Bool) (len : UInt32) :
    Option (UInt32 × List UInt8) :=
  if wanted = false ∨ len = 0 then some (0, [])
  else do
    let usedLen ← tuyaRingBuffUsedSizeGet sub rbuff
    let len := getMin len usedLen
    if len = 0 then some (0, [])
    else do
      let linear ← sub rbuff.len rbuff.out
      let tmpLen := getMin linear len
      let rest ← sub len tmpLen
      some (tmpLen + rest, copyParts rbuff tmpLen rest)

/-! ## Calls -/

inductive Call where
  | write (data : Option (Nat → UInt8)) (len : UInt32)
  | read (wanted : Bool) (len : UInt32)
  | discard (len : UInt32)
  | peek (wanted : Bool) (len : UInt32)
  | reset

/-- What a call answers: the returned count and the bytes at `data`. -/
structure Reply where
  count : Nat
  bytes : List UInt8
deriving DecidableEq, Repr

def perform (rbuff : Ringbuff) : Call → Option (Ringbuff × Reply)
  | .write data len =>
      (tuyaRingBuffWrite sub rbuff data len).map fun result => (result.1, ⟨result.2.toNat, []⟩)
  | .read wanted len =>
      (tuyaRingBuffRead sub rbuff wanted len).map fun result =>
        (result.1, ⟨result.2.1.toNat, result.2.2⟩)
  | .discard len =>
      (tuyaRingBuffDiscard sub rbuff len).map fun result => (result.1, ⟨result.2.toNat, []⟩)
  | .peek wanted len =>
      (tuyaRingBuffPeek sub rbuff wanted len).map fun result => (rbuff, ⟨result.1.toNat, result.2⟩)
  | .reset => some (tuyaRingBuffReset rbuff, ⟨0, []⟩)

/-- A sequence of calls with their replies. -/
def performAll : Ringbuff → List Call → Option (Ringbuff × List Reply)
  | rbuff, [] => some (rbuff, [])
  | rbuff, call :: rest => do
      let done ← perform sub rbuff call
      let later ← performAll done.1 rest
      some (later.1, done.2 :: later.2)

end Operations

end TuyaAdapter.TuyaRingbuf
