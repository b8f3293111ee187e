import TuyaAdapter.Foundation.ByteMemory

/-!
Contract: the flash of `tkl_flash.c`, a file that outlives the process.

A step is one call, or the end of the process with a new one after it. How many
bytes of a write `fwrite` takes and how many reach the file is input: fewer when
the disk is full or the process ends in the middle. What does not reach the file
then is lost. The log is history: no step reads it.
-/

namespace TuyaAdapter.TklFlash

open Foundation.ByteMemory

abbrev Bytes := List UInt8

/-! ## Partitions -/

/-- `PARTITION_SIZE` -/
def partitionSize : Nat := 4096

/-- `FLASH_FILE_SIZE` -/
def flashFileSize : Nat := 256 * 1024 * 1024

def simpleFlashKeyAddr : Nat := 0

def simpleFlashStart : Nat := simpleFlashKeyAddr + partitionSize

def simpleFlashSize : Nat := 0x8000

def ufPartitionStart : Nat := simpleFlashStart + simpleFlashSize

def ufPartitionSize : Nat := 0x18000

def rcdFileStart : Nat := ufPartitionStart + ufPartitionSize

def rcdFileSize : Nat := 0x19000

def simpleFlashKvProtectedStart : Nat := rcdFileStart + rcdFileSize

def simpleFlashKvProtectedSize : Nat := 0x1000

/-- `TUYA_FLASH_TYPE_E`; the types without a partition are one. -/
inductive FlashType where
  | uf
  | kvData
  | kvKey
  | kvProtect
  | rcd
  | notListed
deriving DecidableEq, Repr

/-- `TUYA_FLASH_PARTITION_T` -/
structure Partition where
  blockSize : Nat
  startAddr : Nat
  size : Nat
deriving DecidableEq, Repr

/-- The switch of `tkl_flash_get_one_type_info`; the protected partition is a
choice of the build. -/
def partition (kvProtected : Bool) : FlashType → Option Partition
  | .uf => some ⟨partitionSize, ufPartitionStart, ufPartitionSize⟩
  | .kvData => some ⟨partitionSize, simpleFlashStart, simpleFlashSize⟩
  | .kvKey => some ⟨partitionSize, simpleFlashKeyAddr, partitionSize⟩
  | .kvProtect =>
      if kvProtected = true then
        some ⟨partitionSize, simpleFlashKvProtectedStart, simpleFlashKvProtectedSize⟩
      else none
  | .rcd => some ⟨partitionSize, rcdFileStart, rcdFileSize⟩
  | .notListed => none

/-! ## The file -/

structure File where
  size : Nat
  bytes : Memory

/-- A hole before what is written reads as zero. -/
def File.write (file : File) (addr : Nat) (data : Bytes) : File :=
  if data = [] then file
  else
    let filled := writeBytes file.bytes file.size (addr - file.size) fun _ => 0
    ⟨max file.size (addr + data.length), writeBytes filled addr data.length fun i => data.getD i 0⟩

def File.read (file : File) (addr size : Nat) : Bytes :=
  (List.range (min size (file.size - addr))).map fun i => file.bytes (addr + i)

/-- What `__flash_file_init` leaves when so many bytes reach the new file. -/
def flashFileInit (reached : Nat) : File := ⟨min reached flashFileSize, fun _ => 0xff⟩

/-! ## Steps -/

inductive Result where
  | ok
  | resourceNotReady
  | fileReadFailed
  | fileWriteFailed
deriving DecidableEq, Repr

inductive Event where
  /-- The file is made, and so many bytes of it are `0xff`. -/
  | made (size : Nat)
  | wrote (addr : Nat) (data : Bytes)
  | read (addr size : Nat) (result : Result) (data : Bytes)
deriving DecidableEq, Repr

structure State where
  file : Option File
  isOpen : Bool
  log : List Event

inductive Action where
  | getOneTypeInfo (reached : Nat)
  | read (addr size : UInt32)
  | write (addr : UInt32) (data : Bytes) (taken reached : Nat)
  | restart

/-- `tkl_flash_get_one_type_info` up to its checks. -/
def getOneTypeInfo (state : State) (reached : Nat) : State :=
  if state.isOpen = true then state
  else
    match state.file with
    | some _ => { state with isOpen := true }
    | none =>
        let file := flashFileInit reached
        { file := some file
          isOpen := true
          log := state.log ++ [.made file.size] }

/-- `tkl_flash_read`; a size is an `int` for `tkl_fread`. -/
def read (state : State) (addr size : Nat) : State :=
  match state.isOpen, state.file with
  | true, some file =>
      let data := file.read addr size
      let result := if data.length = size then .ok else .fileReadFailed
      { state with log := state.log ++ [.read addr size result data] }
  | _, _ => { state with log := state.log ++ [.read addr size .resourceNotReady []] }

/-- `tkl_flash_write`; the results of the flush are not read. -/
def write (state : State) (addr : Nat) (data : Bytes) (taken reached : Nat) : State × Result :=
  match state.isOpen, state.file with
  | true, some file =>
      let part := data.take reached
      ({ state with
        file := some (file.write addr part)
        log := state.log ++ [.wrote addr part] },
        if taken = data.length then .ok else .fileWriteFailed)
  | _, _ => (state, .resourceNotReady)

def step (state : State) : Action → Option State
  | .getOneTypeInfo reached => some (getOneTypeInfo state reached)
  | .read addr size =>
      if size.toNat < 2 ^ 31 then some (read state addr.toNat size.toNat) else none
  | .write addr data taken reached =>
      if data.length < 2 ^ 31 then some (write state addr.toNat data taken reached).1 else none
  | .restart => some { state with isOpen := false }

/-- The first process of a device. -/
def start : State := ⟨none, false, []⟩

end TuyaAdapter.TklFlash
