import Mathlib.Data.List.Range
import TuyaAdapter.Foundation.Ledger
import TuyaAdapter.OperateRet

/-!
Contract: `tkl_ota.c` over the upgrade file `./tuyadb/ota`.

`FILE` objects are accounted for in a ledger: `fopen` obtains one, `fwrite` uses
it and `fclose` gives it back. `fwrite` always writes what it is asked to. The
memory behind `pack->data` does not end at `pack->len`, and what a call reads
there is part of its result.
-/

namespace TuyaAdapter.TklOta

open Foundation

/-- The static `s_upgrade_fd`, the open files, and the bytes of the upgrade
file. -/
structure Ota where
  upgradeFd : Option Nat
  files : Ledger Unit
  contents : List UInt8
deriving DecidableEq, Repr

/-- Before the first upgrade. -/
def Ota.fresh : Ota := ⟨none, .fresh, []⟩

/-- `fclose`. -/
def Ota.fclose (ota : Ota) (file : Option Nat) : Ota :=
  match file with
  | none => { ota with files := ota.files.misuse }
  | some name => { ota with files := ota.files.giveBack name () }

/-- `fopen` of the upgrade file with mode `w+b`. -/
def Ota.fopen (ota : Ota) (opens : Bool) : Ota :=
  if opens then ⟨some ota.files.nextName, ota.files.obtain (), []⟩
  else { ota with upgradeFd := none }

/-- `tkl_ota_start_notify`; `opens` says that `fopen` succeeds. -/
def tklOtaStartNotify (ota : Ota) (opens : Bool) : Ota × OperateRet :=
  let closed := if ota.upgradeFd.isSome then ota.fclose ota.upgradeFd else ota
  let opened := closed.fopen opens
  if opened.upgradeFd.isNone then (opened, .comError) else (opened, .ok)

/-- `TUYA_OTA_DATA_T`; `data` is the memory at the pointer. -/
structure Pack where
  totalLen : UInt32
  offset : UInt32
  data : Nat → UInt8
  len : UInt32

/-- The number of bytes `tkl_ota_data_process` has `fwrite` read from `data`. -/
def Pack.fwriteCount (pack : Pack) : Nat :=
  if pack.offset + pack.len ≠ pack.totalLen then (pack.len - 100).toNat else pack.len.toNat

/-- What `tkl_ota_data_process` stores in `*remain_len`. -/
def Pack.remainLen (pack : Pack) : Nat :=
  if pack.offset + pack.len ≠ pack.totalLen then 100 else 0

/-- `fwrite` of bytes at a pointer. -/
def Ota.fwrite (ota : Ota) (data : Nat → UInt8) (count : Nat) (file : Option Nat) : Ota :=
  match file with
  | none => { ota with files := ota.files.misuse }
  | some name =>
      { ota with
        files := ota.files.use name
        contents := ota.contents ++ (List.range count).map data }

/-- `tkl_ota_data_process`: the state afterwards and `*remain_len`. -/
def tklOtaDataProcess (ota : Ota) (pack : Pack) : Ota × Nat × OperateRet :=
  (ota.fwrite pack.data pack.fwriteCount ota.upgradeFd, pack.remainLen, .ok)

/-- `tkl_ota_end_notify(FALSE)`. With `TRUE` the process ends. -/
def tklOtaEndNotify (ota : Ota) : Ota × OperateRet := (ota.fclose ota.upgradeFd, .ok)

end TuyaAdapter.TklOta
