import Mathlib.Data.List.Basic
import TuyaAdapter.Foundation.Decimal

/-!
Contract: the GATT tables of `bt_dbus_api.c`.

`serv_map` and `char_map` are the lists of the entries in use, so that
`serv_count` and `char_count` are their lengths. The bluez_inc library is a
parameter that says which of its calls succeed. Memory for the UUID texts is
always found. The index of an entry is computed from counts that are bounded by
the two tables, far below 65536, and is a natural number here.
-/

namespace TuyaAdapter.TklBt

open Foundation.Decimal

/-! ## UUIDs -/

/-- `TKL_BLE_UUID_T`; `other` is a type outside `TKL_BLE_UUID_TYPE_E`. -/
inductive BleUuid where
  | uuid16 (value : UInt16)
  | uuid32 (value : UInt32)
  | uuid128 (bytes : Vector UInt8 16)
  | other
deriving DecidableEq, Repr

/-- What `%0<width>x` writes. -/
def hex (width value : Nat) : Text := (Nat.toDigits 16 value).leftpad width '0'

/-- The bytes `first`, `first - 1`, … of a 128-bit UUID, `count` of them. -/
def hexBytes (bytes : Vector UInt8 16) (first : Nat) : Nat → Text
  | 0 => []
  | count + 1 => hex 2 (bytes[first]?.getD 0).toNat ++ hexBytes bytes (first - 1) count

/-- The part of a short UUID's text that comes from the Bluetooth base UUID. -/
def baseUuid : Text := "-0000-1000-8000-00805f9b34fb".toList

/-- What `snprintf` leaves in the 40 bytes, before the terminator. -/
def snprintf40 (text : Text) : Text := text.take 39

def uuidToString : BleUuid → Option Text
  | .uuid16 value => some (snprintf40 ("0000".toList ++ hex 4 value.toNat ++ baseUuid))
  | .uuid32 value => some (snprintf40 ("0000".toList ++ hex 8 value.toNat ++ baseUuid))
  | .uuid128 bytes =>
      some (snprintf40 (hexBytes bytes 15 4 ++ '-' :: hexBytes bytes 11 2 ++
        '-' :: hexBytes bytes 9 2 ++ '-' :: hexBytes bytes 7 2 ++ '-' :: hexBytes bytes 5 6))
  | .other => none

/-! ## The tables -/

structure ServCharMapEntry where
  uuidStr : Text
  index : Nat
deriving DecidableEq, Repr

def maxServs : Nat := 10

def maxChars : Nat := 32

/-- The value of an index that was not assigned or not found. -/
def noIndex : Nat := 0xFFFF

/-- The static data of the file. Applications are named by the order in which
they were created; `app` is missing when it is `NULL`. -/
structure Gatt where
  servMap : List ServCharMapEntry
  charMap : List ServCharMapEntry
  app : Option Nat
  created : Nat
deriving DecidableEq, Repr

def Gatt.fresh : Gatt := ⟨[], [], none, 0⟩

def addServInfo (gatt : Gatt) (servUuid : Text) : Gatt × Nat :=
  let index := gatt.servMap.length
  if gatt.servMap.length < maxServs then
    ({ gatt with servMap := gatt.servMap ++ [⟨servUuid, index⟩] }, index)
  else (gatt, noIndex)

/-- The services counted here are those before the one of the characteristic. -/
def addCharInfo (gatt : Gatt) (charUuid : Text) : Gatt × Nat :=
  let index := gatt.charMap.length + gatt.servMap.length * 10
  if gatt.charMap.length < maxChars then
    ({ gatt with charMap := gatt.charMap ++ [⟨charUuid, index⟩] }, index)
  else (gatt, noIndex)

/-- The index of the first entry with the UUID. -/
def indexByUuid (entries : List ServCharMapEntry) (uuid : Text) : Nat :=
  match entries.find? fun entry => entry.uuidStr == uuid with
  | some entry => entry.index
  | none => noIndex

/-- The UUID of the first entry with the index. -/
def uuidByIndex (entries : List ServCharMapEntry) (index : Nat) : Option Text :=
  (entries.find? fun entry => entry.index == index).map ServCharMapEntry.uuidStr

def getCharIndexByUuid (gatt : Gatt) (charUuid : Text) : Nat := indexByUuid gatt.charMap charUuid

def getServUuidByCharIndex (gatt : Gatt) (charIndex : Nat) : Option Text :=
  uuidByIndex gatt.servMap (charIndex / 10)

def getCharUuidByCharIndex (gatt : Gatt) (charIndex : Nat) : Option Text :=
  uuidByIndex gatt.charMap charIndex

/-! ## Adding services -/

/-- `TKL_BLE_CHAR_PARAMS_T`, as far as it is read or written. -/
structure CharParams where
  handle : Nat
  charUuid : BleUuid
  property : UInt8
deriving DecidableEq, Repr

/-- `TKL_BLE_SERVICE_PARAMS_T`, as far as it is read or written. -/
structure ServiceParams where
  svcUuid : BleUuid
  chars : List CharParams
deriving DecidableEq, Repr

/-- Which calls of the bluez_inc library succeed. -/
structure Binc where
  createApplication : Bool
  addService : Text → Bool
  addCharacteristic : Text → Text → UInt8 → Bool

/-- One pass of the inner loop: the tables, and the characteristic as it is left
in `p_char`. -/
def addCharacteristic (binc : Binc) (servUuid : Text) (gatt : Gatt) (char : CharParams) :
    Gatt × CharParams :=
  match uuidToString char.charUuid with
  | none => (gatt, char)
  | some charUuid =>
      if binc.addCharacteristic servUuid charUuid char.property then
        let added := addCharInfo gatt charUuid
        (added.1, { char with handle := added.2 })
      else (gatt, char)

def addCharacteristics (binc : Binc) (servUuid : Text) :
    Gatt → List CharParams → Gatt × List CharParams
  | gatt, [] => (gatt, [])
  | gatt, char :: rest =>
      let added := addCharacteristic binc servUuid gatt char
      let later := addCharacteristics binc servUuid added.1 rest
      (later.1, added.2 :: later.2)

/-- One pass of the outer loop. The service enters its table after its
characteristics. -/
def addService (binc : Binc) (gatt : Gatt) (service : ServiceParams) : Gatt × ServiceParams :=
  match uuidToString service.svcUuid with
  | none => (gatt, service)
  | some servUuid =>
      if binc.addService servUuid then
        let added := addCharacteristics binc servUuid gatt service.chars
        ((addServInfo added.1 servUuid).1, { service with chars := added.2 })
      else (gatt, service)

def addServices (binc : Binc) : Gatt → List ServiceParams → Gatt × List ServiceParams
  | gatt, [] => (gatt, [])
  | gatt, service :: rest =>
      let added := addService binc gatt service
      let later := addServices binc added.1 rest
      (later.1, added.2 :: later.2)

/-- The tables afterwards, and the services as they are left behind
`p_service`. -/
def bluezIncAddGatt (binc : Binc) (gatt : Gatt) (services : List ServiceParams) :
    Gatt × List ServiceParams :=
  if binc.createApplication then
    addServices binc { gatt with app := some gatt.created, created := gatt.created + 1 } services
  else ({ gatt with app := none }, services)

/-! ## Notifications and events -/

/-- The arguments of `binc_application_notify`. -/
structure Notification where
  app : Option Nat
  servUuid : Text
  charUuid : Text
  data : List UInt8
deriving DecidableEq, Repr

/-- The result, and the notification that is sent; the connection handle is not
read. -/
def bluezIncGattValueNotify (gatt : Gatt) (charHandle : Nat) (data : List UInt8) :
    Int × Option Notification :=
  match getServUuidByCharIndex gatt charHandle, getCharUuidByCharIndex gatt charHandle with
  | some servUuid, some charUuid => (0, some ⟨gatt.app, servUuid, charUuid, data⟩)
  | _, _ => (-2, none)

/-- What `__gatt_evt_cb` is called with; `conn_handle` and `result` are 0. -/
inductive GattEvent where
  | readCharValue (charHandle offset : Nat)
  | writeReq (charHandle : Nat) (data : List UInt8)
deriving DecidableEq, Repr

def GattEvent.charHandle : GattEvent → Nat
  | .readCharValue charHandle _ => charHandle
  | .writeReq charHandle _ => charHandle

/-- The value that is set before a read is answered. -/
def readValue : List UInt8 :=
  [0x06, 0x6f, 0x01, 0x00, 0xff, 0xe6, 0x07, 0x03, 0x03, 0x10, 0x04, 0x00, 0x01]

/-- The value set for the characteristic, and the event. -/
def onLocalCharRead (gatt : Gatt) (servUuid charUuid : Text) :
    (Text × Text × List UInt8) × GattEvent :=
  ((servUuid, charUuid, readValue), .readCharValue (getCharIndexByUuid gatt charUuid) 0)

/-- The service of the request is not read. -/
def onLocalCharWrite (gatt : Gatt) (_servUuid charUuid : Text) (data : List UInt8) : GattEvent :=
  .writeReq (getCharIndexByUuid gatt charUuid) data

end TuyaAdapter.TklBt
