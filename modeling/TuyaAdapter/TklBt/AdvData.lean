import Mathlib.Data.List.AList
import TuyaAdapter.TklBt.Gatt

/-!
Contract: `parse_and_update_adv_data` of `bt_dbus_api.c`, and the advertisement
of bluez_inc that it updates.

Memory is what lies at and behind the start of the data, so that a read past the
end has a result, and each read is noted. Words are little-endian. The loop runs
on fuel: it is missing when it needs more turns. A hash table is gone through in
an order of its own, which is a parameter. Memory for the lists and texts is
always found.
-/

namespace TuyaAdapter.TklBt

open Foundation.Decimal

/-! ## Advertisements -/

/-- A hash table of byte arrays. -/
abbrev ByteArrays (Key : Type) := AList fun _ : Key => List UInt8

/-- The order in which the entries of a hash table are visited, each once. -/
structure HashTableIter where
  entries : ByteArrays Text → List (Σ _ : Text, List UInt8)
  perm : ∀ table, (entries table).Perm table.entries

/-- `Advertisement`, as far as it is updated. -/
structure Advertisement where
  localName : Option (List UInt8)
  services : Option (List Text)
  manufacturerData : ByteArrays UInt16
  serviceData : ByteArrays Text
  generalDiscoverable : Bool
  appearance : UInt16
deriving DecidableEq

def setLocalName (advertisement : Advertisement) (localName : List UInt8) : Advertisement :=
  { advertisement with localName := some localName }

def setServices (advertisement : Advertisement) (serviceUuids : List Text) : Advertisement :=
  { advertisement with services := some serviceUuids }

def setManufacturerData (advertisement : Advertisement) (manufacturerId : UInt16)
    (byteArray : List UInt8) : Advertisement :=
  { advertisement with
    manufacturerData :=
      (advertisement.manufacturerData.erase manufacturerId).insert manufacturerId byteArray }

def setServiceData (advertisement : Advertisement) (serviceUuid : Text) (byteArray : List UInt8) :
    Advertisement :=
  { advertisement with
    serviceData := (advertisement.serviceData.erase serviceUuid).insert serviceUuid byteArray }

def setAppearance (advertisement : Advertisement) (appearance : UInt16) : Advertisement :=
  { advertisement with appearance := appearance }

def setGeneralDiscoverable (advertisement : Advertisement) (generalDiscoverable : Bool) :
    Advertisement :=
  { advertisement with generalDiscoverable := generalDiscoverable }

/-! ## Reading -/

/-- `TKL_BLE_DATA_T`. -/
structure BleData where
  length : UInt16
  pData : Option (Nat → UInt8)

/-- The bytes from an index on. -/
def window (memory : Nat → UInt8) (start count : Nat) : List UInt8 :=
  (List.range' start count).map memory

/-- A little-endian word. -/
def word (low high : UInt8) : UInt16 := low.toUInt16 ||| (high.toUInt16 <<< 8)

/-- What `"0000%04x-0000-1000-8000-00805f9b34fb"` writes. -/
def uuid16Text (value : UInt16) : Text :=
  snprintf40 ("0000".toList ++ hex 4 value.toNat ++ baseUuid)

/-! ## The parser -/

/-- The advertisement and the local variables that the AD structures change. -/
structure AdState where
  advertisement : Advertisement
  serviceUuidsList : List Text
  localName : Option (List UInt8)
  tempServiceData : ByteArrays Text
deriving DecidableEq

section Switch

variable (memory : Nat → UInt8)

/-- The loop over a list of UUIDs, with the bytes left of the payload: the texts
it adds, and the indices it reads. -/
def uuidLoop (index : Nat) : Nat → List Text × List Nat
  | 0 => ([], [])
  | 1 => ([uuid16Text (word (memory index) (memory (index + 1)))], [index, index + 1])
  | left + 2 =>
      ((uuid16Text (word (memory index) (memory (index + 1))) :: (uuidLoop (index + 2) left).1),
        index :: (index + 1) :: (uuidLoop (index + 2) left).2)

/-- `g_strndup`: the text, and the indices it reads. -/
def gStrndup (index count : Nat) : List UInt8 × List Nat :=
  let text := (window memory index count).takeWhile (· ≠ 0)
  (text, List.range' index (min (text.length + 1) count))

/-- The switch on the type: the state after it, and the indices it reads. -/
def adSwitch (adType : UInt8) (adPayload payloadLen : Nat) (state : AdState) :
    AdState × List Nat :=
  if adType = 0x01 then
    if 1 ≤ payloadLen then
      ({ state with
          advertisement :=
            setGeneralDiscoverable state.advertisement (memory adPayload &&& 0x02 ≠ 0) },
        [adPayload])
    else (state, [])
  else if adType = 0x02 ∨ adType = 0x03 then
    ({ state with
        serviceUuidsList := state.serviceUuidsList ++ (uuidLoop memory adPayload payloadLen).1 },
      (uuidLoop memory adPayload payloadLen).2)
  else if adType = 0x08 ∨ adType = 0x09 then
    if state.localName = none then
      ({ state with localName := some (gStrndup memory adPayload payloadLen).1 },
        (gStrndup memory adPayload payloadLen).2)
    else (state, [])
  else if adType = 0xFF then
    if 2 ≤ payloadLen then
      ({ state with
          advertisement :=
            setManufacturerData state.advertisement
              (word (memory adPayload) (memory (adPayload + 1)))
              (window memory (adPayload + 2) (payloadLen - 2)) },
        List.range' adPayload payloadLen)
    else (state, [])
  else if adType = 0x16 then
    if 2 ≤ payloadLen then
      ({ state with
          tempServiceData :=
            state.tempServiceData.insert
              (uuid16Text (word (memory adPayload) (memory (adPayload + 1))))
              (window memory (adPayload + 2) (payloadLen - 2)) },
        List.range' adPayload payloadLen)
    else (state, [])
  else if adType = 0x19 then
    if payloadLen = 2 then
      ({ state with
          advertisement :=
            setAppearance state.advertisement (word (memory adPayload) (memory (adPayload + 1))) },
        [adPayload, adPayload + 1])
    else (state, [])
  else (state, [])

/-- A turn of the loop that gets to the switch, with the indices read there. -/
structure Visit where
  cursor : Nat
  remainingLen : UInt16
  adLen : UInt8
  payloadReads : List Nat
deriving DecidableEq, Repr

/-- The state after the loop, where it read a length byte, and its turns. -/
structure LoopResult where
  state : AdState
  lengthReads : List Nat
  visits : List Visit
deriving DecidableEq

def parseLoop : Nat → Nat → UInt16 → AdState → Option LoopResult
  | 0, _, _, _ => none
  | fuel + 1, cursor, remainingLen, state =>
      if 0 < remainingLen then
        if memory cursor = 0 ∨ remainingLen ≤ (memory cursor).toUInt16 then
          some ⟨state, [cursor], []⟩
        else
          let switched :=
            adSwitch memory (memory (cursor + 1)) (cursor + 2) ((memory cursor).toNat - 1) state
          (parseLoop fuel (cursor + ((memory cursor).toNat + 1))
            (remainingLen - ((memory cursor).toUInt16 + 1)) switched.1).map fun later =>
              ⟨later.state, cursor :: later.lengthReads,
                ⟨cursor, remainingLen, memory cursor, switched.2⟩ :: later.visits⟩
      else some ⟨state, [], []⟩

end Switch

/-- What is done after the loop. -/
def finishAdv (iter : HashTableIter) (state : AdState) : Advertisement :=
  let named :=
    match state.localName with
    | none => state.advertisement
    | some localName => setLocalName state.advertisement localName
  let served :=
    if 0 < state.serviceUuidsList.length then setServices named state.serviceUuidsList else named
  (iter.entries state.tempServiceData).foldl
    (fun advertisement entry => setServiceData advertisement entry.1 entry.2) served

/-- The advertisement after the call, and what the loop read. -/
structure AdvOutcome where
  advertisement : Advertisement
  lengthReads : List Nat
  visits : List Visit
deriving DecidableEq

/-- `parse_and_update_adv_data`; missing data is `NULL`. -/
def parseAndUpdateAdvData (iter : HashTableIter) (fuel : Nat) (advertisement : Advertisement)
    (data : Option BleData) : Option AdvOutcome :=
  match data with
  | none => some ⟨advertisement, [], []⟩
  | some ⟨_, none⟩ => some ⟨advertisement, [], []⟩
  | some ⟨length, some memory⟩ =>
      if length = 0 then some ⟨advertisement, [], []⟩
      else
        (parseLoop memory fuel 0 length ⟨advertisement, [], none, ∅⟩).map fun result =>
          ⟨finishAdv iter result.state, result.lengthReads, result.visits⟩

end TuyaAdapter.TklBt
