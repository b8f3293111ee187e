import TuyaAdapter.Foundation.Decimal
import TuyaAdapter.Foundation.KeyedTable
import TuyaAdapter.Foundation.Run

/-!
Contract: the devices of `adapter.c` and `device.c`, and the connections that
`bt_dbus_api.c` tells the application about.

Signals and replies of BlueZ arrive in any order, one at a time. A device is an
object with a number of its own, which is never used again; a reply still names
the device its call was made for, which may have been freed by then. Only
signals about the interface of devices matter here; a call of a signal for a
dictionary with that interface is one action. The program sets no callback of a
device and starts no discovery, connection or pairing.

`trace` has what passed on the bus and to the application, the latest first.
-/

namespace TuyaAdapter.BincAdapter

open Foundation.Decimal Foundation.KeyedTable Foundation

/-! ## Devices -/

inductive ConnectionState where
  | disconnected | connected | connecting | disconnecting
deriving DecidableEq, Repr

inductive BondingState where
  | bondNone | bonding | bonded
deriving DecidableEq, Repr

abbrev Octets := List UInt8

structure Device where
  id : Nat
  address : Option Text
  addressType : Option Text
  deviceAlias : Option Text
  connectionState : ConnectionState
  paired : Bool
  bondingState : BondingState
  name : Option Text
  rssi : Int
  trusted : Bool
  txpower : Int
  manufacturerData : Option (Table Nat Octets)
  serviceData : Option (Table Text Octets)
  uuids : List Text
  isCentral : Bool

/-- `binc_device_create`. -/
def deviceCreate (id : Nat) : Device where
  id
  address := none
  addressType := none
  deviceAlias := none
  connectionState := .disconnected
  paired := false
  bondingState := .bondNone
  name := none
  rssi := -255
  trusted := false
  txpower := -255
  manufacturerData := none
  serviceData := none
  uuids := []
  isCentral := false

inductive Property where
  | address (value : Text)
  | addressType (value : Text)
  | deviceAlias (value : Text)
  | connected (value : Bool)
  | name (value : Text)
  | paired (value : Bool)
  | rssi (value : Int)
  | trusted (value : Bool)
  | txpower (value : Int)
  | uuids (value : List Text)
  | manufacturerData (value : List (Nat × Octets))
  | serviceData (value : List (Text × Octets))
  | other (name : Text)
deriving DecidableEq, Repr

inductive Fault where
  | assertion
  | freedDevice
deriving DecidableEq, Repr

/-- An entry with the key of an earlier one takes its place. -/
def tableOf {Key : Type} [DecidableEq Key] (entries : List (Key × Octets)) : Table Key Octets :=
  entries.foldl (fun table entry => table.insert entry.1 entry.2) ∅

/-- `binc_internal_device_update_property`. -/
def deviceUpdateProperty (device : Device) : Property → Except Fault Device
  | .address value => .ok { device with address := some value }
  | .addressType value => .ok { device with addressType := some value }
  | .deviceAlias value => .ok { device with deviceAlias := some value }
  | .connected value =>
      .ok { device with connectionState := if value then .connected else .disconnected }
  | .name value =>
      if value = [] then .error .assertion else .ok { device with name := some value }
  | .paired value =>
      .ok { device with paired := value, bondingState := if value then .bonded else .bondNone }
  | .rssi value => .ok { device with rssi := value }
  | .trusted value => .ok { device with trusted := value }
  | .txpower value => .ok { device with txpower := value }
  | .uuids value => .ok { device with uuids := value }
  | .manufacturerData value => .ok { device with manufacturerData := some (tableOf value) }
  | .serviceData value => .ok { device with serviceData := some (tableOf value) }
  | .other _ => .ok device

def deviceUpdate (device : Device) (properties : List Property) : Except Fault Device :=
  properties.foldlM deviceUpdateProperty device

/-! ## The adapter and its application -/

/-- The pointer to a device, with the path the device has. -/
structure Pointer where
  path : Text
  id : Nat
deriving DecidableEq, Repr

inductive Method where
  | getAll
  | disconnect
deriving DecidableEq, Repr

inductive GapEventType where
  | connect
  | disconnect
deriving DecidableEq, Repr

/-- `TKL_BLE_GAP_PARAMS_EVT_T`; the type stays 0 in a state that is neither. -/
structure GapEvent where
  result : Nat
  type : Option GapEventType
  connHandle : Nat
  role : Nat
deriving DecidableEq, Repr

/-- `BLE_CONN_HANDLE`. -/
def bleConnHandle : Nat := 1

/-- `TKL_BLE_ROLE_SERVER`. -/
def bleRoleServer : Nat := 1

inductive Entry where
  | added (path : Text)
  | removed (path : Text)
  | reported (path : Text) (connected : Bool)
  | called (serial : Nat) (method : Method) (path : Text)
  | replied (serial : Nat)
  | told (path : Text) (event : GapEvent)
deriving DecidableEq, Repr

structure Central where
  adapterPath : Text
  devicesCache : Table Text Device
  created : Nat
  pending : Table Nat (Method × Pointer)
  serials : Nat
  advertisement : Bool
  sgDevice : Option Pointer
  trace : List Entry

/-- What a list of properties says about the connection in the end. -/
def connectedIn : List Property → Option Bool
  | [] => none
  | .connected value :: rest => (connectedIn rest).or (some value)
  | _ :: rest => connectedIn rest

def report (path : Text) (properties : List Property) : List Entry :=
  ((connectedIn properties).map (Entry.reported path)).toList

/-- The device a pointer points to, when it was not freed. -/
def Central.find (central : Central) (pointer : Pointer) : Option Device :=
  (central.devicesCache.lookup pointer.path).filter fun device => device.id = pointer.id

def Central.put (central : Central) (path : Text) (device : Device) : Central :=
  { central with devicesCache := central.devicesCache.insert path device }

/-- A device with a number of its own. -/
def Central.create (central : Central) (path : Text) (device : Device) (entries : List Entry) :
    Central :=
  { central with
    devicesCache := central.devicesCache.insert path device
    created := central.created + 1
    trace := entries ++ central.trace }

/-- A call over the bus, whose reply is awaited. -/
def Central.call (central : Central) (method : Method) (pointer : Pointer) : Central :=
  { central with
    pending := central.pending.insert central.serials (method, pointer)
    serials := central.serials + 1
    trace := .called central.serials method pointer.path :: central.trace }

def Central.log (central : Central) (entries : List Entry) : Central :=
  { central with trace := entries ++ central.trace }

def gapEventType : ConnectionState → Option GapEventType
  | .connected => some .connect
  | .disconnected => some .disconnect
  | _ => none

/-- Advertising is stopped when a central is connected, for which there must be an
advertisement. -/
def onCentralStateChanged (central : Central) (path : Text) (device : Device) :
    Except Fault Central :=
  let event : GapEvent := ⟨0, gapEventType device.connectionState, bleConnHandle, bleRoleServer⟩
  match device.connectionState with
  | .connected =>
      if central.advertisement then
        .ok ({ central with sgDevice := some ⟨path, device.id⟩ }.log [.told path event])
      else .error .assertion
  | .disconnected => .ok ({ central with sgDevice := none }.log [.told path event])
  | _ => .ok (central.log [.told path event])

def looksCentral (device : Device) : Bool :=
  device.connectionState = .connected ∧ device.rssi = -255 ∧ device.uuids = []

/-- `binc_internal_device_appeared`. -/
def deviceAppeared (central : Central) (object : Text) (properties : List Property) :
    Except Fault Central :=
  if central.adapterPath.isPrefixOf object then do
    let device ← deviceUpdate (deviceCreate central.created) properties
    let inserted := central.create object device (report object properties ++ [.added object])
    if looksCentral device then
      let marked := { device with isCentral := true }
      onCentralStateChanged (inserted.put object marked) object marked
    else
      .ok inserted
  else .ok central

/-- `binc_internal_device_disappeared`. -/
def deviceDisappeared (central : Central) (object : Text) : Central :=
  { central with devicesCache := central.devicesCache.erase object }.log [.removed object]

def markCentral (device : Device) : Device :=
  if device.bondingState = .bonded ∧ device.rssi = -255 then { device with isCentral := true }
  else device

/-- `binc_internal_device_changed`. A device that was not known is asked for all its
properties, and those of the signal are ignored. -/
def deviceChanged (central : Central) (path : Text) (properties : List Property) :
    Except Fault Central :=
  match central.devicesCache.lookup path with
  | none =>
      if central.adapterPath.isPrefixOf path then
        let created := central.create path (deviceCreate central.created) []
        .ok (created.call .getAll ⟨path, central.created⟩)
      else .ok central
  | some device => do
      let updated ← deviceUpdate device properties
      let marked := markCentral updated
      let changed := (central.put path marked).log (report path properties)
      if marked.isCentral ∧ device.connectionState ≠ marked.connectionState then
        onCentralStateChanged changed path marked
      else .ok changed

/-- The reply to a call is taken by the function for its method. -/
def Central.takeReply (central : Central) (serial : Nat) : Central :=
  { central with pending := central.pending.erase serial }.log [.replied serial]

/-- `binc_internal_device_getall_properties_cb`; `none` is an error. -/
def deviceGetallPropertiesCb (central : Central) (pointer : Pointer)
    (result : Option (List Property)) : Except Fault Central :=
  match central.find pointer with
  | none => .error .freedDevice
  | some device =>
      match result with
      | none => .ok central
      | some properties => do
          let updated ← deviceUpdate device properties
          .ok ((central.put pointer.path updated).log (report pointer.path properties))

/-- `binc_internal_device_disconnect_cb`. -/
def deviceDisconnectCb (central : Central) (pointer : Pointer) (failed : Bool) :
    Except Fault Central :=
  match central.find pointer with
  | none => .error .freedDevice
  | some device =>
      if failed then .ok (central.put pointer.path { device with connectionState := .connected })
      else .ok central

/-- `binc_device_disconnect`. -/
def deviceDisconnect (central : Central) (pointer : Pointer) : Except Fault Central :=
  match central.find pointer with
  | none => .error .freedDevice
  | some device =>
      if device.connectionState = .connected then
        let disconnecting := { device with connectionState := .disconnecting }
        .ok ((central.put pointer.path disconnecting).call .disconnect pointer)
      else .ok central

def bluezIncDisconnect (central : Central) : Except Fault Central :=
  match central.sgDevice with
  | some pointer => deviceDisconnect central pointer
  | none => .ok central

/-! ## Runs -/

inductive Action where
  | interfacesAdded (object : Text) (properties : List Property)
  | interfacesRemoved (object : Text)
  | propertiesChanged (path : Text) (properties : List Property)
  | getAllReply (serial : Nat) (result : Option (List Property))
  | disconnectReply (serial : Nat) (failed : Bool)
  | disconnect
  | advertise
deriving DecidableEq, Repr

/-- There are only replies to calls. -/
def step (central : Central) : Action → Except Fault Central
  | .interfacesAdded object properties => deviceAppeared central object properties
  | .interfacesRemoved object => .ok (deviceDisappeared central object)
  | .propertiesChanged path properties => deviceChanged central path properties
  | .getAllReply serial result =>
      match central.pending.lookup serial with
      | some (.getAll, pointer) =>
          deviceGetallPropertiesCb (central.takeReply serial) pointer result
      | _ => .ok central
  | .disconnectReply serial failed =>
      match central.pending.lookup serial with
      | some (.disconnect, pointer) =>
          deviceDisconnectCb (central.takeReply serial) pointer failed
      | _ => .ok central
  | .disconnect => bluezIncDisconnect central
  | .advertise => .ok { central with advertisement := true }

/-- A fault ends the run. -/
def advance (central : Central) (action : Action) : Option Central :=
  (step central action).toOption

/-- The devices that `binc_adapter_find_all` finds for the adapter. -/
def findAll (central : Central) (objects : List (Text × List Property)) : Except Fault Central :=
  objects.foldlM
    (fun central object => do
      let device ← deviceUpdate (deviceCreate central.created) object.2
      .ok (central.create object.1 device []))
    central

/-- The adapter before it looks for devices. -/
def adapterCreate (adapterPath : Text) : Central :=
  ⟨adapterPath, ∅, 0, ∅, 0, false, none, []⟩

def start (adapterPath : Text) (objects : List (Text × List Property)) : Except Fault Central :=
  findAll (adapterCreate adapterPath) objects

/-! ## What an update changes -/

variable {central after : Central} {path object : Text} {device updated : Device}
  {properties : List Property} {fault : Fault}

def stateOf (connected : Bool) : ConnectionState := if connected then .connected else .disconnected

theorem deviceUpdateProperty_ok {property : Property}
    (isUpdated : deviceUpdateProperty device property = .ok updated) :
    updated.id = device.id ∧ updated.isCentral = device.isCentral ∧
      updated.connectionState =
        ((connectedIn [property]).map stateOf).getD device.connectionState := by
  cases property with
  | name value =>
      simp only [deviceUpdateProperty] at isUpdated
      split at isUpdated
      · cases isUpdated
      · cases isUpdated
        exact ⟨rfl, rfl, rfl⟩
  | _ =>
      cases isUpdated
      exact ⟨rfl, rfl, rfl⟩

theorem deviceUpdateProperty_error {property : Property}
    (isFault : deviceUpdateProperty device property = .error fault) : fault = .assertion := by
  cases property with
  | name value =>
      simp only [deviceUpdateProperty] at isFault
      split at isFault
      · cases isFault
        rfl
      · cases isFault
  | _ => cases isFault

theorem connectedIn_cons (property : Property) (properties : List Property) :
    connectedIn (property :: properties) =
      (connectedIn properties).or (connectedIn [property]) := by
  cases property <;> simp [connectedIn]

/-- Only properties change a connection, and the last one decides. -/
theorem deviceUpdate_ok (isUpdated : deviceUpdate device properties = .ok updated) :
    updated.id = device.id ∧ updated.isCentral = device.isCentral ∧
      updated.connectionState =
        ((connectedIn properties).map stateOf).getD device.connectionState := by
  induction properties generalizing device with
  | nil =>
      cases isUpdated
      exact ⟨rfl, rfl, rfl⟩
  | cons property properties inductionHypothesis =>
      rw [deviceUpdate, List.foldlM_cons] at isUpdated
      cases isFirst : deviceUpdateProperty device property with
      | error fault =>
          rw [isFirst] at isUpdated
          cases isUpdated
      | ok first =>
          rw [isFirst] at isUpdated
          obtain ⟨firstId, firstCentral, firstState⟩ := deviceUpdateProperty_ok isFirst
          obtain ⟨restId, restCentral, restState⟩ := inductionHypothesis isUpdated
          refine ⟨restId.trans firstId, restCentral.trans firstCentral, ?_⟩
          rw [restState, firstState, connectedIn_cons property properties]
          cases connectedIn properties <;> rfl

theorem deviceUpdate_error (isFault : deviceUpdate device properties = .error fault) :
    fault = .assertion := by
  induction properties generalizing device with
  | nil => cases isFault
  | cons property properties inductionHypothesis =>
      rw [deviceUpdate, List.foldlM_cons] at isFault
      cases isFirst : deviceUpdateProperty device property with
      | error other =>
          rw [isFirst] at isFault
          cases isFault
          exact deviceUpdateProperty_error isFirst
      | ok first =>
          rw [isFirst] at isFault
          exact inductionHypothesis isFault

/-! ## What the functions do -/

def typeOf (connected : Bool) : GapEventType := if connected then .connect else .disconnect

/-- The application is told that a device is connected or disconnected. -/
def Central.tell (central : Central) (path : Text) (id : Nat) (connected : Bool) : Central :=
  let event : GapEvent := ⟨0, some (typeOf connected), bleConnHandle, bleRoleServer⟩
  { central with
    sgDevice := if connected then some ⟨path, id⟩ else none
    trace := .told path event :: central.trace }

theorem onCentralStateChanged_ok {connected : Bool}
    (isState : device.connectionState = stateOf connected)
    (isOk : onCentralStateChanged central path device = .ok after) :
    after = central.tell path device.id connected := by
  unfold onCentralStateChanged at isOk
  rw [isState] at isOk
  cases connected with
  | true =>
      simp only [stateOf, if_true] at isOk
      split at isOk
      · cases isOk
        rfl
      · cases isOk
  | false =>
      cases isOk
      rfl

theorem onCentralStateChanged_error
    (isFault : onCentralStateChanged central path device = .error fault) : fault = .assertion := by
  unfold onCentralStateChanged at isFault
  cases isState : device.connectionState with
  | connected =>
      simp only [isState] at isFault
      split at isFault
      · cases isFault
      · cases isFault
        rfl
  | _ =>
      simp only [isState] at isFault
      cases isFault

/-- A device for this adapter takes the place of the one at its path, and is a central's
when it is connected and was not found by a search. -/
theorem deviceAppeared_ok (isOk : deviceAppeared central object properties = .ok after) :
    after = central ∨
    ∃ device, deviceUpdate (deviceCreate central.created) properties = .ok device ∧
      let inserted := central.create object device (report object properties ++ [.added object])
      let marked := { device with isCentral := true }
      after = inserted ∨ (device.connectionState = .connected ∧
        after = (inserted.put object marked).tell object device.id true) := by
  unfold deviceAppeared at isOk
  split at isOk
  · cases isUpdated : deviceUpdate (deviceCreate central.created) properties with
    | error fault =>
        rw [isUpdated] at isOk
        cases isOk
    | ok device =>
        rw [isUpdated] at isOk
        refine .inr ⟨device, rfl, ?_⟩
        simp only [bind, Except.bind] at isOk
        split at isOk
        · next looks =>
            have isConnected : device.connectionState = stateOf true := (of_decide_eq_true looks).1
            exact .inr ⟨isConnected, onCentralStateChanged_ok isConnected isOk⟩
        · cases isOk
          exact .inl rfl
  · cases isOk
    exact .inl rfl

theorem deviceAppeared_error (isFault : deviceAppeared central object properties = .error fault) :
    fault = .assertion := by
  unfold deviceAppeared at isFault
  split at isFault
  · cases isUpdated : deviceUpdate (deviceCreate central.created) properties with
    | error other =>
        rw [isUpdated] at isFault
        cases isFault
        exact deviceUpdate_error isUpdated
    | ok device =>
        rw [isUpdated] at isFault
        simp only [bind, Except.bind] at isFault
        split at isFault
        · exact onCentralStateChanged_error isFault
        · cases isFault
  · cases isFault

theorem markCentral_keeps (device : Device) :
    (markCentral device).id = device.id ∧
      (markCentral device).connectionState = device.connectionState ∧
      (device.isCentral → (markCentral device).isCentral) := by
  unfold markCentral
  split
  · exact ⟨rfl, rfl, fun _ => rfl⟩
  · exact ⟨rfl, rfl, fun isCentral => isCentral⟩

/-- A device that is known is updated, and its new state told when it is a central's. -/
theorem deviceChanged_ok (isOk : deviceChanged central path properties = .ok after) :
    after = central ∨
    (central.devicesCache.lookup path = none ∧
      after = (central.create path (deviceCreate central.created) []).call .getAll
        ⟨path, central.created⟩) ∨
    ∃ device marked, central.devicesCache.lookup path = some device ∧ marked.id = device.id ∧
      (device.isCentral → marked.isCentral) ∧
      marked.connectionState =
        ((connectedIn properties).map stateOf).getD device.connectionState ∧
      let changed := (central.put path marked).log (report path properties)
      ((marked.isCentral = false ∨ marked.connectionState = device.connectionState) ∧
        after = changed) ∨
      ∃ connected, connectedIn properties = some connected ∧ marked.isCentral ∧
        device.connectionState ≠ stateOf connected ∧
        after = changed.tell path device.id connected := by
  unfold deviceChanged at isOk
  cases isFound : central.devicesCache.lookup path with
  | none =>
      simp only [isFound] at isOk
      split at isOk
      · cases isOk
        exact .inr (.inl ⟨rfl, rfl⟩)
      · cases isOk
        exact .inl rfl
  | some device =>
      simp only [isFound] at isOk
      cases isUpdated : deviceUpdate device properties with
      | error fault =>
          rw [isUpdated] at isOk
          cases isOk
      | ok updated =>
          rw [isUpdated] at isOk
          obtain ⟨sameId, sameCentral, isState⟩ := deviceUpdate_ok isUpdated
          simp only [bind, Except.bind] at isOk
          obtain ⟨markedId, markedState, markedCentral⟩ := markCentral_keeps updated
          rw [isState] at markedState
          refine .inr (.inr ⟨device, markCentral updated, rfl, markedId.trans sameId,
            fun isCentral => markedCentral (sameCentral ▸ isCentral), markedState, ?_⟩)
          split at isOk
          · next isTold =>
              obtain ⟨isCentral, isNew⟩ := isTold
              rw [markedState] at isNew
              cases isSaid : connectedIn properties with
              | none =>
                  rw [isSaid] at isNew
                  exact absurd rfl isNew
              | some connected =>
                  rw [isSaid] at isNew markedState
                  have isTold := onCentralStateChanged_ok markedState isOk
                  rw [markedId, sameId] at isTold
                  exact .inr ⟨connected, rfl, isCentral, isNew, isTold⟩
          · next notTold =>
              cases isOk
              refine .inl ⟨?_, rfl⟩
              rcases not_and_or.mp notTold with notCentral | isSame
              · exact .inl (Bool.eq_false_iff.mpr notCentral)
              · exact .inr (not_not.mp isSame).symm

theorem deviceChanged_error (isFault : deviceChanged central path properties = .error fault) :
    fault = .assertion := by
  unfold deviceChanged at isFault
  cases isFound : central.devicesCache.lookup path with
  | none =>
      simp only [isFound] at isFault
      split at isFault <;> cases isFault
  | some device =>
      simp only [isFound] at isFault
      cases isUpdated : deviceUpdate device properties with
      | error other =>
          rw [isUpdated] at isFault
          cases isFault
          exact deviceUpdate_error isUpdated
      | ok updated =>
          rw [isUpdated] at isFault
          simp only [bind, Except.bind] at isFault
          split at isFault
          · exact onCentralStateChanged_error isFault
          · cases isFault

theorem deviceGetallPropertiesCb_ok {pointer : Pointer} {result : Option (List Property)}
    (isOk : deviceGetallPropertiesCb central pointer result = .ok after) :
    ∃ device, central.find pointer = some device ∧ ((result = none ∧ after = central) ∨
      ∃ properties updated, result = some properties ∧
        deviceUpdate device properties = .ok updated ∧
        after = (central.put pointer.path updated).log (report pointer.path properties)) := by
  unfold deviceGetallPropertiesCb at isOk
  cases isFound : central.find pointer with
  | none => simp [isFound] at isOk
  | some device =>
      refine ⟨device, rfl, ?_⟩
      cases result with
      | none =>
          simp only [isFound] at isOk
          cases isOk
          exact .inl ⟨rfl, rfl⟩
      | some properties =>
          simp only [isFound] at isOk
          cases isUpdated : deviceUpdate device properties with
          | error fault =>
              rw [isUpdated] at isOk
              cases isOk
          | ok updated =>
              rw [isUpdated] at isOk
              cases isOk
              exact .inr ⟨properties, updated, rfl, isUpdated, rfl⟩

theorem deviceGetallPropertiesCb_freed {pointer : Pointer} {result : Option (List Property)} :
    deviceGetallPropertiesCb central pointer result = .error .freedDevice ↔
      central.find pointer = none := by
  unfold deviceGetallPropertiesCb
  cases isFound : central.find pointer with
  | none => simp
  | some device =>
      cases result with
      | none => simp
      | some properties =>
          cases isUpdated : deviceUpdate device properties with
          | error fault =>
              have isAssertion := deviceUpdate_error isUpdated
              simp [isUpdated, isAssertion, bind, Except.bind]
          | ok updated => simp [isUpdated, bind, Except.bind]

theorem deviceDisconnectCb_ok {pointer : Pointer} {failed : Bool}
    (isOk : deviceDisconnectCb central pointer failed = .ok after) :
    ∃ device, central.find pointer = some device ∧ ((failed = false ∧ after = central) ∨
      (failed = true ∧
        after = central.put pointer.path { device with connectionState := .connected })) := by
  unfold deviceDisconnectCb at isOk
  cases isFound : central.find pointer with
  | none => simp [isFound] at isOk
  | some device =>
      refine ⟨device, rfl, ?_⟩
      simp only [isFound] at isOk
      cases failed <;> cases isOk
      · exact .inl ⟨rfl, rfl⟩
      · exact .inr ⟨rfl, rfl⟩

theorem deviceDisconnectCb_freed {pointer : Pointer} {failed : Bool} :
    deviceDisconnectCb central pointer failed = .error .freedDevice ↔
      central.find pointer = none := by
  unfold deviceDisconnectCb
  cases isFound : central.find pointer <;> cases failed <;> simp

theorem bluezIncDisconnect_ok (isOk : bluezIncDisconnect central = .ok after) :
    after = central ∨ ∃ pointer device, central.sgDevice = some pointer ∧
      central.find pointer = some device ∧ device.connectionState = .connected ∧
      after = (central.put pointer.path { device with connectionState := .disconnecting }).call
        .disconnect pointer := by
  unfold bluezIncDisconnect at isOk
  split at isOk
  · next pointer isDevice =>
      unfold deviceDisconnect at isOk
      cases isFound : central.find pointer with
      | none => simp [isFound] at isOk
      | some device =>
          simp only [isFound] at isOk
          split at isOk
          · next isConnected =>
              cases isOk
              exact .inr ⟨pointer, device, isDevice, isFound, isConnected, rfl⟩
          · cases isOk
            exact .inl rfl
  · cases isOk
    exact .inl rfl

theorem bluezIncDisconnect_freed :
    bluezIncDisconnect central = .error .freedDevice ↔
      ∃ pointer, central.sgDevice = some pointer ∧ central.find pointer = none := by
  unfold bluezIncDisconnect
  cases isDevice : central.sgDevice with
  | none => simp
  | some pointer =>
      unfold deviceDisconnect
      cases isFound : central.find pointer with
      | none => simp [isFound]
      | some device =>
          by_cases isConnected : device.connectionState = .connected <;> simp [isFound, isConnected]

/-! ## The start -/

/-- There are devices, and nothing was called or told yet. -/
structure Started (central : Central) : Prop where
  ids : ∀ path device, central.devicesCache.lookup path = some device →
    device.id < central.created
  pending : central.pending = ∅
  sgDevice : central.sgDevice = none
  trace : central.trace = []

theorem Started.findAll {objects : List (Text × List Property)} (started : Started central)
    (isOk : findAll central objects = .ok after) : Started after := by
  induction objects generalizing central with
  | nil =>
      cases isOk
      exact started
  | cons object objects inductionHypothesis =>
      rw [BincAdapter.findAll, List.foldlM_cons] at isOk
      cases isUpdated : deviceUpdate (deviceCreate central.created) object.2 with
      | error fault =>
          simp only [isUpdated, bind, Except.bind] at isOk
          cases isOk
      | ok device =>
          rw [isUpdated] at isOk
          change BincAdapter.findAll (central.create object.1 device []) objects = .ok after at isOk
          suffices created : Started (central.create object.1 device []) from
            inductionHypothesis created isOk
          refine ⟨?_, started.pending, started.sgDevice, started.trace⟩
          intro path found isFound
          change (central.devicesCache.insert object.1 device).lookup path = some found at isFound
          rw [lookup_insert_if] at isFound
          split at isFound
          · rw [← Option.some.inj isFound, (deviceUpdate_ok isUpdated).1]
            exact Nat.lt_succ_self _
          · exact (started.ids path found isFound).trans (Nat.lt_succ_self _)

theorem started_start {adapterPath : Text} {objects : List (Text × List Property)}
    (isStart : start adapterPath objects = .ok central) : Started central := by
  refine Started.findAll ⟨fun path device isFound => ?_, rfl, rfl, rfl⟩ isStart
  cases (AList.lookup_empty path).symm.trans isFound

end TuyaAdapter.BincAdapter
