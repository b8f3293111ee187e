import TuyaAdapter.Foundation.Decimal
import TuyaAdapter.Foundation.KeyedTable

/-!
Contract: the GATT server of `application.c`.

An object is named by its place in the tables, that is by the UUIDs it is stored
under; a hash table is a table with one value per key. The D-Bus connection is a
parameter as far as it may refuse a registration or a signal: it keeps one object
per path and interface, numbers registrations from 1 on, and hands a method call
to the object that was registered. Arguments that are `NULL` are refused like
UUIDs that are not valid, and memory is always found. The registration of the
application itself, and the reading of properties, are left out.
-/

namespace TuyaAdapter.BincApplication

open Foundation.Decimal Foundation.KeyedTable

abbrev Bytes := List UInt8

def einval : Int := 22

/-! ## UUIDs and addresses -/

def isHexDigit (char : Char) : Bool :=
  char.isDigit || ('a' ≤ char && char ≤ 'f') || ('A' ≤ char && char ≤ 'F')

/-- `g_uuid_string_is_valid`. -/
def gUuidStringIsValid (uuid : Text) : Bool :=
  uuid.length == 36 && uuid.zipIdx.all fun place =>
    if [8, 13, 18, 23].contains place.2 then place.1 == '-' else isHexDigit place.1

def isLowercase (str : Text) : Bool := str.all fun char => !char.isUpper

def isValidUuid (uuid : Text) : Bool := gUuidStringIsValid uuid && isLowercase uuid

/-- The last 17 characters of a device's path; a path is longer than that. -/
def pathToAddress (path : Text) : Text :=
  (path.drop (path.length - 17)).map fun char => if char == '_' then ':' else char

/-! ## The connection -/

/-- An object that is registered on the connection. -/
structure Exported where
  id : Nat
  path : Text
  interface : Text
deriving DecidableEq, Repr

structure Connection where
  exported : List Exported
  lastId : Nat
deriving DecidableEq, Repr

/-- The first interface of `service_xml`. -/
def serviceInterface : Text := "org.freedesktop.DBus.Properties".toList

/-- The first interface of `characteristic_xml`. -/
def characteristicInterface : Text := "org.bluez.GattCharacteristic1".toList

/-- The interface of `descriptor_xml`. -/
def descriptorInterface : Text := "org.bluez.GattDescriptor1".toList

/-- The object that is registered for the path and the interface. -/
def Connection.find (connection : Connection) (path interface : Text) : Option Exported :=
  connection.exported.find? fun object => object.path == path && object.interface == interface

/-- `g_dbus_connection_register_object`: the id, unless the place is taken or the
connection refuses. -/
def Connection.registerObject (connection : Connection) (path interface : Text)
    (refused : Bool) : Option (Nat × Connection) :=
  if refused || (connection.find path interface).isSome then none
  else
    let id := connection.lastId + 1
    some (id, ⟨⟨id, path, interface⟩ :: connection.exported, id⟩)

/-- `g_dbus_connection_unregister_object`. -/
def Connection.unregisterObject (connection : Connection) (id : Nat) : Connection :=
  { connection with exported := connection.exported.filter fun object => object.id != id }

/-! ## Local objects -/

structure LocalDescriptor where
  path : Text
  charPath : Text
  uuid : Text
  charUuid : Text
  serviceUuid : Text
  registrationId : Nat
  value : Option Bytes
  flags : List Text

structure LocalCharacteristic where
  serviceUuid : Text
  servicePath : Text
  uuid : Text
  path : Text
  registrationId : Nat
  value : Option Bytes
  permissions : UInt32
  flags : List Text
  notifying : Bool
  descriptors : Table Text LocalDescriptor

structure LocalService where
  path : Text
  uuid : Text
  registrationId : Nat
  characteristics : Table Text LocalCharacteristic

/-- Where a value is: the UUIDs of its characteristic or descriptor. -/
inductive Attribute where
  | characteristic (serviceUuid charUuid : Text)
  | descriptor (serviceUuid charUuid descUuid : Text)
deriving DecidableEq, Repr

/-- What the application does that its user or a client can see. -/
inductive Event where
  | addedService (serviceUuid : Text)
  | addedCharacteristic (serviceUuid charUuid : Text)
  /-- The characteristic could not be registered, and none is left. -/
  | removedCharacteristic (serviceUuid charUuid : Text)
  | addedDescriptor (serviceUuid charUuid descUuid : Text)
  | removedDescriptor (serviceUuid charUuid descUuid : Text)
  /-- A value was set; `on_char_updated` is called for a characteristic. -/
  | updated (place : Attribute) (value : Bytes)
  | startedNotify (serviceUuid charUuid : Text)
  | stoppedNotify (serviceUuid charUuid : Text)
  /-- The reply to a read. -/
  | answered (place : Attribute) (value : Bytes)
  /-- The empty reply to a write or a confirmation. -/
  | accepted (place : Attribute)
  | failed (place : Attribute) (error message : Text)
  /-- The `PropertiesChanged` signal with a new value. -/
  | emitted (path : Text) (value : Bytes)
deriving DecidableEq, Repr

/-- The callbacks that a user can set. -/
inductive Callback where
  | charWrite | charRead | charUpdated | charStartNotify | charStopNotify | descWrite | descRead
deriving DecidableEq, Repr

structure Application where
  path : Text
  connection : Connection
  services : Table Text LocalService
  callbacks : List Callback
  log : List Event

def Application.emit (application : Application) (event : Event) : Application :=
  { application with log := application.log ++ [event] }

/-- `binc_create_application`, on a connection without objects under the path. -/
def createApplication (path : Text) : Application := ⟨path, ⟨[], 0⟩, ∅, [], []⟩

/-- `g_strdup_printf("%s/<name>%d", parent, number)`. -/
def childPath (parent name : Text) (number : Nat) : Text :=
  parent ++ '/' :: (name ++ Nat.toDigits 10 number)

/-! ## Freeing -/

def unregisterIfSet (connection : Connection) (registrationId : Nat) : Connection :=
  if registrationId ≠ 0 then connection.unregisterObject registrationId else connection

def localDescFree (connection : Connection) (descriptor : LocalDescriptor) : Connection :=
  unregisterIfSet connection descriptor.registrationId

/-- `g_hash_table_destroy`, with what a table does to its values. -/
def hashTableDestroy {Value : Type} (destroy : Connection → Value → Connection)
    (connection : Connection) (table : Table Text Value) : Connection :=
  table.entries.foldl (fun connection entry => destroy connection entry.2) connection

def localCharFree (connection : Connection) (characteristic : LocalCharacteristic) : Connection :=
  unregisterIfSet (hashTableDestroy localDescFree connection characteristic.descriptors)
    characteristic.registrationId

def localServiceFree (connection : Connection) (service : LocalService) : Connection :=
  unregisterIfSet (hashTableDestroy localCharFree connection service.characteristics)
    service.registrationId

/-- `binc_application_free`, as far as the connection goes. -/
def applicationFree (application : Application) : Connection :=
  hashTableDestroy localServiceFree application.connection application.services

/-- The value that `g_hash_table_insert` and `g_hash_table_remove` destroy. -/
def destroyOld {Value : Type} (destroy : Connection → Value → Connection)
    (connection : Connection) (table : Table Text Value) (key : Text) : Connection :=
  match table.lookup key with
  | some old => destroy connection old
  | none => connection

/-! ## Looking up -/

def Application.getService (application : Application) (serviceUuid : Text) :
    Option LocalService :=
  if isValidUuid serviceUuid then application.services.lookup serviceUuid else none

def Application.getLocalCharacteristic (application : Application) (serviceUuid charUuid : Text) :
    Option LocalCharacteristic :=
  if isValidUuid serviceUuid && isValidUuid charUuid then
    (application.getService serviceUuid).bind fun service => service.characteristics.lookup charUuid
  else none

def Application.getLocalDescriptor (application : Application)
    (serviceUuid charUuid descUuid : Text) : Option LocalDescriptor :=
  if isValidUuid serviceUuid && isValidUuid charUuid && isValidUuid descUuid then
    (application.getLocalCharacteristic serviceUuid charUuid).bind fun characteristic =>
      characteristic.descriptors.lookup descUuid
  else none

/-- Change a characteristic through its pointer. -/
def Application.modifyCharacteristic (application : Application) (serviceUuid charUuid : Text)
    (change : LocalCharacteristic → LocalCharacteristic) : Application :=
  { application with
    services := modify application.services serviceUuid fun service =>
      { service with characteristics := modify service.characteristics charUuid change } }

/-- Change a descriptor through its pointer. -/
def Application.modifyDescriptor (application : Application) (serviceUuid charUuid descUuid : Text)
    (change : LocalDescriptor → LocalDescriptor) : Application :=
  application.modifyCharacteristic serviceUuid charUuid fun characteristic =>
    { characteristic with descriptors := modify characteristic.descriptors descUuid change }

/-! ## Adding -/

/-- A `GATT_CHR_PROP_*` bit and its flag. -/
def permissionFlags : List (UInt32 × String) :=
  [(0x02, "read"), (0x04, "write-without-response"), (0x08, "write"), (0x10, "notify"),
    (0x20, "indicate"), (0x0100, "encrypt-read"), (0x0200, "encrypt-write"),
    (0x0400, "encrypt-notify"), (0x0800, "encrypt-indicate"),
    (0x1000, "encrypt-authenticated-read"), (0x2000, "encrypt-authenticated-write"),
    (0x4000, "encrypt-authenticated-notify"), (0x8000, "encrypt-authenticated-indicate"),
    (0x100000, "secure-read"), (0x200000, "secure-write"), (0x400000, "secure-notify"),
    (0x800000, "secure-indicate")]

def permissions2Flags (permissions : UInt32) : List Text :=
  (permissionFlags.filter fun flag => permissions &&& flag.1 != 0).map fun flag => flag.2.toList

/-- `none` is undefined behaviour: a service that cannot be registered is freed
when it is taken out of the table, and then once more. -/
def addService (application : Application) (serviceUuid : Text) (refused : Bool) :
    Option (Application × Int) :=
  if isValidUuid serviceUuid then
    let path := childPath application.path "service".toList (size application.services)
    let freed := destroyOld localServiceFree application.connection application.services serviceUuid
    match freed.registerObject path serviceInterface refused with
    | none => none
    | some (registrationId, connection) =>
        let localService : LocalService := ⟨path, serviceUuid, registrationId, ∅⟩
        let services := application.services.insert serviceUuid localService
        some ({ application with connection, services }.emit (.addedService serviceUuid), 0)
  else some (application, einval)

/-- Put a characteristic into the table of a service, or take it out. -/
def Application.setCharacteristics (application : Application) (serviceUuid : Text)
    (connection : Connection)
    (change : Table Text LocalCharacteristic → Table Text LocalCharacteristic) : Application :=
  { application with
    connection
    services := modify application.services serviceUuid fun service =>
      { service with characteristics := change service.characteristics } }

def addCharacteristic (application : Application) (serviceUuid charUuid : Text)
    (permissions : UInt32) (refused : Bool) : Application × Int :=
  if isValidUuid serviceUuid && isValidUuid charUuid then
    match application.getService serviceUuid with
    | none => (application, einval)
    | some localService =>
        let path := childPath localService.path "char".toList (size localService.characteristics)
        let freed :=
          destroyOld localCharFree application.connection localService.characteristics charUuid
        match freed.registerObject path characteristicInterface refused with
        | none =>
            ((application.setCharacteristics serviceUuid freed fun table => table.erase charUuid).emit
              (.removedCharacteristic serviceUuid charUuid), einval)
        | some (registrationId, connection) =>
            let characteristic : LocalCharacteristic :=
              { serviceUuid, servicePath := localService.path, uuid := charUuid, path,
                registrationId, value := none, permissions, flags := permissions2Flags permissions,
                notifying := false, descriptors := ∅ }
            ((application.setCharacteristics serviceUuid connection fun table =>
              table.insert charUuid characteristic).emit
                (.addedCharacteristic serviceUuid charUuid), 0)
  else (application, einval)

/-- Put a descriptor into the table of a characteristic, or take it out. -/
def Application.setDescriptors (application : Application) (serviceUuid charUuid : Text)
    (connection : Connection)
    (change : Table Text LocalDescriptor → Table Text LocalDescriptor) : Application :=
  { application.modifyCharacteristic serviceUuid charUuid fun characteristic =>
      { characteristic with descriptors := change characteristic.descriptors } with
    connection }

/-- The UUID of the descriptor is not checked. -/
def addDescriptor (application : Application) (serviceUuid charUuid descUuid : Text)
    (permissions : UInt32) (refused : Bool) : Application × Int :=
  if isValidUuid serviceUuid then
    match application.getLocalCharacteristic serviceUuid charUuid with
    | none => (application, einval)
    | some characteristic =>
        let path := childPath characteristic.path "desc".toList (size characteristic.descriptors)
        let freed :=
          destroyOld localDescFree application.connection characteristic.descriptors descUuid
        match freed.registerObject path descriptorInterface refused with
        | none =>
            ((application.setDescriptors serviceUuid charUuid freed fun table =>
              table.erase descUuid).emit (.removedDescriptor serviceUuid charUuid descUuid), einval)
        | some (registrationId, connection) =>
            let descriptor : LocalDescriptor :=
              { path, charPath := characteristic.path, uuid := descUuid, charUuid, serviceUuid,
                registrationId, value := none, flags := permissions2Flags permissions }
            ((application.setDescriptors serviceUuid charUuid connection fun table =>
              table.insert descUuid descriptor).emit
                (.addedDescriptor serviceUuid charUuid descUuid), 0)
  else (application, einval)

/-! ## Values -/

def characteristicSetValue (application : Application) (characteristic : LocalCharacteristic)
    (byteArray : Bytes) : Application × Int :=
  ((application.modifyCharacteristic characteristic.serviceUuid characteristic.uuid
    fun characteristic => { characteristic with value := some byteArray }).emit
      (.updated (.characteristic characteristic.serviceUuid characteristic.uuid) byteArray), 0)

def descriptorSetValue (application : Application) (descriptor : LocalDescriptor)
    (byteArray : Bytes) : Application × Int :=
  ((application.modifyDescriptor descriptor.serviceUuid descriptor.charUuid descriptor.uuid
    fun descriptor => { descriptor with value := some byteArray }).emit
      (.updated (.descriptor descriptor.serviceUuid descriptor.charUuid descriptor.uuid)
        byteArray), 0)

def setCharValue (application : Application) (serviceUuid charUuid : Text) (byteArray : Bytes) :
    Application × Int :=
  if isValidUuid serviceUuid && isValidUuid charUuid then
    match application.getLocalCharacteristic serviceUuid charUuid with
    | none => (application, einval)
    | some characteristic => characteristicSetValue application characteristic byteArray
  else (application, einval)

def setDescValue (application : Application) (serviceUuid charUuid descUuid : Text)
    (byteArray : Bytes) : Application × Int :=
  if isValidUuid serviceUuid && isValidUuid charUuid then
    match application.getLocalDescriptor serviceUuid charUuid descUuid with
    | none => (application, einval)
    | some descriptor => descriptorSetValue application descriptor byteArray
  else (application, einval)

def getCharValue (application : Application) (serviceUuid charUuid : Text) : Option Bytes :=
  if gUuidStringIsValid serviceUuid && gUuidStringIsValid charUuid then
    (application.getLocalCharacteristic serviceUuid charUuid).bind LocalCharacteristic.value
  else none

def charIsNotifying (application : Application) (serviceUuid charUuid : Text) : Bool :=
  if isValidUuid serviceUuid && isValidUuid charUuid then
    match application.getLocalCharacteristic serviceUuid charUuid with
    | none => false
    | some characteristic => characteristic.notifying
  else false

/-- Whether a client asked for notifications is not looked at. -/
def notify (application : Application) (serviceUuid charUuid : Text) (byteArray : Bytes)
    (refused : Bool) : Application × Int :=
  if isValidUuid serviceUuid && isValidUuid charUuid then
    match application.getLocalCharacteristic serviceUuid charUuid with
    | none => (application, einval)
    | some characteristic =>
        if refused then (application, einval)
        else (application.emit (.emitted characteristic.path byteArray), 0)
  else (application, einval)

/-! ## Method calls -/

/-- What a callback does: it sets values of characteristics, and it may return an
error. -/
structure Verdict where
  sets : List (Text × Text × Bytes)
  error : Option Text
deriving DecidableEq, Repr

def Verdict.accept : Verdict := ⟨[], none⟩

/-- The callbacks that decide on reads and writes; an address is missing when the
client's options have no device. The other callbacks leave the application
alone. -/
structure Callbacks where
  onCharRead : Option Text → Text → Text → Verdict
  onCharWrite : Option Text → Text → Text → Bytes → Verdict
  onDescRead : Option Text → Text → Text → Text → Verdict
  onDescWrite : Option Text → Text → Text → Text → Bytes → Verdict

/-- The verdict of a callback, when the user has set it. -/
def Application.ask (application : Application) (callback : Callback) (verdict : Verdict) :
    Verdict :=
  if application.callbacks.contains callback then verdict else .accept

def Application.doSets (application : Application) (verdict : Verdict) : Application :=
  verdict.sets.foldl (fun application set =>
    (setCharValue application set.1 set.2.1 set.2.2).1) application

/-- A method with the `device` of its options. -/
inductive Method where
  | readValue (device : Option Text)
  | writeValue (value : Bytes) (device : Option Text)
  | startNotify
  | stopNotify
  | confirm
deriving DecidableEq, Repr

/-- `BLUEZ_ERROR_FAILED`. -/
def errorFailed : Text := "org.bluez.Error.Failed".toList

/-- The end of a read, after the callback. -/
def returnValue (application : Application) (place : Attribute) (value : Option Bytes)
    (error : Option Text) (denied missing : String) : Application :=
  match error, value with
  | some error, _ => application.emit (.failed place error denied.toList)
  | none, some value => application.emit (.answered place value)
  | none, none => application.emit (.failed place errorFailed missing.toList)

/-- The end of a write, after the callback. -/
def returnWritten (application : Application) (place : Attribute) (error : Option Text)
    (setValue : Application → Application × Int) : Application :=
  match error with
  | some error => application.emit (.failed place error "write error".toList)
  | none => (setValue application).1.emit (.accepted place)

/-- What a pointer to the characteristic reads. -/
def Application.characteristicValue (application : Application)
    (characteristic : LocalCharacteristic) : Option Bytes :=
  (application.services.lookup characteristic.serviceUuid).bind fun service =>
    (service.characteristics.lookup characteristic.uuid).bind LocalCharacteristic.value

/-- The value is read after the callback, which may have set it. -/
def internalCharacteristicMethodCall (application : Application) (callbacks : Callbacks)
    (characteristic : LocalCharacteristic) : Method → Application
  | .readValue device =>
      let verdict := application.ask .charRead
        (callbacks.onCharRead (device.map pathToAddress) characteristic.serviceUuid
          characteristic.uuid)
      let after := application.doSets verdict
      returnValue after (.characteristic characteristic.serviceUuid characteristic.uuid)
        (after.characteristicValue characteristic) verdict.error "read characteristic error"
        "no value"
  | .writeValue value device =>
      let verdict := application.ask .charWrite
        (callbacks.onCharWrite (device.map pathToAddress) characteristic.serviceUuid
          characteristic.uuid value)
      returnWritten (application.doSets verdict)
        (.characteristic characteristic.serviceUuid characteristic.uuid) verdict.error
        fun application => characteristicSetValue application characteristic value
  | .startNotify =>
      (application.modifyCharacteristic characteristic.serviceUuid characteristic.uuid
        fun characteristic => { characteristic with notifying := true }).emit
          (.startedNotify characteristic.serviceUuid characteristic.uuid)
  | .stopNotify =>
      (application.modifyCharacteristic characteristic.serviceUuid characteristic.uuid
        fun characteristic => { characteristic with notifying := false }).emit
          (.stoppedNotify characteristic.serviceUuid characteristic.uuid)
  | .confirm =>
      application.emit (.accepted (.characteristic characteristic.serviceUuid characteristic.uuid))

/-- What a pointer to the descriptor reads. -/
def Application.descriptorValue (application : Application) (descriptor : LocalDescriptor) :
    Option Bytes :=
  (application.services.lookup descriptor.serviceUuid).bind fun service =>
    (service.characteristics.lookup descriptor.charUuid).bind fun characteristic =>
      (characteristic.descriptors.lookup descriptor.uuid).bind LocalDescriptor.value

/-- The interface of a descriptor has no other methods. -/
def internalDescriptorMethodCall (application : Application) (callbacks : Callbacks)
    (descriptor : LocalDescriptor) : Method → Application
  | .readValue device =>
      let verdict := application.ask .descRead
        (callbacks.onDescRead (device.map pathToAddress) descriptor.serviceUuid
          descriptor.charUuid descriptor.uuid)
      let after := application.doSets verdict
      returnValue after
        (.descriptor descriptor.serviceUuid descriptor.charUuid descriptor.uuid)
        (after.descriptorValue descriptor) verdict.error "read descriptor error"
        "no value for descriptor"
  | .writeValue value device =>
      let verdict := application.ask .descWrite
        (callbacks.onDescWrite (device.map pathToAddress) descriptor.serviceUuid
          descriptor.charUuid descriptor.uuid value)
      returnWritten (application.doSets verdict)
        (.descriptor descriptor.serviceUuid descriptor.charUuid descriptor.uuid) verdict.error
        fun application => descriptorSetValue application descriptor value
  | _ => application

def Application.characteristics (application : Application) : List LocalCharacteristic :=
  items (fun service => items (fun characteristic => [characteristic]) service.characteristics)
    application.services

def Application.descriptors (application : Application) : List LocalDescriptor :=
  items (fun service => items (fun characteristic =>
    items (fun descriptor => [descriptor]) characteristic.descriptors) service.characteristics)
    application.services

/-- A call on the interface of characteristics. The user data of an object is the
characteristic with its registration; `none` is a pointer to one that was freed.
A path without an object is answered by the connection. -/
def callCharacteristic (application : Application) (callbacks : Callbacks) (path : Text)
    (method : Method) : Option Application :=
  match application.connection.find path characteristicInterface with
  | none => some application
  | some object =>
      (application.characteristics.find? fun characteristic =>
        characteristic.registrationId == object.id).map fun characteristic =>
          internalCharacteristicMethodCall application callbacks characteristic method

/-- The same on the interface of descriptors. -/
def callDescriptor (application : Application) (callbacks : Callbacks) (path : Text)
    (method : Method) : Option Application :=
  match application.connection.find path descriptorInterface with
  | none => some application
  | some object =>
      (application.descriptors.find? fun descriptor =>
        descriptor.registrationId == object.id).map fun descriptor =>
          internalDescriptorMethodCall application callbacks descriptor method

/-! ## Managed objects -/

/-- An object with its properties, as `GetManagedObjects` lists it; a service is
always primary. -/
inductive ManagedObject where
  | service (path uuid : Text) (characteristics : List Text)
  | characteristic (path : Text) (value : Option Bytes) (uuid service : Text) (flags : List Text)
      (notifying : Bool) (descriptors : List Text)
  | descriptor (path : Text) (value : Option Bytes) (uuid characteristic : Text)
      (flags : List Text)
deriving DecidableEq, Repr

def addDescriptors (characteristic : LocalCharacteristic) : List ManagedObject :=
  items (fun descriptor =>
    [.descriptor descriptor.path descriptor.value descriptor.uuid descriptor.charPath
      descriptor.flags]) characteristic.descriptors

def addCharacteristics (service : LocalService) : List ManagedObject :=
  items (fun characteristic =>
    .characteristic characteristic.path characteristic.value characteristic.uuid service.path
      characteristic.flags characteristic.notifying
      (items (fun descriptor => [descriptor.path]) characteristic.descriptors) ::
      addDescriptors characteristic) service.characteristics

/-- `add_services`; the UUID of a service is its key. -/
def getManagedObjects (application : Application) : List ManagedObject :=
  application.services.entries.flatMap fun entry =>
    .service entry.2.path entry.1
      (items (fun characteristic => [characteristic.path]) entry.2.characteristics) ::
      addCharacteristics entry.2

/-! ## Runs -/

/-- What the user or a client does. -/
inductive Action where
  | setCallback (callback : Callback)
  | addService (serviceUuid : Text) (refused : Bool)
  | addCharacteristic (serviceUuid charUuid : Text) (permissions : UInt32) (refused : Bool)
  | addDescriptor (serviceUuid charUuid descUuid : Text) (permissions : UInt32) (refused : Bool)
  | setCharValue (serviceUuid charUuid : Text) (byteArray : Bytes)
  | setDescValue (serviceUuid charUuid descUuid : Text) (byteArray : Bytes)
  | notify (serviceUuid charUuid : Text) (byteArray : Bytes) (refused : Bool)
  | callCharacteristic (callbacks : Callbacks) (path : Text) (method : Method)
  | callDescriptor (callbacks : Callbacks) (path : Text) (method : Method)

def step (application : Application) : Action → Option Application
  | .setCallback callback =>
      some { application with callbacks := callback :: application.callbacks }
  | .addService serviceUuid refused => (addService application serviceUuid refused).map Prod.fst
  | .addCharacteristic serviceUuid charUuid permissions refused =>
      some (addCharacteristic application serviceUuid charUuid permissions refused).1
  | .addDescriptor serviceUuid charUuid descUuid permissions refused =>
      some (addDescriptor application serviceUuid charUuid descUuid permissions refused).1
  | .setCharValue serviceUuid charUuid byteArray =>
      some (setCharValue application serviceUuid charUuid byteArray).1
  | .setDescValue serviceUuid charUuid descUuid byteArray =>
      some (setDescValue application serviceUuid charUuid descUuid byteArray).1
  | .notify serviceUuid charUuid byteArray refused =>
      some (notify application serviceUuid charUuid byteArray refused).1
  | .callCharacteristic callbacks path method => callCharacteristic application callbacks path method
  | .callDescriptor callbacks path method => callDescriptor application callbacks path method

end TuyaAdapter.BincApplication
