import TuyaAdapter.BincApplication.Model
import TuyaAdapter.Foundation.Run

/-!
Owns the connection between the tables and the objects that are registered.

Between two operations the connection keeps exactly the objects of the tables:
every table entry has its registration, and what leaves a table is unregistered
with everything under it. A call therefore reaches an object that is still
there, and `GetManagedObjects` lists what the connection serves.
-/

namespace TuyaAdapter.BincApplication

open Foundation.Decimal Foundation.KeyedTable Foundation

/-! ## Registrations -/

def LocalDescriptor.exported (descriptor : LocalDescriptor) : Exported :=
  ⟨descriptor.registrationId, descriptor.path, descriptorInterface⟩

def LocalCharacteristic.exported (characteristic : LocalCharacteristic) : Exported :=
  ⟨characteristic.registrationId, characteristic.path, characteristicInterface⟩

def LocalService.exported (service : LocalService) : Exported :=
  ⟨service.registrationId, service.path, serviceInterface⟩

/-- The registrations of a characteristic and of its descriptors, in the order
in which they are given up. -/
def LocalCharacteristic.registrations (characteristic : LocalCharacteristic) : List Exported :=
  items (fun descriptor => [descriptor.exported]) characteristic.descriptors ++
    [characteristic.exported]

def LocalService.registrations (service : LocalService) : List Exported :=
  items LocalCharacteristic.registrations service.characteristics ++ [service.exported]

def Application.registrations (application : Application) : List Exported :=
  items LocalService.registrations application.services

/-- Where an object is registered. -/
def Exported.place (object : Exported) : Text × Text := (object.path, object.interface)

/-- The connection keeps these objects, with different ids and at different
places. -/
structure Connection.Keeps (connection : Connection) (objects : List Exported) : Prop where
  exported : connection.exported.Perm objects
  numbered : (objects.map Exported.id).Nodup
  bounded : ∀ object ∈ objects, 0 < object.id ∧ object.id ≤ connection.lastId
  placed : (objects.map Exported.place).Nodup

variable {connection next : Connection} {objects kept : List Exported} {object : Exported}
  {path interface : Text} {refused : Bool} {id : Nat}

theorem Connection.Keeps.perm (keeps : connection.Keeps objects) (same : objects.Perm kept) :
    connection.Keeps kept :=
  { exported := keeps.exported.trans same
    numbered := (same.map Exported.id).nodup_iff.mp keeps.numbered
    bounded := fun object member => keeps.bounded object (same.mem_iff.mpr member)
    placed := (same.map Exported.place).nodup_iff.mp keeps.placed }

theorem find_eq_none (keeps : connection.Keeps objects) (path interface : Text) :
    connection.find path interface = none ↔ (path, interface) ∉ objects.map Exported.place := by
  unfold Connection.find
  rw [List.find?_eq_none, List.mem_map]
  constructor
  · rintro nowhere ⟨object, member, isPlace⟩
    have isPath : object.path = path := congrArg Prod.fst isPlace
    have isInterface : object.interface = interface := congrArg Prod.snd isPlace
    have differs := nowhere object (keeps.exported.mem_iff.mpr member)
    rw [isPath, isInterface] at differs
    simp at differs
  · intro nowhere object member isPlace
    refine nowhere ⟨object, keeps.exported.mem_iff.mp member, ?_⟩
    rw [Bool.and_eq_true, beq_iff_eq, beq_iff_eq] at isPlace
    exact Prod.ext isPlace.1 isPlace.2

/-- A registration succeeds where it is not refused and the place is free. -/
theorem registerObject_eq_none (keeps : connection.Keeps objects) (path interface : Text)
    (refused : Bool) :
    connection.registerObject path interface refused = none ↔
      refused = true ∨ (path, interface) ∈ objects.map Exported.place := by
  have isFree := find_eq_none keeps path interface
  unfold Connection.registerObject
  cases refused with
  | true => simp
  | false =>
      cases isFound : connection.find path interface with
      | none =>
          rw [isFound] at isFree
          simpa using isFree
      | some object =>
          rw [isFound] at isFree
          simpa using isFree

theorem Connection.Keeps.register (keeps : connection.Keeps objects)
    (registered : connection.registerObject path interface refused = some (id, next)) :
    next.Keeps (⟨id, path, interface⟩ :: objects) := by
  have isFree : (path, interface) ∉ objects.map Exported.place := by
    intro taken
    rw [(registerObject_eq_none keeps _ _ _).mpr (Or.inr taken)] at registered
    cases registered
  unfold Connection.registerObject at registered
  split at registered
  · cases registered
  · cases registered
    have isNew : connection.lastId + 1 ∉ objects.map Exported.id := by
      intro member
      obtain ⟨object, isMember, isId⟩ := List.mem_map.mp member
      have := (keeps.bounded object isMember).2
      omega
    refine ⟨keeps.exported.cons _, List.nodup_cons.mpr ⟨isNew, keeps.numbered⟩, ?_,
      List.nodup_cons.mpr ⟨isFree, keeps.placed⟩⟩
    intro object member
    rcases List.mem_cons.mp member with isNewObject | isOld
    · rw [isNewObject]
      exact ⟨Nat.succ_pos _, Nat.le_refl _⟩
    · have := keeps.bounded object isOld
      exact ⟨this.1, Nat.le_succ_of_le this.2⟩

/-! ## Giving up registrations -/

def unregisterAll (connection : Connection) (freed : List Exported) : Connection :=
  freed.foldl (fun connection object => unregisterIfSet connection object.id) connection

theorem Connection.Keeps.unregister (keeps : connection.Keeps (object :: objects)) :
    (unregisterIfSet connection object.id).Keeps objects := by
  have isSet : object.id ≠ 0 := (keeps.bounded object List.mem_cons_self).1.ne'
  have differs := List.nodup_cons.mp keeps.numbered
  have others : ∀ other ∈ objects, (other.id != object.id) = true := by
    intro other member
    rw [bne_iff_ne]
    intro same
    exact differs.1 (same ▸ List.mem_map_of_mem member)
  have filtered : (connection.exported.filter fun other => other.id != object.id).Perm objects := by
    have perm := keeps.exported.filter fun other => other.id != object.id
    rwa [List.filter_cons_of_neg (by simp), List.filter_eq_self.mpr others] at perm
  unfold unregisterIfSet
  rw [if_pos isSet]
  exact ⟨filtered, differs.2, fun other member => keeps.bounded other (List.mem_cons_of_mem _ member),
    (List.nodup_cons.mp keeps.placed).2⟩

theorem Connection.Keeps.unregisterAll {freed : List Exported}
    (keeps : connection.Keeps (freed ++ kept)) :
    (unregisterAll connection freed).Keeps kept := by
  induction freed generalizing connection with
  | nil => exact keeps
  | cons object rest inductionHypothesis => exact inductionHypothesis keeps.unregister

theorem unregisterAll_append (connection : Connection) (first second : List Exported) :
    unregisterAll connection (first ++ second) =
      unregisterAll (unregisterAll connection first) second :=
  List.foldl_append

variable {Value : Type} {destroy : Connection → Value → Connection}
  {registrations : Value → List Exported}

/-- A destroyed table gives up what its values do. -/
theorem hashTableDestroy_eq
    (each : ∀ connection value, destroy connection value =
      unregisterAll connection (registrations value))
    (connection : Connection) (table : Table Text Value) :
    hashTableDestroy destroy connection table =
      unregisterAll connection (items registrations table) := by
  unfold hashTableDestroy items
  generalize table.entries = entries
  induction entries generalizing connection with
  | nil => rfl
  | cons entry rest inductionHypothesis =>
      rw [List.foldl_cons, inductionHypothesis, each, List.flatMap_cons, unregisterAll_append]

theorem destroyOld_eq
    (each : ∀ connection value, destroy connection value =
      unregisterAll connection (registrations value))
    (connection : Connection) (table : Table Text Value) (key : Text) :
    destroyOld destroy connection table key =
      unregisterAll connection (itemsAt registrations table key) := by
  unfold destroyOld itemsAt
  cases table.lookup key with
  | none => rfl
  | some old => exact each connection old

theorem localDescFree_eq (connection : Connection) (descriptor : LocalDescriptor) :
    localDescFree connection descriptor = unregisterAll connection [descriptor.exported] :=
  rfl

theorem localCharFree_eq (connection : Connection) (characteristic : LocalCharacteristic) :
    localCharFree connection characteristic =
      unregisterAll connection characteristic.registrations := by
  unfold localCharFree LocalCharacteristic.registrations
  rw [hashTableDestroy_eq localDescFree_eq, unregisterAll_append]
  rfl

theorem localServiceFree_eq (connection : Connection) (service : LocalService) :
    localServiceFree connection service = unregisterAll connection service.registrations := by
  unfold localServiceFree LocalService.registrations
  rw [hashTableDestroy_eq localCharFree_eq, unregisterAll_append]
  rfl

theorem applicationFree_eq (application : Application) :
    applicationFree application =
      unregisterAll application.connection application.registrations :=
  hashTableDestroy_eq localServiceFree_eq _ _

/-- When the old value of a key is destroyed, the connection keeps the rest. -/
theorem Connection.Keeps.destroyOld {table : Table Text Value}
    (each : ∀ connection value, destroy connection value =
      BincApplication.unregisterAll connection (registrations value))
    (keeps : connection.Keeps (items registrations table ++ kept)) (key : Text) :
    (destroyOld destroy connection table key).Keeps
      (items registrations (table.erase key) ++ kept) := by
  rw [destroyOld_eq each]
  apply Connection.Keeps.unregisterAll
  have split := (items_split registrations table key).append_right kept
  rw [List.append_assoc] at split
  exact keeps.perm split

/-! ## Applications -/

/-- Descriptors carry the UUIDs and the path they are stored under. -/
structure LocalCharacteristic.Named (serviceUuid charUuid servicePath : Text)
    (characteristic : LocalCharacteristic) : Prop where
  inService : characteristic.serviceUuid = serviceUuid
  isUuid : characteristic.uuid = charUuid
  underPath : characteristic.servicePath = servicePath
  valid : isValidUuid charUuid = true
  descriptors : ∀ descUuid descriptor, characteristic.descriptors.lookup descUuid = some descriptor →
    descriptor.serviceUuid = serviceUuid ∧ descriptor.charUuid = charUuid ∧
      descriptor.uuid = descUuid ∧ descriptor.charPath = characteristic.path

structure LocalService.Named (serviceUuid : Text) (service : LocalService) : Prop where
  isUuid : service.uuid = serviceUuid
  valid : isValidUuid serviceUuid = true
  characteristics : ∀ charUuid characteristic,
    service.characteristics.lookup charUuid = some characteristic →
      characteristic.Named serviceUuid charUuid service.path

/-- What holds between two operations. -/
structure Application.Consistent (application : Application) : Prop where
  keeps : application.connection.Keeps application.registrations
  named : ∀ serviceUuid service, application.services.lookup serviceUuid = some service →
    service.Named serviceUuid

variable {application after : Application} {serviceUuid charUuid descUuid : Text}
  {service : LocalService} {characteristic : LocalCharacteristic}

theorem createApplication_consistent (path : Text) : (createApplication path).Consistent :=
  { keeps := ⟨List.Perm.refl _, List.nodup_nil, by simp [Application.registrations, items,
      createApplication], List.nodup_nil⟩
    named := by
      intro serviceUuid service isFound
      simp [createApplication] at isFound }

theorem Application.Consistent.emit (consistent : application.Consistent) (event : Event) :
    (application.emit event).Consistent :=
  ⟨consistent.keeps, consistent.named⟩

/-- When the old service of a UUID is destroyed, the connection keeps the other services. -/
theorem Application.Consistent.destroyService (consistent : application.Consistent)
    (serviceUuid : Text) :
    (BincApplication.destroyOld localServiceFree application.connection application.services
      serviceUuid).Keeps
        (items LocalService.registrations (application.services.erase serviceUuid)) := by
  have start : application.connection.Keeps
      (items LocalService.registrations application.services ++ []) := by
    rw [List.append_nil]
    exact consistent.keeps
  have freed := start.destroyOld localServiceFree_eq serviceUuid
  rwa [List.append_nil] at freed

/-- A service is changed in its place, and the connection keeps what it then has. -/
theorem Application.Consistent.setService (consistent : application.Consistent)
    (isFound : application.services.lookup serviceUuid = some service)
    (change : LocalService → LocalService)
    (keeps : connection.Keeps ((change service).registrations ++
      items LocalService.registrations (application.services.erase serviceUuid)))
    (named : (change service).Named serviceUuid) :
    ({ application with
      connection
      services := modify application.services serviceUuid change } : Application).Consistent := by
  refine ⟨?_, ?_⟩
  · change connection.Keeps (items _ (modify _ _ _))
    rwa [items_modify_of_lookup isFound]
  · intro other otherService isOther
    change (modify _ _ _).lookup other = some otherService at isOther
    rw [lookup_modify] at isOther
    split at isOther
    · next same =>
        rw [isFound, Option.map_some, Option.some.injEq] at isOther
        rwa [same, ← isOther]
    · exact consistent.named other otherService isOther

theorem Application.Consistent.keepsService (consistent : application.Consistent)
    (isFound : application.services.lookup serviceUuid = some service) :
    application.connection.Keeps (service.registrations ++
      items LocalService.registrations (application.services.erase serviceUuid)) :=
  consistent.keeps.perm (items_of_lookup isFound)

/-- So is a characteristic of a service. -/
theorem Application.Consistent.setCharacteristic (consistent : application.Consistent)
    (isFound : application.services.lookup serviceUuid = some service)
    (isInside : service.characteristics.lookup charUuid = some characteristic)
    (change : LocalCharacteristic → LocalCharacteristic)
    (keeps : connection.Keeps ((change characteristic).registrations ++
      (items LocalCharacteristic.registrations (service.characteristics.erase charUuid) ++
        [service.exported] ++
        items LocalService.registrations (application.services.erase serviceUuid))))
    (named : (change characteristic).Named serviceUuid charUuid service.path) :
    ({ application.modifyCharacteristic serviceUuid charUuid change with
      connection } : Application).Consistent := by
  refine consistent.setService isFound _ ?_ ?_
  · change connection.Keeps (items _ (modify _ _ _) ++ _ ++ _)
    rw [items_modify_of_lookup isInside]
    refine keeps.perm (List.Perm.of_eq ?_)
    simp only [List.append_assoc]
    rfl
  · have isNamed := consistent.named serviceUuid service isFound
    refine ⟨isNamed.isUuid, isNamed.valid, ?_⟩
    intro other otherCharacteristic isOther
    change (modify _ _ _).lookup other = some otherCharacteristic at isOther
    rw [lookup_modify] at isOther
    split at isOther
    · next same =>
        rw [isInside, Option.map_some, Option.some.injEq] at isOther
        rwa [same, ← isOther]
    · exact isNamed.characteristics other otherCharacteristic isOther

theorem Application.Consistent.keepsCharacteristic (consistent : application.Consistent)
    (isFound : application.services.lookup serviceUuid = some service)
    (isInside : service.characteristics.lookup charUuid = some characteristic) :
    application.connection.Keeps (characteristic.registrations ++
      (items LocalCharacteristic.registrations (service.characteristics.erase charUuid) ++
        [service.exported] ++
        items LocalService.registrations (application.services.erase serviceUuid))) := by
  refine (consistent.keepsService isFound).perm ?_
  have split : (items LocalCharacteristic.registrations service.characteristics).Perm _ :=
    items_of_lookup isInside
  have whole := (split.append_right [service.exported]).append_right
    (items LocalService.registrations (application.services.erase serviceUuid))
  refine whole.trans (List.Perm.of_eq ?_)
  simp only [List.append_assoc]

/-- A change that keeps the registrations and the names of a characteristic, where
there is one, keeps the application consistent. -/
theorem Application.Consistent.modifyCharacteristic (consistent : application.Consistent)
    (serviceUuid charUuid : Text) (change : LocalCharacteristic → LocalCharacteristic)
    (same : ∀ characteristic, (change characteristic).registrations.Perm
      characteristic.registrations)
    (named : ∀ servicePath characteristic,
      characteristic.Named serviceUuid charUuid servicePath →
        (change characteristic).Named serviceUuid charUuid servicePath) :
    (application.modifyCharacteristic serviceUuid charUuid change).Consistent := by
  cases isFound : application.services.lookup serviceUuid with
  | none =>
      have unchanged : application.modifyCharacteristic serviceUuid charUuid change =
          application := by
        unfold Application.modifyCharacteristic KeyedTable.modify
        rw [isFound]
      rwa [unchanged]
  | some service =>
      cases isInside : service.characteristics.lookup charUuid with
      | none =>
          have keeps := consistent.keepsService isFound
          have isNamed := consistent.named serviceUuid service isFound
          have unchanged : modify service.characteristics charUuid change =
              service.characteristics := by
            unfold KeyedTable.modify
            rw [isInside]
          refine consistent.setService isFound _ ?_ ?_
          · rwa [unchanged]
          · rwa [unchanged]
      | some characteristic =>
          have isNamed := (consistent.named serviceUuid service isFound).characteristics charUuid
            characteristic isInside
          refine consistent.setCharacteristic isFound isInside change ?_
            (named service.path characteristic isNamed)
          refine (consistent.keepsCharacteristic isFound isInside).perm ?_
          exact (same characteristic).symm.append_right _

end TuyaAdapter.BincApplication
