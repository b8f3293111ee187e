import TuyaAdapter.BincApplication.Registrations

/-!
Owns what every operation does to the objects: it keeps the application
consistent, so that over whole runs the managed objects are the registered ones,
a call reaches an object that is still there, and only a service that cannot be
registered breaks the program.
-/

namespace TuyaAdapter.BincApplication

open Foundation.Decimal Foundation.KeyedTable Foundation

variable {application after : Application} {serviceUuid charUuid descUuid : Text}
  {service : LocalService} {characteristic : LocalCharacteristic} {refused : Bool} {code : Int}
  {permissions : UInt32}

/-! ## Looking up -/

theorem getService_eq_some :
    application.getService serviceUuid = some service ↔
      isValidUuid serviceUuid = true ∧ application.services.lookup serviceUuid = some service := by
  unfold Application.getService
  split
  · next valid => simp [valid]
  · next notValid => simp [notValid]

theorem getLocalCharacteristic_eq_some :
    application.getLocalCharacteristic serviceUuid charUuid = some characteristic ↔
      isValidUuid serviceUuid = true ∧ isValidUuid charUuid = true ∧
        ∃ service, application.services.lookup serviceUuid = some service ∧
          service.characteristics.lookup charUuid = some characteristic := by
  unfold Application.getLocalCharacteristic
  split
  · next valid =>
      rw [Bool.and_eq_true] at valid
      simp only [Option.bind_eq_some_iff, getService_eq_some, valid, true_and]
  · next notValid =>
      rw [Bool.and_eq_true] at notValid
      constructor
      · intro isFound
        cases isFound
      · rintro ⟨isService, isChar, -⟩
        exact absurd ⟨isService, isChar⟩ notValid

/-! ## Adding -/

theorem Application.Consistent.addService (consistent : application.Consistent)
    (added : addService application serviceUuid refused = some (after, code)) :
    after.Consistent := by
  unfold BincApplication.addService at added
  split at added
  · next valid =>
      have freed := consistent.destroyService serviceUuid
      dsimp only at added
      split at added
      · cases added
      · next registrationId connection registered =>
          cases added
          refine Application.Consistent.emit ⟨?_, ?_⟩ _
          · change connection.Keeps (items _ (application.services.insert _ _))
            rw [items_insert]
            exact freed.register registered
          · intro other otherService isOther
            change (application.services.insert _ _).lookup other = some otherService at isOther
            rw [lookup_insert_if] at isOther
            split at isOther
            · next same =>
                cases isOther
                rw [same]
                refine ⟨rfl, valid, fun charUuid characteristic isInside => ?_⟩
                simp at isInside
            · exact consistent.named other otherService isOther
  · cases added
    exact consistent

theorem addCharacteristic_consistent (consistent : application.Consistent) :
    (addCharacteristic application serviceUuid charUuid permissions refused).1.Consistent := by
  unfold addCharacteristic
  split
  · next valid =>
      rw [Bool.and_eq_true] at valid
      split
      · exact consistent
      · next service isService =>
          have isFound := (getService_eq_some.mp isService).2
          have isNamed := consistent.named serviceUuid service isFound
          have start := consistent.keepsService isFound
          unfold LocalService.registrations at start
          rw [List.append_assoc] at start
          have freed := start.destroyOld localCharFree_eq charUuid
          dsimp only
          split
          · refine Application.Consistent.emit (consistent.setService isFound _ ?_ ?_) _
            · unfold LocalService.registrations
              rw [List.append_assoc]
              exact freed
            · refine ⟨isNamed.isUuid, isNamed.valid, ?_⟩
              intro other otherCharacteristic isOther
              change (service.characteristics.erase charUuid).lookup other = _ at isOther
              rw [lookup_erase_if] at isOther
              split at isOther
              · cases isOther
              · exact isNamed.characteristics other otherCharacteristic isOther
          · next registrationId connection registered =>
              refine Application.Consistent.emit (consistent.setService isFound _ ?_ ?_) _
              · unfold LocalService.registrations
                dsimp only
                rw [items_insert, List.append_assoc, List.append_assoc]
                exact freed.register registered
              · refine ⟨isNamed.isUuid, isNamed.valid, ?_⟩
                intro other otherCharacteristic isOther
                change (service.characteristics.insert charUuid _).lookup other = _ at isOther
                rw [lookup_insert_if] at isOther
                split at isOther
                · next same =>
                    cases isOther
                    rw [same]
                    refine ⟨rfl, rfl, rfl, valid.2, fun descUuid descriptor isInside => ?_⟩
                    simp at isInside
                · exact isNamed.characteristics other otherCharacteristic isOther
  · exact consistent

theorem addDescriptor_consistent (consistent : application.Consistent) :
    (addDescriptor application serviceUuid charUuid descUuid permissions refused).1.Consistent := by
  unfold addDescriptor
  split
  · split
    · exact consistent
    · next characteristic isCharacteristic =>
        obtain ⟨-, -, service, isFound, isInside⟩ :=
          getLocalCharacteristic_eq_some.mp isCharacteristic
        have isNamed := (consistent.named serviceUuid service isFound).characteristics charUuid
          characteristic isInside
        have start := consistent.keepsCharacteristic isFound isInside
        unfold LocalCharacteristic.registrations at start
        rw [List.append_assoc] at start
        have freed := start.destroyOld localDescFree_eq descUuid
        dsimp only
        split
        · refine Application.Consistent.emit (consistent.setCharacteristic isFound isInside _ ?_ ?_) _
          · unfold LocalCharacteristic.registrations
            rw [List.append_assoc]
            exact freed
          · refine ⟨isNamed.inService, isNamed.isUuid, isNamed.underPath, isNamed.valid, ?_⟩
            intro other descriptor isOther
            change (characteristic.descriptors.erase descUuid).lookup other = _ at isOther
            rw [lookup_erase_if] at isOther
            split at isOther
            · cases isOther
            · exact isNamed.descriptors other descriptor isOther
        · next registrationId connection registered =>
            refine Application.Consistent.emit
              (consistent.setCharacteristic isFound isInside _ ?_ ?_) _
            · unfold LocalCharacteristic.registrations
              dsimp only
              rw [items_insert, List.append_assoc, List.append_assoc]
              exact freed.register registered
            · refine ⟨isNamed.inService, isNamed.isUuid, isNamed.underPath, isNamed.valid, ?_⟩
              intro other descriptor isOther
              change (characteristic.descriptors.insert descUuid _).lookup other = _ at isOther
              rw [lookup_insert_if] at isOther
              split at isOther
              · next same =>
                  cases isOther
                  exact ⟨rfl, rfl, same.symm, rfl⟩
              · exact isNamed.descriptors other descriptor isOther
  · exact consistent

/-! ## Values and calls -/

theorem characteristicSetValue_consistent (consistent : application.Consistent)
    (characteristic : LocalCharacteristic) (value : Bytes) :
    (characteristicSetValue application characteristic value).1.Consistent := by
  refine Application.Consistent.emit (consistent.modifyCharacteristic _ _ _ ?_ ?_) _
  · exact fun _ => List.Perm.refl _
  · exact fun _ _ named => ⟨named.inService, named.isUuid, named.underPath, named.valid,
      named.descriptors⟩

theorem descriptorSetValue_consistent (consistent : application.Consistent)
    (descriptor : LocalDescriptor) (value : Bytes) :
    (descriptorSetValue application descriptor value).1.Consistent := by
  refine Application.Consistent.emit (consistent.modifyCharacteristic _ _ _ ?_ ?_) _
  · intro characteristic
    refine List.Perm.append_right _ (items_modify ?_)
    exact fun _ _ => List.Perm.refl _
  · intro servicePath characteristic named
    refine ⟨named.inService, named.isUuid, named.underPath, named.valid, ?_⟩
    intro other changed isOther
    change (modify _ _ _).lookup other = some changed at isOther
    rw [lookup_modify] at isOther
    split at isOther
    · next same =>
        obtain ⟨old, isOld, isChanged⟩ := Option.map_eq_some_iff.mp isOther
        rw [← isChanged, same]
        exact named.descriptors descriptor.uuid old isOld
    · exact named.descriptors other changed isOther

theorem setCharValue_consistent (consistent : application.Consistent) (value : Bytes) :
    (setCharValue application serviceUuid charUuid value).1.Consistent := by
  unfold setCharValue
  split
  · split
    · exact consistent
    · exact characteristicSetValue_consistent consistent _ _
  · exact consistent

theorem setDescValue_consistent (consistent : application.Consistent) (value : Bytes) :
    (setDescValue application serviceUuid charUuid descUuid value).1.Consistent := by
  unfold setDescValue
  split
  · split
    · exact consistent
    · exact descriptorSetValue_consistent consistent _ _
  · exact consistent

theorem notify_consistent (consistent : application.Consistent) (value : Bytes) :
    (notify application serviceUuid charUuid value refused).1.Consistent := by
  unfold notify
  split
  · split
    · exact consistent
    · split
      · exact consistent
      · exact consistent.emit _
  · exact consistent

theorem Application.Consistent.doSets (consistent : application.Consistent) (verdict : Verdict) :
    (application.doSets verdict).Consistent := by
  unfold Application.doSets
  generalize verdict.sets = sets
  induction sets generalizing application with
  | nil => exact consistent
  | cons set rest inductionHypothesis =>
      exact inductionHypothesis (setCharValue_consistent consistent set.2.2)

theorem returnValue_consistent (consistent : application.Consistent) (place : Attribute)
    (value : Option Bytes) (error : Option Text) (denied missing : String) :
    (returnValue application place value error denied missing).Consistent := by
  unfold returnValue
  split <;> exact consistent.emit _

theorem returnWritten_consistent (consistent : application.Consistent) (place : Attribute)
    (error : Option Text) {setValue : Application → Application × Int}
    (sets : ∀ application : Application, application.Consistent →
      (setValue application).1.Consistent) :
    (returnWritten application place error setValue).Consistent := by
  unfold returnWritten
  split
  · exact consistent.emit _
  · exact (sets application consistent).emit _

theorem internalCharacteristicMethodCall_consistent (consistent : application.Consistent)
    (callbacks : Callbacks) (characteristic : LocalCharacteristic) (method : Method) :
    (internalCharacteristicMethodCall application callbacks characteristic method).Consistent := by
  have notifying : ∀ on event, ((application.modifyCharacteristic characteristic.serviceUuid
      characteristic.uuid fun characteristic => { characteristic with notifying := on }).emit
        event).Consistent := by
    intro on event
    refine Application.Consistent.emit (consistent.modifyCharacteristic _ _ _ ?_ ?_) _
    · exact fun _ => List.Perm.refl _
    · exact fun _ _ named => ⟨named.inService, named.isUuid, named.underPath, named.valid,
        named.descriptors⟩
  cases method with
  | readValue device => exact returnValue_consistent (consistent.doSets _) _ _ _ _ _
  | writeValue value device =>
      exact returnWritten_consistent (consistent.doSets _) _ _ fun _ isConsistent =>
        characteristicSetValue_consistent isConsistent _ _
  | startNotify => exact notifying true _
  | stopNotify => exact notifying false _
  | confirm => exact consistent.emit _

theorem internalDescriptorMethodCall_consistent (consistent : application.Consistent)
    (callbacks : Callbacks) (descriptor : LocalDescriptor) (method : Method) :
    (internalDescriptorMethodCall application callbacks descriptor method).Consistent := by
  cases method with
  | readValue device => exact returnValue_consistent (consistent.doSets _) _ _ _ _ _
  | writeValue value device =>
      exact returnWritten_consistent (consistent.doSets _) _ _ fun _ isConsistent =>
        descriptorSetValue_consistent isConsistent _ _
  | startNotify => exact consistent
  | stopNotify => exact consistent
  | confirm => exact consistent

theorem step_consistent {action : Action} (consistent : application.Consistent)
    (stepped : step application action = some after) : after.Consistent := by
  cases action with
  | setCallback callback =>
      cases stepped
      exact ⟨consistent.keeps, consistent.named⟩
  | addService serviceUuid refused =>
      obtain ⟨⟨next, code⟩, added, isNext⟩ := Option.map_eq_some_iff.mp stepped
      cases isNext
      exact consistent.addService added
  | addCharacteristic serviceUuid charUuid permissions refused =>
      cases stepped
      exact addCharacteristic_consistent consistent
  | addDescriptor serviceUuid charUuid descUuid permissions refused =>
      cases stepped
      exact addDescriptor_consistent consistent
  | setCharValue serviceUuid charUuid byteArray =>
      cases stepped
      exact setCharValue_consistent consistent byteArray
  | setDescValue serviceUuid charUuid descUuid byteArray =>
      cases stepped
      exact setDescValue_consistent consistent byteArray
  | notify serviceUuid charUuid byteArray refused =>
      cases stepped
      exact notify_consistent consistent byteArray
  | callCharacteristic callbacks path method =>
      change callCharacteristic application callbacks path method = some after at stepped
      unfold callCharacteristic at stepped
      split at stepped
      · cases stepped
        exact consistent
      · obtain ⟨characteristic, -, isAfter⟩ := Option.map_eq_some_iff.mp stepped
        rw [← isAfter]
        exact internalCharacteristicMethodCall_consistent consistent _ _ _
  | callDescriptor callbacks path method =>
      change callDescriptor application callbacks path method = some after at stepped
      unfold callDescriptor at stepped
      split at stepped
      · cases stepped
        exact consistent
      · obtain ⟨descriptor, -, isAfter⟩ := Option.map_eq_some_iff.mp stepped
        rw [← isAfter]
        exact internalDescriptorMethodCall_consistent consistent _ _ _

theorem run_consistent {path : Text} {actions : List Action}
    (ran : Run.run step (createApplication path) actions = some application) :
    application.Consistent :=
  Run.run_invariant (fun _ _ _ => step_consistent) (createApplication_consistent path) ran

/-! ## Managed objects -/

/-- Where the object is registered. -/
def ManagedObject.place : ManagedObject → Text × Text
  | .service path _ _ => (path, serviceInterface)
  | .characteristic path _ _ _ _ _ _ => (path, characteristicInterface)
  | .descriptor path _ _ _ _ => (path, descriptorInterface)

theorem map_items {Value Item Place : Type} (place : Item → Place) (holds : Value → List Item)
    (table : Table Text Value) :
    (items holds table).map place = items (fun value => (holds value).map place) table := by
  unfold items
  rw [List.map_flatMap]

theorem items_congr {Value Item : Type} {holds others : Value → List Item}
    (each : ∀ value, (holds value).Perm (others value)) (table : Table Text Value) :
    (items holds table).Perm (items others table) :=
  List.Perm.flatMap_left _ fun entry _ => each entry.2

theorem addCharacteristics_places (service : LocalService) :
    ((addCharacteristics service).map ManagedObject.place).Perm
      ((items LocalCharacteristic.registrations service.characteristics).map Exported.place) := by
  unfold addCharacteristics
  rw [map_items, map_items]
  refine items_congr (fun characteristic => ?_) _
  unfold addDescriptors LocalCharacteristic.registrations
  rw [List.map_cons, List.map_append, map_items, map_items]
  exact (List.perm_append_singleton _ _).symm

theorem getManagedObjects_places (application : Application) :
    ((getManagedObjects application).map ManagedObject.place).Perm
      (application.registrations.map Exported.place) := by
  unfold getManagedObjects Application.registrations items
  rw [List.map_flatMap, List.map_flatMap]
  refine List.Perm.flatMap_left _ fun entry _ => ?_
  unfold LocalService.registrations
  rw [List.map_cons, List.map_append]
  exact ((addCharacteristics_places entry.2).cons _).trans (List.perm_append_singleton _ _).symm

/-- Over every run that does not break the program, the managed objects are the
registered ones, each once, and freeing the application leaves none. -/
theorem managed_exported {path : Text} {actions : List Action}
    (ran : Run.run step (createApplication path) actions = some application) :
    ((getManagedObjects application).map ManagedObject.place).Perm
        (application.connection.exported.map Exported.place) ∧
      ((getManagedObjects application).map ManagedObject.place).Nodup ∧
      (applicationFree application).exported = [] := by
  have keeps := (run_consistent ran).keeps
  have same := getManagedObjects_places application
  refine ⟨same.trans (keeps.exported.map Exported.place).symm, same.nodup_iff.mpr keeps.placed, ?_⟩
  rw [applicationFree_eq]
  have start : application.connection.Keeps (application.registrations ++ []) := by
    rwa [List.append_nil]
  exact List.Perm.eq_nil start.unregisterAll.exported

/-! ## A battery service -/

def batteryService : Text := "0000180f-0000-1000-8000-00805f9b34fb".toList

def batteryLevel : Text := "00002a19-0000-1000-8000-00805f9b34fb".toList

def userDescription : Text := "00002901-0000-1000-8000-00805f9b34fb".toList

/-- Callbacks that let everything pass. -/
def Callbacks.accept : Callbacks :=
  ⟨fun _ _ _ => .accept, fun _ _ _ _ => .accept, fun _ _ _ _ => .accept, fun _ _ _ _ _ => .accept⟩

/-- The characteristic is added a second time, and takes another path. -/
def batteryAdded : List Action :=
  [.addService batteryService false, .addCharacteristic batteryService batteryLevel 0x12 false,
    .addDescriptor batteryService batteryLevel userDescription 0x02 false,
    .addCharacteristic batteryService batteryLevel 0x1a false,
    .addDescriptor batteryService batteryLevel userDescription 0x02 false]

theorem managed_exported_battery :
    ∃ application, Run.run step (createApplication []) batteryAdded = some application ∧
      ((getManagedObjects application).map ManagedObject.place).Perm
        (application.connection.exported.map Exported.place) ∧
      application.connection.exported.map Exported.place =
        [("/service0/char1/desc0".toList, descriptorInterface),
          ("/service0/char1".toList, characteristicInterface),
          ("/service0".toList, serviceInterface)] ∧
      (applicationFree application).exported = [] :=
  have ran : Run.run step (createApplication []) batteryAdded = some _ := rfl
  ⟨_, ran, (managed_exported ran).1, rfl, (managed_exported ran).2.2⟩

end TuyaAdapter.BincApplication
