import TuyaAdapter.BincApplication.Objects
import TuyaAdapter.Foundation.History

/-!
Owns the paths of services, and with them the one thing that breaks the program.

The path of a service is numbered by the size of the table before the service
enters it. A service that is added again takes the number that the next one
would get; from then on any other service fails to register, and is freed twice.
-/

namespace TuyaAdapter.BincApplication

open Foundation.Decimal Foundation.KeyedTable Foundation

variable {application after : Application} {serviceUuid charUuid descUuid : Text}
  {service : LocalService} {refused : Bool}

/-! ## Live objects -/

theorem serviceInterface_ne_characteristic : serviceInterface ≠ characteristicInterface := by
  decide

theorem serviceInterface_ne_descriptor : serviceInterface ≠ descriptorInterface := by decide

theorem characteristicInterface_ne_descriptor :
    characteristicInterface ≠ descriptorInterface := by decide

theorem mem_characteristic_registrations {characteristic : LocalCharacteristic}
    {object : Exported} :
    object ∈ characteristic.registrations ↔
      (∃ descUuid descriptor, characteristic.descriptors.lookup descUuid = some descriptor ∧
        object = descriptor.exported) ∨ object = characteristic.exported := by
  unfold LocalCharacteristic.registrations
  rw [List.mem_append, List.mem_singleton, mem_items]
  simp only [List.mem_singleton]

theorem mem_service_registrations {object : Exported} :
    object ∈ service.registrations ↔
      (∃ charUuid characteristic, service.characteristics.lookup charUuid = some characteristic ∧
        object ∈ characteristic.registrations) ∨ object = service.exported := by
  unfold LocalService.registrations
  rw [List.mem_append, List.mem_singleton, mem_items]

/-- A registered object with the interface of services is a service. -/
theorem service_of_interface {object : Exported} (member : object ∈ service.registrations)
    (isService : object.interface = serviceInterface) : object = service.exported := by
  rcases mem_service_registrations.mp member with ⟨-, characteristic, -, inside⟩ | isOwn
  · rcases mem_characteristic_registrations.mp inside with ⟨-, descriptor, -, isDesc⟩ | isChar
    · rw [isDesc] at isService
      exact absurd isService.symm serviceInterface_ne_descriptor
    · rw [isChar] at isService
      exact absurd isService.symm serviceInterface_ne_characteristic
  · exact isOwn

theorem find_mem {connection : Connection} {path interface : Text} {object : Exported}
    (isFound : connection.find path interface = some object) :
    object ∈ connection.exported ∧ object.path = path ∧ object.interface = interface := by
  unfold Connection.find at isFound
  have isPlace := List.find?_some isFound
  rw [Bool.and_eq_true, beq_iff_eq, beq_iff_eq] at isPlace
  exact ⟨List.mem_of_find?_eq_some isFound, isPlace⟩

theorem exists_find? {Object : Type} {objects : List Object} (id : Object → Nat) {object : Object}
    (member : object ∈ objects) :
    ∃ other, (objects.find? fun candidate => id candidate == id object) = some other := by
  rw [← Option.isSome_iff_exists, List.find?_isSome]
  exact ⟨object, member, beq_self_eq_true _⟩

theorem mem_characteristics {characteristic : LocalCharacteristic} :
    characteristic ∈ application.characteristics ↔
      ∃ serviceUuid service, application.services.lookup serviceUuid = some service ∧
        ∃ charUuid, service.characteristics.lookup charUuid = some characteristic := by
  unfold Application.characteristics
  simp only [mem_items, List.mem_singleton]
  constructor
  · rintro ⟨serviceUuid, service, isFound, charUuid, other, isInside, rfl⟩
    exact ⟨serviceUuid, service, isFound, charUuid, isInside⟩
  · rintro ⟨serviceUuid, service, isFound, charUuid, isInside⟩
    exact ⟨serviceUuid, service, isFound, charUuid, characteristic, isInside, rfl⟩

theorem mem_descriptors {descriptor : LocalDescriptor} :
    descriptor ∈ application.descriptors ↔
      ∃ serviceUuid service, application.services.lookup serviceUuid = some service ∧
        ∃ charUuid characteristic,
          service.characteristics.lookup charUuid = some characteristic ∧
            ∃ descUuid, characteristic.descriptors.lookup descUuid = some descriptor := by
  unfold Application.descriptors
  simp only [mem_items, List.mem_singleton]
  constructor
  · rintro ⟨serviceUuid, service, isFound, charUuid, characteristic, isInside, descUuid, other,
      isDesc, rfl⟩
    exact ⟨serviceUuid, service, isFound, charUuid, characteristic, isInside, descUuid, isDesc⟩
  · rintro ⟨serviceUuid, service, isFound, charUuid, characteristic, isInside, descUuid, isDesc⟩
    exact ⟨serviceUuid, service, isFound, charUuid, characteristic, isInside, descUuid, descriptor,
      isDesc, rfl⟩

/-- A call never reaches a characteristic that was freed. -/
theorem callCharacteristic_reaches (consistent : application.Consistent) (callbacks : Callbacks)
    (path : Text) (method : Method) :
    ∃ after, callCharacteristic application callbacks path method = some after := by
  unfold callCharacteristic
  split
  · exact ⟨application, rfl⟩
  · next object isFound =>
      obtain ⟨isExported, -, isCharacteristic⟩ := find_mem isFound
      have isRegistered := consistent.keeps.exported.mem_iff.mp isExported
      obtain ⟨serviceUuid, service, isService, inside⟩ := mem_items.mp isRegistered
      have isLive : ∃ characteristic ∈ application.characteristics,
          characteristic.registrationId = object.id := by
        rcases mem_service_registrations.mp inside with
          ⟨charUuid, characteristic, isInside, deep⟩ | isOwn
        · rcases mem_characteristic_registrations.mp deep with ⟨-, descriptor, -, isDesc⟩ | isChar
          · rw [isDesc] at isCharacteristic
            exact absurd isCharacteristic.symm characteristicInterface_ne_descriptor
          · refine ⟨characteristic, mem_characteristics.mpr
              ⟨serviceUuid, service, isService, charUuid, isInside⟩, ?_⟩
            rw [isChar]
            rfl
        · rw [isOwn] at isCharacteristic
          exact absurd isCharacteristic serviceInterface_ne_characteristic
      obtain ⟨characteristic, member, isId⟩ := isLive
      obtain ⟨other, isOther⟩ := exists_find? LocalCharacteristic.registrationId member
      rw [isId] at isOther
      rw [isOther]
      exact ⟨_, rfl⟩

theorem callDescriptor_reaches (consistent : application.Consistent) (callbacks : Callbacks)
    (path : Text) (method : Method) :
    ∃ after, callDescriptor application callbacks path method = some after := by
  unfold callDescriptor
  split
  · exact ⟨application, rfl⟩
  · next object isFound =>
      obtain ⟨isExported, -, isDescriptor⟩ := find_mem isFound
      have isRegistered := consistent.keeps.exported.mem_iff.mp isExported
      obtain ⟨serviceUuid, service, isService, inside⟩ := mem_items.mp isRegistered
      have isLive : ∃ descriptor ∈ application.descriptors,
          descriptor.registrationId = object.id := by
        rcases mem_service_registrations.mp inside with
          ⟨charUuid, characteristic, isInside, deep⟩ | isOwn
        · rcases mem_characteristic_registrations.mp deep with
            ⟨descUuid, descriptor, isDeep, isDesc⟩ | isChar
          · refine ⟨descriptor, mem_descriptors.mpr ⟨serviceUuid, service, isService, charUuid,
              characteristic, isInside, descUuid, isDeep⟩, ?_⟩
            rw [isDesc]
            rfl
          · rw [isChar] at isDescriptor
            exact absurd isDescriptor characteristicInterface_ne_descriptor
        · rw [isOwn] at isDescriptor
          exact absurd isDescriptor serviceInterface_ne_descriptor
      obtain ⟨descriptor, member, isId⟩ := isLive
      obtain ⟨other, isOther⟩ := exists_find? LocalDescriptor.registrationId member
      rw [isId] at isOther
      rw [isOther]
      exact ⟨_, rfl⟩

/-! ## Paths of services -/

/-- The path that the next service gets. -/
def Application.nextPath (application : Application) : Text :=
  childPath application.path "service".toList (size application.services)

theorem childPath_injective (parent name : Text) : Function.Injective (childPath parent name) := by
  intro first second same
  unfold childPath at same
  have digits := List.append_cancel_left (List.cons.inj (List.append_cancel_left same)).2
  have read := congrArg (fun digits => Nat.ofDigitChars 10 digits 0) digits
  simpa only [Nat.ofDigitChars_ten_toDigits] using read

/-- What stays the same when no service is added. -/
structure SameServices (application after : Application) : Prop where
  path : after.path = application.path
  size : size after.services = size application.services
  paths : ∀ serviceUuid, (after.services.lookup serviceUuid).map LocalService.path =
    (application.services.lookup serviceUuid).map LocalService.path

theorem SameServices.refl (application : Application) : SameServices application application :=
  ⟨rfl, rfl, fun _ => rfl⟩

theorem SameServices.trans {later : Application} (first : SameServices application after)
    (second : SameServices after later) : SameServices application later :=
  ⟨second.path.trans first.path, second.size.trans first.size,
    fun serviceUuid => (second.paths serviceUuid).trans (first.paths serviceUuid)⟩

/-- A change that keeps the path of a service. -/
theorem sameServices_modify {connection : Connection} {log : List Event}
    (serviceUuid : Text) (change : LocalService → LocalService)
    (same : ∀ service, (change service).path = service.path) :
    SameServices application
      { application with
        connection
        log
        services := modify application.services serviceUuid change } := by
  refine ⟨rfl, size_modify _ _ _, fun other => ?_⟩
  change ((modify _ _ _).lookup other).map _ = _
  rw [lookup_modify]
  split
  · next isSame =>
      rw [isSame, Option.map_map]
      congr 1
      funext service
      exact same service
  · rfl

theorem addCharacteristic_sameServices (application : Application) (serviceUuid charUuid : Text)
    (permissions : UInt32) (refused : Bool) :
    SameServices application
      (addCharacteristic application serviceUuid charUuid permissions refused).1 := by
  unfold addCharacteristic
  split
  · split
    · exact .refl _
    · dsimp only
      split <;> exact sameServices_modify _ _ fun _ => rfl
  · exact .refl _

theorem addDescriptor_sameServices (application : Application)
    (serviceUuid charUuid descUuid : Text) (permissions : UInt32) (refused : Bool) :
    SameServices application
      (addDescriptor application serviceUuid charUuid descUuid permissions refused).1 := by
  unfold addDescriptor
  split
  · split
    · exact .refl _
    · dsimp only
      split <;> exact sameServices_modify _ _ fun _ => rfl
  · exact .refl _

theorem characteristicSetValue_sameServices (application : Application)
    (characteristic : LocalCharacteristic) (value : Bytes) :
    SameServices application (characteristicSetValue application characteristic value).1 :=
  sameServices_modify _ _ fun _ => rfl

theorem descriptorSetValue_sameServices (application : Application)
    (descriptor : LocalDescriptor) (value : Bytes) :
    SameServices application (descriptorSetValue application descriptor value).1 :=
  sameServices_modify _ _ fun _ => rfl

theorem setCharValue_sameServices (application : Application) (serviceUuid charUuid : Text)
    (value : Bytes) :
    SameServices application (setCharValue application serviceUuid charUuid value).1 := by
  unfold setCharValue
  split
  · split
    · exact .refl _
    · exact characteristicSetValue_sameServices _ _ _
  · exact .refl _

theorem setDescValue_sameServices (application : Application)
    (serviceUuid charUuid descUuid : Text) (value : Bytes) :
    SameServices application (setDescValue application serviceUuid charUuid descUuid value).1 := by
  unfold setDescValue
  split
  · split
    · exact .refl _
    · exact descriptorSetValue_sameServices _ _ _
  · exact .refl _

theorem emit_sameServices (application : Application) (event : Event) :
    SameServices application (application.emit event) :=
  ⟨rfl, rfl, fun _ => rfl⟩

theorem notify_sameServices (application : Application) (serviceUuid charUuid : Text)
    (value : Bytes) (refused : Bool) :
    SameServices application (notify application serviceUuid charUuid value refused).1 := by
  unfold notify
  split
  · split
    · exact .refl _
    · split
      · exact .refl _
      · exact emit_sameServices _ _
  · exact .refl _

theorem doSets_sameServices (application : Application) (verdict : Verdict) :
    SameServices application (application.doSets verdict) := by
  unfold Application.doSets
  generalize verdict.sets = sets
  induction sets generalizing application with
  | nil => exact .refl _
  | cons set rest inductionHypothesis =>
      exact (setCharValue_sameServices application set.1 set.2.1 set.2.2).trans
        (inductionHypothesis _)

theorem returnValue_sameServices (application : Application) (place : Attribute)
    (value : Option Bytes) (error : Option Text) (denied missing : String) :
    SameServices application (returnValue application place value error denied missing) := by
  unfold returnValue
  split <;> exact emit_sameServices _ _

theorem returnWritten_sameServices (application : Application) (place : Attribute)
    (error : Option Text) {setValue : Application → Application × Int}
    (sets : ∀ application, SameServices application (setValue application).1) :
    SameServices application (returnWritten application place error setValue) := by
  unfold returnWritten
  split
  · exact emit_sameServices _ _
  · exact (sets application).trans (emit_sameServices _ _)

theorem internalCharacteristicMethodCall_sameServices (application : Application)
    (callbacks : Callbacks) (characteristic : LocalCharacteristic) (method : Method) :
    SameServices application
      (internalCharacteristicMethodCall application callbacks characteristic method) := by
  cases method with
  | readValue device =>
      exact (doSets_sameServices _ _).trans (returnValue_sameServices _ _ _ _ _ _)
  | writeValue value device =>
      exact (doSets_sameServices _ _).trans (returnWritten_sameServices _ _ _ fun _ =>
        characteristicSetValue_sameServices _ _ _)
  | startNotify => exact sameServices_modify _ _ fun _ => rfl
  | stopNotify => exact sameServices_modify _ _ fun _ => rfl
  | confirm => exact emit_sameServices _ _

theorem internalDescriptorMethodCall_sameServices (application : Application)
    (callbacks : Callbacks) (descriptor : LocalDescriptor) (method : Method) :
    SameServices application
      (internalDescriptorMethodCall application callbacks descriptor method) := by
  cases method with
  | readValue device =>
      exact (doSets_sameServices _ _).trans (returnValue_sameServices _ _ _ _ _ _)
  | writeValue value device =>
      exact (doSets_sameServices _ _).trans (returnWritten_sameServices _ _ _ fun _ =>
        descriptorSetValue_sameServices _ _ _)
  | startNotify => exact .refl _
  | stopNotify => exact .refl _
  | confirm => exact .refl _

/-! ## Adding services -/

/-- The service that an action adds, and whether the connection refuses it. -/
def addedService : Action → Option (Text × Bool)
  | .addService serviceUuid refused =>
      if isValidUuid serviceUuid then some (serviceUuid, refused) else none
  | _ => none

/-- Without a service to add, the step is taken and the services stay. -/
theorem step_without_service {action : Action} (consistent : application.Consistent)
    (adds : addedService action = none) :
    ∃ after, step application action = some after ∧ SameServices application after := by
  cases action with
  | setCallback callback => exact ⟨_, rfl, rfl, rfl, fun _ => rfl⟩
  | addService serviceUuid refused =>
      have notValid : ¬ isValidUuid serviceUuid = true := by
        intro valid
        simp [addedService, valid] at adds
      refine ⟨application, ?_, .refl _⟩
      change (addService application serviceUuid refused).map Prod.fst = some application
      unfold addService
      rw [if_neg notValid]
      rfl
  | addCharacteristic serviceUuid charUuid permissions refused =>
      exact ⟨_, rfl, addCharacteristic_sameServices _ _ _ _ _⟩
  | addDescriptor serviceUuid charUuid descUuid permissions refused =>
      exact ⟨_, rfl, addDescriptor_sameServices _ _ _ _ _ _⟩
  | setCharValue serviceUuid charUuid byteArray =>
      exact ⟨_, rfl, setCharValue_sameServices _ _ _ _⟩
  | setDescValue serviceUuid charUuid descUuid byteArray =>
      exact ⟨_, rfl, setDescValue_sameServices _ _ _ _ _⟩
  | notify serviceUuid charUuid byteArray refused =>
      exact ⟨_, rfl, notify_sameServices _ _ _ _ _⟩
  | callCharacteristic callbacks path method =>
      obtain ⟨after, called⟩ := callCharacteristic_reaches consistent callbacks path method
      refine ⟨after, called, ?_⟩
      unfold callCharacteristic at called
      split at called
      · cases called
        exact .refl _
      · obtain ⟨characteristic, -, isAfter⟩ := Option.map_eq_some_iff.mp called
        rw [← isAfter]
        exact internalCharacteristicMethodCall_sameServices _ _ _ _
  | callDescriptor callbacks path method =>
      obtain ⟨after, called⟩ := callDescriptor_reaches consistent callbacks path method
      refine ⟨after, called, ?_⟩
      unfold callDescriptor at called
      split at called
      · cases called
        exact .refl _
      · obtain ⟨descriptor, -, isAfter⟩ := Option.map_eq_some_iff.mp called
        rw [← isAfter]
        exact internalDescriptorMethodCall_sameServices _ _ _ _

/-- Adding a service breaks the program when the connection refuses it or another
service has its path. -/
theorem addService_eq_none (consistent : application.Consistent)
    (valid : isValidUuid serviceUuid = true) :
    addService application serviceUuid refused = none ↔
      refused = true ∨ ∃ other service, other ≠ serviceUuid ∧
        application.services.lookup other = some service ∧
          service.path = application.nextPath := by
  have freed := consistent.destroyService serviceUuid
  have isRegistered :=
    registerObject_eq_none freed application.nextPath serviceInterface refused
  have unfolded : addService application serviceUuid refused = none ↔
      (destroyOld localServiceFree application.connection application.services
        serviceUuid).registerObject application.nextPath serviceInterface refused = none := by
    unfold addService Application.nextPath
    rw [if_pos valid]
    dsimp only
    split
    · next isNone => exact iff_of_true rfl isNone
    · next isSome =>
        rw [isSome]
        exact iff_of_false (by rintro ⟨⟩) (by rintro ⟨⟩)
  rw [unfolded, isRegistered]
  refine or_congr_right ?_
  rw [List.mem_map]
  constructor
  · rintro ⟨object, member, isPlace⟩
    obtain ⟨other, service, isOther, inside⟩ := mem_items.mp member
    rw [lookup_erase_if] at isOther
    split at isOther
    · cases isOther
    · next differs =>
        refine ⟨other, service, differs, isOther, ?_⟩
        rw [service_of_interface inside (congrArg Prod.snd isPlace)] at isPlace
        exact congrArg Prod.fst isPlace
  · rintro ⟨other, service, differs, isOther, isPath⟩
    refine ⟨service.exported, mem_items.mpr ⟨other, service, ?_, ?_⟩, ?_⟩
    · rwa [lookup_erase_if, if_neg differs]
    · exact mem_service_registrations.mpr (Or.inr rfl)
    · exact Prod.ext isPath rfl

theorem addService_some {code : Int} (valid : isValidUuid serviceUuid = true)
    (added : addService application serviceUuid refused = some (after, code)) :
    code = 0 ∧ after.path = application.path ∧ ∃ registrationId,
      after.services = application.services.insert serviceUuid
        ⟨application.nextPath, serviceUuid, registrationId, ∅⟩ := by
  unfold addService at added
  rw [if_pos valid] at added
  dsimp only at added
  split at added
  · cases added
  · next registrationId connection registered =>
      cases added
      exact ⟨rfl, rfl, registrationId, rfl⟩

/-! ## Runs -/

/-- How the services stand after those of a list were added: all are there, and
only one that was added more than once has the number of the next one. -/
structure Numbered (added : List Text) (application : Application) : Prop where
  consistent : application.Consistent
  present : ∀ serviceUuid, (application.services.lookup serviceUuid).isSome ↔ serviceUuid ∈ added
  number : ∀ serviceUuid service, application.services.lookup serviceUuid = some service →
    ∃ number, service.path = childPath application.path "service".toList number ∧
      if 2 ≤ added.count serviceUuid then number = size application.services
      else number < size application.services

variable {added : List Text}

theorem createApplication_numbered (path : Text) : Numbered [] (createApplication path) :=
  { consistent := createApplication_consistent path
    present := by simp [createApplication]
    number := by
      intro serviceUuid service isFound
      simp [createApplication] at isFound }

theorem Numbered.sameServices (numbered : Numbered added application)
    (same : SameServices application after) (consistent : after.Consistent) :
    Numbered added after := by
  have paths := same.paths
  refine ⟨consistent, fun serviceUuid => ?_, fun serviceUuid service isFound => ?_⟩
  · have isSome := congrArg Option.isSome (paths serviceUuid)
    rw [Option.isSome_map, Option.isSome_map] at isSome
    rw [isSome]
    exact numbered.present serviceUuid
  · have isOld := paths serviceUuid
    rw [isFound, Option.map_some] at isOld
    obtain ⟨old, wasFound, isPath⟩ := Option.map_eq_some_iff.mp isOld.symm
    rw [same.path, same.size, ← isPath]
    exact numbered.number serviceUuid old wasFound

/-- The services added before leave the place of the next one free. -/
def Free (before : List (Text × Bool)) (service : Text × Bool) : Prop :=
  service.2 = false ∧ ∀ again, 2 ≤ (before.map Prod.fst).count again → service.1 = again

theorem Numbered.add {before : List (Text × Bool)}
    (numbered : Numbered (before.map Prod.fst) application)
    (valid : isValidUuid serviceUuid = true) (isFree : Free before (serviceUuid, refused)) :
    ∃ after, addService application serviceUuid refused = some (after, 0) ∧
      Numbered ((before ++ [(serviceUuid, refused)]).map Prod.fst) after := by
  obtain ⟨notRefused, onlyAgain⟩ := isFree
  dsimp only at notRefused onlyAgain
  have notNone : addService application serviceUuid refused ≠ none := by
    rw [ne_eq, addService_eq_none numbered.consistent valid]
    rintro (isRefused | ⟨other, service, differs, isOther, isPath⟩)
    · rw [notRefused] at isRefused
      cases isRefused
    · obtain ⟨number, hasNumber, which⟩ := numbered.number other service isOther
      have isNext := childPath_injective _ _ (hasNumber.symm.trans isPath)
      split at which
      · next twice => exact differs (onlyAgain other twice).symm
      · omega
  obtain ⟨⟨after, code⟩, isAdded⟩ := Option.ne_none_iff_exists'.mp notNone
  obtain ⟨rfl, samePath, registrationId, isInsert⟩ := addService_some valid isAdded
  refine ⟨after, isAdded, numbered.consistent.addService isAdded, fun other => ?_,
    fun other service isOther => ?_⟩
  · rw [isInsert, lookup_insert_if, List.map_append, List.mem_append]
    split
    · next same => simp [same]
    · next differs =>
        rw [numbered.present other]
        simp [differs]
  · rw [isInsert, lookup_insert_if] at isOther
    rw [isInsert, samePath, List.map_append, List.count_append]
    split at isOther
    · next same =>
        cases isOther
        refine ⟨size application.services, rfl, ?_⟩
        rw [same, List.map_cons, List.map_nil, List.count_singleton_self]
        cases wasFound : application.services.lookup serviceUuid with
        | none =>
            have notAdded : serviceUuid ∉ before.map Prod.fst := by
              rw [← numbered.present, wasFound]
              simp
            rw [size_insert_of_none wasFound, List.count_eq_zero_of_not_mem notAdded,
              if_neg (by omega)]
            exact Nat.lt_succ_self _
        | some old =>
            have isAdded : serviceUuid ∈ before.map Prod.fst := by
              rw [← numbered.present, wasFound]
              rfl
            have counted := List.count_pos_iff.mpr isAdded
            rw [size_insert_of_some wasFound, if_pos (by omega)]
    · next differs =>
        obtain ⟨number, hasNumber, which⟩ := numbered.number other service isOther
        have once : ¬ 2 ≤ (before.map Prod.fst).count other :=
          fun twice => differs (onlyAgain other twice).symm
        rw [if_neg once] at which
        refine ⟨number, hasNumber, ?_⟩
        have uncounted : ([(serviceUuid, refused)].map Prod.fst).count other = 0 := by
          simp [Ne.symm differs]
        rw [uncounted, Nat.add_zero, if_neg once]
        cases wasFound : application.services.lookup serviceUuid with
        | none =>
            rw [size_insert_of_none wasFound]
            omega
        | some old => rwa [size_insert_of_some wasFound]

theorem Numbered.broken {before : List (Text × Bool)}
    (numbered : Numbered (before.map Prod.fst) application)
    (valid : isValidUuid serviceUuid = true) (taken : ¬ Free before (serviceUuid, refused)) :
    addService application serviceUuid refused = none := by
  rw [addService_eq_none numbered.consistent valid]
  cases refused with
  | true => exact Or.inl rfl
  | false =>
      right
      unfold Free at taken
      push Not at taken
      obtain ⟨again, twice, differs⟩ := taken rfl
      have isAdded : again ∈ before.map Prod.fst := List.count_pos_iff.mp (by omega)
      obtain ⟨service, isFound⟩ := Option.isSome_iff_exists.mp ((numbered.present again).mpr isAdded)
      obtain ⟨number, hasNumber, which⟩ := numbered.number again service isFound
      rw [if_pos twice] at which
      refine ⟨again, service, Ne.symm differs, isFound, ?_⟩
      rw [hasNumber, which]
      rfl

theorem run_iff (before : List (Text × Bool)) (actions : List Action)
    (numbered : Numbered (before.map Prod.fst) application)
    (safely : History.Every Free before) :
    (∃ final, Run.run step application actions = some final) ↔
      History.Every Free (before ++ actions.filterMap addedService) := by
  induction actions generalizing application before with
  | nil =>
      rw [List.filterMap_nil, List.append_nil]
      exact ⟨fun _ => safely, fun _ => ⟨application, rfl⟩⟩
  | cons action rest inductionHypothesis =>
      cases adds : addedService action with
      | none =>
          obtain ⟨next, stepped, same⟩ := step_without_service numbered.consistent adds
          have kept := numbered.sameServices same (step_consistent numbered.consistent stepped)
          rw [List.filterMap_cons_none adds, Run.run, stepped]
          exact inductionHypothesis _ kept safely
      | some service =>
          cases action with
          | addService serviceUuid refused =>
              have valid : isValidUuid serviceUuid = true := by
                by_contra notValid
                simp [addedService, notValid] at adds
              have isService : service = (serviceUuid, refused) := by
                simpa [addedService, valid] using adds.symm
              rw [List.filterMap_cons_some adds, isService, Run.run]
              change (∃ final, ((addService application serviceUuid refused).map Prod.fst).bind _ =
                some final) ↔ _
              by_cases isFree : Free before (serviceUuid, refused)
              · obtain ⟨next, isAdded, nextNumbered⟩ := numbered.add valid isFree
                have later := inductionHypothesis _ nextNumbered (safely.append isFree)
                rw [List.append_assoc, List.singleton_append] at later
                rw [isAdded]
                exact later
              · rw [numbered.broken valid isFree]
                constructor
                · rintro ⟨final, ran⟩
                  cases ran
                · intro every
                  exact absurd (every before (serviceUuid, refused) _ rfl) isFree
          | _ => cases adds

/-- A sequence of operations is carried out to its end exactly when no service is
refused and, once one service was added a second time, no other is added. -/
theorem services_safe (path : Text) (actions : List Action) :
    (∃ final, Run.run step (createApplication path) actions = some final) ↔
      History.Every Free (actions.filterMap addedService) :=
  run_iff [] actions (createApplication_numbered path) History.every_nil

end TuyaAdapter.BincApplication
