import TuyaAdapter.BincApplication.Services
import TuyaAdapter.TklBt.Gatt

/-!
Owns the values of a run: what a client reads and what the user gets is what was
set last, since the characteristic or descriptor was added, however the clients'
calls and the user's interleave.
-/

namespace TuyaAdapter.BincApplication

open Foundation.Decimal Foundation.KeyedTable Foundation

/-! ## What the log says -/

/-- A value, and whether a client listens to it. -/
structure Cell where
  value : Option Bytes
  notifying : Bool
deriving DecidableEq, Repr

def Cell.empty : Cell := ⟨none, false⟩

/-- The characteristics and descriptors there are. -/
abbrev Cells := Attribute → Option Cell

def Attribute.InService (serviceUuid : Text) : Attribute → Prop
  | .characteristic service _ => service = serviceUuid
  | .descriptor service _ _ => service = serviceUuid

/-- The characteristic itself, or one of its descriptors. -/
def Attribute.InCharacteristic (serviceUuid charUuid : Text) : Attribute → Prop
  | .characteristic service char => service = serviceUuid ∧ char = charUuid
  | .descriptor service char _ => service = serviceUuid ∧ char = charUuid

instance (serviceUuid : Text) : DecidablePred (Attribute.InService serviceUuid)
  | .characteristic _ _ => inferInstanceAs (Decidable (_ = _))
  | .descriptor _ _ _ => inferInstanceAs (Decidable (_ = _))

instance (serviceUuid charUuid : Text) :
    DecidablePred (Attribute.InCharacteristic serviceUuid charUuid)
  | .characteristic _ _ => inferInstanceAs (Decidable (_ ∧ _))
  | .descriptor _ _ _ => inferInstanceAs (Decidable (_ ∧ _))

/-- Change what is at a place, where there is something. -/
def Cells.change (cells : Cells) (place : Attribute) (change : Cell → Cell) : Cells :=
  Function.update cells place ((cells place).map change)

/-- What an event makes of the cells. -/
def Cells.after (cells : Cells) : Event → Cells
  | .addedService serviceUuid => fun place =>
      if place.InService serviceUuid then none else cells place
  | .addedCharacteristic serviceUuid charUuid =>
      Function.update (fun place => if place.InCharacteristic serviceUuid charUuid then none
        else cells place) (.characteristic serviceUuid charUuid) (some .empty)
  | .removedCharacteristic serviceUuid charUuid => fun place =>
      if place.InCharacteristic serviceUuid charUuid then none else cells place
  | .addedDescriptor serviceUuid charUuid descUuid =>
      Function.update cells (.descriptor serviceUuid charUuid descUuid) (some .empty)
  | .removedDescriptor serviceUuid charUuid descUuid =>
      Function.update cells (.descriptor serviceUuid charUuid descUuid) none
  | .updated place value => cells.change place fun cell => { cell with value := some value }
  | .startedNotify serviceUuid charUuid =>
      cells.change (.characteristic serviceUuid charUuid) fun cell => { cell with notifying := true }
  | .stoppedNotify serviceUuid charUuid =>
      cells.change (.characteristic serviceUuid charUuid) fun cell =>
        { cell with notifying := false }
  | _ => cells

/-- The cells after all the events of a log. -/
def replay (log : List Event) : Cells := log.foldl Cells.after fun _ => none

/-- The value that was set last, since there is something at the place. -/
def lastValue (log : List Event) (place : Attribute) : Option Bytes :=
  (replay log place).bind Cell.value

/-- An answer is the value that was set last. -/
def Answered (before : List Event) : Event → Prop
  | .answered place value => lastValue before place = some value
  | _ => True

theorem replay_append (log : List Event) (event : Event) :
    replay (log ++ [event]) = (replay log).after event := by
  unfold replay
  rw [List.foldl_append]
  rfl

/-! ## What the tables hold -/

def Application.characteristicAt (application : Application) (serviceUuid charUuid : Text) :
    Option LocalCharacteristic :=
  (application.services.lookup serviceUuid).bind fun service =>
    service.characteristics.lookup charUuid

def Application.cells (application : Application) : Cells
  | .characteristic serviceUuid charUuid =>
      (application.characteristicAt serviceUuid charUuid).map fun characteristic =>
        ⟨characteristic.value, characteristic.notifying⟩
  | .descriptor serviceUuid charUuid descUuid =>
      ((application.characteristicAt serviceUuid charUuid).bind fun characteristic =>
        characteristic.descriptors.lookup descUuid).map fun descriptor =>
          ⟨descriptor.value, false⟩

variable {application after : Application} {serviceUuid charUuid descUuid : Text}
  {service : LocalService} {characteristic : LocalCharacteristic} {refused : Bool} {event : Event}

theorem characteristicAt_modify (application : Application) (serviceUuid charUuid : Text)
    (change : LocalCharacteristic → LocalCharacteristic) (otherService otherChar : Text) :
    (application.modifyCharacteristic serviceUuid charUuid change).characteristicAt otherService
        otherChar =
      if otherService = serviceUuid ∧ otherChar = charUuid then
        (application.characteristicAt serviceUuid charUuid).map change
      else application.characteristicAt otherService otherChar := by
  unfold Application.characteristicAt Application.modifyCharacteristic
  dsimp only
  rw [lookup_modify]
  by_cases sameService : otherService = serviceUuid
  · rw [if_pos sameService, sameService]
    cases application.services.lookup serviceUuid with
    | none => simp
    | some service =>
        simp only [Option.map_some, Option.bind_some, lookup_modify, true_and]
  · rw [if_neg sameService, if_neg fun both => sameService both.1]

theorem characteristicAt_setCharacteristics (isFound : application.services.lookup serviceUuid =
    some service) (connection : Connection)
    (change : Table Text LocalCharacteristic → Table Text LocalCharacteristic)
    (otherService otherChar : Text) :
    (application.setCharacteristics serviceUuid connection change).characteristicAt otherService
        otherChar =
      if otherService = serviceUuid then (change service.characteristics).lookup otherChar
      else application.characteristicAt otherService otherChar := by
  unfold Application.characteristicAt Application.setCharacteristics
  dsimp only
  rw [lookup_modify, isFound]
  split <;> rfl

/-- One characteristic of a service is replaced or taken out. -/
theorem characteristicAt_setCharacteristic
    (isFound : application.services.lookup serviceUuid = some service) (connection : Connection)
    (change : Table Text LocalCharacteristic → Table Text LocalCharacteristic)
    {made : Option LocalCharacteristic}
    (isChange : ∀ otherChar, (change service.characteristics).lookup otherChar =
      if otherChar = charUuid then made else service.characteristics.lookup otherChar)
    (otherService otherChar : Text) :
    (application.setCharacteristics serviceUuid connection change).characteristicAt otherService
        otherChar =
      if otherService = serviceUuid ∧ otherChar = charUuid then made
      else application.characteristicAt otherService otherChar := by
  rw [characteristicAt_setCharacteristics isFound]
  by_cases sameService : otherService = serviceUuid
  · have inside : application.characteristicAt otherService otherChar =
        service.characteristics.lookup otherChar := by
      unfold Application.characteristicAt
      rw [sameService, isFound]
      rfl
    rw [if_pos sameService, isChange, inside]
    simp only [sameService, true_and]
  · rw [if_neg sameService, if_neg fun both => sameService both.1]

/-- A new service holds no characteristics. -/
theorem characteristicAt_insertService
    (isServices : after.services = application.services.insert serviceUuid service)
    (isNew : service.characteristics = ∅) (otherService otherChar : Text) :
    after.characteristicAt otherService otherChar =
      if otherService = serviceUuid then none
      else application.characteristicAt otherService otherChar := by
  unfold Application.characteristicAt
  rw [isServices, lookup_insert_if]
  by_cases sameService : otherService = serviceUuid
  · rw [if_pos sameService, if_pos sameService, Option.bind_some, isNew]
    rfl
  · rw [if_neg sameService, if_neg sameService]

theorem cells_insertService
    (isServices : after.services = application.services.insert serviceUuid service)
    (isNew : service.characteristics = ∅) :
    after.cells = fun place =>
      if place.InService serviceUuid then none else application.cells place := by
  funext place
  cases place with
  | characteristic otherService otherChar =>
      simp only [Application.cells, characteristicAt_insertService isServices isNew]
      by_cases sameService : otherService = serviceUuid
      · rw [if_pos sameService]
        exact (if_pos sameService).symm
      · rw [if_neg sameService]
        exact (if_neg sameService).symm
  | descriptor otherService otherChar otherDesc =>
      simp only [Application.cells, characteristicAt_insertService isServices isNew]
      by_cases sameService : otherService = serviceUuid
      · rw [if_pos sameService]
        exact (if_pos sameService).symm
      · rw [if_neg sameService]
        exact (if_neg sameService).symm

/-- A replaced characteristic has no descriptors. -/
theorem cells_setCharacteristic
    (isFound : application.services.lookup serviceUuid = some service) (connection : Connection)
    (change : Table Text LocalCharacteristic → Table Text LocalCharacteristic)
    {made : Option LocalCharacteristic}
    (isChange : ∀ otherChar, (change service.characteristics).lookup otherChar =
      if otherChar = charUuid then made else service.characteristics.lookup otherChar)
    (isNew : ∀ characteristic ∈ made, characteristic.descriptors = ∅) :
    (application.setCharacteristics serviceUuid connection change).cells =
      Function.update (fun place : Attribute => if place.InCharacteristic serviceUuid charUuid
        then none else application.cells place) (.characteristic serviceUuid charUuid)
        (made.map fun characteristic => ⟨characteristic.value, characteristic.notifying⟩) := by
  have found := characteristicAt_setCharacteristic isFound connection change isChange
  funext place
  cases place with
  | characteristic otherService otherChar =>
      simp only [Application.cells, found, Function.update_apply,
        Attribute.characteristic.injEq]
      by_cases same : otherService = serviceUuid ∧ otherChar = charUuid
      · rw [if_pos same, if_pos same]
      · rw [if_neg same, if_neg same]
        exact (if_neg same).symm
  | descriptor otherService otherChar otherDesc =>
      rw [Function.update_of_ne (by simp)]
      simp only [Application.cells, found]
      by_cases same : otherService = serviceUuid ∧ otherChar = charUuid
      · rw [if_pos same]
        refine Eq.trans ?_ (if_pos same).symm
        cases made with
        | none => rfl
        | some characteristic =>
            rw [Option.bind_some, isNew characteristic rfl]
            rfl
      · rw [if_neg same]
        exact (if_neg same).symm

/-- A change of the value or of the listening of a characteristic. -/
theorem cells_modifyCharacteristic (serviceUuid charUuid : Text)
    (change : LocalCharacteristic → LocalCharacteristic) (changeCell : Cell → Cell)
    (sameCell : ∀ characteristic, (⟨(change characteristic).value,
      (change characteristic).notifying⟩ : Cell) =
        changeCell ⟨characteristic.value, characteristic.notifying⟩)
    (sameDescriptors : ∀ characteristic,
      (change characteristic).descriptors = characteristic.descriptors) :
    (application.modifyCharacteristic serviceUuid charUuid change).cells =
      application.cells.change (.characteristic serviceUuid charUuid) changeCell := by
  funext place
  unfold Cells.change
  cases place with
  | characteristic otherService otherChar =>
      simp only [Application.cells, characteristicAt_modify, Function.update_apply,
        Attribute.characteristic.injEq]
      split
      · rw [Option.map_map, Option.map_map]
        congr 1
        funext characteristic
        exact sameCell characteristic
      · rfl
  | descriptor otherService otherChar otherDesc =>
      rw [Function.update_of_ne (by simp)]
      simp only [Application.cells, characteristicAt_modify]
      split
      · next same =>
          rw [same.1, same.2]
          cases application.characteristicAt serviceUuid charUuid with
          | none => rfl
          | some characteristic =>
              simp only [Option.map_some, Option.bind_some, sameDescriptors]
      · rfl

/-- A change of the descriptors of a characteristic. -/
theorem cells_setDescriptors (application : Application) (serviceUuid charUuid descUuid : Text)
    (change : Table Text LocalDescriptor → Table Text LocalDescriptor)
    (result : Option LocalDescriptor → Option LocalDescriptor)
    (isChange : ∀ table other, (change table).lookup other =
      if other = descUuid then result (table.lookup descUuid) else table.lookup other) :
    (application.modifyCharacteristic serviceUuid charUuid fun characteristic =>
      { characteristic with descriptors := change characteristic.descriptors }).cells =
      Function.update application.cells (.descriptor serviceUuid charUuid descUuid)
        (((application.characteristicAt serviceUuid charUuid).bind fun characteristic =>
          result (characteristic.descriptors.lookup descUuid)).map fun descriptor =>
            ⟨descriptor.value, false⟩) := by
  funext place
  cases place with
  | characteristic otherService otherChar =>
      rw [Function.update_of_ne (by simp)]
      simp only [Application.cells, characteristicAt_modify]
      split
      · next same =>
          rw [same.1, same.2, Option.map_map]
          rfl
      · rfl
  | descriptor otherService otherChar otherDesc =>
      simp only [Application.cells, characteristicAt_modify, Function.update_apply,
        Attribute.descriptor.injEq]
      by_cases same : otherService = serviceUuid ∧ otherChar = charUuid
      · rw [if_pos same, same.1, same.2]
        cases application.characteristicAt serviceUuid charUuid with
        | none => simp
        | some characteristic =>
            simp only [Option.map_some, Option.bind_some, isChange, true_and]
            split <;> rfl
      · rw [if_neg same, if_neg fun all => same ⟨all.1, all.2.1⟩]

/-! ## Every operation tells what it does -/

/-- The log tells what the tables hold, and every answer was right. -/
structure Told (application : Application) : Prop where
  cells : application.cells = replay application.log
  answered : History.Every Answered application.log

theorem createApplication_told (path : Text) : Told (createApplication path) :=
  { cells := by
      funext place
      cases place <;> rfl
    answered := History.every_nil }

/-- An operation that changes the cells as its event says. -/
theorem Told.emit (told : Told application) (sameLog : after.log = application.log)
    (changed : after.cells = application.cells.after event)
    (right : Answered application.log event) : Told (after.emit event) := by
  refine ⟨?_, ?_⟩
  · change after.cells = replay (after.log ++ [event])
    rw [replay_append, sameLog, changed, told.cells]
  · change History.Every Answered (after.log ++ [event])
    rw [sameLog]
    exact told.answered.append right

theorem Told.value (told : Told application) (place : Attribute) :
    (application.cells place).bind Cell.value = lastValue application.log place := by
  rw [told.cells]
  rfl

theorem addService_told (told : Told application) {code : Int}
    (added : addService application serviceUuid refused = some (after, code)) : Told after := by
  unfold addService at added
  split at added
  · dsimp only at added
    split at added
    · cases added
    · next registrationId connection registered =>
        cases added
        exact told.emit rfl (cells_insertService rfl rfl) trivial
  · cases added
    exact told

theorem addCharacteristic_told (told : Told application) (serviceUuid charUuid : Text)
    (permissions : UInt32) (refused : Bool) :
    Told (addCharacteristic application serviceUuid charUuid permissions refused).1 := by
  unfold addCharacteristic
  split
  · split
    · exact told
    · next service isService =>
        have isFound := (getService_eq_some.mp isService).2
        dsimp only
        split
        · next connection registered =>
            refine told.emit rfl ?_ trivial
            have removed := cells_setCharacteristic isFound
              (destroyOld localCharFree application.connection service.characteristics charUuid)
              _ (lookup_erase_if service.characteristics charUuid) (by simp)
            rw [removed]
            exact Function.update_eq_self_iff.mpr (if_pos (And.intro rfl rfl)).symm
        · next registrationId connection registered =>
            refine told.emit rfl ?_ trivial
            exact cells_setCharacteristic isFound connection _
              (fun otherChar => lookup_insert_if service.characteristics charUuid otherChar _)
              fun _ isMade => Option.some.inj isMade ▸ rfl
  · exact told

theorem characteristicAt_of_getLocal (isLocal : application.getLocalCharacteristic serviceUuid
    charUuid = some characteristic) :
    application.characteristicAt serviceUuid charUuid = some characteristic := by
  obtain ⟨-, -, service, isFound, isInside⟩ := getLocalCharacteristic_eq_some.mp isLocal
  unfold Application.characteristicAt
  rw [isFound]
  exact isInside

theorem addDescriptor_told (told : Told application) (serviceUuid charUuid descUuid : Text)
    (permissions : UInt32) (refused : Bool) :
    Told (addDescriptor application serviceUuid charUuid descUuid permissions refused).1 := by
  unfold addDescriptor
  split
  · split
    · exact told
    · next characteristic isLocal =>
        have isFound := characteristicAt_of_getLocal isLocal
        dsimp only
        split
        · refine told.emit rfl ?_ trivial
          refine (cells_setDescriptors application serviceUuid charUuid descUuid _
            (fun _ => none) fun table other => lookup_erase_if table descUuid other).trans ?_
          rw [isFound]
          rfl
        · refine told.emit rfl ?_ trivial
          refine (cells_setDescriptors application serviceUuid charUuid descUuid _
            (fun _ => some _) fun table other => lookup_insert_if table descUuid other _).trans ?_
          rw [isFound]
          rfl
  · exact told

theorem characteristicSetValue_told (told : Told application)
    (characteristic : LocalCharacteristic) (value : Bytes) :
    Told (characteristicSetValue application characteristic value).1 := by
  refine told.emit rfl ?_ trivial
  exact cells_modifyCharacteristic _ _ _ _ (fun _ => rfl) fun _ => rfl

theorem descriptorSetValue_told (told : Told application) (descriptor : LocalDescriptor)
    (value : Bytes) : Told (descriptorSetValue application descriptor value).1 := by
  refine told.emit rfl ?_ trivial
  refine (cells_setDescriptors application descriptor.serviceUuid descriptor.charUuid
    descriptor.uuid _ (Option.map _)
    fun table other => lookup_modify table descriptor.uuid other _).trans ?_
  change _ = Function.update _ _ _
  congr 1
  simp only [Application.cells]
  cases application.characteristicAt descriptor.serviceUuid descriptor.charUuid with
  | none => rfl
  | some characteristic =>
      simp only [Option.bind_some, Option.map_map]
      rfl

theorem setCharValue_told (told : Told application) (serviceUuid charUuid : Text)
    (value : Bytes) : Told (setCharValue application serviceUuid charUuid value).1 := by
  unfold setCharValue
  split
  · split
    · exact told
    · exact characteristicSetValue_told told _ _
  · exact told

theorem setDescValue_told (told : Told application) (serviceUuid charUuid descUuid : Text)
    (value : Bytes) : Told (setDescValue application serviceUuid charUuid descUuid value).1 := by
  unfold setDescValue
  split
  · split
    · exact told
    · exact descriptorSetValue_told told _ _
  · exact told

theorem notify_told (told : Told application) (serviceUuid charUuid : Text) (value : Bytes)
    (refused : Bool) : Told (notify application serviceUuid charUuid value refused).1 := by
  unfold notify
  split
  · split
    · exact told
    · split
      · exact told
      · exact told.emit rfl rfl trivial
  · exact told

theorem doSets_told (told : Told application) (verdict : Verdict) :
    Told (application.doSets verdict) := by
  unfold Application.doSets
  generalize verdict.sets = sets
  induction sets generalizing application with
  | nil => exact told
  | cons set rest inductionHypothesis =>
      exact inductionHypothesis (setCharValue_told told set.1 set.2.1 set.2.2)

/-- A read answers with what the pointer reads. -/
theorem returnValue_told (told : Told application) (place : Attribute) {value : Option Bytes}
    (isValue : value = (application.cells place).bind Cell.value) (error : Option Text)
    (denied missing : String) :
    Told (returnValue application place value error denied missing) := by
  unfold returnValue
  split
  · exact told.emit rfl rfl trivial
  · next found =>
      refine told.emit rfl rfl ?_
      change lastValue application.log place = some found
      rw [← told.value, ← isValue]
  · exact told.emit rfl rfl trivial

theorem returnWritten_told (told : Told application) (place : Attribute) (error : Option Text)
    {setValue : Application → Application × Int}
    (sets : ∀ application : Application, Told application → Told (setValue application).1) :
    Told (returnWritten application place error setValue) := by
  unfold returnWritten
  split
  · exact told.emit rfl rfl trivial
  · exact (sets application told).emit rfl rfl trivial

theorem characteristicValue_eq (application : Application)
    (characteristic : LocalCharacteristic) :
    application.characteristicValue characteristic =
      (application.cells (.characteristic characteristic.serviceUuid characteristic.uuid)).bind
        Cell.value := by
  unfold Application.characteristicValue
  simp only [Application.cells, Application.characteristicAt]
  cases application.services.lookup characteristic.serviceUuid with
  | none => rfl
  | some service =>
      simp only [Option.bind_some]
      cases service.characteristics.lookup characteristic.uuid <;> rfl

theorem descriptorValue_eq (application : Application) (descriptor : LocalDescriptor) :
    application.descriptorValue descriptor =
      (application.cells (.descriptor descriptor.serviceUuid descriptor.charUuid
        descriptor.uuid)).bind Cell.value := by
  unfold Application.descriptorValue
  simp only [Application.cells, Application.characteristicAt]
  cases application.services.lookup descriptor.serviceUuid with
  | none => rfl
  | some service =>
      simp only [Option.bind_some]
      cases service.characteristics.lookup descriptor.charUuid with
      | none => rfl
      | some characteristic =>
          simp only [Option.bind_some]
          cases characteristic.descriptors.lookup descriptor.uuid <;> rfl

theorem internalCharacteristicMethodCall_told (told : Told application) (callbacks : Callbacks)
    (characteristic : LocalCharacteristic) (method : Method) :
    Told (internalCharacteristicMethodCall application callbacks characteristic method) := by
  cases method with
  | readValue device =>
      exact returnValue_told (doSets_told told _) _ (characteristicValue_eq _ _) _ _ _
  | writeValue value device =>
      exact returnWritten_told (doSets_told told _) _ _ fun _ isTold =>
        characteristicSetValue_told isTold _ _
  | startNotify =>
      refine told.emit rfl ?_ trivial
      exact cells_modifyCharacteristic _ _ _ _ (fun _ => rfl) fun _ => rfl
  | stopNotify =>
      refine told.emit rfl ?_ trivial
      exact cells_modifyCharacteristic _ _ _ _ (fun _ => rfl) fun _ => rfl
  | confirm => exact told.emit rfl rfl trivial

theorem internalDescriptorMethodCall_told (told : Told application) (callbacks : Callbacks)
    (descriptor : LocalDescriptor) (method : Method) :
    Told (internalDescriptorMethodCall application callbacks descriptor method) := by
  cases method with
  | readValue device =>
      exact returnValue_told (doSets_told told _) _ (descriptorValue_eq _ _) _ _ _
  | writeValue value device =>
      exact returnWritten_told (doSets_told told _) _ _ fun _ isTold =>
        descriptorSetValue_told isTold _ _
  | startNotify => exact told
  | stopNotify => exact told
  | confirm => exact told

theorem step_told {action : Action} (told : Told application)
    (stepped : step application action = some after) : Told after := by
  cases action with
  | setCallback callback =>
      cases stepped
      exact ⟨told.cells, told.answered⟩
  | addService serviceUuid refused =>
      obtain ⟨⟨next, code⟩, added, isNext⟩ := Option.map_eq_some_iff.mp stepped
      cases isNext
      exact addService_told told added
  | addCharacteristic serviceUuid charUuid permissions refused =>
      cases stepped
      exact addCharacteristic_told told _ _ _ _
  | addDescriptor serviceUuid charUuid descUuid permissions refused =>
      cases stepped
      exact addDescriptor_told told _ _ _ _ _
  | setCharValue serviceUuid charUuid byteArray =>
      cases stepped
      exact setCharValue_told told _ _ _
  | setDescValue serviceUuid charUuid descUuid byteArray =>
      cases stepped
      exact setDescValue_told told _ _ _ _
  | notify serviceUuid charUuid byteArray refused =>
      cases stepped
      exact notify_told told _ _ _ _
  | callCharacteristic callbacks path method =>
      change callCharacteristic application callbacks path method = some after at stepped
      unfold callCharacteristic at stepped
      split at stepped
      · cases stepped
        exact told
      · obtain ⟨characteristic, -, isAfter⟩ := Option.map_eq_some_iff.mp stepped
        rw [← isAfter]
        exact internalCharacteristicMethodCall_told told _ _ _
  | callDescriptor callbacks path method =>
      change callDescriptor application callbacks path method = some after at stepped
      unfold callDescriptor at stepped
      split at stepped
      · cases stepped
        exact told
      · obtain ⟨descriptor, -, isAfter⟩ := Option.map_eq_some_iff.mp stepped
        rw [← isAfter]
        exact internalDescriptorMethodCall_told told _ _ _

/-! ## Runs -/

/-- What the user gets is what the tables hold. -/
theorem getLocalCharacteristic_eq (consistent : application.Consistent)
    (serviceUuid charUuid : Text) :
    application.getLocalCharacteristic serviceUuid charUuid =
      application.characteristicAt serviceUuid charUuid := by
  cases isAt : application.characteristicAt serviceUuid charUuid with
  | none =>
      rw [← Option.not_isSome_iff_eq_none, Option.isSome_iff_exists]
      rintro ⟨characteristic, isLocal⟩
      rw [characteristicAt_of_getLocal isLocal] at isAt
      cases isAt
  | some characteristic =>
      obtain ⟨service, isFound, isInside⟩ := Option.bind_eq_some_iff.mp isAt
      have isNamed := consistent.named serviceUuid service isFound
      exact getLocalCharacteristic_eq_some.mpr ⟨isNamed.valid,
        (isNamed.characteristics charUuid characteristic isInside).valid, service, isFound, isInside⟩

theorem getCharValue_eq (consistent : application.Consistent) (serviceUuid charUuid : Text) :
    getCharValue application serviceUuid charUuid =
      (application.cells (.characteristic serviceUuid charUuid)).bind Cell.value := by
  unfold getCharValue
  rw [getLocalCharacteristic_eq consistent]
  simp only [Application.cells]
  cases isAt : application.characteristicAt serviceUuid charUuid with
  | none =>
      simp only [Option.bind_none, ite_self]
      rfl
  | some characteristic =>
      have isLocal := (getLocalCharacteristic_eq consistent serviceUuid charUuid).trans isAt
      obtain ⟨isService, isChar, -⟩ := getLocalCharacteristic_eq_some.mp isLocal
      have bothValid : (gUuidStringIsValid serviceUuid && gUuidStringIsValid charUuid) = true := by
        unfold isValidUuid at isService isChar
        rw [Bool.and_eq_true] at isService isChar ⊢
        exact ⟨isService.1, isChar.1⟩
      rw [if_pos bothValid]
      rfl

theorem charIsNotifying_eq (consistent : application.Consistent) (serviceUuid charUuid : Text) :
    charIsNotifying application serviceUuid charUuid =
      ((application.cells (.characteristic serviceUuid charUuid)).map Cell.notifying).getD
        false := by
  unfold charIsNotifying
  rw [getLocalCharacteristic_eq consistent]
  simp only [Application.cells]
  cases isAt : application.characteristicAt serviceUuid charUuid with
  | none =>
      simp only [ite_self]
      rfl
  | some characteristic =>
      have isLocal := (getLocalCharacteristic_eq consistent serviceUuid charUuid).trans isAt
      obtain ⟨isService, isChar, -⟩ := getLocalCharacteristic_eq_some.mp isLocal
      rw [isService, isChar]
      rfl

/-- In every run, a read is answered with the value that was set last, by the
user or a client, since the characteristic or descriptor was added; the user gets
the same value, and is told whether a client listens. -/
theorem values_told {path : Text} {actions : List Action}
    (ran : Run.run step (createApplication path) actions = some application) :
    History.Every Answered application.log ∧
      ∀ serviceUuid charUuid,
        getCharValue application serviceUuid charUuid =
            lastValue application.log (.characteristic serviceUuid charUuid) ∧
          charIsNotifying application serviceUuid charUuid =
            ((replay application.log (.characteristic serviceUuid charUuid)).map
              Cell.notifying).getD false := by
  have consistent := run_consistent ran
  have told : Told application :=
    Run.run_invariant (fun _ _ _ => step_told) (createApplication_told path) ran
  refine ⟨told.answered, fun serviceUuid charUuid => ⟨?_, ?_⟩⟩
  · rw [getCharValue_eq consistent, told.value]
  · rw [charIsNotifying_eq consistent, told.cells]

/-- The user sets a level and a client writes another, which is then read; after
the characteristic is added again there is no value. -/
def batteryRead : List Action :=
  [.addService batteryService false, .addCharacteristic batteryService batteryLevel 0x1a false,
    .setCharValue batteryService batteryLevel [90],
    .callCharacteristic .accept "/service0/char0".toList (.writeValue [80] none),
    .callCharacteristic .accept "/service0/char0".toList (.readValue none),
    .addCharacteristic batteryService batteryLevel 0x1a false,
    .callCharacteristic .accept "/service0/char1".toList .startNotify]

theorem values_told_battery :
    ∃ application, Run.run step (createApplication []) batteryRead = some application ∧
      .answered (.characteristic batteryService batteryLevel) [80] ∈ application.log ∧
      History.Every Answered application.log ∧
      getCharValue application batteryService batteryLevel = none ∧
      charIsNotifying application batteryService batteryLevel = true :=
  have ran : Run.run step (createApplication []) batteryRead = some _ := rfl
  have told := values_told ran
  ⟨_, ran, by decide, told.1, (told.2 batteryService batteryLevel).1,
    (told.2 batteryService batteryLevel).2⟩

end TuyaAdapter.BincApplication
