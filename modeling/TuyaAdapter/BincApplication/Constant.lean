import TuyaAdapter.BincApplication.Values
import TuyaAdapter.Foundation.Run

/-!
Owns what clients read under the callbacks of `bt_dbus_api.c`: its read callback
sets the value of the characteristic before every read, so that all reads give
the same bytes and a value that was written is never read back.
-/

namespace TuyaAdapter.BincApplication

open Foundation.Decimal Foundation.KeyedTable Foundation

/-- The read callback is `on_local_char_read`, with the tables as they are. -/
def Callbacks.SetsOnRead (callbacks : Callbacks) : Prop :=
  ∃ gatt, callbacks.onCharRead = fun _ serviceUuid charUuid =>
    ⟨[(TklBt.onLocalCharRead gatt serviceUuid charUuid).1], none⟩

/-- A read of a characteristic is answered with the bytes of the callback. -/
def Event.Constant : Event → Prop
  | .answered (.characteristic _ _) value => value = TklBt.readValue
  | _ => True

/-- The callbacks stay, and what is logged are constant answers. -/
structure Grows (application after : Application) : Prop where
  callbacks : application.callbacks ⊆ after.callbacks
  log : ∃ events, after.log = application.log ++ events ∧ ∀ event ∈ events, event.Constant

variable {application after later : Application} {characteristic : LocalCharacteristic}
  {serviceUuid charUuid : Text}

theorem Grows.refl (application : Application) : Grows application application :=
  ⟨List.Subset.refl _, [], (List.append_nil _).symm, by simp⟩

theorem Grows.trans (first : Grows application after) (second : Grows after later) :
    Grows application later := by
  obtain ⟨events, isLog, constant⟩ := first.log
  obtain ⟨others, isLater, alsoConstant⟩ := second.log
  refine ⟨List.Subset.trans first.callbacks second.callbacks, events ++ others, ?_, ?_⟩
  · rw [isLater, isLog, List.append_assoc]
  · intro event member
    rcases List.mem_append.mp member with isFirst | isSecond
    · exact constant event isFirst
    · exact alsoConstant event isSecond

/-- A change of the tables and one event. -/
theorem Grows.emit {event : Event} (sameLog : after.log = application.log)
    (sameCallbacks : after.callbacks = application.callbacks) (constant : event.Constant) :
    Grows application (after.emit event) := by
  refine ⟨?_, [event], ?_, ?_⟩
  · change _ ⊆ after.callbacks
    rw [sameCallbacks]
    exact List.Subset.refl _
  · change after.log ++ [event] = _
    rw [sameLog]
  · intro other member
    rw [List.mem_singleton.mp member]
    exact constant

theorem characteristicSetValue_grows (application : Application)
    (characteristic : LocalCharacteristic) (value : Bytes) :
    Grows application (characteristicSetValue application characteristic value).1 := by
  unfold characteristicSetValue
  exact .emit rfl rfl trivial

theorem descriptorSetValue_grows (application : Application) (descriptor : LocalDescriptor)
    (value : Bytes) : Grows application (descriptorSetValue application descriptor value).1 := by
  unfold descriptorSetValue
  exact .emit rfl rfl trivial

theorem setCharValue_grows (application : Application) (serviceUuid charUuid : Text)
    (value : Bytes) : Grows application (setCharValue application serviceUuid charUuid value).1 := by
  unfold setCharValue
  split
  · split
    · exact .refl _
    · exact characteristicSetValue_grows _ _ _
  · exact .refl _

theorem doSets_grows (application : Application) (verdict : Verdict) :
    Grows application (application.doSets verdict) := by
  unfold Application.doSets
  generalize verdict.sets = sets
  induction sets generalizing application with
  | nil => exact .refl _
  | cons set rest inductionHypothesis =>
      exact (setCharValue_grows application set.1 set.2.1 set.2.2).trans (inductionHypothesis _)

theorem returnWritten_grows (application : Application) (place : Attribute)
    (error : Option Text) {setValue : Application → Application × Int}
    (sets : ∀ application, Grows application (setValue application).1) :
    Grows application (returnWritten application place error setValue) := by
  unfold returnWritten
  split
  · exact .emit rfl rfl trivial
  · exact (sets application).trans (.emit rfl rfl trivial)

theorem returnDescriptor_grows (application : Application) (serviceUuid charUuid descUuid : Text)
    (value : Option Bytes) (error : Option Text) (denied missing : String) :
    Grows application (returnValue application (.descriptor serviceUuid charUuid descUuid) value
      error denied missing) := by
  unfold returnValue
  split <;> exact .emit rfl rfl trivial

/-- A characteristic in the tables is stored under its own UUIDs. -/
theorem at_own_uuids (consistent : application.Consistent)
    (member : characteristic ∈ application.characteristics) :
    application.getLocalCharacteristic characteristic.serviceUuid characteristic.uuid =
      some characteristic := by
  obtain ⟨serviceUuid, service, isFound, charUuid, isInside⟩ := mem_characteristics.mp member
  have isNamed := consistent.named serviceUuid service isFound
  have inNamed := isNamed.characteristics charUuid characteristic isInside
  rw [inNamed.inService, inNamed.isUuid]
  exact getLocalCharacteristic_eq_some.mpr ⟨isNamed.valid, inNamed.valid, service, isFound,
    isInside⟩

/-- After the callback, the pointer reads the callback's bytes. -/
theorem read_constant (consistent : application.Consistent)
    (member : characteristic ∈ application.characteristics) :
    (setCharValue application characteristic.serviceUuid characteristic.uuid
      TklBt.readValue).1.characteristicValue characteristic = some TklBt.readValue := by
  have isLocal := at_own_uuids consistent member
  obtain ⟨isService, isChar, -⟩ := getLocalCharacteristic_eq_some.mp isLocal
  have isAt := characteristicAt_of_getLocal isLocal
  rw [characteristicValue_eq]
  unfold setCharValue
  rw [isService, isChar, Bool.and_true, if_pos rfl, isLocal]
  dsimp only [characteristicSetValue, Application.cells]
  change (((application.modifyCharacteristic characteristic.serviceUuid characteristic.uuid
    _).characteristicAt _ _).map _).bind Cell.value = _
  rw [characteristicAt_modify, if_pos ⟨rfl, rfl⟩, isAt]
  rfl

theorem callCharacteristic_grows (consistent : application.Consistent)
    (set : Callback.charRead ∈ application.callbacks) {callbacks : Callbacks}
    (setsOnRead : callbacks.SetsOnRead)
    (member : characteristic ∈ application.characteristics) (method : Method) :
    Grows application
      (internalCharacteristicMethodCall application callbacks characteristic method) := by
  cases method with
  | readValue device =>
      obtain ⟨gatt, isRead⟩ := setsOnRead
      have verdict : application.ask .charRead (callbacks.onCharRead (device.map pathToAddress)
          characteristic.serviceUuid characteristic.uuid) =
            ⟨[(characteristic.serviceUuid, characteristic.uuid, TklBt.readValue)], none⟩ := by
        unfold Application.ask
        rw [if_pos (List.contains_iff_mem.mpr set), isRead]
        rfl
      have reads := read_constant consistent member
      refine (setCharValue_grows application characteristic.serviceUuid characteristic.uuid
        TklBt.readValue).trans ?_
      unfold internalCharacteristicMethodCall
      dsimp only
      rw [verdict]
      change Grows _ (returnValue (setCharValue application characteristic.serviceUuid
        characteristic.uuid TklBt.readValue).1 _ _ _ _ _)
      unfold Application.doSets
      rw [List.foldl_cons, List.foldl_nil, reads]
      exact .emit rfl rfl rfl
  | writeValue value device =>
      unfold internalCharacteristicMethodCall
      exact (doSets_grows _ _).trans (returnWritten_grows _ _ _ fun _ =>
        characteristicSetValue_grows _ _ _)
  | startNotify => exact .emit rfl rfl trivial
  | stopNotify => exact .emit rfl rfl trivial
  | confirm => exact .emit rfl rfl trivial

theorem internalDescriptorMethodCall_grows (application : Application) (callbacks : Callbacks)
    (descriptor : LocalDescriptor) (method : Method) :
    Grows application
      (internalDescriptorMethodCall application callbacks descriptor method) := by
  unfold internalDescriptorMethodCall
  cases method with
  | readValue device =>
      exact (doSets_grows _ _).trans (returnDescriptor_grows _ _ _ _ _ _ _ _)
  | writeValue value device =>
      exact (doSets_grows _ _).trans (returnWritten_grows _ _ _ fun _ =>
        descriptorSetValue_grows _ _ _)
  | startNotify => exact .refl _
  | stopNotify => exact .refl _
  | confirm => exact .refl _

/-- Calls on characteristics use the callbacks of `bt_dbus_api.c`. -/
def Action.SetsOnRead : Action → Prop
  | .callCharacteristic callbacks _ _ => callbacks.SetsOnRead
  | _ => True

theorem step_grows {action : Action} (consistent : application.Consistent)
    (set : Callback.charRead ∈ application.callbacks) (setsOnRead : action.SetsOnRead)
    (stepped : step application action = some after) : Grows application after := by
  cases action with
  | setCallback callback =>
      cases stepped
      exact ⟨List.subset_cons_self _ _, [], (List.append_nil _).symm, by simp⟩
  | addService serviceUuid refused =>
      obtain ⟨⟨next, code⟩, added, isNext⟩ := Option.map_eq_some_iff.mp stepped
      cases isNext
      unfold addService at added
      split at added
      · dsimp only at added
        split at added
        · cases added
        · cases added
          exact .emit rfl rfl trivial
      · cases added
        exact .refl _
  | addCharacteristic serviceUuid charUuid permissions refused =>
      cases stepped
      unfold addCharacteristic
      split
      · split
        · exact .refl _
        · dsimp only
          split <;> exact .emit rfl rfl trivial
      · exact .refl _
  | addDescriptor serviceUuid charUuid descUuid permissions refused =>
      cases stepped
      unfold addDescriptor
      split
      · split
        · exact .refl _
        · dsimp only
          split <;> exact .emit rfl rfl trivial
      · exact .refl _
  | setCharValue serviceUuid charUuid byteArray =>
      cases stepped
      exact setCharValue_grows _ _ _ _
  | setDescValue serviceUuid charUuid descUuid byteArray =>
      cases stepped
      unfold setDescValue
      split
      · split
        · exact .refl _
        · exact descriptorSetValue_grows _ _ _
      · exact .refl _
  | notify serviceUuid charUuid byteArray refused =>
      cases stepped
      unfold notify
      split
      · split
        · exact .refl _
        · split
          · exact .refl _
          · exact .emit rfl rfl trivial
      · exact .refl _
  | callCharacteristic callbacks path method =>
      change callCharacteristic application callbacks path method = some after at stepped
      unfold callCharacteristic at stepped
      split at stepped
      · cases stepped
        exact .refl _
      · obtain ⟨characteristic, isFound, isAfter⟩ := Option.map_eq_some_iff.mp stepped
        rw [← isAfter]
        exact callCharacteristic_grows consistent set setsOnRead
          (List.mem_of_find?_eq_some isFound) _
  | callDescriptor callbacks path method =>
      change callDescriptor application callbacks path method = some after at stepped
      unfold callDescriptor at stepped
      split at stepped
      · cases stepped
        exact .refl _
      · obtain ⟨descriptor, -, isAfter⟩ := Option.map_eq_some_iff.mp stepped
        rw [← isAfter]
        exact internalDescriptorMethodCall_grows _ _ _ _

/-- Once the read callback of `bt_dbus_api.c` is set, every read of a
characteristic is answered with the same bytes, whatever clients write. -/
theorem reads_constant {path : Text} {setup actions : List Action}
    (isSetUp : Run.run step (createApplication path) setup = some application)
    (set : Callback.charRead ∈ application.callbacks)
    (setsOnRead : ∀ action ∈ actions, action.SetsOnRead)
    (ran : Run.run step application actions = some after) :
    ∃ events, after.log = application.log ++ events ∧
      ∀ serviceUuid charUuid value,
        .answered (.characteristic serviceUuid charUuid) value ∈ events →
          value = TklBt.readValue := by
  have kept : after.Consistent ∧ Grows application after := by
    have preserved : ∀ state action next, (state.Consistent ∧ Grows application state) →
        Action.SetsOnRead action → step state action = some next →
          next.Consistent ∧ Grows application next := by
      rintro state action next ⟨consistent, grown⟩ isSet stepped
      exact ⟨step_consistent consistent stepped,
        grown.trans (step_grows consistent (grown.callbacks set) isSet stepped)⟩
    exact Run.run_admitted preserved ⟨run_consistent isSetUp, .refl _⟩
      (Run.everyStep_of_mem (fun action member _ => setsOnRead action member) _) ran
  obtain ⟨events, isLog, constant⟩ := kept.2.log
  exact ⟨events, isLog, fun _ _ _ member => constant _ member⟩

/-- The application of `bt_dbus_api.c`, with one characteristic. -/
def batterySetUp : List Action :=
  [.addService batteryService false, .addCharacteristic batteryService batteryLevel 0x1a false,
    .setCallback .charRead]

/-- Its read callback, with empty tables. -/
def Callbacks.setOnRead : Callbacks :=
  { Callbacks.accept with
    onCharRead := fun _ serviceUuid charUuid =>
      ⟨[(TklBt.onLocalCharRead .fresh serviceUuid charUuid).1], none⟩ }

/-- A client writes a level and reads the characteristic. -/
def batteryWritten : List Action :=
  [.callCharacteristic .setOnRead "/service0/char0".toList (.writeValue [80] none),
    .callCharacteristic .setOnRead "/service0/char0".toList (.readValue none)]

theorem reads_constant_battery :
    ∃ application after events,
      Run.run step (createApplication []) batterySetUp = some application ∧
      Run.run step application batteryWritten = some after ∧
      after.log = application.log ++ events ∧
      .answered (.characteristic batteryService batteryLevel) TklBt.readValue ∈ after.log ∧
      ∀ serviceUuid charUuid value,
        .answered (.characteristic serviceUuid charUuid) value ∈ events →
          value = TklBt.readValue := by
  obtain ⟨application, isSetUp, hasCallback, after, ran, answered⟩ :
      ∃ application, Run.run step (createApplication []) batterySetUp = some application ∧
        .charRead ∈ application.callbacks ∧ ∃ after,
          Run.run step application batteryWritten = some after ∧
          .answered (.characteristic batteryService batteryLevel) TklBt.readValue ∈ after.log :=
    ⟨_, rfl, List.mem_cons_self, _, rfl, by decide⟩
  have setsOnRead : ∀ action ∈ batteryWritten, action.SetsOnRead := by
    intro action member
    rcases List.mem_cons.mp member with isFirst | later
    · rw [isFirst]
      exact ⟨.fresh, rfl⟩
    · rw [List.mem_singleton.mp later]
      exact ⟨.fresh, rfl⟩
  obtain ⟨events, isLog, constant⟩ := reads_constant isSetUp hasCallback setsOnRead ran
  exact ⟨application, after, events, isSetUp, ran, isLog, answered, constant⟩

end TuyaAdapter.BincApplication
