import TuyaAdapter.BincAdapter.Model

/-!
Owns the pointers to devices: which of them the trace says are still good.

A device is freed when BlueZ removes it, and when BlueZ adds it again. The
application's device and the device of a call keep their pointer all the same.
-/

namespace TuyaAdapter.BincAdapter

open Foundation.Decimal Foundation.KeyedTable Foundation

variable {central after : Central} {path : Text} {device : Device} {pointer : Pointer}

/-! ## What the trace says -/

/-- The entry frees the device at a path. -/
def Entry.frees (path : Text) (entry : Entry) : Bool :=
  entry = .added path || entry = .removed path

/-- The device at a path was freed after the last entry of a kind. -/
def freedSince (kind : Entry → Bool) (path : Text) : List Entry → Bool
  | [] => false
  | entry :: older => !kind entry && (entry.frees path || freedSince kind path older)

def Entry.isTold : Entry → Bool
  | .told _ _ => true
  | _ => false

def Entry.isCall (serial : Nat) : Entry → Bool
  | .called number _ _ => number = serial
  | _ => false

/-- The path of the device that the application was told last is connected. -/
def connectedTo : List Entry → Option Text
  | [] => none
  | .told path event :: _ => if event.type = some .connect then some path else none
  | _ :: older => connectedTo older

/-- The call of a serial number, until its reply. -/
def awaited (serial : Nat) : List Entry → Option (Method × Text)
  | [] => none
  | .called number method path :: older =>
      if number = serial then some (method, path) else awaited serial older
  | .replied number :: older => if number = serial then none else awaited serial older
  | _ :: older => awaited serial older

/-- A reply finds the device of its call, and the application's device was not freed
since it was told of. -/
def Safe (trace : List Entry) : Action → Prop
  | .getAllReply serial _ =>
      ∀ path, awaited serial trace = some (.getAll, path) →
        freedSince (Entry.isCall serial) path trace = false
  | .disconnectReply serial _ =>
      ∀ path, awaited serial trace = some (.disconnect, path) →
        freedSince (Entry.isCall serial) path trace = false
  | .disconnect =>
      ∀ path, connectedTo trace = some path → freedSince Entry.isTold path trace = false
  | _ => True

/-- A condition on the path of the call that a reply is for. -/
def decidableCall (call : Option (Method × Text)) (method : Method) (holds : Text → Prop)
    [DecidablePred holds] : Decidable (∀ path, call = some (method, path) → holds path) :=
  match call with
  | none => isTrue fun _ isCall => nomatch isCall
  | some (other, path) =>
      decidable_of_iff (other = method → holds path)
        ⟨fun atCall _ isCall => by cases isCall; exact atCall rfl,
          fun every isMethod => every path (isMethod ▸ rfl)⟩

instance (trace : List Entry) : DecidablePred (Safe trace)
  | .getAllReply _ _ => decidableCall ..
  | .disconnectReply _ _ => decidableCall ..
  | .disconnect => inferInstanceAs (Decidable (∀ path, connectedTo trace = some path →
      freedSince Entry.isTold path trace = false))
  | .interfacesAdded _ _ => isTrue trivial
  | .interfacesRemoved _ => isTrue trivial
  | .propertiesChanged _ _ => isTrue trivial
  | .advertise => isTrue trivial

/-! ## Freeing devices -/

theorem freedSince_append {kind : Entry → Bool} {entries older : List Entry}
    (none : ∀ entry ∈ entries, kind entry = false) :
    freedSince kind path (entries ++ older) =
      (entries.any (Entry.frees path) || freedSince kind path older) := by
  induction entries with
  | nil => rfl
  | cons entry entries inductionHypothesis =>
      have rest := inductionHypothesis fun other isOther =>
        none other (List.mem_cons_of_mem _ isOther)
      rw [List.cons_append, freedSince, none entry (List.mem_cons_self ..), rest, List.any_cons,
        Bool.or_assoc]
      rfl

/-- What happened to the devices while the entries came: a device there was is still there,
unless one of the entries freed it. -/
structure Evolves (entries : List Entry) (central after : Central) : Prop where
  trace : after.trace = entries ++ central.trace
  created : central.created ≤ after.created
  ids : (∀ path device, central.devicesCache.lookup path = some device →
      device.id < central.created) →
    ∀ path device, after.devicesCache.lookup path = some device → device.id < after.created
  found : ∀ pointer : Pointer, pointer.id < central.created →
    (after.find pointer).isSome = ((central.find pointer).isSome &&
      !entries.any (Entry.frees pointer.path))

theorem Evolves.trans {third : Central} {entries later : List Entry}
    (first : Evolves entries central after) (second : Evolves later after third) :
    Evolves (later ++ entries) central third := by
  refine ⟨?_, first.created.trans second.created, fun ids => second.ids (first.ids ids), ?_⟩
  · rw [second.trace, first.trace, List.append_assoc]
  · intro pointer isOld
    rw [second.found pointer (isOld.trans_le first.created), first.found pointer isOld,
      List.any_append, Bool.not_or, Bool.and_assoc, Bool.and_comm (!entries.any _)]

/-- Entries that free no device. -/
theorem evolves_entries {entries : List Entry}
    (sameCache : after.devicesCache = central.devicesCache)
    (sameCreated : after.created = central.created)
    (isTrace : after.trace = entries ++ central.trace)
    (noneFreed : ∀ path, ∀ entry ∈ entries, entry.frees path = false) :
    Evolves entries central after := by
  refine ⟨isTrace, sameCreated.ge, ?_, fun pointer _ => ?_⟩
  · rw [sameCache, sameCreated]
    exact fun ids => ids
  · rw [List.any_eq_false.mpr fun entry member => by simp [noneFreed pointer.path entry member],
      Bool.not_false, Bool.and_true, Central.find, sameCache]
    rfl

theorem find_of_lookup (isFound : central.devicesCache.lookup pointer.path = some device) :
    central.find pointer = if device.id = pointer.id then some device else none := by
  rw [Central.find, isFound, Option.filter_some]
  simp only [decide_eq_true_eq]

theorem find_of_none (notFound : central.devicesCache.lookup pointer.path = none) :
    central.find pointer = none := by
  rw [Central.find, notFound, Option.filter_none]

theorem find_put (central : Central) (path : Text) (device : Device) (pointer : Pointer) :
    (central.put path device).find pointer =
      if pointer.path = path then if device.id = pointer.id then some device else none
      else central.find pointer := by
  by_cases isPath : pointer.path = path
  · rw [if_pos isPath]
    apply find_of_lookup
    rw [Central.put, isPath, AList.lookup_insert]
  · rw [if_neg isPath, Central.find, Central.put, AList.lookup_insert_ne isPath]
    rfl

/-- A device is changed in its place. -/
theorem evolves_put {changed : Device} (isFound : central.devicesCache.lookup path = some device)
    (sameId : changed.id = device.id) : Evolves [] central (central.put path changed) := by
  refine ⟨rfl, le_refl _, fun ids other found isOther => ?_, fun pointer _ => ?_⟩
  · unfold Central.put at isOther
    rw [lookup_insert_if] at isOther
    split at isOther
    · rw [← Option.some.inj isOther, sameId]
      exact ids path device isFound
    · exact ids other found isOther
  · rw [find_put]
    split
    · next isPath =>
        rw [find_of_lookup (isPath ▸ isFound), sameId, List.any_nil, Bool.not_false, Bool.and_true]
        split <;> rfl
    · simp

theorem frees_added (path other : Text) :
    (Entry.added path).frees other = decide (path = other) := by
  simp [Entry.frees]

theorem frees_removed (path other : Text) :
    (Entry.removed path).frees other = decide (path = other) := by
  simp [Entry.frees]

/-- A new device takes a place that was empty, or the old one there is freed. -/
theorem evolves_create {entries : List Entry} (isNew : device.id = central.created)
    (frees : ∀ other, entries.any (Entry.frees other) = decide (path = other) ∨
      (entries.any (Entry.frees other) = false ∧ central.devicesCache.lookup path = none)) :
    Evolves entries central (central.create path device entries) := by
  refine ⟨rfl, Nat.le_succ _, fun ids other found isOther => ?_, fun pointer isOld => ?_⟩
  · change (central.devicesCache.insert path device).lookup other = some found at isOther
    rw [lookup_insert_if] at isOther
    split at isOther
    · rw [← Option.some.inj isOther, isNew]
      exact Nat.lt_succ_self _
    · exact (ids other found isOther).trans (Nat.lt_succ_self _)
  · change ((central.put path device).find pointer).isSome = _
    rw [find_put]
    split
    · next isPath =>
        rw [if_neg (by omega : ¬device.id = pointer.id)]
        rcases frees pointer.path with isFreed | ⟨-, isEmpty⟩
        · rw [isFreed, decide_eq_true isPath.symm, Bool.not_true, Bool.and_false]
          rfl
        · rw [find_of_none (isPath ▸ isEmpty)]
          rfl
    · next notPath =>
        have isKept : entries.any (Entry.frees pointer.path) = false := by
          rcases frees pointer.path with isFreed | ⟨notFreed, -⟩
          · rw [isFreed, decide_eq_false (Ne.symm notPath)]
          · exact notFreed
        rw [isKept, Bool.not_false, Bool.and_true]

theorem evolves_erase (central : Central) (path : Text) :
    Evolves [.removed path] central (deviceDisappeared central path) := by
  refine ⟨rfl, le_refl _, fun ids other found isOther => ?_, fun pointer _ => ?_⟩
  · change (central.devicesCache.erase path).lookup other = some found at isOther
    rw [lookup_erase_if] at isOther
    split at isOther
    · cases isOther
    · exact ids other found isOther
  · change (((central.devicesCache.erase path).lookup pointer.path).filter _).isSome = _
    rw [lookup_erase_if, List.any_cons, List.any_nil, Bool.or_false, frees_removed]
    split
    · next isPath => simp [isPath]
    · next notPath => simp [Central.find, Ne.symm notPath]

/-! ## Good pointers -/

/-- The pointer is good exactly when the trace has not freed its device since the
entry it was kept at. -/
def Tracked (central : Central) (kind : Entry → Bool) (pointer : Pointer) : Prop :=
  pointer.id < central.created ∧
    ((central.find pointer).isSome ↔ freedSince kind pointer.path central.trace = false)

theorem Tracked.evolves {kind : Entry → Bool} {entries : List Entry}
    (tracked : Tracked central kind pointer) (evolves : Evolves entries central after)
    (none : ∀ entry ∈ entries, kind entry = false) : Tracked after kind pointer := by
  refine ⟨tracked.1.trans_le evolves.created, ?_⟩
  rw [evolves.found pointer tracked.1, evolves.trace, freedSince_append none, Bool.and_eq_true,
    Bool.or_eq_false_iff, Bool.not_eq_true', tracked.2, and_comm]

structure Linked (central : Central) : Prop where
  ids : ∀ path device, central.devicesCache.lookup path = some device →
    device.id < central.created
  serials : ∀ serial, central.serials ≤ serial → central.pending.lookup serial = none
  told : central.sgDevice.map Pointer.path = connectedTo central.trace
  toldTracked : ∀ pointer, central.sgDevice = some pointer →
    Tracked central Entry.isTold pointer
  called : ∀ serial, (central.pending.lookup serial).map (fun call => (call.1, call.2.path)) =
    awaited serial central.trace
  calledTracked : ∀ serial method pointer, central.pending.lookup serial = some (method, pointer) →
    Tracked central (Entry.isCall serial) pointer

/-- Entries that only report on devices. -/
def Reports (entries : List Entry) : Prop :=
  ∀ entry ∈ entries, entry.isTold = false ∧ (∀ serial, entry.isCall serial = false) ∧
    ∀ serial, entry ≠ .replied serial

theorem connectedTo_append {entries older : List Entry}
    (noneTold : ∀ entry ∈ entries, entry.isTold = false) :
    connectedTo (entries ++ older) = connectedTo older := by
  induction entries with
  | nil => rfl
  | cons entry entries inductionHypothesis =>
      have rest := inductionHypothesis fun other member =>
        noneTold other (List.mem_cons_of_mem _ member)
      have notTold := noneTold entry (List.mem_cons_self ..)
      cases entry with
      | told _ _ => cases notTold
      | _ => exact rest

theorem awaited_append {serial : Nat} {entries older : List Entry}
    (none : ∀ entry ∈ entries, entry.isCall serial = false ∧ entry ≠ .replied serial) :
    awaited serial (entries ++ older) = awaited serial older := by
  induction entries with
  | nil => rfl
  | cons entry entries inductionHypothesis =>
      have rest := inductionHypothesis fun other member =>
        none other (List.mem_cons_of_mem _ member)
      obtain ⟨notCall, notReply⟩ := none entry (List.mem_cons_self ..)
      cases entry with
      | called number method path =>
          have isOther : ¬number = serial := of_decide_eq_false notCall
          rw [List.cons_append, awaited, if_neg isOther, rest]
      | replied number =>
          have isOther : ¬number = serial := fun same => notReply (same ▸ rfl)
          rw [List.cons_append, awaited, if_neg isOther, rest]
      | _ => exact rest

theorem Linked.evolves {entries : List Entry} (linked : Linked central)
    (evolves : Evolves entries central after) (reports : Reports entries)
    (samePending : after.pending = central.pending) (sameSerials : after.serials = central.serials)
    (sameDevice : after.sgDevice = central.sgDevice) : Linked after := by
  refine ⟨evolves.ids linked.ids, ?_, ?_, ?_, ?_, ?_⟩
  · rw [samePending, sameSerials]
    exact linked.serials
  · rw [sameDevice, evolves.trace, connectedTo_append fun entry member => (reports entry member).1]
    exact linked.told
  · intro pointer isDevice
    exact (linked.toldTracked pointer (sameDevice ▸ isDevice)).evolves evolves
      fun entry member => (reports entry member).1
  · intro serial
    have noneCalled : ∀ entry ∈ entries, entry.isCall serial = false ∧ entry ≠ .replied serial :=
      fun entry member =>
        ⟨(reports entry member).2.1 serial, (reports entry member).2.2 serial⟩
    rw [samePending, evolves.trace, awaited_append noneCalled]
    exact linked.called serial
  · intro serial method pointer isPending
    exact (linked.calledTracked serial method pointer (samePending ▸ isPending)).evolves evolves
      fun entry member => (reports entry member).2.1 serial

/-- The entry that keeps a pointer to a device there is. -/
theorem tracked_here {kind : Entry → Bool} {entry : Entry} {older : List Entry}
    (isTrace : central.trace = entry :: older) (isKind : kind entry = true)
    (isOld : pointer.id < central.created) (isFound : (central.find pointer).isSome) :
    Tracked central kind pointer := by
  refine ⟨isOld, ?_⟩
  rw [isTrace, freedSince, isKind]
  simpa using isFound

/-- The application is told of a device there is. -/
theorem Linked.tell (linked : Linked central) (connected : Bool)
    (isFound : central.devicesCache.lookup path = some device) :
    Linked (central.tell path device.id connected) := by
  let event : GapEvent := ⟨0, some (typeOf connected), bleConnHandle, bleRoleServer⟩
  have evolves : Evolves [.told path event] central (central.tell path device.id connected) := by
    refine evolves_entries rfl rfl rfl fun other entry member => ?_
    rw [List.mem_singleton.mp member]
    rfl
  have noneCalled : ∀ serial, ∀ entry ∈ [Entry.told path event],
      entry.isCall serial = false ∧ entry ≠ .replied serial := by
    intro serial entry member
    rw [List.mem_singleton.mp member]
    exact ⟨rfl, nofun⟩
  refine ⟨evolves.ids linked.ids, linked.serials, ?_, ?_, ?_, ?_⟩
  · cases connected <;> rfl
  · intro pointer isDevice
    cases connected with
    | false => cases isDevice
    | true =>
        cases isDevice
        refine tracked_here rfl rfl (linked.ids path device isFound) ?_
        change (central.find ⟨path, device.id⟩).isSome
        rw [find_of_lookup isFound, if_pos rfl]
        rfl
  · intro serial
    rw [evolves.trace, awaited_append (noneCalled serial)]
    exact linked.called serial
  · intro serial method pointer isPending
    exact (linked.calledTracked serial method pointer isPending).evolves evolves
      fun entry member => (noneCalled serial entry member).1

theorem Linked.call {method : Method} (linked : Linked central)
    (isOld : pointer.id < central.created) (isFound : (central.find pointer).isSome) :
    Linked (central.call method pointer) := by
  have evolves : Evolves [.called central.serials method pointer.path] central
      (central.call method pointer) := by
    refine evolves_entries rfl rfl rfl fun other entry member => ?_
    rw [List.mem_singleton.mp member]
    rfl
  refine ⟨evolves.ids linked.ids, ?_, linked.told, ?_, ?_, ?_⟩
  · intro serial isNew
    have isOther : serial ≠ central.serials := by
      change central.serials + 1 ≤ serial at isNew
      omega
    change (central.pending.insert central.serials (method, pointer)).lookup serial = none
    rw [AList.lookup_insert_ne isOther]
    exact linked.serials serial (Nat.le_of_succ_le isNew)
  · intro kept isDevice
    refine (linked.toldTracked kept isDevice).evolves evolves fun entry member => ?_
    rw [List.mem_singleton.mp member]
    rfl
  · intro serial
    change ((central.pending.insert central.serials (method, pointer)).lookup serial).map _ =
      if central.serials = serial then some (method, pointer.path) else awaited serial central.trace
    rw [lookup_insert_if]
    by_cases isSerial : serial = central.serials
    · rw [if_pos isSerial, if_pos isSerial.symm]
      rfl
    · rw [if_neg isSerial, if_neg (Ne.symm isSerial)]
      exact linked.called serial
  · intro serial kind kept isPending
    change (central.pending.insert central.serials (method, pointer)).lookup serial = _ at isPending
    rw [lookup_insert_if] at isPending
    split at isPending
    · next isSerial =>
        cases isPending
        rw [isSerial]
        exact tracked_here rfl (decide_eq_true rfl) isOld isFound
    · next isOther =>
        refine (linked.calledTracked serial kind kept isPending).evolves evolves
          fun entry member => ?_
        rw [List.mem_singleton.mp member]
        exact decide_eq_false (Ne.symm isOther)

theorem Linked.takeReply (linked : Linked central) (serial : Nat) :
    Linked (central.takeReply serial) := by
  have evolves : Evolves [.replied serial] central (central.takeReply serial) := by
    refine evolves_entries rfl rfl rfl fun other entry member => ?_
    rw [List.mem_singleton.mp member]
    rfl
  have noneKept : ∀ entry ∈ [Entry.replied serial], entry.isTold = false ∧
      ∀ other, entry.isCall other = false := by
    intro entry member
    rw [List.mem_singleton.mp member]
    exact ⟨rfl, fun _ => rfl⟩
  refine ⟨evolves.ids linked.ids, ?_, linked.told, ?_, ?_, ?_⟩
  · intro other isNew
    change (central.pending.erase serial).lookup other = none
    rw [lookup_erase_if]
    split
    · rfl
    · exact linked.serials other isNew
  · intro kept isDevice
    exact (linked.toldTracked kept isDevice).evolves evolves
      fun entry member => (noneKept entry member).1
  · intro other
    change ((central.pending.erase serial).lookup other).map _ =
      if serial = other then none else awaited other central.trace
    rw [lookup_erase_if]
    by_cases isSerial : other = serial
    · rw [if_pos isSerial, if_pos isSerial.symm]
      rfl
    · rw [if_neg isSerial, if_neg (Ne.symm isSerial)]
      exact linked.called other
  · intro other method kept isPending
    change (central.pending.erase serial).lookup other = _ at isPending
    rw [lookup_erase_if] at isPending
    split at isPending
    · cases isPending
    · exact (linked.calledTracked other method kept isPending).evolves evolves
        fun entry member => (noneKept entry member).2 other

/-! ## Every step -/

theorem find_some (isFound : central.find pointer = some device) :
    central.devicesCache.lookup pointer.path = some device ∧ device.id = pointer.id := by
  obtain ⟨isDevice, isId⟩ := Option.filter_eq_some_iff.mp isFound
  exact ⟨isDevice, of_decide_eq_true isId⟩

theorem report_reports {properties : List Property} {entry : Entry}
    (member : entry ∈ report path properties) : ∃ connected, entry = .reported path connected := by
  unfold report at member
  cases isSaid : connectedIn properties with
  | none =>
      rw [isSaid] at member
      cases member
  | some connected =>
      rw [isSaid] at member
      exact ⟨connected, List.mem_singleton.mp member⟩

theorem reports_report (path : Text) (properties : List Property) :
    Reports (report path properties) := by
  intro entry member
  obtain ⟨connected, rfl⟩ := report_reports member
  exact ⟨rfl, fun _ => rfl, nofun⟩

/-- A device is changed in its place, and the report of it is logged. -/
theorem Linked.update {changed : Device} {properties : List Property} (linked : Linked central)
    (isFound : central.devicesCache.lookup path = some device) (sameId : changed.id = device.id) :
    Linked ((central.put path changed).log (report path properties)) := by
  have isLogged : Evolves (report path properties) (central.put path changed)
      ((central.put path changed).log (report path properties)) := by
    refine evolves_entries rfl rfl rfl fun other entry member => ?_
    obtain ⟨connected, rfl⟩ := report_reports member
    rfl
  have evolves := (evolves_put isFound sameId).trans isLogged
  rw [List.append_nil] at evolves
  exact linked.evolves evolves (reports_report path properties) rfl rfl rfl

theorem Linked.put {changed : Device} (linked : Linked central)
    (isFound : central.devicesCache.lookup path = some device) (sameId : changed.id = device.id) :
    Linked (central.put path changed) :=
  linked.evolves (evolves_put isFound sameId) (by simp [Reports]) rfl rfl rfl

theorem lookup_put (central : Central) (path : Text) (device : Device) :
    (central.put path device).devicesCache.lookup path = some device :=
  AList.lookup_insert _

theorem Linked.deviceAppeared {object : Text} {properties : List Property} (linked : Linked central)
    (isOk : deviceAppeared central object properties = .ok after) : Linked after := by
  rcases deviceAppeared_ok isOk with rfl | ⟨device, isUpdated, isAfter⟩
  · exact linked
  have isNew : device.id = central.created := (deviceUpdate_ok isUpdated).1
  have inserted : Linked
      (central.create object device (report object properties ++ [.added object])) := by
    refine linked.evolves (evolves_create isNew fun other => .inl ?_) ?_ rfl rfl rfl
    · have noneFreed : (report object properties).any (Entry.frees other) = false := by
        rw [List.any_eq_false]
        intro entry member
        obtain ⟨connected, rfl⟩ := report_reports member
        exact Bool.false_ne_true
      rw [List.any_append, noneFreed, Bool.false_or, List.any_cons, List.any_nil, Bool.or_false,
        frees_added]
    · intro entry member
      rcases List.mem_append.mp member with isReport | isAdded
      · exact reports_report object properties entry isReport
      · rw [List.mem_singleton.mp isAdded]
        exact ⟨rfl, fun _ => rfl, nofun⟩
  rcases isAfter with rfl | ⟨-, rfl⟩
  · exact inserted
  · have isFound : (central.create object device
        (report object properties ++ [.added object])).devicesCache.lookup object = some device :=
      AList.lookup_insert _
    let marked : Device := { device with isCentral := true }
    have isMarked : Linked ((central.create object device
        (report object properties ++ [.added object])).put object marked) :=
      inserted.put isFound rfl
    have isThere := lookup_put (central.create object device
      (report object properties ++ [.added object])) object marked
    have isTold := isMarked.tell true isThere
    exact isTold

theorem Linked.deviceChanged {properties : List Property} (linked : Linked central)
    (isOk : deviceChanged central path properties = .ok after) : Linked after := by
  rcases deviceChanged_ok isOk with rfl | ⟨notFound, rfl⟩ |
    ⟨device, marked, isFound, sameId, -, -, ⟨-, rfl⟩ | ⟨connected, -, -, -, rfl⟩⟩
  · exact linked
  · have created : Linked (central.create path (deviceCreate central.created) []) :=
      linked.evolves (evolves_create rfl fun other => .inr ⟨rfl, notFound⟩) (by simp [Reports])
        rfl rfl rfl
    refine created.call (Nat.lt_succ_self _) ?_
    have isHere : (central.create path (deviceCreate central.created) []).devicesCache.lookup path =
        some (deviceCreate central.created) := AList.lookup_insert _
    have isFound : (central.create path (deviceCreate central.created) []).find
        ⟨path, central.created⟩ = some (deviceCreate central.created) :=
      (find_of_lookup isHere).trans (if_pos rfl)
    rw [isFound]
    rfl
  · exact linked.update isFound sameId
  · have updated : Linked ((central.put path marked).log (report path properties)) :=
      linked.update isFound sameId
    rw [← sameId]
    exact updated.tell connected (lookup_put ..)

theorem Linked.getallProperties {result : Option (List Property)} (linked : Linked central)
    (isOk : deviceGetallPropertiesCb central pointer result = .ok after) : Linked after := by
  obtain ⟨device, isFound, ⟨-, rfl⟩ | ⟨properties, updated, -, isUpdated, rfl⟩⟩ :=
    deviceGetallPropertiesCb_ok isOk
  · exact linked
  · exact linked.update (find_some isFound).1 (deviceUpdate_ok isUpdated).1

theorem Linked.disconnectReply {failed : Bool} (linked : Linked central)
    (isOk : deviceDisconnectCb central pointer failed = .ok after) : Linked after := by
  obtain ⟨device, isFound, ⟨-, rfl⟩ | ⟨-, rfl⟩⟩ := deviceDisconnectCb_ok isOk
  · exact linked
  · exact linked.put (find_some isFound).1 rfl

theorem Linked.disconnect (linked : Linked central)
    (isOk : bluezIncDisconnect central = .ok after) : Linked after := by
  rcases bluezIncDisconnect_ok isOk with rfl | ⟨pointer, device, isDevice, isFound, -, rfl⟩
  · exact linked
  obtain ⟨isHere, isId⟩ := find_some isFound
  let disconnecting : Device := { device with connectionState := .disconnecting }
  have isPut : Linked (central.put pointer.path disconnecting) := linked.put isHere rfl
  refine isPut.call (linked.toldTracked pointer isDevice).1 ?_
  rw [find_of_lookup (lookup_put central pointer.path disconnecting), if_pos isId]
  rfl

theorem Linked.preserved {action : Action} (linked : Linked central)
    (isOk : step central action = .ok after) : Linked after := by
  cases action with
  | interfacesAdded object properties => exact linked.deviceAppeared isOk
  | interfacesRemoved object =>
      cases isOk
      refine linked.evolves (evolves_erase central object) ?_ rfl rfl rfl
      intro entry member
      rw [List.mem_singleton.mp member]
      exact ⟨rfl, fun _ => rfl, nofun⟩
  | propertiesChanged path properties => exact linked.deviceChanged isOk
  | getAllReply serial result =>
      simp only [step] at isOk
      split at isOk
      · exact (linked.takeReply serial).getallProperties isOk
      · cases isOk
        exact linked
  | disconnectReply serial failed =>
      simp only [step] at isOk
      split at isOk
      · exact (linked.takeReply serial).disconnectReply isOk
      · cases isOk
        exact linked
  | disconnect => exact linked.disconnect isOk
  | advertise =>
      cases isOk
      have same : Evolves [] central { central with advertisement := true } :=
        evolves_entries rfl rfl rfl (by simp)
      exact linked.evolves same (by simp [Reports]) rfl rfl rfl

/-- A pointer that is tracked is bad exactly when its device was freed. -/
theorem Tracked.freed {kind : Entry → Bool} (tracked : Tracked central kind pointer) :
    central.find pointer = none ↔ ¬freedSince kind pointer.path central.trace = false := by
  rw [← tracked.2, Option.isSome_iff_ne_none, not_not]

/-- The reply to a call finds its device exactly when the trace has not freed it. -/
theorem Linked.reply_freed {serial : Nat} {method : Method} (linked : Linked central)
    (isPending : central.pending.lookup serial = some (method, pointer)) :
    (central.takeReply serial).find pointer = none ↔
      ¬∀ path, awaited serial central.trace = some (method, path) →
        freedSince (Entry.isCall serial) path central.trace = false := by
  have isAwaited := linked.called serial
  rw [isPending, Option.map_some] at isAwaited
  rw [show (central.takeReply serial).find pointer = central.find pointer from rfl,
    (linked.calledTracked serial method pointer isPending).freed, not_iff_not]
  constructor
  · intro isKept path isCall
    rw [← isAwaited] at isCall
    cases isCall
    exact isKept
  · exact fun allKept => allKept pointer.path isAwaited.symm

theorem Linked.not_awaited {serial : Nat} {method : Method} (linked : Linked central)
    (notPending : ∀ pointer, central.pending.lookup serial ≠ some (method, pointer)) (path : Text) :
    awaited serial central.trace ≠ some (method, path) := by
  rw [← linked.called serial]
  intro isAwaited
  obtain ⟨⟨other, pointer⟩, isPending, isSame⟩ := Option.map_eq_some_iff.mp isAwaited
  cases isSame
  exact notPending pointer isPending

/-- A step uses a freed device exactly when it is not safe. -/
theorem Linked.step_freed (linked : Linked central) (action : Action) :
    step central action = .error .freedDevice ↔ ¬Safe central.trace action := by
  cases action with
  | interfacesAdded object properties =>
      refine iff_of_false (fun isFault => ?_) (fun notSafe => notSafe trivial)
      cases deviceAppeared_error isFault
  | interfacesRemoved object => exact iff_of_false nofun (fun notSafe => notSafe trivial)
  | propertiesChanged path properties =>
      refine iff_of_false (fun isFault => ?_) (fun notSafe => notSafe trivial)
      cases deviceChanged_error isFault
  | getAllReply serial result =>
      simp only [step]
      split
      · next pointer isPending =>
          exact deviceGetallPropertiesCb_freed.trans (linked.reply_freed isPending)
      · next notPending =>
          refine iff_of_false nofun (fun notSafe => notSafe fun path isAwaited => ?_)
          exact absurd isAwaited (linked.not_awaited notPending path)
  | disconnectReply serial failed =>
      simp only [step]
      split
      · next pointer isPending =>
          exact deviceDisconnectCb_freed.trans (linked.reply_freed isPending)
      · next notPending =>
          refine iff_of_false nofun (fun notSafe => notSafe fun path isAwaited => ?_)
          exact absurd isAwaited (linked.not_awaited notPending path)
  | disconnect =>
      have isTold := linked.told
      simp only [step, bluezIncDisconnect_freed, Safe, ← isTold, Option.map_eq_some_iff]
      constructor
      · rintro ⟨pointer, isDevice, isFreed⟩ isKept
        exact (linked.toldTracked pointer isDevice).freed.mp isFreed
          (isKept pointer.path ⟨pointer, isDevice, rfl⟩)
      · intro notKept
        push Not at notKept
        obtain ⟨path, ⟨pointer, isDevice, rfl⟩, isFreed⟩ := notKept
        exact ⟨pointer, isDevice, (linked.toldTracked pointer isDevice).freed.mpr isFreed⟩
  | advertise => exact iff_of_false nofun (fun notSafe => notSafe trivial)

/-! ## Every run -/

theorem advance_some {action : Action} (isNext : advance central action = some after) :
    step central action = .ok after := by
  unfold advance at isNext
  cases isStep : step central action with
  | error fault =>
      rw [isStep] at isNext
      cases isNext
  | ok next =>
      rw [isStep] at isNext
      cases isNext
      rfl

theorem linked_started (started : Started central) : Linked central := by
  obtain ⟨ids, noneCalled, noDevice, noTrace⟩ := started
  refine ⟨ids, fun serial _ => ?_, ?_, fun pointer isDevice => ?_, fun serial => ?_,
    fun serial method pointer isPending => ?_⟩
  · rw [noneCalled]
    rfl
  · rw [noDevice, noTrace]
    rfl
  · rw [noDevice] at isDevice
    cases isDevice
  · rw [noneCalled, noTrace]
    rfl
  · rw [noneCalled] at isPending
    cases isPending

/-- No device that was freed is used in a run exactly when every reply comes before its
device is removed or added again, and the application disconnects only while the
device it was told of was not. -/
theorem devices_used {adapterPath : Text} {objects : List (Text × List Property)}
    (isStart : start adapterPath objects = .ok central) (actions : List Action) :
    Run.EveryStep advance (fun central action => step central action ≠ .error .freedDevice)
      central actions ↔
    Run.EveryStep advance (fun central action => Safe central.trace action) central actions := by
  have oneStep : ∀ state action, Linked state → True →
      (step state action ≠ .error .freedDevice ↔ Safe state.trace action) := by
    intro state action linked _
    rw [ne_eq, linked.step_freed action, not_not]
  refine Run.everyStep_iff_everyStep oneStep ?_ (linked_started (started_start isStart))
    (Run.everyStep_of_forall (fun _ _ => trivial) _ _)
  intro state action next linked _ _ isNext
  exact linked.preserved (advance_some isNext)

/-- A central goes away without a word on its connection. -/
def goneCentral : List Action :=
  [.advertise, .interfacesAdded "/a/d".toList [.connected true], .interfacesRemoved "/a/d".toList,
   .disconnect]

theorem devices_used_gone :
    ¬Run.EveryStep advance (fun central action => step central action ≠ .error .freedDevice)
      (adapterCreate "/a".toList) goneCentral := by
  have isStart : start "/a".toList [] = .ok (adapterCreate "/a".toList) := rfl
  rw [devices_used isStart goneCentral]
  decide

end TuyaAdapter.BincAdapter
