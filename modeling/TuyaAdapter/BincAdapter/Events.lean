import TuyaAdapter.BincAdapter.Pointers

/-!
Owns what the application is told of a connection, next to what BlueZ reports.

A step is a change at one path. The application hears of a new state only from a
signal, so a reply that sets the state leaves the application behind: then the
next signal brings nothing new.
-/

namespace TuyaAdapter.BincAdapter

open Foundation.Decimal Foundation.KeyedTable Foundation

variable {central after : Central} {path : Text} {action : Action}

/-! ## What the trace says of a path -/

/-- What the application was told last of the device that is at the path. -/
def toldOf (path : Text) : List Entry → Option Bool
  | [] => none
  | .told other event :: older =>
      if other = path then some (event.type = some .connect) else toldOf path older
  | .added other :: older => if other = path then none else toldOf path older
  | .removed other :: older => if other = path then none else toldOf path older
  | _ :: older => toldOf path older

/-- What BlueZ reported last of the connection of the device that is at the path. -/
def reportedOf (path : Text) : List Entry → Option Bool
  | [] => none
  | .reported other connected :: older =>
      if other = path then some connected else reportedOf path older
  | .added other :: older => if other = path then none else reportedOf path older
  | .removed other :: older => if other = path then none else reportedOf path older
  | _ :: older => reportedOf path older

structure View where
  told : Option Bool
  reported : Option Bool
  device : Option Device

def Central.view (central : Central) (path : Text) : View :=
  ⟨toldOf path central.trace, reportedOf path central.trace, central.devicesCache.lookup path⟩

/-- No reply says of a connection what the application was not told: a failed call to
disconnect does not come when the application was told of the disconnection, and the
properties that were asked for do not say otherwise than the application was told. -/
def Quiet (trace : List Entry) : Action → Prop
  | .disconnectReply serial true =>
      ∀ path, awaited serial trace = some (.disconnect, path) → toldOf path trace ≠ some false
  | .getAllReply serial (some properties) =>
      ∀ path, awaited serial trace = some (.getAll, path) →
        ∀ told said, toldOf path trace = some told → connectedIn properties = some said →
          said = told
  | _ => True

instance (trace : List Entry) : DecidablePred (Quiet trace)
  | .disconnectReply _ true => decidableCall ..
  | .disconnectReply _ false => isTrue trivial
  | .getAllReply serial (some properties) =>
      decidableCall (awaited serial trace) .getAll fun path => ∀ told said,
        toldOf path trace = some told → connectedIn properties = some said → said = told
  | .getAllReply _ none => isTrue trivial
  | .interfacesAdded _ _ => isTrue trivial
  | .interfacesRemoved _ => isTrue trivial
  | .propertiesChanged _ _ => isTrue trivial
  | .disconnect => isTrue trivial
  | .advertise => isTrue trivial

/-! ## What a step changes -/

inductive Change (central : Central) (path : Text) : Action → View → View → Prop where
  | same {action : Action} {view : View} (isQuiet : Quiet central.trace action) :
      Change central path action view view
  | added {properties : List Property} {before : View} {device : Device} :
      Change central path (.interfacesAdded path properties) before
        ⟨none, connectedIn properties, some device⟩
  | appeared {properties : List Property} {before : View} {device : Device}
      (isCentral : device.isCentral) (isConnected : device.connectionState = .connected)
      (isSaid : connectedIn properties = some true) :
      Change central path (.interfacesAdded path properties) before
        ⟨some true, some true, some device⟩
  | removed {before : View} :
      Change central path (.interfacesRemoved path) before ⟨none, none, none⟩
  | created {properties : List Property} {told reported : Option Bool} {device : Device} :
      Change central path (.propertiesChanged path properties) ⟨told, reported, none⟩
        ⟨told, reported, some device⟩
  | changed {properties : List Property} {told reported : Option Bool} {device marked : Device}
      (stays : device.isCentral → marked.isCentral)
      (isState : marked.connectionState =
        ((connectedIn properties).map stateOf).getD device.connectionState)
      (isKnown : marked.isCentral = false ∨ marked.connectionState = device.connectionState) :
      Change central path (.propertiesChanged path properties) ⟨told, reported, some device⟩
        ⟨told, (connectedIn properties).or reported, some marked⟩
  | told {properties : List Property} {told reported : Option Bool} {device marked : Device}
      {connected : Bool} (isCentral : marked.isCentral)
      (isState : marked.connectionState = stateOf connected)
      (isNew : device.connectionState ≠ stateOf connected) :
      Change central path (.propertiesChanged path properties) ⟨told, reported, some device⟩
        ⟨some connected, some connected, some marked⟩
  | got {serial : Nat} {properties : List Property} {told reported : Option Bool}
      {device updated : Device} (isCall : awaited serial central.trace = some (.getAll, path))
      (isTold : toldOf path central.trace = told)
      (sameCentral : updated.isCentral = device.isCentral)
      (isState : updated.connectionState =
        ((connectedIn properties).map stateOf).getD device.connectionState) :
      Change central path (.getAllReply serial (some properties)) ⟨told, reported, some device⟩
        ⟨told, (connectedIn properties).or reported, some updated⟩
  | failed {serial : Nat} {told reported : Option Bool} {device updated : Device}
      (isCall : awaited serial central.trace = some (.disconnect, path))
      (isTold : toldOf path central.trace = told)
      (sameCentral : updated.isCentral = device.isCentral)
      (isState : updated.connectionState = .connected) :
      Change central path (.disconnectReply serial true) ⟨told, reported, some device⟩
        ⟨told, reported, some updated⟩
  | disconnecting {told reported : Option Bool} {device updated : Device}
      (isConnected : device.connectionState = .connected)
      (sameCentral : updated.isCentral = device.isCentral)
      (isState : updated.connectionState = .disconnecting) :
      Change central path .disconnect ⟨told, reported, some device⟩
        ⟨told, reported, some updated⟩

/-- The entry says nothing of the application's or BlueZ's view of a path. -/
def Entry.silent (path : Text) : Entry → Bool
  | .added other => other ≠ path
  | .removed other => other ≠ path
  | .reported other _ => other ≠ path
  | .told other _ => other ≠ path
  | _ => true

theorem view_append {entries : List Entry} (older : List Entry)
    (silent : ∀ entry ∈ entries, entry.silent path = true) :
    toldOf path (entries ++ older) = toldOf path older ∧
      reportedOf path (entries ++ older) = reportedOf path older := by
  induction entries with
  | nil => exact ⟨rfl, rfl⟩
  | cons entry entries inductionHypothesis =>
      have rest := inductionHypothesis fun other member =>
        silent other (List.mem_cons_of_mem _ member)
      have here := silent entry (List.mem_cons_self ..)
      cases entry with
      | called _ _ _ => exact rest
      | replied _ => exact rest
      | _ =>
          have isOther := of_decide_eq_true here
          simpa [toldOf, reportedOf, isOther] using rest

theorem view_report (path : Text) (properties : List Property) (older : List Entry) :
    toldOf path (report path properties ++ older) = toldOf path older ∧
      reportedOf path (report path properties ++ older) =
        (connectedIn properties).or (reportedOf path older) := by
  unfold report
  cases connectedIn properties <;> simp [toldOf, reportedOf]

theorem view_frame (entries : List Entry) (isTrace : after.trace = entries ++ central.trace)
    (silent : ∀ entry ∈ entries, entry.silent path = true)
    (sameDevice : after.devicesCache.lookup path = central.devicesCache.lookup path) :
    after.view path = central.view path := by
  obtain ⟨sameTold, sameReported⟩ := view_append central.trace silent
  rw [Central.view, Central.view, isTrace, sameTold, sameReported, sameDevice]

theorem report_silent {other : Text} {properties : List Property} (isOther : other ≠ path) :
    ∀ entry ∈ report path properties, entry.silent other = true := by
  intro entry member
  obtain ⟨connected, rfl⟩ := report_reports member
  exact decide_eq_true (Ne.symm isOther)

theorem singleton_silent {entry : Entry} (silent : entry.silent path = true) :
    ∀ other ∈ [entry], other.silent path = true := by
  intro other member
  rwa [List.mem_singleton.mp member]

/-- The device at a path is changed, and nothing else. -/
theorem put_frame {other : Text} (central : Central) (device : Device) (isOther : other ≠ path) :
    (central.put path device).view other = central.view other :=
  view_frame [] rfl (by simp) (AList.lookup_insert_ne isOther)

theorem put_view (central : Central) (path : Text) (device : Device) :
    (central.put path device).view path = { central.view path with device := some device } :=
  congrArg (View.mk _ _) (lookup_put central path device)

theorem update_frame {other : Text} (central : Central) (device : Device)
    (properties : List Property) (isOther : other ≠ path) :
    ((central.put path device).log (report path properties)).view other = central.view other :=
  view_frame _ rfl (report_silent isOther) (AList.lookup_insert_ne isOther)

theorem update_view (central : Central) (path : Text) (device : Device)
    (properties : List Property) :
    ((central.put path device).log (report path properties)).view path =
      ⟨toldOf path central.trace,
        (connectedIn properties).or (reportedOf path central.trace), some device⟩ := by
  obtain ⟨isTold, isReported⟩ := view_report path properties central.trace
  have isDevice := lookup_put central path device
  change View.mk (toldOf path (report path properties ++ central.trace))
    (reportedOf path (report path properties ++ central.trace)) _ = _
  rw [isTold, isReported]
  exact congrArg _ isDevice

theorem tell_frame {other : Text} (central : Central) (id : Nat) (connected : Bool)
    (isOther : other ≠ path) :
    (central.tell path id connected).view other = central.view other := by
  refine view_frame [.told path _] rfl (singleton_silent ?_) rfl
  exact decide_eq_true (Ne.symm isOther)

theorem tell_view (central : Central) (path : Text) (id : Nat) (connected : Bool) :
    (central.tell path id connected).view path =
      { central.view path with told := some connected } := by
  cases connected <;> simp [Central.view, Central.tell, toldOf, reportedOf, typeOf]

theorem deviceAppeared_change {object : Text} {properties : List Property}
    (isOk : deviceAppeared central object properties = .ok after) :
    (∀ other, other ≠ object → after.view other = central.view other) ∧
      Change central object (.interfacesAdded object properties) (central.view object)
        (after.view object) := by
  rcases deviceAppeared_ok isOk with rfl | ⟨device, isUpdated, isAfter⟩
  · exact ⟨fun _ _ => rfl, .same trivial⟩
  let inserted := central.create object device (report object properties ++ [.added object])
  have insertedFrame : ∀ other, other ≠ object → inserted.view other = central.view other := by
    intro other isOther
    refine view_frame _ rfl (fun entry member => ?_) (AList.lookup_insert_ne isOther)
    rcases List.mem_append.mp member with isReport | isAdded
    · exact report_silent isOther entry isReport
    · rw [List.mem_singleton.mp isAdded]
      exact decide_eq_true (Ne.symm isOther)
  have insertedView : inserted.view object = ⟨none, connectedIn properties, some device⟩ := by
    obtain ⟨isTold, isReported⟩ := view_report object properties (.added object :: central.trace)
    have isDevice : inserted.devicesCache.lookup object = some device := AList.lookup_insert _
    change View.mk (toldOf object (report object properties ++ [.added object] ++ central.trace))
      (reportedOf object (report object properties ++ [.added object] ++ central.trace)) _ = _
    rw [List.append_assoc, List.singleton_append, isTold, isReported, isDevice]
    simp [toldOf, reportedOf]
  rcases isAfter with rfl | ⟨isConnected, rfl⟩
  · refine ⟨insertedFrame, ?_⟩
    rw [show (central.create object device (report object properties ++ [.added object])).view
      object = _ from insertedView]
    exact .added
  · have isSaid : connectedIn properties = some true := by
      rw [(deviceUpdate_ok isUpdated).2.2] at isConnected
      cases isReport : connectedIn properties with
      | none =>
          rw [isReport] at isConnected
          cases isConnected
      | some connected =>
          rw [isReport] at isConnected
          cases connected with
          | true => rfl
          | false => cases isConnected
    let marked : Device := { device with isCentral := true }
    let told := (inserted.put object marked).tell object device.id true
    change (∀ other, other ≠ object → told.view other = central.view other) ∧
      Change central object _ _ (told.view object)
    refine ⟨fun other isOther => ?_, ?_⟩
    · rw [tell_frame _ _ _ isOther, put_frame _ _ isOther, insertedFrame other isOther]
    · rw [tell_view, put_view, insertedView, isSaid]
      exact .appeared rfl isConnected isSaid

theorem deviceChanged_change {properties : List Property}
    (isOk : deviceChanged central path properties = .ok after) :
    (∀ other, other ≠ path → after.view other = central.view other) ∧
      Change central path (.propertiesChanged path properties) (central.view path)
        (after.view path) := by
  rcases deviceChanged_ok isOk with rfl | ⟨notFound, rfl⟩ |
    ⟨device, marked, isFound, -, stays, isState, ⟨isKnown, rfl⟩ |
      ⟨connected, isSaid, isCentral, isNew, rfl⟩⟩
  · exact ⟨fun _ _ => rfl, .same trivial⟩
  · have isView : central.view path =
        ⟨toldOf path central.trace, reportedOf path central.trace, none⟩ :=
      congrArg (View.mk _ _) notFound
    refine ⟨fun other isOther => ?_, ?_⟩
    · exact view_frame [.called _ _ _] rfl (singleton_silent rfl)
        (AList.lookup_insert_ne isOther)
    · rw [isView]
      have isDevice := lookup_put central path (deviceCreate central.created)
      have isCreated : ((central.create path (deviceCreate central.created) []).call .getAll
          ⟨path, central.created⟩).view path = ⟨toldOf path central.trace,
            reportedOf path central.trace, some (deviceCreate central.created)⟩ :=
        congrArg (View.mk _ _) isDevice
      rw [isCreated]
      exact .created
  · have isView : central.view path =
        ⟨toldOf path central.trace, reportedOf path central.trace, some device⟩ :=
      congrArg (View.mk _ _) isFound
    refine ⟨fun other isOther => update_frame central marked properties isOther, ?_⟩
    rw [update_view, isView]
    exact .changed stays isState isKnown
  · have isView : central.view path =
        ⟨toldOf path central.trace, reportedOf path central.trace, some device⟩ :=
      congrArg (View.mk _ _) isFound
    refine ⟨fun other isOther => ?_, ?_⟩
    · rw [tell_frame _ _ _ isOther, update_frame central marked properties isOther]
    · rw [tell_view, update_view, isView, isSaid]
      rw [isSaid] at isState
      exact .told isCentral isState isNew

theorem view_of_find {pointer : Pointer} {device : Device}
    (isFound : central.find pointer = some device) :
    central.view pointer.path = ⟨toldOf pointer.path central.trace,
      reportedOf pointer.path central.trace, some device⟩ :=
  congrArg (View.mk _ _) (find_some isFound).1

theorem takeReply_view (central : Central) (serial : Nat) (path : Text) :
    (central.takeReply serial).view path = central.view path :=
  view_frame [.replied serial] rfl (singleton_silent rfl) rfl

theorem reply_frame {serial : Nat} {other : Text}
    (same : after.view other = (central.takeReply serial).view other) :
    after.view other = central.view other :=
  same.trans (takeReply_view central serial other)

theorem getAllReply_change {serial : Nat} {pointer : Pointer} {result : Option (List Property)}
    (linked : Linked central)
    (isPending : central.pending.lookup serial = some (.getAll, pointer))
    (isOk : deviceGetallPropertiesCb (central.takeReply serial) pointer result = .ok after) :
    (∀ other, other ≠ pointer.path → after.view other = central.view other) ∧
      Change central pointer.path (.getAllReply serial result) (central.view pointer.path)
        (after.view pointer.path) := by
  have isCall := linked.called serial
  rw [isPending] at isCall
  obtain ⟨device, isFound, ⟨rfl, rfl⟩ | ⟨properties, updated, rfl, isUpdated, rfl⟩⟩ :=
    deviceGetallPropertiesCb_ok isOk
  · refine ⟨fun other _ => takeReply_view central serial other, ?_⟩
    rw [takeReply_view]
    exact .same trivial
  · obtain ⟨-, sameCentral, isState⟩ := deviceUpdate_ok isUpdated
    refine ⟨fun other isOther => reply_frame (update_frame _ updated properties isOther), ?_⟩
    have isView : central.view pointer.path = _ := view_of_find isFound
    rw [update_view, isView]
    exact .got isCall.symm rfl sameCentral isState

theorem disconnectReply_change {serial : Nat} {pointer : Pointer} {failed : Bool}
    (linked : Linked central)
    (isPending : central.pending.lookup serial = some (.disconnect, pointer))
    (isOk : deviceDisconnectCb (central.takeReply serial) pointer failed = .ok after) :
    (∀ other, other ≠ pointer.path → after.view other = central.view other) ∧
      Change central pointer.path (.disconnectReply serial failed) (central.view pointer.path)
        (after.view pointer.path) := by
  have isCall := linked.called serial
  rw [isPending] at isCall
  obtain ⟨device, isFound, ⟨rfl, rfl⟩ | ⟨rfl, rfl⟩⟩ := deviceDisconnectCb_ok isOk
  · refine ⟨fun other _ => takeReply_view central serial other, ?_⟩
    rw [takeReply_view]
    exact .same trivial
  · refine ⟨fun other isOther => reply_frame (put_frame _ _ isOther), ?_⟩
    have isView : central.view pointer.path = _ := view_of_find isFound
    rw [put_view, takeReply_view, isView]
    exact .failed isCall.symm rfl rfl rfl

theorem disconnect_change (isOk : bluezIncDisconnect central = .ok after) :
    ∃ path, (∀ other, other ≠ path → after.view other = central.view other) ∧
      Change central path .disconnect (central.view path) (after.view path) := by
  rcases bluezIncDisconnect_ok isOk with rfl | ⟨pointer, device, -, isFound, isConnected, rfl⟩
  · exact ⟨[], fun _ _ => rfl, .same trivial⟩
  let disconnecting : Device := { device with connectionState := .disconnecting }
  have called : ∀ other,
      ((central.put pointer.path disconnecting).call .disconnect pointer).view other =
        (central.put pointer.path disconnecting).view other := fun other =>
    view_frame [.called _ _ _] rfl (singleton_silent rfl) rfl
  refine ⟨pointer.path, fun other isOther => ?_, ?_⟩
  · rw [called, put_frame _ _ isOther]
  · rw [called, put_view, view_of_find isFound]
    exact .disconnecting isConnected rfl rfl

/-- A step is a change at one path. -/
theorem step_change (linked : Linked central) (isOk : step central action = .ok after) :
    ∃ path, (∀ other, other ≠ path → after.view other = central.view other) ∧
      Change central path action (central.view path) (after.view path) := by
  cases action with
  | interfacesAdded object properties => exact ⟨object, deviceAppeared_change isOk⟩
  | interfacesRemoved object =>
      cases isOk
      refine ⟨object, fun other isOther => ?_, ?_⟩
      · exact view_frame [.removed object] rfl
          (singleton_silent (decide_eq_true (Ne.symm isOther))) (AList.lookup_erase_ne isOther)
      · have isView : (deviceDisappeared central object).view object = ⟨none, none, none⟩ := by
          change View.mk (if object = object then none else _) (if object = object then none else _)
            ((central.devicesCache.erase object).lookup object) = _
          rw [if_pos rfl, if_pos rfl, AList.lookup_erase]
        rw [isView]
        exact .removed
  | propertiesChanged path properties => exact ⟨path, deviceChanged_change isOk⟩
  | getAllReply serial result =>
      simp only [step] at isOk
      split at isOk
      · next pointer isPending => exact ⟨pointer.path, getAllReply_change linked isPending isOk⟩
      · next notPending =>
          cases isOk
          refine ⟨[], fun _ _ => rfl, .same ?_⟩
          cases result with
          | none => exact trivial
          | some properties =>
              exact fun path isAwaited => absurd isAwaited (linked.not_awaited notPending path)
  | disconnectReply serial failed =>
      simp only [step] at isOk
      split at isOk
      · next pointer isPending => exact ⟨pointer.path, disconnectReply_change linked isPending isOk⟩
      · next notPending =>
          cases isOk
          refine ⟨[], fun _ _ => rfl, .same ?_⟩
          cases failed with
          | false => exact trivial
          | true =>
              exact fun path isAwaited => absurd isAwaited (linked.not_awaited notPending path)
  | disconnect => exact disconnect_change isOk
  | advertise =>
      cases isOk
      exact ⟨[], fun _ _ => rfl, .same trivial⟩

/-! ## What the application knows -/

/-- Only a central's device that is there was told of. -/
structure View.Told (view : View) : Prop where
  known : view.device = none → view.told = none
  central : ∀ device, view.device = some device → view.told ≠ none → device.isCentral

/-- The application knows whether the device is connected, if it was told of it. -/
def View.Agrees (view : View) : Prop :=
  ∀ device told, view.device = some device → view.told = some told →
    (device.connectionState ≠ .disconnected ↔ told = true)

/-- The application was told what BlueZ reported last. -/
def View.Current (view : View) : Prop := ∀ told, view.told = some told → view.reported = some told

variable {before next : View}

theorem stateOf_ne_disconnected (connected : Bool) :
    stateOf connected ≠ .disconnected ↔ connected = true := by
  cases connected <;> simp [stateOf]

theorem Change.keepsTold (change : Change central path action before next) (told : before.Told) :
    next.Told := by
  cases change with
  | same _ => exact told
  | added =>
      refine ⟨fun _ => rfl, fun device _ isTold => ?_⟩
      exact absurd rfl isTold
  | appeared isCentral _ _ =>
      refine ⟨nofun, fun device isDevice _ => ?_⟩
      cases isDevice
      exact isCentral
  | removed =>
      refine ⟨fun _ => rfl, fun device isDevice _ => ?_⟩
      cases isDevice
  | created =>
      have notTold := told.known rfl
      refine ⟨nofun, fun device _ isTold => ?_⟩
      exact absurd notTold isTold
  | changed stays _ _ =>
      refine ⟨nofun, fun device isDevice isTold => ?_⟩
      cases isDevice
      exact stays (told.central _ rfl isTold)
  | told isCentral _ _ =>
      refine ⟨nofun, fun device isDevice _ => ?_⟩
      cases isDevice
      exact isCentral
  | got _ _ sameCentral _ =>
      refine ⟨nofun, fun device isDevice isTold => ?_⟩
      cases isDevice
      exact sameCentral ▸ told.central _ rfl isTold
  | failed _ _ sameCentral _ =>
      refine ⟨nofun, fun device isDevice isTold => ?_⟩
      cases isDevice
      exact sameCentral ▸ told.central _ rfl isTold
  | disconnecting _ sameCentral _ =>
      refine ⟨nofun, fun device isDevice isTold => ?_⟩
      cases isDevice
      exact sameCentral ▸ told.central _ rfl isTold

/-- The application still knows after a step exactly when the step is quiet. -/
theorem Change.agrees_iff (change : Change central path action before next) (told : before.Told)
    (agrees : before.Agrees) : next.Agrees ↔ Quiet central.trace action := by
  cases change with
  | same isQuiet => exact iff_of_true agrees isQuiet
  | added => exact iff_of_true (fun _ _ _ isTold => nomatch isTold) trivial
  | appeared _ isConnected _ =>
      refine iff_of_true (fun device known isDevice isTold => ?_) trivial
      cases isDevice
      cases isTold
      simp [isConnected]
  | removed => exact iff_of_true (fun _ _ isDevice => nomatch isDevice) trivial
  | created =>
      have notTold := told.known rfl
      exact iff_of_true (fun _ _ _ isTold => nomatch notTold.symm.trans isTold) trivial
  | @changed properties known reported device marked stays isState isKnown =>
      refine iff_of_true (fun other connected isDevice isTold => ?_) trivial
      cases isDevice
      change known = some connected at isTold
      rcases isKnown with notCentral | sameState
      · have isCentral := stays (told.central device rfl (by simp [isTold]))
        rw [notCentral] at isCentral
        cases isCentral
      · rw [sameState]
        exact agrees device connected rfl isTold
  | told _ isState _ =>
      refine iff_of_true (fun device known isDevice isTold => ?_) trivial
      cases isDevice
      cases isTold
      rw [isState]
      exact stateOf_ne_disconnected _
  | @got serial properties known reported device updated isCall isTold sameCentral isState =>
      constructor
      · intro nextAgrees path' isAwaited connected said isKnown isSaid
        rw [isCall] at isAwaited
        cases isAwaited
        rw [isTold] at isKnown
        have isConnected := nextAgrees updated connected rfl isKnown
        rw [isState, isSaid] at isConnected
        have isSame := (stateOf_ne_disconnected said).symm.trans isConnected
        exact Bool.eq_iff_iff.mpr isSame
      · intro isQuiet other connected isDevice isKnown
        cases isDevice
        rw [isState]
        cases isSaid : connectedIn properties with
        | none => exact agrees device connected rfl isKnown
        | some said =>
            rw [isQuiet path isCall connected said (isTold.trans isKnown) isSaid]
            exact stateOf_ne_disconnected connected
  | @failed serial known reported device updated isCall isTold sameCentral isState =>
      constructor
      · intro nextAgrees path' isAwaited isKnown
        rw [isCall] at isAwaited
        cases isAwaited
        rw [isTold] at isKnown
        have isConnected := nextAgrees updated false rfl isKnown
        rw [isState] at isConnected
        simp at isConnected
      · intro isQuiet other connected isDevice isKnown
        cases isDevice
        rw [isState]
        refine iff_of_true nofun (Bool.eq_true_of_not_eq_false fun isFalse => ?_)
        exact isQuiet path isCall (isTold.trans (isFalse ▸ isKnown))
  | @disconnecting known reported device updated isConnected sameCentral isState =>
      refine iff_of_true (fun other connected isDevice isTold => ?_) trivial
      cases isDevice
      have isKnown := agrees device connected rfl isTold
      rw [isConnected] at isKnown
      rw [isState]
      simpa using isKnown

/-- What is told is what is reported, while replies are quiet. -/
theorem Change.keepsCurrent (change : Change central path action before next) (told : before.Told)
    (agrees : before.Agrees) (current : before.Current) (isQuiet : Quiet central.trace action) :
    next.Current := by
  cases change with
  | same _ => exact current
  | added => exact fun _ isTold => nomatch isTold
  | appeared _ _ _ => exact fun _ isTold => isTold
  | removed => exact fun _ isTold => nomatch isTold
  | created => exact current
  | @changed properties known reported device marked stays isState isKnown =>
      intro connected isTold
      change (connectedIn properties).or reported = some connected
      cases isSaid : connectedIn properties with
      | none => exact current connected isTold
      | some said =>
          rcases isKnown with notCentral | sameState
          · have isCentral := stays (told.central device rfl fun notTold =>
              nomatch notTold.symm.trans isTold)
            rw [notCentral] at isCentral
            cases isCentral
          · rw [isState, isSaid] at sameState
            have isConnected := agrees device connected rfl isTold
            rw [← sameState] at isConnected
            have isSame := (stateOf_ne_disconnected said).symm.trans isConnected
            exact congrArg some (Bool.eq_iff_iff.mpr isSame)
  | told _ _ _ => exact fun _ isTold => isTold
  | @got serial properties known reported device updated isCall isTold _ _ =>
      intro connected isKnown
      change (connectedIn properties).or reported = some connected
      cases isSaid : connectedIn properties with
      | none => exact current connected isKnown
      | some said =>
          rw [isQuiet path isCall connected said (isTold.trans isKnown) isSaid]
          rfl
  | failed _ _ _ _ => exact current
  | disconnecting _ _ _ => exact current

/-! ## Every run -/

/-- A view of every path. -/
def Central.Every (holds : View → Prop) (central : Central) : Prop :=
  ∀ path, holds (central.view path)

theorem every_of_change {holds : View → Prop} (every : central.Every holds)
    (frame : ∀ other, other ≠ path → after.view other = central.view other)
    (here : holds (after.view path)) : after.Every holds := by
  intro other
  by_cases isPath : other = path
  · rw [isPath]
    exact here
  · rw [frame other isPath]
    exact every other

structure Known (central : Central) : Prop where
  linked : Linked central
  told : central.Every View.Told

theorem Known.preserved (known : Known central) (isNext : advance central action = some after) :
    Known after := by
  obtain ⟨path, frame, change⟩ := step_change known.linked (advance_some isNext)
  exact ⟨known.linked.preserved (advance_some isNext),
    every_of_change known.told frame (change.keepsTold (known.told path))⟩

theorem Known.agrees_iff (known : Known central) (agrees : central.Every View.Agrees)
    (isNext : advance central action = some after) :
    after.Every View.Agrees ↔ Quiet central.trace action := by
  obtain ⟨path, frame, change⟩ := step_change known.linked (advance_some isNext)
  have here := change.agrees_iff (known.told path) (agrees path)
  exact ⟨fun every => here.mp (every path), fun isQuiet =>
    every_of_change agrees frame (here.mpr isQuiet)⟩

theorem view_started (started : Started central) (path : Text) :
    central.view path = ⟨none, none, central.devicesCache.lookup path⟩ := by
  rw [Central.view, started.trace]
  rfl

theorem known_started (started : Started central) : Known central := by
  refine ⟨linked_started started, fun path => ?_⟩
  rw [view_started started path]
  exact ⟨fun _ => rfl, fun _ _ isTold => absurd rfl isTold⟩

theorem agrees_started (started : Started central) : central.Every View.Agrees := by
  intro path device told _ isTold
  rw [view_started started path] at isTold
  cases isTold

theorem current_started (started : Started central) : central.Every View.Current := by
  intro path told isTold
  rw [view_started started path] at isTold
  cases isTold

/-- At every moment of a run without faults, the application knows of every device it was
told of whether it is connected, exactly when every reply of the run is quiet. -/
theorem events_agree {adapterPath : Text} {objects : List (Text × List Property)}
    {final : Central} (isStart : start adapterPath objects = .ok central) (actions : List Action)
    (ran : Run.run advance central actions = some final) :
    Run.EveryState advance (fun central => central.Every View.Agrees) central actions ↔
      Run.EveryStep advance (fun central action => Quiet central.trace action) central actions := by
  have started := started_start isStart
  have progress : ∀ state action, Known state → (advance state action).isSome →
      ∃ next, advance state action = some next ∧ Known next := by
    intro state action known produced
    obtain ⟨next, isNext⟩ := Option.isSome_iff_exists.mp produced
    exact ⟨next, isNext, known.preserved isNext⟩
  refine Run.everyState_iff_everyStep progress ?_ (known_started started) (agrees_started started)
    (Run.everyStep_of_run ran)
  intro state action next known agrees _ isNext
  exact known.agrees_iff agrees isNext

/-- The central disconnects first, so that the call to disconnect it fails; the application
does not hear that it connects again. -/
def lateFailure : List Action :=
  [.advertise, .interfacesAdded "/a/d".toList [.connected true], .disconnect,
   .propertiesChanged "/a/d".toList [.connected false], .disconnectReply 0 true,
   .propertiesChanged "/a/d".toList [.connected true]]

theorem events_agree_lateFailure :
    ¬Run.EveryState advance (fun central => central.Every View.Agrees)
      (adapterCreate "/a".toList) lateFailure := by
  have isStart : start "/a".toList [] = .ok (adapterCreate "/a".toList) := rfl
  have ran : Run.run advance (adapterCreate "/a".toList) lateFailure = some _ := rfl
  rw [events_agree isStart lateFailure ran]
  decide

/-- When every reply of a run is quiet, the application was told last of every device what
BlueZ reported last of it. -/
theorem events_current {adapterPath : Text} {objects : List (Text × List Property)}
    {final : Central} (isStart : start adapterPath objects = .ok central) (actions : List Action)
    (ran : Run.run advance central actions = some final)
    (quiet : Run.EveryStep advance (fun central action => Quiet central.trace action) central
      actions) (path : Text) (told : Bool) (isTold : toldOf path final.trace = some told) :
    reportedOf path final.trace = some told := by
  have started := started_start isStart
  have kept : ∀ state action next,
      (Known state ∧ state.Every View.Agrees ∧ state.Every View.Current) →
      Quiet state.trace action → advance state action = some next →
      Known next ∧ next.Every View.Agrees ∧ next.Every View.Current := by
    rintro state action next ⟨known, agrees, current⟩ isQuiet isNext
    refine ⟨known.preserved isNext, (known.agrees_iff agrees isNext).mpr isQuiet, ?_⟩
    obtain ⟨path, frame, change⟩ := step_change known.linked (advance_some isNext)
    exact every_of_change current frame
      (change.keepsCurrent (known.told path) (agrees path) (current path) isQuiet)
  have isKept := Run.run_admitted kept
    ⟨known_started started, agrees_started started, current_started started⟩ quiet ran
  exact isKept.2.2 path told isTold

/-- The central is disconnected, and a device that was not known is asked for its properties. -/
def inTime : List Action :=
  [.advertise, .interfacesAdded "/a/d".toList [.connected true], .disconnect,
   .propertiesChanged "/a/e".toList [.connected true], .disconnectReply 0 false,
   .propertiesChanged "/a/d".toList [.connected false],
   .getAllReply 1 (some [.connected true, .paired true])]

theorem events_current_inTime :
    ∃ final, Run.run advance (adapterCreate "/a".toList) inTime = some final ∧
      toldOf "/a/d".toList final.trace = some false ∧
      reportedOf "/a/d".toList final.trace = some false := by
  have isStart : start "/a".toList [] = .ok (adapterCreate "/a".toList) := rfl
  have ran : Run.run advance (adapterCreate "/a".toList) inTime = some _ := rfl
  have quiet : Run.EveryStep advance (fun central action => Quiet central.trace action)
      (adapterCreate "/a".toList) inTime := by decide
  exact ⟨_, ran, rfl, events_current isStart inTime ran quiet "/a/d".toList false rfl⟩

end TuyaAdapter.BincAdapter
