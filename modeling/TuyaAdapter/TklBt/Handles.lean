import TuyaAdapter.TklBt.Gatt

/-!
Contract: the handles that `bluez_inc_add_gatt` stores.

The handle of a characteristic is its place among all characteristics plus ten
times the place of its service. Decoding takes the last digit as the whole place
of the characteristic, so that the carry of the tenth and later ones goes to the
service; requests are mapped back by the characteristic's UUID alone. The tables
are described with the names of all services that will ever be added, because
the handles of a service's characteristics are assigned before the service has
its entry.
-/

namespace TuyaAdapter.TklBt

open Foundation.Decimal

/-! ## Calls -/

/-- One call of `bluez_inc_add_gatt`. -/
structure Call where
  binc : Binc
  services : List ServiceParams

/-- The services the call gets to. -/
def Call.added (call : Call) : List ServiceParams :=
  if call.binc.createApplication then call.services else []

/-- The tables after the call. -/
def Call.tables (call : Call) (gatt : Gatt) : Gatt :=
  (bluezIncAddGatt call.binc gatt call.services).1

/-- The services as the call leaves them, if it gets to them. -/
def Call.stored (call : Call) (gatt : Gatt) : List ServiceParams :=
  if call.binc.createApplication then (bluezIncAddGatt call.binc gatt call.services).2 else []

/-- The tables after all the calls, and the services as the calls leave them. -/
def addAll : Gatt → List Call → Gatt × List ServiceParams
  | gatt, [] => (gatt, [])
  | gatt, call :: rest =>
      let later := addAll (call.tables gatt) rest
      (later.1, call.stored gatt ++ later.2)

def BleUuid.Valid (uuid : BleUuid) : Prop := uuid ≠ .other

instance (uuid : BleUuid) : Decidable uuid.Valid := inferInstanceAs (Decidable (_ ≠ _))

/-- The text of a UUID. -/
def BleUuid.text (uuid : BleUuid) : Text := (uuidToString uuid).getD []

def ServiceParams.Valid (service : ServiceParams) : Prop :=
  service.svcUuid.Valid ∧ ∀ char ∈ service.chars, char.charUuid.Valid

instance (service : ServiceParams) : Decidable service.Valid :=
  inferInstanceAs (Decidable (_ ∧ _))

/-- Adding services and characteristics succeeds. -/
structure Binc.Adds (binc : Binc) : Prop where
  service : ∀ servUuid, binc.addService servUuid = true
  characteristic : ∀ servUuid charUuid property,
    binc.addCharacteristic servUuid charUuid property = true

/-! ## The property -/

/-- A handle stored in `p_char`, and what it was stored for. -/
structure Assignment where
  servUuid : Text
  charUuid : Text
  handle : Nat
deriving DecidableEq, Repr

def ServiceParams.assignments (service : ServiceParams) : List Assignment :=
  service.chars.map fun char => ⟨service.svcUuid.text, char.charUuid.text, char.handle⟩

/-- A notification on the handle goes to the service and characteristic, and
requests on these are reported with the handle. -/
structure Identified (gatt : Gatt) (assignment : Assignment) : Prop where
  notify : ∀ data, (bluezIncGattValueNotify gatt assignment.handle data).2 =
    some ⟨gatt.app, assignment.servUuid, assignment.charUuid, data⟩
  write : ∀ data, (onLocalCharWrite gatt assignment.servUuid assignment.charUuid data).charHandle =
    assignment.handle
  read : (onLocalCharRead gatt assignment.servUuid assignment.charUuid).2.charHandle =
    assignment.handle

/-- The calls from the start leave every stored handle identified. -/
def HandlesIdentify (calls : List Call) : Prop :=
  ∀ assignment ∈ (addAll .fresh calls).2.flatMap ServiceParams.assignments,
    Identified (addAll .fresh calls).1 assignment

def services (calls : List Call) : List ServiceParams := calls.flatMap Call.added

def characteristics (calls : List Call) : List CharParams :=
  (services calls).flatMap ServiceParams.chars

/-- What the calls are assumed to add: services with different UUIDs, and no more
than the tables hold. -/
structure Fits (calls : List Call) : Prop where
  adds : ∀ call ∈ calls, call.binc.Adds
  valid : ∀ service ∈ services calls, service.Valid
  fewServices : (services calls).length ≤ maxServs
  distinct : ((services calls).map fun service => service.svcUuid.text).Nodup
  fewChars : (characteristics calls).length ≤ maxChars

/-! ## Looking up -/

/-- Where keys differ, an entry is found under its own key. -/
theorem find?_of_nodup {Entry Key : Type} [BEq Key] [LawfulBEq Key] (key : Entry → Key)
    {entries : List Entry} (distinct : (entries.map key).Nodup) {entry : Entry}
    (member : entry ∈ entries) :
    (entries.find? fun other => key other == key entry) = some entry := by
  induction entries with
  | nil => cases member
  | cons first rest inductionHypothesis =>
      rw [List.map_cons, List.nodup_cons] at distinct
      rcases List.mem_cons.mp member with rfl | later
      · simp
      · have differs : (key first == key entry) = false := by
          rw [beq_eq_false_iff_ne]
          intro same
          exact distinct.1 (same ▸ List.mem_map_of_mem later)
        rw [List.find?_cons, differs]
        exact inductionHypothesis distinct.2 later

theorem indexByUuid_of_nodup {entries : List ServCharMapEntry}
    (distinct : (entries.map ServCharMapEntry.uuidStr).Nodup) {entry : ServCharMapEntry}
    (member : entry ∈ entries) : indexByUuid entries entry.uuidStr = entry.index := by
  unfold indexByUuid
  rw [find?_of_nodup _ distinct member]

theorem uuidByIndex_of_nodup {entries : List ServCharMapEntry}
    (distinct : (entries.map ServCharMapEntry.index).Nodup) {entry : ServCharMapEntry}
    (member : entry ∈ entries) : uuidByIndex entries entry.index = some entry.uuidStr := by
  unfold uuidByIndex
  rw [find?_of_nodup _ distinct member]
  rfl

theorem mem_of_uuidByIndex {entries : List ServCharMapEntry} {index : Nat} {uuid : Text}
    (found : uuidByIndex entries index = some uuid) : (⟨uuid, index⟩ : ServCharMapEntry) ∈ entries := by
  obtain ⟨entry, isFound, rfl⟩ := Option.map_eq_some_iff.mp found
  have isIndex : entry.index = index := by simpa using List.find?_some isFound
  rw [← isIndex]
  exact List.mem_of_find?_eq_some isFound

theorem notify_eq_some (gatt : Gatt) (handle : Nat) (servUuid charUuid : Text)
    (data : List UInt8) :
    (bluezIncGattValueNotify gatt handle data).2 = some ⟨gatt.app, servUuid, charUuid, data⟩ ↔
      getServUuidByCharIndex gatt handle = some servUuid ∧
        getCharUuidByCharIndex gatt handle = some charUuid := by
  unfold bluezIncGattValueNotify
  cases getServUuidByCharIndex gatt handle with
  | none => simp
  | some serv => cases getCharUuidByCharIndex gatt handle <;> simp

/-! ## UUIDs are left alone -/

theorem uuidToString_of_valid {uuid : BleUuid} (valid : uuid.Valid) :
    uuidToString uuid = some uuid.text := by
  cases uuid with
  | other => exact absurd rfl valid
  | _ => rfl

theorem addCharacteristic_charUuid (binc : Binc) (servUuid : Text) (gatt : Gatt)
    (char : CharParams) :
    (addCharacteristic binc servUuid gatt char).2.charUuid = char.charUuid := by
  unfold addCharacteristic
  split
  · rfl
  · split <;> rfl

theorem addCharacteristics_charUuid (binc : Binc) (servUuid : Text) (gatt : Gatt)
    (chars : List CharParams) :
    (addCharacteristics binc servUuid gatt chars).2.map CharParams.charUuid =
      chars.map CharParams.charUuid := by
  induction chars generalizing gatt with
  | nil => rfl
  | cons char rest inductionHypothesis =>
      simp only [addCharacteristics, List.map_cons, addCharacteristic_charUuid,
        inductionHypothesis]

theorem addService_charUuid (binc : Binc) (gatt : Gatt) (service : ServiceParams) :
    (addService binc gatt service).2.chars.map CharParams.charUuid =
      service.chars.map CharParams.charUuid := by
  unfold addService
  split
  · rfl
  · split
    · exact addCharacteristics_charUuid _ _ _ _
    · rfl

theorem addServices_charUuid (binc : Binc) (gatt : Gatt) (services : List ServiceParams) :
    ((addServices binc gatt services).2.flatMap ServiceParams.chars).map CharParams.charUuid =
      (services.flatMap ServiceParams.chars).map CharParams.charUuid := by
  induction services generalizing gatt with
  | nil => rfl
  | cons service rest inductionHypothesis =>
      simp only [addServices, List.flatMap_cons, List.map_append, addService_charUuid,
        inductionHypothesis]

theorem stored_charUuid (call : Call) (gatt : Gatt) :
    ((call.stored gatt).flatMap ServiceParams.chars).map CharParams.charUuid =
      (call.added.flatMap ServiceParams.chars).map CharParams.charUuid := by
  unfold Call.stored Call.added bluezIncAddGatt
  split
  · exact addServices_charUuid _ _ _
  · rfl

theorem addAll_charUuid (gatt : Gatt) (calls : List Call) :
    ((addAll gatt calls).2.flatMap ServiceParams.chars).map CharParams.charUuid =
      (characteristics calls).map CharParams.charUuid := by
  induction calls generalizing gatt with
  | nil => rfl
  | cons call rest inductionHypothesis =>
      have later := inductionHypothesis (call.tables gatt)
      simp only [addAll, characteristics, services, List.flatMap_cons, List.flatMap_append,
        List.map_append] at later ⊢
      rw [stored_charUuid, later]

/-- The characteristics the stored handles are for are those of the calls. -/
theorem assignments_charUuid (gatt : Gatt) (calls : List Call) :
    ((addAll gatt calls).2.flatMap ServiceParams.assignments).map Assignment.charUuid =
      (characteristics calls).map fun char => char.charUuid.text := by
  have same := congrArg (List.map BleUuid.text) (addAll_charUuid gatt calls)
  simp only [List.map_flatMap, List.map_map, ServiceParams.assignments] at same ⊢
  exact same

/-! ## The tables while services are added -/

/-- Services have their place as index. The characteristics are those with a
handle, in the order of their handles; the handle is made of the place and the
place of the service. -/
structure Numbered (names : List Text) (gatt : Gatt) (assigned : List Assignment) : Prop where
  services : ∀ (place : Nat) (entry : ServCharMapEntry), gatt.servMap[place]? = some entry →
    entry.index = place ∧ names[place]? = some entry.uuidStr
  chars : gatt.charMap = assigned.map fun assignment => ⟨assignment.charUuid, assignment.handle⟩
  placed : ∀ (place : Nat) (assignment : Assignment), assigned[place]? = some assignment →
    ∃ service ≤ gatt.servMap.length,
      names[service]? = some assignment.servUuid ∧ assignment.handle = place + service * 10
  rising : assigned.Pairwise fun earlier later => earlier.handle < later.handle

theorem getElem?_concat_eq_some {Entry : Type} {entries : List Entry} {last entry : Entry}
    {place : Nat} (isEntry : (entries ++ [last])[place]? = some entry) :
    entries[place]? = some entry ∨ place = entries.length ∧ entry = last := by
  rcases Nat.lt_trichotomy place entries.length with inside | isLast | beyond
  · rw [List.getElem?_append_left inside] at isEntry
    exact Or.inl isEntry
  · rw [isLast, List.getElem?_concat_length] at isEntry
    exact Or.inr ⟨isLast, (Option.some.inj isEntry).symm⟩
  · have outside : (entries ++ [last]).length ≤ place := by
      rw [List.length_append, List.length_singleton]
      exact beyond
    rw [List.getElem?_eq_none outside] at isEntry
    cases isEntry

theorem numbered_fresh (names : List Text) : Numbered names .fresh [] where
  services := by simp [Gatt.fresh]
  chars := rfl
  placed := by simp
  rising := List.Pairwise.nil

variable {names : List Text} {gatt : Gatt} {assigned : List Assignment} {binc : Binc}

theorem Numbered.length_charMap (numbered : Numbered names gatt assigned) :
    gatt.charMap.length = assigned.length := by
  rw [numbered.chars, List.length_map]

theorem Numbered.nodup_index (numbered : Numbered names gatt assigned) :
    (gatt.servMap.map ServCharMapEntry.index).Nodup := by
  have places : gatt.servMap.map ServCharMapEntry.index = List.range gatt.servMap.length := by
    refine List.ext_getElem (by simp) fun place inside _ => ?_
    rw [List.length_map] at inside
    have isPlace := (numbered.services place _ (List.getElem?_eq_getElem inside)).1
    simpa using isPlace
  rw [places]
  exact List.nodup_range

/-- A characteristic of the service that comes next. -/
theorem numbered_addCharInfo (numbered : Numbered names gatt assigned) {servUuid : Text}
    (current : names[gatt.servMap.length]? = some servUuid) (charUuid : Text)
    (fits : assigned.length < maxChars) :
    (addCharInfo gatt charUuid).1.servMap = gatt.servMap ∧
      Numbered names (addCharInfo gatt charUuid).1
        (assigned ++ [⟨servUuid, charUuid, (addCharInfo gatt charUuid).2⟩]) := by
  have counts := numbered.length_charMap
  have isAdded : addCharInfo gatt charUuid =
      ({ gatt with charMap := gatt.charMap ++
          [⟨charUuid, assigned.length + gatt.servMap.length * 10⟩] },
        assigned.length + gatt.servMap.length * 10) := by
    unfold addCharInfo
    rw [counts, if_pos fits]
  rw [isAdded]
  refine ⟨rfl, numbered.services, ?_, ?_, ?_⟩
  · simp only [List.map_append, List.map_cons, List.map_nil, numbered.chars]
  · intro place assignment isAssigned
    rcases getElem?_concat_eq_some isAssigned with old | ⟨rfl, rfl⟩
    · exact numbered.placed place assignment old
    · exact ⟨gatt.servMap.length, le_refl _, current, rfl⟩
  · refine List.pairwise_append.mpr ⟨numbered.rising, List.pairwise_singleton _ _, ?_⟩
    intro earlier member later isLater
    rw [List.mem_singleton.mp isLater]
    obtain ⟨place, isEarlier⟩ := List.mem_iff_getElem?.mp member
    obtain ⟨service, before, -, isHandle⟩ := numbered.placed place earlier isEarlier
    have below := (List.getElem?_eq_some_iff.mp isEarlier).1
    simp only
    omega

theorem numbered_addServInfo (numbered : Numbered names gatt assigned) {servUuid : Text}
    (current : names[gatt.servMap.length]? = some servUuid)
    (fits : gatt.servMap.length < maxServs) :
    (addServInfo gatt servUuid).1.servMap.length = gatt.servMap.length + 1 ∧
      Numbered names (addServInfo gatt servUuid).1 assigned := by
  unfold addServInfo
  rw [if_pos fits]
  refine ⟨by simp, ?_, numbered.chars, ?_, numbered.rising⟩
  · intro place entry isEntry
    rcases getElem?_concat_eq_some isEntry with old | ⟨rfl, rfl⟩
    · exact numbered.services place entry old
    · exact ⟨rfl, current⟩
  · intro place assignment isAssigned
    obtain ⟨service, before, isService, isHandle⟩ := numbered.placed place assignment isAssigned
    refine ⟨service, ?_, isService, isHandle⟩
    simp only [List.length_append, List.length_singleton]
    omega

theorem numbered_addCharacteristics (adds : binc.Adds) {servUuid : Text} {chars : List CharParams}
    (numbered : Numbered names gatt assigned)
    (current : names[gatt.servMap.length]? = some servUuid)
    (valid : ∀ char ∈ chars, char.charUuid.Valid)
    (fits : assigned.length + chars.length ≤ maxChars) :
    (addCharacteristics binc servUuid gatt chars).1.servMap = gatt.servMap ∧
      Numbered names (addCharacteristics binc servUuid gatt chars).1
        (assigned ++ (addCharacteristics binc servUuid gatt chars).2.map
          fun char => ⟨servUuid, char.charUuid.text, char.handle⟩) := by
  induction chars generalizing gatt assigned with
  | nil =>
      refine ⟨rfl, ?_⟩
      simpa [addCharacteristics] using numbered
  | cons char rest inductionHypothesis =>
      rw [List.length_cons] at fits
      have isAdded : addCharacteristic binc servUuid gatt char =
          ((addCharInfo gatt char.charUuid.text).1,
            { char with handle := (addCharInfo gatt char.charUuid.text).2 }) := by
        unfold addCharacteristic
        rw [uuidToString_of_valid (valid char (by simp))]
        simp [adds.characteristic]
      obtain ⟨sameServices, nextNumbered⟩ :=
        numbered_addCharInfo numbered current char.charUuid.text (by omega)
      obtain ⟨stillSame, lastNumbered⟩ := inductionHypothesis nextNumbered
        (by rw [sameServices]; exact current)
        (fun later member => valid later (by simp [member]))
        (by rw [List.length_append, List.length_singleton]; omega)
      simp only [addCharacteristics, isAdded]
      refine ⟨stillSame.trans sameServices, ?_⟩
      simpa using lastNumbered

theorem numbered_addService (adds : binc.Adds) {service : ServiceParams}
    (numbered : Numbered names gatt assigned)
    (current : names[gatt.servMap.length]? = some service.svcUuid.text)
    (valid : service.Valid) (fewServices : gatt.servMap.length < maxServs)
    (fewChars : assigned.length + service.chars.length ≤ maxChars) :
    (addService binc gatt service).1.servMap.length = gatt.servMap.length + 1 ∧
      Numbered names (addService binc gatt service).1
        (assigned ++ (addService binc gatt service).2.assignments) := by
  obtain ⟨sameServices, charsNumbered⟩ :=
    numbered_addCharacteristics adds numbered current valid.2 fewChars
  rw [← sameServices] at current fewServices
  obtain ⟨oneMore, lastNumbered⟩ := numbered_addServInfo charsNumbered current fewServices
  unfold addService
  rw [uuidToString_of_valid valid.1]
  simp only [adds.service, if_true]
  rw [sameServices] at oneMore
  exact ⟨oneMore, lastNumbered⟩

/-- `names` goes on with the services that are added and those after them. -/
theorem numbered_addServices (adds : binc.Adds) {services : List ServiceParams}
    {later : List Text} (numbered : Numbered names gatt assigned)
    (ahead : names.drop gatt.servMap.length =
      services.map (fun service => service.svcUuid.text) ++ later)
    (valid : ∀ service ∈ services, service.Valid) (fewServices : names.length ≤ maxServs)
    (fewChars : assigned.length + (services.flatMap ServiceParams.chars).length ≤ maxChars) :
    names.drop (addServices binc gatt services).1.servMap.length = later ∧
      Numbered names (addServices binc gatt services).1
        (assigned ++ (addServices binc gatt services).2.flatMap ServiceParams.assignments) := by
  induction services generalizing gatt assigned with
  | nil =>
      refine ⟨ahead, ?_⟩
      simpa [addServices] using numbered
  | cons service rest inductionHypothesis =>
      rw [List.flatMap_cons, List.length_append] at fewChars
      rw [List.map_cons, List.cons_append] at ahead
      have current : names[gatt.servMap.length]? = some service.svcUuid.text := by
        rw [← List.head?_drop, ahead, List.head?_cons]
      have inside := (List.getElem?_eq_some_iff.mp current).1
      obtain ⟨oneMore, nextNumbered⟩ := numbered_addService adds numbered current
        (valid service (by simp)) (by omega) (by omega)
      have nextAhead : names.drop (addService binc gatt service).1.servMap.length =
          rest.map (fun service => service.svcUuid.text) ++ later := by
        rw [oneMore, ← List.tail_drop, ahead, List.tail_cons]
      have sameCount : (addService binc gatt service).2.assignments.length =
          service.chars.length := by
        have same := congrArg List.length (addService_charUuid binc gatt service)
        simpa [ServiceParams.assignments] using same
      obtain ⟨done, lastNumbered⟩ := inductionHypothesis nextNumbered nextAhead
        (fun other member => valid other (by simp [member]))
        (by rw [List.length_append, sameCount]; omega)
      simp only [addServices]
      refine ⟨done, ?_⟩
      simpa using lastNumbered

theorem numbered_call {call : Call} {later : List Text} (adds : call.binc.Adds)
    (numbered : Numbered names gatt assigned)
    (ahead : names.drop gatt.servMap.length =
      call.added.map (fun service => service.svcUuid.text) ++ later)
    (valid : ∀ service ∈ call.added, service.Valid) (fewServices : names.length ≤ maxServs)
    (fewChars : assigned.length + (call.added.flatMap ServiceParams.chars).length ≤ maxChars) :
    names.drop (call.tables gatt).servMap.length = later ∧
      Numbered names (call.tables gatt)
        (assigned ++ (call.stored gatt).flatMap ServiceParams.assignments) := by
  have sameTables (app : Option Nat) (created : Nat) :
      Numbered names { gatt with app := app, created := created } assigned :=
    ⟨numbered.services, numbered.chars, numbered.placed, numbered.rising⟩
  unfold Call.added at ahead valid fewChars
  unfold Call.tables Call.stored bluezIncAddGatt
  split_ifs at ahead valid fewChars ⊢
  · exact numbered_addServices adds (sameTables _ _) ahead valid fewServices fewChars
  · refine ⟨by simpa using ahead, ?_⟩
    simpa using sameTables none gatt.created

theorem numbered_addAll {calls : List Call} (numbered : Numbered names gatt assigned)
    (ahead : names.drop gatt.servMap.length =
      (services calls).map fun service => service.svcUuid.text)
    (adds : ∀ call ∈ calls, call.binc.Adds) (valid : ∀ service ∈ services calls, service.Valid)
    (fewServices : names.length ≤ maxServs)
    (fewChars : assigned.length + (characteristics calls).length ≤ maxChars) :
    names.drop (addAll gatt calls).1.servMap.length = [] ∧
      Numbered names (addAll gatt calls).1
        (assigned ++ (addAll gatt calls).2.flatMap ServiceParams.assignments) := by
  induction calls generalizing gatt assigned with
  | nil =>
      refine ⟨ahead, ?_⟩
      simpa [addAll] using numbered
  | cons call rest inductionHypothesis =>
      have parts : services (call :: rest) = call.added ++ services rest := List.flatMap_cons
      rw [parts, List.map_append] at ahead
      rw [parts] at valid
      simp only [characteristics, parts, List.flatMap_append, List.length_append] at fewChars
      obtain ⟨nextAhead, nextNumbered⟩ := numbered_call (adds call (by simp)) numbered ahead
        (fun service member => valid service (List.mem_append_left _ member)) fewServices
        (by omega)
      have sameCount : ((call.stored gatt).flatMap ServiceParams.assignments).length =
          (call.added.flatMap ServiceParams.chars).length := by
        have same := congrArg List.length (stored_charUuid call gatt)
        simpa [ServiceParams.assignments, List.length_flatMap] using same
      obtain ⟨done, lastNumbered⟩ := inductionHypothesis nextNumbered nextAhead
        (fun other member => adds other (by simp [member]))
        (fun service member => valid service (List.mem_append_right _ member))
        (by rw [List.length_append, sameCount, characteristics]; omega)
      simp only [addAll]
      refine ⟨done, ?_⟩
      simpa using lastNumbered

/-! ## What the handles lead to -/

/-- The service is the right one for the first ten characteristics only: the
others carry into the place of the service. -/
theorem getServUuid_iff (numbered : Numbered names gatt assigned)
    (complete : names.length ≤ gatt.servMap.length) (distinct : names.Nodup) {place : Nat}
    {assignment : Assignment} (isAssigned : assigned[place]? = some assignment) :
    getServUuidByCharIndex gatt assignment.handle = some assignment.servUuid ↔ place < 10 := by
  obtain ⟨service, -, isService, isHandle⟩ := numbered.placed place assignment isAssigned
  have decoded : assignment.handle / 10 = service + place / 10 := by omega
  unfold getServUuidByCharIndex
  rw [decoded]
  constructor
  · intro found
    obtain ⟨other, isOther⟩ := List.mem_iff_getElem?.mp (mem_of_uuidByIndex found)
    obtain ⟨isPlace, isName⟩ := numbered.services other _ isOther
    have sameService : other = service := by
      have inside := (List.getElem?_eq_some_iff.mp isName).1
      exact (List.getElem?_inj inside distinct).mp (isName.trans isService.symm)
    simp only at isPlace
    omega
  · intro small
    have sameService : service + place / 10 = service := by omega
    rw [sameService]
    have inside : service < gatt.servMap.length :=
      lt_of_lt_of_le (List.getElem?_eq_some_iff.mp isService).1 complete
    obtain ⟨entry, isEntry⟩ : ∃ entry, gatt.servMap[service]? = some entry :=
      ⟨_, List.getElem?_eq_getElem inside⟩
    obtain ⟨isIndex, isName⟩ := numbered.services service entry isEntry
    have sameName : entry.uuidStr = assignment.servUuid :=
      Option.some.inj (isName.symm.trans isService)
    rw [← isIndex, ← sameName]
    exact uuidByIndex_of_nodup numbered.nodup_index (List.mem_of_getElem? isEntry)

/-- The characteristic is always the right one: handles rise. -/
theorem getCharUuid (numbered : Numbered names gatt assigned) {assignment : Assignment}
    (member : assignment ∈ assigned) :
    getCharUuidByCharIndex gatt assignment.handle = some assignment.charUuid := by
  unfold getCharUuidByCharIndex
  rw [numbered.chars]
  have distinct : ((assigned.map fun assignment =>
      (⟨assignment.charUuid, assignment.handle⟩ : ServCharMapEntry)).map
        ServCharMapEntry.index).Nodup := by
    rw [List.map_map]
    exact List.pairwise_map.mpr (numbered.rising.imp fun rises => Nat.ne_of_lt rises)
  exact uuidByIndex_of_nodup distinct (List.mem_map_of_mem member)

/-- Requests are reported with the right handles exactly when no UUID is
reused. -/
theorem getCharIndex_iff (numbered : Numbered names gatt assigned) :
    (∀ assignment ∈ assigned,
        getCharIndexByUuid gatt assignment.charUuid = assignment.handle) ↔
      (assigned.map Assignment.charUuid).Nodup := by
  constructor
  · intro reported
    refine List.pairwise_map.mpr (List.Pairwise.imp_of_mem ?_ numbered.rising)
    intro earlier later isEarlier isLater rises same
    have sameHandle : earlier.handle = later.handle := by
      rw [← reported earlier isEarlier, ← reported later isLater, same]
    exact absurd sameHandle (Nat.ne_of_lt rises)
  · intro distinct assignment member
    unfold getCharIndexByUuid
    rw [numbered.chars]
    have distinctEntries : ((assigned.map fun assignment =>
        (⟨assignment.charUuid, assignment.handle⟩ : ServCharMapEntry)).map
          ServCharMapEntry.uuidStr).Nodup := by
      rw [List.map_map]
      exact distinct
    exact indexByUuid_of_nodup distinctEntries (List.mem_map_of_mem member)

theorem identified_iff (gatt : Gatt) (assignment : Assignment) :
    Identified gatt assignment ↔
      getServUuidByCharIndex gatt assignment.handle = some assignment.servUuid ∧
        getCharUuidByCharIndex gatt assignment.handle = some assignment.charUuid ∧
        getCharIndexByUuid gatt assignment.charUuid = assignment.handle := by
  constructor
  · intro identified
    have notified := (notify_eq_some gatt assignment.handle _ _ []).mp (identified.notify [])
    exact ⟨notified.1, notified.2, identified.read⟩
  · rintro ⟨isService, isChar, isHandle⟩
    exact ⟨fun data => (notify_eq_some gatt assignment.handle _ _ data).mpr ⟨isService, isChar⟩,
      fun _ => isHandle, isHandle⟩

theorem identified_all_iff (numbered : Numbered names gatt assigned)
    (complete : names.length ≤ gatt.servMap.length) (distinct : names.Nodup) :
    (∀ assignment ∈ assigned, Identified gatt assignment) ↔
      assigned.length ≤ 10 ∧ (assigned.map Assignment.charUuid).Nodup := by
  rw [← getCharIndex_iff numbered]
  constructor
  · intro identified
    refine ⟨?_, fun assignment member => ((identified_iff _ _).mp (identified _ member)).2.2⟩
    by_contra many
    obtain ⟨eleventh, isEleventh⟩ : ∃ eleventh, assigned[10]? = some eleventh :=
      ⟨_, List.getElem?_eq_getElem (by omega)⟩
    have isIdentified := identified eleventh (List.mem_of_getElem? isEleventh)
    have small := (getServUuid_iff numbered complete distinct isEleventh).mp
      ((identified_iff _ _).mp isIdentified).1
    exact absurd small (by decide)
  · rintro ⟨few, reported⟩ assignment member
    obtain ⟨place, isAssigned⟩ := List.mem_iff_getElem?.mp member
    have inside := (List.getElem?_eq_some_iff.mp isAssigned).1
    exact (identified_iff _ _).mpr
      ⟨(getServUuid_iff numbered complete distinct isAssigned).mpr (by omega),
        getCharUuid numbered member, reported assignment member⟩

/-! ## All calls -/

/-- Up to the sizes of the tables, and with different services, the stored
handles identify their characteristics exactly when there are at most ten
characteristics in all and no two have the same UUID. -/
theorem handles_identify_iff (calls : List Call) (fits : Fits calls) :
    HandlesIdentify calls ↔
      (characteristics calls).length ≤ 10 ∧
        ((characteristics calls).map fun char => char.charUuid.text).Nodup := by
  obtain ⟨done, numbered⟩ := numbered_addAll
    (numbered_fresh ((services calls).map fun service => service.svcUuid.text)) rfl fits.adds
    fits.valid (by rw [List.length_map]; exact fits.fewServices) (by simpa using fits.fewChars)
  rw [List.nil_append] at numbered
  have sameCount : ((addAll .fresh calls).2.flatMap ServiceParams.assignments).length =
      (characteristics calls).length := by
    simpa using congrArg List.length (assignments_charUuid .fresh calls)
  unfold HandlesIdentify
  rw [identified_all_iff numbered (List.drop_eq_nil_iff.mp done) fits.distinct,
    assignments_charUuid, sameCount]

def bincAdds : Binc := ⟨true, fun _ => true, fun _ _ _ => true⟩

/-- A service with 16-bit UUIDs whose handles are not set yet. -/
def newService (svcUuid : UInt16) (charUuids : List UInt16) : ServiceParams :=
  ⟨.uuid16 svcUuid, charUuids.map fun charUuid => ⟨0, .uuid16 charUuid, 0x08⟩⟩

theorem fits_of_bincAdds {calls : List Call} (adds : ∀ call ∈ calls, call.binc = bincAdds)
    (checked : (∀ service ∈ services calls, service.Valid) ∧
      (services calls).length ≤ maxServs ∧
      ((services calls).map fun service => service.svcUuid.text).Nodup ∧
      (characteristics calls).length ≤ maxChars) : Fits calls where
  adds := by
    intro call member
    rw [adds call member]
    exact ⟨fun _ => rfl, fun _ _ _ => rfl⟩
  valid := checked.1
  fewServices := checked.2.1
  distinct := checked.2.2.1
  fewChars := checked.2.2.2

/-- Two calls, with two characteristics and one. -/
def threeCharacteristics : List Call :=
  [⟨bincAdds, [newService 0xFD50 [1, 2]]⟩, ⟨bincAdds, [newService 0x180A [3]]⟩]

theorem three_characteristics_identify :
    Fits threeCharacteristics ∧ HandlesIdentify threeCharacteristics := by
  have fits : Fits threeCharacteristics :=
    fits_of_bincAdds (by simp [threeCharacteristics]) (by decide +kernel)
  exact ⟨fits, (handles_identify_iff threeCharacteristics fits).mpr (by decide +kernel)⟩

/-- One service with eleven characteristics. The last one gets the handle 10,
which is decoded to the service of index 1. -/
def elevenCharacteristics : List Call :=
  [⟨bincAdds, [newService 0xFD50 [0, 1, 2, 3, 4, 5, 6, 7, 8, 9, 10]]⟩]

/-- Two services with one characteristic of the same UUID each. -/
def reusedUuid : List Call := [⟨bincAdds, [newService 0xFD50 [1], newService 0x180A [1]]⟩]

theorem not_all_handles_identify :
    (Fits elevenCharacteristics ∧ ¬ HandlesIdentify elevenCharacteristics) ∧
      Fits reusedUuid ∧ ¬ HandlesIdentify reusedUuid := by
  refine ⟨⟨fits_of_bincAdds (by simp [elevenCharacteristics]) (by decide +kernel), ?_⟩,
    fits_of_bincAdds (by simp [reusedUuid]) (by decide +kernel), ?_⟩
  · intro identify
    have identified := identify
      ⟨(BleUuid.uuid16 0xFD50).text, (BleUuid.uuid16 10).text, 10⟩ (by decide +kernel)
    exact absurd (identified.notify []) (by decide +kernel)
  · intro identify
    have identified := identify
      ⟨(BleUuid.uuid16 0x180A).text, (BleUuid.uuid16 1).text, 11⟩ (by decide +kernel)
    exact absurd identified.read (by decide +kernel)

end TuyaAdapter.TklBt
