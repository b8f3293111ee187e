import TuyaAdapter.Foundation.KeyedFold
import TuyaAdapter.Foundation.PrefixCode
import TuyaAdapter.TklBt.AdvData

/-!
Contract: AD structures as they are laid out in advertising data, and what a
sequence of them says about an advertisement.

The last structure of a kind decides, except for names, where the first does, and
for lists of UUIDs, which are put together.
-/

namespace TuyaAdapter.TklBt

open Foundation Foundation.Decimal Foundation.KeyedFold

/-! ## AD structures -/

structure AdStructure where
  adType : UInt8
  payload : List UInt8
deriving DecidableEq, Repr

/-- A length byte, which counts the type and the payload, and these. -/
def AdStructure.bytes (ad : AdStructure) : List UInt8 :=
  UInt8.ofNat (ad.payload.length + 1) :: ad.adType :: ad.payload

theorem adBytes_separate {first second : AdStructure} {left right : List UInt8}
    (firstFits : first.payload.length + 1 < 256) (secondFits : second.payload.length + 1 < 256)
    (same : first.bytes ++ left = second.bytes ++ right) : first = second ∧ left = right := by
  obtain ⟨firstType, firstPayload⟩ := first
  obtain ⟨secondType, secondPayload⟩ := second
  unfold AdStructure.bytes at same
  rw [List.cons_append, List.cons_append, List.cons_append, List.cons_append, List.cons.injEq,
    List.cons.injEq] at same
  obtain ⟨sameLength, sameType, sameRest⟩ := same
  have lengths := congrArg UInt8.toNat sameLength
  rw [UInt8.toNat_ofNat', UInt8.toNat_ofNat', Nat.mod_eq_of_lt firstFits,
    Nat.mod_eq_of_lt secondFits] at lengths
  obtain ⟨samePayload, sameLater⟩ := List.append_inj sameRest (Nat.succ.inj lengths)
  exact ⟨congrArg₂ AdStructure.mk sameType samePayload, sameLater⟩

/-- The bytes of the AD structures whose length fits in its byte. -/
def adCode : PrefixCode AdStructure UInt8 where
  Valid := fun ad => ad.payload.length + 1 < 256
  word := AdStructure.bytes
  separates := adBytes_separate

/-! ## What the structures say -/

/-- The words of the complete pairs of bytes. -/
def pairs : List UInt8 → List UInt16
  | low :: high :: rest => word low high :: pairs rest
  | _ => []

/-- A word and the bytes behind it. -/
def wordAndData : List UInt8 → Option (UInt16 × List UInt8)
  | low :: high :: data => some (word low high, data)
  | _ => none

/-- LE General Discoverable Mode, bit 1 of the flags. -/
def AdStructure.discoverable (ad : AdStructure) : Option Bool :=
  if ad.adType = 0x01 then ad.payload.head?.map fun flags => flags &&& 0x02 ≠ 0 else none

def AdStructure.uuids (ad : AdStructure) : List Text :=
  if ad.adType = 0x02 ∨ ad.adType = 0x03 then (pairs ad.payload).map uuid16Text else []

def AdStructure.name (ad : AdStructure) : Option (List UInt8) :=
  if ad.adType = 0x08 ∨ ad.adType = 0x09 then some (ad.payload.takeWhile (· ≠ 0)) else none

def AdStructure.manufacturer (ad : AdStructure) : Option (UInt16 × List UInt8) :=
  if ad.adType = 0xFF then wordAndData ad.payload else none

def AdStructure.service (ad : AdStructure) : Option (Text × List UInt8) :=
  if ad.adType = 0x16 then (wordAndData ad.payload).map fun entry => (uuid16Text entry.1, entry.2)
  else none

def AdStructure.appearance (ad : AdStructure) : Option UInt16 :=
  if ad.adType = 0x19 ∧ ad.payload.length = 2 then (pairs ad.payload).head? else none

/-- The bytes of an entry with this key. -/
def dataFor {Key : Type} [DecidableEq Key] (key : Key) (entry : Key × List UInt8) :
    Option (List UInt8) :=
  if entry.1 = key then some entry.2 else none

/-- The advertisement has what the structures say, and is as it was in what they
do not mention. -/
structure AppliesExactly (structures : List AdStructure) (before after : Advertisement) : Prop where
  generalDiscoverable : after.generalDiscoverable =
    (lastSome AdStructure.discoverable structures).getD before.generalDiscoverable
  appearance : after.appearance =
    (lastSome AdStructure.appearance structures).getD before.appearance
  manufacturerData : ∀ id, after.manufacturerData.lookup id =
    (lastSome (fun ad => ad.manufacturer.bind (dataFor id)) structures).or
      (before.manufacturerData.lookup id)
  serviceData : ∀ uuid, after.serviceData.lookup uuid =
    (lastSome (fun ad => ad.service.bind (dataFor uuid)) structures).or
      (before.serviceData.lookup uuid)
  localName : after.localName = (structures.findSome? AdStructure.name).or before.localName
  services : after.services =
    if structures.flatMap AdStructure.uuids = [] then before.services
    else some (structures.flatMap AdStructure.uuids)

/-! ## One structure after another -/

/-- What one structure changes. -/
def absorb (state : AdState) (ad : AdStructure) : AdState where
  advertisement :=
    { state.advertisement with
      generalDiscoverable := ad.discoverable.getD state.advertisement.generalDiscoverable
      appearance := ad.appearance.getD state.advertisement.appearance
      manufacturerData :=
        match ad.manufacturer with
        | none => state.advertisement.manufacturerData
        | some entry =>
            (state.advertisement.manufacturerData.erase entry.1).insert entry.1 entry.2 }
  serviceUuidsList := state.serviceUuidsList ++ ad.uuids
  localName := state.localName.or ad.name
  tempServiceData :=
    match ad.service with
    | none => state.tempServiceData
    | some entry => state.tempServiceData.insert entry.1 entry.2

section Tables

variable {Key : Type} [DecidableEq Key]

theorem lookup_insert_dataFor (table : ByteArrays Key) (entry : Key × List UInt8) (key : Key) :
    (table.insert entry.1 entry.2).lookup key =
      (dataFor key entry).or (table.lookup key) := by
  unfold dataFor
  by_cases same : entry.1 = key
  · rw [if_pos same, ← same, AList.lookup_insert]
    rfl
  · rw [if_neg same, AList.lookup_insert_ne (Ne.symm same)]
    rfl

theorem lookup_replace_dataFor (table : ByteArrays Key) (entry : Key × List UInt8) (key : Key) :
    ((table.erase entry.1).insert entry.1 entry.2).lookup key =
      (dataFor key entry).or (table.lookup key) := by
  rw [lookup_insert_dataFor]
  unfold dataFor
  by_cases same : entry.1 = key
  · rw [if_pos same]
    rfl
  · rw [if_neg same, AList.lookup_erase_ne (Ne.symm same)]

/-- Entries with different keys end up in the table, in any order. -/
theorem lookup_replaceAll {entries : List (Σ _ : Key, List UInt8)} (nodup : entries.NodupKeys)
    (table : ByteArrays Key) (key : Key) :
    (entries.foldl (fun table entry => (table.erase entry.1).insert entry.1 entry.2) table).lookup
        key = (entries.dlookup key).or (table.lookup key) := by
  induction entries generalizing table with
  | nil => rfl
  | cons entry rest inductionHypothesis =>
      obtain ⟨fresh, restNodup⟩ := List.nodupKeys_cons.mp nodup
      rw [List.foldl_cons, inductionHypothesis restNodup,
        lookup_replace_dataFor table (entry.1, entry.2)]
      unfold dataFor
      by_cases same : entry.1 = key
      · rw [if_pos same, ← same, List.dlookup_eq_none.mpr fresh, List.dlookup_cons_eq]
        rfl
      · rw [if_neg same, List.dlookup_cons_ne rest entry (Ne.symm same)]
        rfl

end Tables

/-! ## After the loop -/

theorem foldl_setServiceData (entries : List (Σ _ : Text, List UInt8))
    (advertisement : Advertisement) :
    entries.foldl (fun advertisement entry => setServiceData advertisement entry.1 entry.2)
        advertisement =
      { advertisement with
        serviceData := entries.foldl
          (fun table entry => (table.erase entry.1).insert entry.1 entry.2)
          advertisement.serviceData } := by
  induction entries generalizing advertisement with
  | nil => rfl
  | cons entry rest inductionHypothesis =>
      rw [List.foldl_cons, inductionHypothesis, List.foldl_cons]
      rfl

/-- What is done after the loop, field by field. -/
theorem finishAdv_eq (iter : HashTableIter) (state : AdState) :
    finishAdv iter state =
      { state.advertisement with
        localName := state.localName.or state.advertisement.localName
        services :=
          if state.serviceUuidsList = [] then state.advertisement.services
          else some state.serviceUuidsList
        serviceData := (iter.entries state.tempServiceData).foldl
          (fun table entry => (table.erase entry.1).insert entry.1 entry.2)
          state.advertisement.serviceData } := by
  unfold finishAdv
  simp only [foldl_setServiceData, List.length_pos_iff_ne_nil]
  cases state.localName <;> by_cases noUuid : state.serviceUuidsList = [] <;>
    simp [noUuid, setLocalName, setServices]

theorem finishAdv_serviceData (iter : HashTableIter) (state : AdState) (uuid : Text) :
    (finishAdv iter state).serviceData.lookup uuid =
      (state.tempServiceData.lookup uuid).or (state.advertisement.serviceData.lookup uuid) := by
  have visited := iter.perm state.tempServiceData
  have nodup : (iter.entries state.tempServiceData).NodupKeys :=
    (List.perm_nodupKeys visited).mpr state.tempServiceData.nodupKeys
  rw [finishAdv_eq]
  refine (lookup_replaceAll nodup _ uuid).trans ?_
  rw [List.perm_dlookup uuid nodup visited]
  rfl

/-! ## All structures -/

section Fields

variable (structures : List AdStructure) (state : AdState)

theorem absorbAll_discoverable :
    (structures.foldl absorb state).advertisement.generalDiscoverable =
      (lastSome AdStructure.discoverable structures).getD
        state.advertisement.generalDiscoverable :=
  field_foldl_getD (fun state => state.advertisement.generalDiscoverable) (fun _ _ => rfl)
    structures state

theorem absorbAll_appearance :
    (structures.foldl absorb state).advertisement.appearance =
      (lastSome AdStructure.appearance structures).getD state.advertisement.appearance :=
  field_foldl_getD (fun state => state.advertisement.appearance) (fun _ _ => rfl) structures state

theorem absorbAll_manufacturerData (id : UInt16) :
    (structures.foldl absorb state).advertisement.manufacturerData.lookup id =
      (lastSome (fun ad => ad.manufacturer.bind (dataFor id)) structures).or
        (state.advertisement.manufacturerData.lookup id) := by
  have own : ∀ (state : AdState) (ad : AdStructure),
      (absorb state ad).advertisement.manufacturerData.lookup id =
        (ad.manufacturer.bind (dataFor id)).or
          (state.advertisement.manufacturerData.lookup id) := by
    intro state ad
    unfold absorb
    cases ad.manufacturer with
    | none => rfl
    | some entry => exact lookup_replace_dataFor _ entry id
  exact field_foldl_or (fun state => state.advertisement.manufacturerData.lookup id) own
    structures state

theorem absorbAll_tempServiceData (uuid : Text) :
    (structures.foldl absorb state).tempServiceData.lookup uuid =
      (lastSome (fun ad => ad.service.bind (dataFor uuid)) structures).or
        (state.tempServiceData.lookup uuid) := by
  have own : ∀ (state : AdState) (ad : AdStructure),
      (absorb state ad).tempServiceData.lookup uuid =
        (ad.service.bind (dataFor uuid)).or (state.tempServiceData.lookup uuid) := by
    intro state ad
    unfold absorb
    cases ad.service with
    | none => rfl
    | some entry => exact lookup_insert_dataFor _ entry uuid
  exact field_foldl_or (fun state => state.tempServiceData.lookup uuid) own structures state

/-- The fields that are set after the loop. -/
theorem absorbAll_untouched :
    (structures.foldl absorb state).advertisement.localName = state.advertisement.localName ∧
      (structures.foldl absorb state).advertisement.services = state.advertisement.services ∧
      (structures.foldl absorb state).advertisement.serviceData =
        state.advertisement.serviceData := by
  induction structures generalizing state with
  | nil => exact ⟨rfl, rfl, rfl⟩
  | cons ad rest inductionHypothesis =>
      rw [List.foldl_cons]
      exact inductionHypothesis (absorb state ad)

end Fields

/-- Absorbed one after another, the structures are applied exactly. -/
theorem absorbAll_applies (iter : HashTableIter) (structures : List AdStructure)
    (before : Advertisement) :
    AppliesExactly structures before
      (finishAdv iter (structures.foldl absorb ⟨before, [], none, ∅⟩)) := by
  obtain ⟨localName, services, serviceData⟩ := absorbAll_untouched structures ⟨before, [], none, ∅⟩
  constructor
  · rw [finishAdv_eq]
    exact absorbAll_discoverable structures _
  · rw [finishAdv_eq]
    exact absorbAll_appearance structures _
  · intro id
    rw [finishAdv_eq]
    exact absorbAll_manufacturerData structures _ id
  · intro uuid
    rw [finishAdv_serviceData, serviceData, absorbAll_tempServiceData, AList.lookup_empty,
      Option.or_none]
  · have named : (structures.foldl absorb ⟨before, [], none, ∅⟩).localName =
        structures.findSome? AdStructure.name :=
      field_foldl_first (fun _ _ => rfl) structures _
    rw [finishAdv_eq, named, localName]
  · have gathered : (structures.foldl absorb ⟨before, [], none, ∅⟩).serviceUuidsList =
        structures.flatMap AdStructure.uuids :=
      field_foldl_all (fun _ _ => rfl) structures _
    rw [finishAdv_eq, gathered, services]

end TuyaAdapter.TklBt
