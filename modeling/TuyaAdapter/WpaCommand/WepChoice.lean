import TuyaAdapter.WpaCommand.Leftover

/-!
Contract: what other networks in the scan list do to a join.

The loop over the scan list compares as many characters as the requested name
has, so that a WEP network whose name only starts with it counts as well. The
key of a WEP network is written for four of the six lengths that count as WEP.
-/

namespace TuyaAdapter.WpaCommand

open Foundation.Decimal

/-! ## The property -/

/-- The list has a WEP entry with this name. -/
def ExactWep (scanned : List WifiScanRes) (ssid : Text) : Prop :=
  ∃ entry ∈ scanned, entry.keyMgmt = .wep ∧ entry.ssid = ssid

instance (scanned : List WifiScanRes) (ssid : Text) : Decidable (ExactWep scanned ssid) :=
  inferInstanceAs (Decidable (∃ _ ∈ _, _))

/-- The lists differ in entries with other names only. -/
def SameNamed (ssid : Text) (scanned other : List WifiScanRes) : Prop :=
  scanned.filter (fun entry => entry.ssid = ssid) = other.filter fun entry => entry.ssid = ssid

instance (ssid : Text) (scanned other : List WifiScanRes) :
    Decidable (SameNamed ssid scanned other) := inferInstanceAs (Decidable (_ = _))

/-- The key type becomes WEP only for a WEP entry with the requested name. -/
def ChangesForOwnName (net : WifiNetwork) (scanned : List WifiScanRes) : Prop :=
  ∀ (State : Type) (peer : Peer State) (session : Session State),
    (joinPrelude peer session net scanned).1.keyMgmt = .wep → net.keyMgmt ≠ .wep →
      ExactWep scanned net.ssid

/-- The WEPKEY0 command of a join, if there is one, contains the key. -/
def SendsWepKey (net : WifiNetwork) (scanned : List WifiScanRes) : Prop :=
  ∀ (State : Type) (peer : Peer State) (session : Session State) (id : Int) (keyed : WifiNetwork),
    Command.setNetworkWepKey0 keyed ∈
        joinCommands { (joinPrelude peer session net scanned).1 with id := id } →
      ∃ value, (Command.setNetworkWepKey0 keyed).request = some (.setNetwork id .wepKey0 value) ∧
        net.psk <:+: value

/-- Two scan lists that differ in other networks only lead to the same commands;
with neither does the network become WEP for another's sake, and a key that is
taken for a WEP key is sent. -/
structure NoDowngrade (net : WifiNetwork) (scanned other : List WifiScanRes) : Prop where
  ownName : ChangesForOwnName net scanned ∧ ChangesForOwnName net other
  sameCommands : ∀ (State : Type) (peer : Peer State) (session : Session State),
    (wifiJoinNetwork peer session net scanned).2.log.map Prod.fst =
      (wifiJoinNetwork peer session net other).2.log.map Prod.fst
  sendsKey : hasWepLength net.psk → SendsWepKey net scanned ∧ SendsWepKey net other

/-! ## The condition -/

/-- A WEP entry whose name starts with the requested one and goes on. -/
def LongerWep (scanned : List WifiScanRes) (ssid : Text) : Prop :=
  ∃ entry ∈ scanned, entry.keyMgmt = .wep ∧ ssid <+: entry.ssid ∧ entry.ssid ≠ ssid

/-- No longer name of a WEP network misleads the loop: the key is not of a WEP
length, the network is WEP anyway, there is no such name, or the requested name
is a WEP network itself. -/
def NotMisled (net : WifiNetwork) (scanned : List WifiScanRes) : Prop :=
  hasWepLength net.psk = true → net.keyMgmt ≠ .wep → LongerWep scanned net.ssid →
    ExactWep scanned net.ssid

/-- With a key of 16 or 32 characters the network is not WEP and no WEP network
with such a name is seen. -/
def KeyLengthWritten (net : WifiNetwork) (scanned : List WifiScanRes) : Prop :=
  net.psk.length = 16 ∨ net.psk.length = 32 →
    net.keyMgmt ≠ .wep ∧ seesWep scanned net.ssid = false

/-! ## The loop over the scan list -/

/-- A peer that accepts everything. -/
def acceptingPeer : Peer Unit := fun _ request =>
  match request with
  | .addNetwork => (.reply "0\n".toList, ())
  | _ => (.reply "OK\n".toList, ())

/-- The key type of the network after the loop. -/
def joinedKeyMgmt (net : WifiNetwork) (scanned : List WifiScanRes) : KeyMgmt :=
  if hasWepLength net.psk ∧ seesWep scanned net.ssid then .wep else net.keyMgmt

theorem joinPrelude_eq {State : Type} (peer : Peer State) (session : Session State)
    (net : WifiNetwork) (scanned : List WifiScanRes) :
    (joinPrelude peer session net scanned).1 =
        { net with keyMgmt := joinedKeyMgmt net scanned } ∧
      (joinPrelude peer session net scanned).2 = (joinPrelude peer session net []).2 := by
  unfold joinPrelude joinedKeyMgmt
  by_cases wepLength : hasWepLength net.psk = true
  · by_cases sees : seesWep scanned net.ssid = true
    · simp [wepLength, sees]
    · simp [wepLength, sees]
  · simp [wepLength]

theorem seesWep_iff (scanned : List WifiScanRes) (ssid : Text) :
    seesWep scanned ssid = true ↔ ExactWep scanned ssid ∨ LongerWep scanned ssid := by
  have isPrefix : ∀ name : Text, name.take ssid.length = ssid ↔ ssid <+: name := by
    intro name
    rw [List.prefix_iff_eq_take]
    exact eq_comm
  simp only [seesWep, List.any_eq_true, decide_eq_true_eq, isPrefix]
  constructor
  · rintro ⟨entry, member, isWep, starts⟩
    by_cases same : entry.ssid = ssid
    · exact Or.inl ⟨entry, member, isWep, same⟩
    · exact Or.inr ⟨entry, member, isWep, starts, same⟩
  · rintro (⟨entry, member, isWep, same⟩ | ⟨entry, member, isWep, starts, -⟩)
    · exact ⟨entry, member, isWep, by rw [same]⟩
    · exact ⟨entry, member, isWep, starts⟩

theorem exactWep_congr {ssid : Text} {scanned other : List WifiScanRes}
    (same : SameNamed ssid scanned other) : ExactWep scanned ssid ↔ ExactWep other ssid := by
  have inFilter : ∀ list : List WifiScanRes, ExactWep list ssid ↔
      ∃ entry ∈ list.filter (fun entry => entry.ssid = ssid), entry.keyMgmt = .wep := by
    intro list
    simp only [ExactWep, List.mem_filter, decide_eq_true_eq]
    constructor
    · rintro ⟨entry, member, isWep, isName⟩
      exact ⟨entry, ⟨member, isName⟩, isWep⟩
    · rintro ⟨entry, ⟨member, isName⟩, isWep⟩
      exact ⟨entry, member, isWep, isName⟩
  rw [inFilter, inFilter, show scanned.filter _ = other.filter _ from same]

theorem changesForOwnName_iff (net : WifiNetwork) (scanned : List WifiScanRes) :
    ChangesForOwnName net scanned ↔ NotMisled net scanned := by
  constructor
  · intro ownName wepLength notWep longer
    have sees := (seesWep_iff scanned net.ssid).mpr (Or.inr longer)
    refine ownName Unit acceptingPeer ⟨(), []⟩ ?_ notWep
    rw [(joinPrelude_eq acceptingPeer _ net scanned).1]
    exact if_pos ⟨wepLength, sees⟩
  · intro notMisled State peer session isWep notWep
    rw [(joinPrelude_eq peer session net scanned).1] at isWep
    have becomes : joinedKeyMgmt net scanned = .wep := isWep
    unfold joinedKeyMgmt at becomes
    by_cases changes : hasWepLength net.psk = true ∧ seesWep scanned net.ssid = true
    · rcases (seesWep_iff scanned net.ssid).mp changes.2 with exact_ | longer
      · exact exact_
      · exact notMisled changes.1 notWep longer
    · rw [if_neg changes] at becomes
      exact absurd becomes notWep

/-- Lists that do not mislead the loop and agree on the requested name give the
same key type. -/
theorem joinedKeyMgmt_congr {net : WifiNetwork} {scanned other : List WifiScanRes}
    (same : SameNamed net.ssid scanned other) (notMisled : NotMisled net scanned)
    (otherNotMisled : NotMisled net other) :
    joinedKeyMgmt net scanned = joinedKeyMgmt net other := by
  by_cases isWep : net.keyMgmt = .wep
  · unfold joinedKeyMgmt
    rw [isWep, ite_self, ite_self]
  · have byName : ∀ {list : List WifiScanRes}, NotMisled net list →
        (hasWepLength net.psk = true ∧ seesWep list net.ssid = true ↔
          hasWepLength net.psk = true ∧ ExactWep list net.ssid) := by
      intro list notMisled
      rw [seesWep_iff]
      constructor
      · rintro ⟨wepLength, exact_ | longer⟩
        · exact ⟨wepLength, exact_⟩
        · exact ⟨wepLength, notMisled wepLength isWep longer⟩
      · exact fun both => ⟨both.1, Or.inl both.2⟩
    have agree : (hasWepLength net.psk = true ∧ seesWep scanned net.ssid = true) ↔
        (hasWepLength net.psk = true ∧ seesWep other net.ssid = true) := by
      rw [byName notMisled, byName otherNotMisled, exactWep_congr same]
    unfold joinedKeyMgmt
    simp only [agree]

/-! ## The commands -/

theorem wifiJoinNetwork_congr {State : Type} (peer : Peer State) (session : Session State)
    {net : WifiNetwork} {scanned other : List WifiScanRes}
    (same : joinedKeyMgmt net scanned = joinedKeyMgmt net other) :
    wifiJoinNetwork peer session net scanned = wifiJoinNetwork peer session net other := by
  have prepared : joinPrelude peer session net scanned = joinPrelude peer session net other := by
    have first := joinPrelude_eq peer session net scanned
    have second := joinPrelude_eq peer session net other
    exact Prod.ext (by rw [first.1, second.1, same]) (first.2.trans second.2.symm)
  unfold wifiJoinNetwork
  rw [prepared]

theorem mem_joinCommands_wepKey0 {net keyed : WifiNetwork} :
    Command.setNetworkWepKey0 keyed ∈ joinCommands net ↔ net.keyMgmt = .wep ∧ keyed = net := by
  cases isKeyMgmt : net.keyMgmt <;> simp [joinCommands, isKeyMgmt]

theorem infix_quoted (text : Text) : text <:+: quoted text := ⟨['"'], ['"'], rfl⟩

/-- The command contains the key exactly for a key of 5, 13, 10 or 26 characters. -/
theorem setNetworkWepKey0_request_iff (net : WifiNetwork) :
    (∃ value, (Command.setNetworkWepKey0 net).request = some (.setNetwork net.id .wepKey0 value) ∧
        net.psk <:+: value) ↔
      (net.psk.length = 5 ∨ net.psk.length = 13) ∨ net.psk.length = 10 ∨ net.psk.length = 26 := by
  rw [← setNetworkWepKey0_hasText_iff]
  constructor
  · rintro ⟨value, isRequest, -⟩
    rw [Command.HasText, isRequest]
    simp
  · intro hasText
    by_cases ascii : net.psk.length = 5 ∨ net.psk.length = 13
    · exact ⟨quoted net.psk, by simp only [Command.request, if_pos ascii], infix_quoted _⟩
    · by_cases hex : net.psk.length = 10 ∨ net.psk.length = 26
      · exact ⟨net.psk, by simp only [Command.request, if_neg ascii, if_pos hex],
          List.infix_rfl⟩
      · rw [setNetworkWepKey0_hasText_iff] at hasText
        exact absurd hasText (not_or.mpr ⟨ascii, hex⟩)

theorem sendsWepKey_iff {net : WifiNetwork} (wepLength : hasWepLength net.psk = true)
    (scanned : List WifiScanRes) : SendsWepKey net scanned ↔ KeyLengthWritten net scanned := by
  have written : ((net.psk.length = 5 ∨ net.psk.length = 13) ∨ net.psk.length = 10 ∨
      net.psk.length = 26) ↔ ¬ (net.psk.length = 16 ∨ net.psk.length = 32) := by
    simp only [hasWepLength, decide_eq_true_eq] at wepLength
    omega
  have notWep : joinedKeyMgmt net scanned ≠ .wep ↔
      net.keyMgmt ≠ .wep ∧ seesWep scanned net.ssid = false := by
    unfold joinedKeyMgmt
    by_cases sees : seesWep scanned net.ssid = true
    · simp [wepLength, sees]
    · simp [sees]
  have request := fun id : Int =>
    setNetworkWepKey0_request_iff { net with keyMgmt := joinedKeyMgmt net scanned, id := id }
  unfold SendsWepKey KeyLengthWritten
  simp only [← notWep, fun (State : Type) (peer : Peer State) session =>
    (joinPrelude_eq peer session net scanned).1]
  constructor
  · intro sends unwritten isWep
    have sent := sends Unit acceptingPeer ⟨(), []⟩ 0
      { net with keyMgmt := joinedKeyMgmt net scanned, id := 0 }
      (mem_joinCommands_wepKey0.mpr ⟨isWep, rfl⟩)
    exact written.mp ((request 0).mp sent) unwritten
  · intro lengthWritten State peer session id keyed member
    obtain ⟨isWep, isNet⟩ := mem_joinCommands_wepKey0.mp member
    rw [isNet]
    exact (request id).mpr (written.mpr fun unwritten => lengthWritten unwritten isWep)

/-! ## Joins -/

/-- Other networks in the scan list change nothing, and a WEP key is sent,
exactly when neither list misleads the loop and no key of 16 or 32 characters is
taken for a WEP key. -/
theorem join_noDowngrade_iff {net : WifiNetwork} {scanned other : List WifiScanRes}
    (same : SameNamed net.ssid scanned other) :
    NoDowngrade net scanned other ↔
      (NotMisled net scanned ∧ NotMisled net other) ∧
        KeyLengthWritten net scanned ∧ KeyLengthWritten net other := by
  have unwritten : net.psk.length = 16 ∨ net.psk.length = 32 → hasWepLength net.psk = true := by
    intro isLength
    simp only [hasWepLength, decide_eq_true_eq]
    omega
  constructor
  · intro noDowngrade
    refine ⟨⟨(changesForOwnName_iff net scanned).mp noDowngrade.ownName.1,
      (changesForOwnName_iff net other).mp noDowngrade.ownName.2⟩, ?_, ?_⟩
    · intro isLength
      have wepLength := unwritten isLength
      exact (sendsWepKey_iff wepLength scanned).mp (noDowngrade.sendsKey wepLength).1 isLength
    · intro isLength
      have wepLength := unwritten isLength
      exact (sendsWepKey_iff wepLength other).mp (noDowngrade.sendsKey wepLength).2 isLength
  · rintro ⟨⟨notMisled, otherNotMisled⟩, written, otherWritten⟩
    refine ⟨⟨(changesForOwnName_iff net scanned).mpr notMisled,
      (changesForOwnName_iff net other).mpr otherNotMisled⟩, ?_, ?_⟩
    · intro State peer session
      rw [wifiJoinNetwork_congr peer session
        (joinedKeyMgmt_congr same notMisled otherNotMisled)]
    · exact fun wepLength => ⟨(sendsWepKey_iff wepLength scanned).mpr written,
        (sendsWepKey_iff wepLength other).mpr otherWritten⟩

/-- A WPA2 network with a key of ten characters. -/
def joinHome : WifiNetwork := ⟨0, "home".toList, "0123456789".toList, .wpa2psk⟩

/-- A WEP network named `home2` turns the join of `home` into a WEP join, and the
key of a WEP network with 16 characters is not sent. -/
theorem join_downgraded :
    SameNamed joinHome.ssid [] [⟨"home2".toList, .wep⟩] ∧
      ¬ NoDowngrade joinHome [] [⟨"home2".toList, .wep⟩] ∧
      (wifiJoinNetwork acceptingPeer ⟨(), []⟩ joinHome []).2.log.map Prod.fst ≠
        (wifiJoinNetwork acceptingPeer ⟨(), []⟩ joinHome
          [⟨"home2".toList, .wep⟩]).2.log.map Prod.fst ∧
      ¬ SendsWepKey ⟨0, "home".toList, "0123456789abcdef".toList, .wpa2psk⟩
        [⟨"home".toList, .wep⟩] := by
  have differ : (wifiJoinNetwork acceptingPeer ⟨(), []⟩ joinHome []).2.log.map Prod.fst ≠
      (wifiJoinNetwork acceptingPeer ⟨(), []⟩ joinHome
        [⟨"home2".toList, .wep⟩]).2.log.map Prod.fst := by decide +kernel
  refine ⟨by decide, ?_, differ, ?_⟩
  · exact fun noDowngrade => differ (noDowngrade.sameCommands Unit acceptingPeer ⟨(), []⟩)
  · intro sends
    obtain ⟨value, isRequest, -⟩ := sends Unit acceptingPeer ⟨(), []⟩ 0
      ⟨0, "home".toList, "0123456789abcdef".toList, .wep⟩ (by decide)
    exact absurd isRequest (by
      have isEmpty : (Command.setNetworkWepKey0
        ⟨0, "home".toList, "0123456789abcdef".toList, .wep⟩).request = some .empty := by decide
      rw [isEmpty]
      simp)

/-- Two lists that differ in a network with an unrelated name. -/
theorem join_unrelated :
    NoDowngrade joinHome [] [⟨"cafe".toList, .wep⟩] ↔
      (NotMisled joinHome [] ∧ NotMisled joinHome [⟨"cafe".toList, .wep⟩]) ∧
        KeyLengthWritten joinHome [] ∧ KeyLengthWritten joinHome [⟨"cafe".toList, .wep⟩] :=
  join_noDowngrade_iff (by decide)

end TuyaAdapter.WpaCommand
