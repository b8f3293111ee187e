import TuyaAdapter.Foundation.MacAddress

/-!
Contract: `wifi_scan_ap` of `linux_wifi.c`, over the list that `iw_scan` gives.

The channel of a frequency is a parameter, since `iw_freq_to_channel` works on
floating point numbers. `stack` is what the six variables hold that the address
is scanned into, before each record, and `initial` what the array of the caller
holds. The loop runs on fuel: it is missing when it needs more turns.
-/

namespace TuyaAdapter.LinuxWifi

open Foundation.Decimal Foundation.Hexadecimal Foundation.MacAddress Foundation.Scanf

/-! ## Data -/

/-- `AP_IF_S`, as far as a scan fills it. -/
structure ApIf where
  channel : Nat
  rssi : Int8
  bssid : List Nat
  ssid : Text
  sLen : Nat
  security : Nat
deriving DecidableEq, Repr

def ApIf.zeroed : ApIf := ⟨0, 0, List.replicate 6 0, [], 0, 0⟩

/-- `wireless_scan`, as far as it is read. -/
structure WirelessScan (Freq : Type) where
  ptr : Nat
  hasApAddr : Bool
  apAddr : Vector UInt8 6
  essid : Text
  freq : Freq
  hasStats : Bool
  qual : UInt8
  keyFlags : Nat

/-- `WIFI_SSID_MAX_LEN`. -/
def wifiSsidMaxLen : Nat := 32

/-! ## Addresses -/

/-- A digit of `%X`. -/
def upperDigit (value : Nat) : Char := "0123456789ABCDEF".toList.getD value '0'

/-- What `%02X` writes. -/
def bytePair (byte : UInt8) : Char × Char :=
  (upperDigit (byte.toNat / 16), upperDigit (byte.toNat % 16))

/-- The bytes of an address. -/
def addressBytes (address : Vector UInt8 6) : List Nat := address.toList.map UInt8.toNat

/-- `iw_ether_ntop`. -/
def iwEtherNtop (address : Vector UInt8 6) : Text := macText (address.toList.map bytePair)

/-- `iw_sawap_ntop`. -/
def iwSawapNtop (address : Vector UInt8 6) : Text :=
  if addressBytes address = List.replicate 6 0 then "Not-Associated".toList
  else if addressBytes address = List.replicate 6 0xFF then "Invalid".toList
  else if addressBytes address = List.replicate 6 0x44 then "None".toList
  else iwEtherNtop address

/-! ## The loop -/

section Scan

variable {Freq : Type} (iwFreqToChannel : Freq → Int)

/-- The body of the loop for a node with an address. -/
def fillAp (stack : Vector Nat 6) (old : ApIf) (node : WirelessScan Freq) : ApIf where
  sLen := if wifiSsidMaxLen < node.essid.length then wifiSsidMaxLen else node.essid.length
  ssid :=
    overwrite old.ssid
      (node.essid.take
        (if wifiSsidMaxLen < node.essid.length then wifiSsidMaxLen else node.essid.length))
  channel := (iwFreqToChannel node.freq % 256).toNat
  bssid := (overwrite stack.toList (scanOctets 6 (iwSawapNtop node.apAddr))).map (· % 256)
  rssi := if node.hasStats then node.qual.toInt8 else old.rssi
  security :=
    if node.keyFlags &&& 0x8000 ≠ 0 then 0
    else if node.keyFlags &&& 0x2000 ≠ 0 then 0
    else if node.keyFlags &&& 0x800 ≠ 0 then 4
    else old.security

variable (stack : Nat → Vector Nat 6) (initial : Nat → ApIf) (maxAp : Nat)

/-- The loop over the nodes, with the records so far. -/
def collectLoop : Nat → List (WirelessScan Freq) → List ApIf → Option (List ApIf)
  | 0, _, _ => none
  | _ + 1, [], aps => some aps
  | fuel + 1, node :: rest, aps =>
      -- `continue` without a step to the next node.
      if node.hasApAddr = false then collectLoop fuel (node :: rest) aps
      else if maxAp ≤ aps.length then some aps
      else
        collectLoop fuel rest
          (aps ++ [fillAp iwFreqToChannel (stack aps.length) (initial aps.length) node])

/-- The nodes in the order in which the second loop frees them. -/
def freeNodes : List (WirelessScan Freq) → List Nat
  | [] => []
  | node :: rest => node.ptr :: freeNodes rest

/-- What the library answers: whether a socket is opened, whether the interface
supports scanning, and the result of the scan unless that fails. -/
structure IwAnswers (Freq : Type) where
  socket : Bool
  supported : Bool
  result : Option (List (WirelessScan Freq))

/-- The records written, whose number is returned, and the nodes freed. -/
structure ScanOutcome where
  aps : List ApIf
  freed : List Nat
deriving DecidableEq, Repr

/-- `wifi_scan_ap`. -/
def wifiScanAp (iw : IwAnswers Freq) (fuel : Nat) : Option ScanOutcome :=
  if iw.socket = false ∨ iw.supported = false then some ⟨[], []⟩
  else
    match iw.result with
    | none => some ⟨[], []⟩
    | some nodes =>
        (collectLoop iwFreqToChannel stack initial maxAp fuel nodes []).map fun aps =>
          ⟨aps, freeNodes nodes⟩

end Scan

/-! ## The property and the condition -/

section Property

variable {Freq : Type} (iwFreqToChannel : Freq → Int)

/-- The record describes the node; what the node does not say is left as it was. -/
structure Describes (node : WirelessScan Freq) (old ap : ApIf) : Prop where
  sLen : ap.sLen = min node.essid.length wifiSsidMaxLen
  ssid : ap.ssid.take ap.sLen = node.essid.take wifiSsidMaxLen
  channel : (ap.channel : Int) = iwFreqToChannel node.freq % 256
  bssid : ap.bssid = addressBytes node.apAddr
  rssi : ap.rssi = if node.hasStats then node.qual.toInt8 else old.rssi
  security : ap.security =
    if node.keyFlags &&& 0x8000 ≠ 0 ∨ node.keyFlags &&& 0x2000 ≠ 0 then 0
    else if node.keyFlags &&& 0x800 ≠ 0 then 4
    else old.security

/-- The nodes with an address, as many as there is room for. -/
def wantedNodes (nodes : List (WirelessScan Freq)) (maxAp : Nat) : List (WirelessScan Freq) :=
  (nodes.filter WirelessScan.hasApAddr).take maxAp

/-- As many records as wanted nodes, which they describe in order, and every
node freed once. -/
structure Collects (nodes : List (WirelessScan Freq)) (initial : Nat → ApIf) (maxAp : Nat)
    (outcome : ScanOutcome) : Prop where
  count : outcome.aps.length = min maxAp (nodes.filter WirelessScan.hasApAddr).length
  describes : ∀ index node, (wantedNodes nodes maxAp)[index]? = some node →
    ∃ ap, outcome.aps[index]? = some ap ∧ Describes iwFreqToChannel node (initial index) ap
  freed : outcome.freed = nodes.map WirelessScan.ptr

/-- None of the three addresses that are written as words. -/
def OrdinaryAddress (address : Vector UInt8 6) : Prop :=
  addressBytes address ≠ List.replicate 6 0 ∧ addressBytes address ≠ List.replicate 6 0xFF ∧
    addressBytes address ≠ List.replicate 6 0x44

instance (address : Vector UInt8 6) : Decidable (OrdinaryAddress address) :=
  inferInstanceAs (Decidable (_ ∧ _))

/-- The first nodes, one more than there is room for, have an address, and those
that are reported an ordinary one. -/
structure Collectable (nodes : List (WirelessScan Freq)) (maxAp : Nat) : Prop where
  addressed : ∀ node ∈ nodes.take (maxAp + 1), node.hasApAddr = true
  ordinary : ∀ node ∈ nodes.take maxAp, OrdinaryAddress node.apAddr

end Property

/-! ## Addresses that are scanned back -/

theorem upperDigit_spec {value : Nat} (small : value < 16) :
    isHexDigit (upperDigit value) = true ∧ hexValue (upperDigit value) = value := by
  have all : ∀ digit ∈ List.range 16,
      isHexDigit (upperDigit digit) = true ∧ hexValue (upperDigit digit) = digit := by decide
  exact all value (List.mem_range.mpr small)

theorem bytePair_spec (byte : UInt8) :
    (isHexDigit (bytePair byte).1 = true ∧ isHexDigit (bytePair byte).2 = true) ∧
      octet (bytePair byte) = byte.toNat := by
  have bound := byte.toNat_lt
  have high := upperDigit_spec (show byte.toNat / 16 < 16 by omega)
  have low := upperDigit_spec (show byte.toNat % 16 < 16 by omega)
  refine ⟨⟨high.1, low.1⟩, ?_⟩
  unfold octet bytePair
  rw [high.2, low.2]
  omega

theorem scanOctets_iwEtherNtop (address : Vector UInt8 6) :
    scanOctets 6 (iwEtherNtop address) = addressBytes address := by
  have areHex : ∀ pair ∈ address.toList.map bytePair,
      isHexDigit pair.1 = true ∧ isHexDigit pair.2 = true := by
    intro pair member
    obtain ⟨byte, -, isPair⟩ := List.mem_map.mp member
    rw [← isPair]
    exact (bytePair_spec byte).1
  have scanned := scanOctets_macText areHex
  rw [List.length_map, Vector.length_toList, List.map_map] at scanned
  unfold iwEtherNtop addressBytes
  rw [scanned]
  exact List.map_congr_left fun byte _ => (bytePair_spec byte).2

theorem addressBytes_mod (address : Vector UInt8 6) :
    (addressBytes address).map (· % 256) = addressBytes address := by
  unfold addressBytes
  rw [List.map_map]
  exact List.map_congr_left fun byte _ => Nat.mod_eq_of_lt byte.toNat_lt

/-- The address of a record: the node's, or what the variables held before. -/
theorem bssid_scanned (stack : Vector Nat 6) (address : Vector UInt8 6) :
    (overwrite stack.toList (scanOctets 6 (iwSawapNtop address))).map (· % 256) =
      if OrdinaryAddress address then addressBytes address else stack.toList.map (· % 256) := by
  unfold iwSawapNtop
  by_cases zero : addressBytes address = List.replicate 6 0
  · rw [if_pos zero, if_neg (fun ordinary : OrdinaryAddress address => ordinary.1 zero),
      show scanOctets 6 "Not-Associated".toList = [] by decide]
    rfl
  by_cases broadcast : addressBytes address = List.replicate 6 0xFF
  · rw [if_neg zero, if_pos broadcast,
      if_neg (fun ordinary : OrdinaryAddress address => ordinary.2.1 broadcast),
      show scanOctets 6 "Invalid".toList = [] by decide]
    rfl
  by_cases hack : addressBytes address = List.replicate 6 0x44
  · rw [if_neg zero, if_neg broadcast, if_pos hack,
      if_neg (fun ordinary : OrdinaryAddress address => ordinary.2.2 hack),
      show scanOctets 6 "None".toList = [] by decide]
    rfl
  · have covered : overwrite stack.toList (addressBytes address) = addressBytes address := by
      unfold overwrite
      rw [List.drop_of_length_le (by simp [addressBytes]), List.append_nil]
    rw [if_neg zero, if_neg broadcast, if_neg hack, if_pos ⟨zero, broadcast, hack⟩,
      scanOctets_iwEtherNtop, covered, addressBytes_mod]

/-! ## One record -/

section Loop

variable {Freq : Type} (iwFreqToChannel : Freq → Int)

theorem fillAp_describes (stack : Vector Nat 6) (old : ApIf) (node : WirelessScan Freq)
    (ordinary : OrdinaryAddress node.apAddr) :
    Describes iwFreqToChannel node old (fillAp iwFreqToChannel stack old node) := by
  have sLen : (if wifiSsidMaxLen < node.essid.length then wifiSsidMaxLen else node.essid.length) =
      min node.essid.length wifiSsidMaxLen := by
    split <;> omega
  constructor
  · exact sLen
  · show (overwrite old.ssid (node.essid.take (if wifiSsidMaxLen < node.essid.length then
        wifiSsidMaxLen else node.essid.length))).take (if wifiSsidMaxLen < node.essid.length then
        wifiSsidMaxLen else node.essid.length) = node.essid.take wifiSsidMaxLen
    rw [sLen]
    unfold overwrite
    rw [List.take_append_of_le_length (by rw [List.length_take]; omega), List.take_take,
      List.take_eq_take_iff]
    omega
  · show ((iwFreqToChannel node.freq % 256).toNat : Int) = _
    exact Int.toNat_of_nonneg (Int.emod_nonneg _ (by decide))
  · exact (bssid_scanned stack node.apAddr).trans (if_pos ordinary)
  · rfl
  · show (if node.keyFlags &&& 0x8000 ≠ 0 then 0 else if node.keyFlags &&& 0x2000 ≠ 0 then 0 else
      if node.keyFlags &&& 0x800 ≠ 0 then 4 else old.security) = _
    by_cases open_ : node.keyFlags &&& 0x8000 ≠ 0
    · rw [if_pos open_, if_pos (Or.inl open_)]
    · by_cases alsoOpen : node.keyFlags &&& 0x2000 ≠ 0
      · rw [if_neg open_, if_pos alsoOpen, if_pos (Or.inr alsoOpen)]
      · rw [if_neg open_, if_neg alsoOpen, if_neg (not_or.mpr ⟨open_, alsoOpen⟩)]

/-! ## The loop ends -/

variable (stack : Nat → Vector Nat 6) (initial : Nat → ApIf) (maxAp : Nat)

/-- The records of these nodes from an index on. -/
def fillFrom (index : Nat) : List (WirelessScan Freq) → List ApIf
  | [] => []
  | node :: rest =>
      fillAp iwFreqToChannel (stack index) (initial index) node :: fillFrom (index + 1) rest

theorem fillFrom_length (index : Nat) (nodes : List (WirelessScan Freq)) :
    (fillFrom iwFreqToChannel stack initial index nodes).length = nodes.length := by
  induction nodes generalizing index with
  | nil => rfl
  | cons node rest inductionHypothesis =>
      rw [fillFrom, List.length_cons, List.length_cons, inductionHypothesis]

theorem fillFrom_getElem? (start index : Nat) (nodes : List (WirelessScan Freq)) :
    (fillFrom iwFreqToChannel stack initial start nodes)[index]? =
      nodes[index]?.map fun node =>
        fillAp iwFreqToChannel (stack (start + index)) (initial (start + index)) node := by
  induction nodes generalizing start index with
  | nil => rfl
  | cons node rest inductionHypothesis =>
      cases index with
      | zero => rfl
      | succ index =>
          rw [fillFrom, List.getElem?_cons_succ, List.getElem?_cons_succ, inductionHypothesis]
          rw [show start + 1 + index = start + (index + 1) by omega]

/-- A node without an address, reached while there is room, is never left. -/
theorem collectLoop_stuck {nodes : List (WirelessScan Freq)} {aps : List ApIf}
    (room : aps.length ≤ maxAp)
    (reached : ∃ node ∈ nodes.take (maxAp - aps.length + 1), node.hasApAddr = false)
    (fuel : Nat) : collectLoop iwFreqToChannel stack initial maxAp fuel nodes aps = none := by
  induction fuel generalizing nodes aps with
  | zero => rfl
  | succ fuel inductionHypothesis =>
      cases nodes with
      | nil =>
          obtain ⟨node, member, -⟩ := reached
          simp at member
      | cons node rest =>
          rw [collectLoop]
          by_cases addressless : node.hasApAddr = false
          · rw [if_pos addressless]
            exact inductionHypothesis room reached
          · rw [if_neg addressless]
            obtain ⟨stuck, member, isStuck⟩ := reached
            rw [List.take_succ_cons, List.mem_cons] at member
            rcases member with isNode | later
            · rw [isNode] at isStuck
              exact absurd isStuck addressless
            · have positive : 0 < maxAp - aps.length := by
                apply Nat.pos_of_ne_zero
                intro isZero
                rw [isZero, List.take_zero] at later
                exact absurd later List.not_mem_nil
              rw [if_neg (by omega)]
              apply inductionHypothesis
              · rw [List.length_append, List.length_singleton]
                omega
              · refine ⟨stuck, ?_, isStuck⟩
                rw [List.length_append, List.length_singleton,
                  show maxAp - (aps.length + 1) + 1 = maxAp - aps.length by omega]
                exact later

/-- When the nodes it reaches have addresses, the loop ends within a turn for
each node, with the records of those there is room for. -/
theorem collectLoop_collects {nodes : List (WirelessScan Freq)} {aps : List ApIf}
    (room : aps.length ≤ maxAp)
    (addressed : ∀ node ∈ nodes.take (maxAp - aps.length + 1), node.hasApAddr = true)
    (fuel : Nat) :
    collectLoop iwFreqToChannel stack initial maxAp (nodes.length + 1 + fuel) nodes aps =
      some (aps ++ fillFrom iwFreqToChannel stack initial aps.length
        (nodes.take (maxAp - aps.length))) := by
  induction nodes generalizing aps with
  | nil =>
      rw [List.length_nil, show 0 + 1 + fuel = fuel + 1 by omega, collectLoop, List.take_nil,
        fillFrom, List.append_nil]
  | cons node rest inductionHypothesis =>
      have hasAddress : node.hasApAddr = true := by
        apply addressed
        rw [List.take_succ_cons]
        exact List.mem_cons_self
      rw [List.length_cons, show rest.length + 1 + 1 + fuel = (rest.length + 1 + fuel) + 1 by omega,
        collectLoop, if_neg (by rw [hasAddress]; decide)]
      by_cases full : maxAp ≤ aps.length
      · rw [if_pos full, show maxAp - aps.length = 0 by omega, List.take_zero, fillFrom,
          List.append_nil]
      · have left : maxAp - aps.length = (maxAp - (aps.length + 1)) + 1 := by omega
        rw [if_neg full, inductionHypothesis]
        · rw [List.length_append, List.length_singleton, left, List.take_succ_cons, fillFrom,
            List.append_assoc]
          rfl
        · rw [List.length_append, List.length_singleton]
          omega
        · intro other member
          rw [List.length_append, List.length_singleton] at member
          apply addressed
          rw [left, List.take_succ_cons]
          exact List.mem_cons_of_mem _ member

theorem collectLoop_start_stuck {nodes : List (WirelessScan Freq)}
    (reached : ∃ node ∈ nodes.take (maxAp + 1), node.hasApAddr = false) (fuel : Nat) :
    collectLoop iwFreqToChannel stack initial maxAp fuel nodes [] = none :=
  have room : ([] : List ApIf).length ≤ maxAp := Nat.zero_le _
  collectLoop_stuck iwFreqToChannel stack initial maxAp room reached fuel

theorem collectLoop_start {nodes : List (WirelessScan Freq)}
    (addressed : ∀ node ∈ nodes.take (maxAp + 1), node.hasApAddr = true) (fuel : Nat) :
    collectLoop iwFreqToChannel stack initial maxAp (nodes.length + 1 + fuel) nodes [] =
      some (fillFrom iwFreqToChannel stack initial 0 (nodes.take maxAp)) :=
  have room : ([] : List ApIf).length ≤ maxAp := Nat.zero_le _
  collectLoop_collects iwFreqToChannel stack initial maxAp room addressed fuel

/-- A result does not depend on the fuel. -/
theorem collectLoop_fuel {nodes : List (WirelessScan Freq)} {aps result : List ApIf} {fuel : Nat}
    (ended : collectLoop iwFreqToChannel stack initial maxAp fuel nodes aps = some result)
    (more : Nat) :
    collectLoop iwFreqToChannel stack initial maxAp (fuel + more) nodes aps = some result := by
  induction fuel generalizing nodes aps with
  | zero => cases ended
  | succ fuel inductionHypothesis =>
      rw [show fuel + 1 + more = (fuel + more) + 1 by omega]
      cases nodes with
      | nil => exact ended
      | cons node rest =>
          rw [collectLoop] at ended ⊢
          by_cases addressless : node.hasApAddr = false
          · rw [if_pos addressless] at ended ⊢
            exact inductionHypothesis ended
          · rw [if_neg addressless] at ended ⊢
            by_cases full : maxAp ≤ aps.length
            · rw [if_pos full] at ended ⊢
              exact ended
            · rw [if_neg full] at ended ⊢
              exact inductionHypothesis ended

end Loop

/-! ## The scan -/

theorem wantedNodes_eq {Freq : Type} {nodes : List (WirelessScan Freq)} {maxAp : Nat}
    (addressed : ∀ node ∈ nodes.take maxAp, node.hasApAddr = true) :
    wantedNodes nodes maxAp = nodes.take maxAp := by
  unfold wantedNodes
  induction nodes generalizing maxAp with
  | nil => rfl
  | cons node rest inductionHypothesis =>
      cases maxAp with
      | zero => rw [List.take_zero, List.take_zero]
      | succ maxAp =>
          rw [List.take_succ_cons] at addressed ⊢
          rw [List.filter_cons_of_pos (addressed node List.mem_cons_self), List.take_succ_cons,
            inductionHypothesis fun other member => addressed other (List.mem_cons_of_mem _ member)]

theorem freeNodes_eq {Freq : Type} (nodes : List (WirelessScan Freq)) :
    freeNodes nodes = nodes.map WirelessScan.ptr := by
  induction nodes with
  | nil => rfl
  | cons node rest inductionHypothesis => rw [freeNodes, inductionHypothesis, List.map_cons]

section Scans

variable {Freq : Type} (iwFreqToChannel : Freq → Int) {stack : Nat → Vector Nat 6}
  {nodes : List (WirelessScan Freq)} {initial : Nat → ApIf} {maxAp fuel : Nat}
  {outcome : ScanOutcome}

/-- A scan that ends has come by addresses only. -/
theorem addressed_of_ended (ended : wifiScanAp iwFreqToChannel stack initial maxAp
      ⟨true, true, some nodes⟩ fuel = some outcome) :
    ∀ node ∈ nodes.take (maxAp + 1), node.hasApAddr = true := by
  intro node member
  by_contra addressless
  obtain ⟨aps, isResult, -⟩ := Option.map_eq_some_iff.mp ended
  rw [collectLoop_start_stuck iwFreqToChannel stack initial maxAp
    ⟨node, member, by simpa using addressless⟩] at isResult
  cases isResult

/-- What a scan that ends has written. -/
theorem aps_of_ended (ended : wifiScanAp iwFreqToChannel stack initial maxAp
      ⟨true, true, some nodes⟩ fuel = some outcome) :
    outcome.aps = fillFrom iwFreqToChannel stack initial 0 (nodes.take maxAp) := by
  have addressed := addressed_of_ended iwFreqToChannel ended
  obtain ⟨aps, isResult, isOutcome⟩ := Option.map_eq_some_iff.mp ended
  have longRun := collectLoop_start iwFreqToChannel stack initial maxAp addressed fuel
  rw [show nodes.length + 1 + fuel = fuel + (nodes.length + 1) by omega,
    collectLoop_fuel iwFreqToChannel stack initial maxAp isResult] at longRun
  rw [← isOutcome]
  exact Option.some.inj longRun

theorem wantedNodes_of_addressed
    (addressed : ∀ node ∈ nodes.take (maxAp + 1), node.hasApAddr = true) :
    wantedNodes nodes maxAp = nodes.take maxAp :=
  wantedNodes_eq fun node member =>
    addressed node (List.take_subset_take_left nodes (Nat.le_succ maxAp) member)

/-- When the six variables hold ones, the record of a node with a special address
has the address of ones. -/
theorem ordinary_of_collects (ended : wifiScanAp iwFreqToChannel (fun _ => Vector.replicate 6 1)
      initial maxAp ⟨true, true, some nodes⟩ fuel = some outcome)
    (collects : Collects iwFreqToChannel nodes initial maxAp outcome) :
    ∀ node ∈ nodes.take maxAp, OrdinaryAddress node.apAddr := by
  intro node member
  by_contra special
  have wanted := wantedNodes_of_addressed (addressed_of_ended iwFreqToChannel ended)
  obtain ⟨index, isNode⟩ := List.mem_iff_getElem?.mp member
  obtain ⟨ap, isAp, describes⟩ := collects.describes index node (by rw [wanted]; exact isNode)
  rw [aps_of_ended iwFreqToChannel ended, fillFrom_getElem?, isNode] at isAp
  have sameBytes := describes.bssid
  rw [← Option.some.inj isAp] at sameBytes
  have scanned := bssid_scanned (Vector.replicate 6 1) node.apAddr
  rw [if_neg special] at scanned
  have ones : addressBytes node.apAddr = List.replicate 6 1 := sameBytes.symm.trans scanned
  apply special
  rw [OrdinaryAddress, ones]
  decide

theorem collects_of_collectable (stack : Nat → Vector Nat 6) (initial : Nat → ApIf)
    (collectable : Collectable nodes maxAp) :
    ∃ fuel outcome, wifiScanAp iwFreqToChannel stack initial maxAp ⟨true, true, some nodes⟩ fuel =
        some outcome ∧ Collects iwFreqToChannel nodes initial maxAp outcome := by
  have wanted := wantedNodes_of_addressed collectable.addressed
  have ended := collectLoop_start iwFreqToChannel stack initial maxAp collectable.addressed 0
  refine ⟨nodes.length + 1 + 0, _, congrArg (Option.map _) ended, ?_⟩
  constructor
  · have count := congrArg List.length wanted
    rw [wantedNodes, List.length_take] at count
    rw [fillFrom_length]
    exact count.symm
  · intro index node isNode
    rw [wanted] at isNode
    refine ⟨fillAp iwFreqToChannel (stack (0 + index)) (initial (0 + index)) node, ?_, ?_⟩
    · rw [fillFrom_getElem?, isNode]
      rfl
    · rw [Nat.zero_add]
      exact fillAp_describes iwFreqToChannel _ _ node
        (collectable.ordinary node (List.mem_of_getElem? isNode))
  · exact freeNodes_eq nodes

end Scans

/-- The scan collects every list of nodes, whatever the variables hold, exactly
when the nodes it reaches have addresses and those it reports ordinary ones. -/
theorem wifiScanAp_collects_iff {Freq : Type} (iwFreqToChannel : Freq → Int)
    (nodes : List (WirelessScan Freq)) (initial : Nat → ApIf) (maxAp : Nat) :
    (∀ stack : Nat → Vector Nat 6, ∃ fuel outcome,
      wifiScanAp iwFreqToChannel stack initial maxAp ⟨true, true, some nodes⟩ fuel = some outcome ∧
        Collects iwFreqToChannel nodes initial maxAp outcome) ↔
      Collectable nodes maxAp := by
  constructor
  · intro collects
    obtain ⟨fuel, outcome, ended, collected⟩ := collects fun _ => Vector.replicate 6 1
    exact ⟨addressed_of_ended iwFreqToChannel ended,
      ordinary_of_collects iwFreqToChannel ended collected⟩
  · exact fun collectable stack => collects_of_collectable iwFreqToChannel stack initial collectable

/-- A node without an address. -/
def addresslessNode : WirelessScan Unit :=
  ⟨0, false, Vector.replicate 6 0, [], (), false, 0, 0⟩

/-- A node with the address of all ones. -/
def broadcastNode : WirelessScan Unit :=
  ⟨0, true, Vector.replicate 6 255, [], (), false, 0, 0⟩

/-- The loop does not leave a node without an address, and of the address of all
ones the record holds nothing. -/
theorem wifiScanAp_not_collects :
    ¬ (∃ fuel outcome, wifiScanAp (fun _ => 0) (fun _ => Vector.replicate 6 0)
        (fun _ => ApIf.zeroed) 64 ⟨true, true, some [addresslessNode]⟩ fuel = some outcome) ∧
      wifiScanAp (fun _ => 0) (fun _ => Vector.replicate 6 0) (fun _ => ApIf.zeroed) 64
        ⟨true, true, some [broadcastNode]⟩ 2 =
          some ⟨[⟨0, 0, List.replicate 6 0, [], 0, 0⟩], [0]⟩ ∧
      ¬ (∀ stack : Nat → Vector Nat 6, ∃ fuel outcome,
        wifiScanAp (fun _ => 0) stack (fun _ => ApIf.zeroed) 64
            ⟨true, true, some [addresslessNode]⟩ fuel = some outcome ∧
          Collects (fun _ => 0) [addresslessNode] (fun _ => ApIf.zeroed) 64 outcome) := by
  have stuck : ∀ fuel, collectLoop (fun _ : Unit => 0) (fun _ => Vector.replicate 6 0)
      (fun _ => ApIf.zeroed) 64 fuel [addresslessNode] [] = none :=
    collectLoop_start_stuck _ _ _ 64 ⟨addresslessNode, List.mem_cons_self, rfl⟩
  have never : ∀ fuel, wifiScanAp (fun _ => 0) (fun _ => Vector.replicate 6 0)
      (fun _ => ApIf.zeroed) 64 ⟨true, true, some [addresslessNode]⟩ fuel = none := by
    intro fuel
    show (collectLoop (fun _ : Unit => 0) (fun _ => Vector.replicate 6 0)
      (fun _ => ApIf.zeroed) 64 fuel [addresslessNode] []).map _ = none
    rw [stuck]
    rfl
  refine ⟨?_, by decide +kernel, ?_⟩
  · rintro ⟨fuel, outcome, ended⟩
    rw [never] at ended
    cases ended
  · intro collects
    obtain ⟨fuel, outcome, ended, -⟩ := collects fun _ => Vector.replicate 6 0
    rw [never] at ended
    cases ended

end TuyaAdapter.LinuxWifi
