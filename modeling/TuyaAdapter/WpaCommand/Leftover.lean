import TuyaAdapter.WpaCommand.Success

/-!
Contract: which joins that fail leave the networks of the supplicant as they
were.

Owns a supplicant that keeps a list of networks and may refuse any command. A
join that fails after its network was added returns without removing it.
-/

namespace TuyaAdapter.WpaCommand

open Foundation.Decimal

/-! ## The supplicant -/

structure Network where
  id : Nat
  fields : List (NetworkField × Text)
deriving DecidableEq, Repr

def Network.set (network : Network) (field : NetworkField) (value : Text) : Network :=
  { network with fields := (field, value) :: network.fields.filter (·.1 ≠ field) }

/-- The networks and the number of commands so far. -/
structure Supplicant where
  networks : List Network
  asked : Nat
deriving DecidableEq, Repr

/-- A number above those of all networks. -/
def freshId (networks : List Network) : Nat :=
  networks.foldr (fun network bound => max bound (network.id + 1)) 0

def okReply : Answer := .reply "OK\n".toList

def failReply : Answer := .reply "FAIL\n".toList

/-- A supplicant that refuses the commands whose turn `refuses` names. `reports`
are its texts for a status or for scan results. -/
def supplicantPeer (refuses : Nat → Bool) (reports : Nat → Text) : Peer Supplicant :=
  fun supplicant request =>
    let next := { supplicant with asked := supplicant.asked + 1 }
    if refuses supplicant.asked then (failReply, next)
    else
      match request with
      | .addNetwork =>
          let id := freshId supplicant.networks
          (.reply (decimal id ++ "\n".toList),
            { next with networks := supplicant.networks ++ [⟨id, []⟩] })
      | .setNetwork id field value =>
          if supplicant.networks.any (fun network => (network.id : Int) = id) then
            (okReply,
              { next with
                networks := supplicant.networks.map fun network =>
                  if (network.id : Int) = id then network.set field value else network })
          else (failReply, next)
      | .removeNetwork (some id) =>
          if supplicant.networks.any (fun network => (network.id : Int) = id) then
            (okReply,
              { next with
                networks := supplicant.networks.filter fun network => (network.id : Int) ≠ id })
          else (failReply, next)
      | .removeNetwork none => (okReply, { next with networks := [] })
      | .status => (.reply (reports supplicant.asked), next)
      | .scanResults => (.reply (reports supplicant.asked), next)
      | .empty => (failReply, next)
      | _ => (okReply, next)

/-! ## The property and the condition -/

/-- A join that fails leaves the networks as they were. -/
def LeavesNothing (supplicant : Supplicant) (result : Int × Session Supplicant) : Prop :=
  result.1 < 0 → result.2.state.networks = supplicant.networks

instance (supplicant : Supplicant) (result : Int × Session Supplicant) :
    Decidable (LeavesNothing supplicant result) := inferInstanceAs (Decidable (_ → _))

/-- A WEP key has a length for which its command is written. -/
def WifiNetwork.HasKeyText (net : WifiNetwork) : Prop :=
  net.keyMgmt = .wep →
    (net.psk.length = 5 ∨ net.psk.length = 13) ∨ net.psk.length = 10 ∨ net.psk.length = 26

/-- `ADD_NETWORK` is refused, or none of the commands after it is. -/
def RefusedAtOnceOrNever (refuses : Nat → Bool) (reports : Nat → Text) (supplicant : Supplicant)
    (net : WifiNetwork) (scanned : List WifiScanRes) : Prop :=
  let prepared :=
    joinPrelude (supplicantPeer refuses reports) (Session.start supplicant) net scanned
  let turn := prepared.2.state.asked
  refuses turn = true ∨
    (prepared.1.HasKeyText ∧
      ∀ position < (joinCommands prepared.1).length, refuses (turn + 1 + position) = false)

/-! ## The commands after `ADD_NETWORK` -/

theorem joinCommands_length (net : WifiNetwork) (id : Int) :
    (joinCommands { net with id := id }).length = (joinCommands net).length := by
  cases isKeyMgmt : net.keyMgmt <;> simp [joinCommands, isKeyMgmt]

def Command.HasText (command : Command) : Prop := command.request ≠ some .empty

theorem setNetworkPsk_hasText (net : WifiNetwork) : (Command.setNetworkPsk net).HasText := by
  simp only [Command.HasText, Command.request]
  split <;> simp

theorem setNetworkWepKey0_hasText_iff (net : WifiNetwork) :
    (Command.setNetworkWepKey0 net).HasText ↔
      (net.psk.length = 5 ∨ net.psk.length = 13) ∨ net.psk.length = 10 ∨ net.psk.length = 26 := by
  by_cases ascii : net.psk.length = 5 ∨ net.psk.length = 13
  · simp [Command.HasText, Command.request, ascii]
  · by_cases hex : net.psk.length = 10 ∨ net.psk.length = 26
    · simp [Command.HasText, Command.request, ascii, hex]
    · simp [Command.HasText, Command.request, ascii, hex]

theorem joinCommands_hasText_iff (net : WifiNetwork) :
    (∀ command ∈ joinCommands net, command.HasText) ↔ net.HasKeyText := by
  have ssid : (Command.setNetworkSsid net).HasText := nofun
  have scanSsid : (Command.setNetworkScanSsid net).HasText := nofun
  have select : (Command.selectNetwork net.id).HasText := nofun
  have authAlg : ∀ params, (Command.setNetworkAuthAlg params).HasText := nofun
  have wepTxKeyId : ∀ params, (Command.setNetworkWepTxKeyId params).HasText := nofun
  have keyMeth : (Command.setNetworkKeyMeth net).HasText := by
    simp only [Command.HasText, Command.request]
    split <;> simp
  unfold WifiNetwork.HasKeyText
  cases isKeyMgmt : net.keyMgmt with
  | wep =>
      rw [← setNetworkWepKey0_hasText_iff]
      simp [joinCommands, isKeyMgmt, ssid, scanSsid, select, keyMeth, authAlg, wepTxKeyId]
  | none => simp [joinCommands, isKeyMgmt, ssid, scanSsid, select, keyMeth]
  | wpa2psk | wpapsk | other =>
      simp [joinCommands, isKeyMgmt, ssid, scanSsid, select, setNetworkPsk_hasText]

section Joins

variable {refuses : Nat → Bool} {reports : Nat → Text} {supplicant : Supplicant}

theorem failReply_stops : failReply.Stops := by decide

theorem okReply_not_stops : ¬ okReply.Stops := by decide

theorem supplicantPeer_asked (request : Request) :
    (supplicantPeer refuses reports supplicant request).2.asked = supplicant.asked + 1 := by
  unfold supplicantPeer
  dsimp only
  split
  · rfl
  · split
    all_goals first | rfl | (split <;> rfl)

/-- A refused command changes nothing. -/
theorem supplicantPeer_refused (request : Request) (isRefused : refuses supplicant.asked = true) :
    supplicantPeer refuses reports supplicant request =
      (failReply, { supplicant with asked := supplicant.asked + 1 }) := by
  simp [supplicantPeer, isRefused]

/-- A request about a network that the supplicant has: it stops exactly when it
is refused or has no text, and the numbers of the networks stay. -/
theorem supplicantPeer_concerns {id : Nat} {request : Request} (concerns : request.Concerns id)
    (known : id ∈ supplicant.networks.map Network.id) :
    let answered := supplicantPeer refuses reports supplicant request
    (answered.1.Stops ↔ refuses supplicant.asked = true ∨ request = .empty) ∧
      answered.2.networks.map Network.id = supplicant.networks.map Network.id := by
  dsimp only
  cases isRefused : refuses supplicant.asked with
  | true =>
      rw [supplicantPeer_refused request isRefused]
      simp [failReply_stops]
  | false =>
      cases concerns with
      | set field value =>
          obtain ⟨network, member, isId⟩ := List.mem_map.mp known
          have found : supplicant.networks.any (fun network => (network.id : Int) = id) = true :=
            List.any_eq_true.mpr ⟨network, member, by simp [isId]⟩
          simp only [supplicantPeer, isRefused, found, if_true]
          refine ⟨by simp [okReply_not_stops], ?_⟩
          simp only [List.map_map, Bool.false_eq_true, if_false]
          apply List.map_congr_left
          intro other _
          dsimp only [Function.comp]
          split <;> rfl
      | select => simp [supplicantPeer, isRefused, okReply_not_stops]
      | empty => simp [supplicantPeer, isRefused, failReply_stops]

theorem sendAll_supplicant {id : Nat} {commands : List Command}
    (concern : ∀ command ∈ commands, command.Concerns id) {session : Session Supplicant}
    (known : id ∈ session.state.networks.map Network.id) :
    let result := sendAll (supplicantPeer refuses reports) commands 0 session
    result.2.state.networks.map Network.id = session.state.networks.map Network.id ∧
      (result.1 = 0 ↔
        (∀ command ∈ commands, command.HasText) ∧
          ∀ position < commands.length, refuses (session.state.asked + position) = false) ∧
      (result.1 = 0 ∨ result.1 = -2) := by
  induction commands generalizing session with
  | nil => simp [sendAll]
  | cons command rest inductionHypothesis =>
      obtain ⟨isAck, request, isRequest, concerns⟩ := concern command List.mem_cons_self
      obtain ⟨stops, ids⟩ := @supplicantPeer_concerns refuses reports _ _ _ concerns known
      have hasText : command.HasText ↔ request ≠ .empty := by
        simp only [Command.HasText, isRequest, ne_eq, Option.some.injEq]
      dsimp only
      rw [sendAll_cons isRequest isAck, List.forall_mem_cons, List.length_cons,
        Nat.forall_lt_succ_left, hasText]
      by_cases stopped : (supplicantPeer refuses reports session.state request).1.Stops
      · rw [if_pos stopped]
        refine ⟨ids, ?_, Or.inr rfl⟩
        rcases stops.mp stopped with isRefused | isEmpty
        · simp [isRefused]
        · simp [isEmpty]
      · have goesOn := not_or.mp (fun either => stopped (stops.mpr either))
        have isAccepted : refuses session.state.asked = false := Bool.eq_false_iff.mpr goesOn.1
        have restConcern : ∀ command ∈ rest, command.Concerns id :=
          fun other member => concern other (List.mem_cons_of_mem _ member)
        have stillKnown : id ∈ (supplicantPeer refuses reports session.state request).2.networks.map
            Network.id := by
          rw [ids]
          exact known
        obtain ⟨restIds, restZero, restRet⟩ := @inductionHypothesis restConcern
          ⟨(supplicantPeer refuses reports session.state request).2,
            session.log ++ [(request, (supplicantPeer refuses reports session.state request).1)]⟩
          stillKnown
        rw [if_neg stopped]
        refine ⟨restIds.trans ids, ?_, restRet⟩
        rw [restZero, supplicantPeer_asked]
        simp only [goesOn.2, isAccepted, ne_eq, not_false_eq_true, true_and, Nat.add_zero]
        simp only [Nat.add_comm, Nat.add_left_comm]

/-! ## The join -/

theorem joinPrelude_networks (net : WifiNetwork) (scanned : List WifiScanRes) :
    (joinPrelude (supplicantPeer refuses reports) (Session.start supplicant) net
      scanned).2.state.networks = supplicant.networks := by
  apply @joinPrelude_preserves _ (supplicantPeer refuses reports) _
    fun session => session.state.networks = supplicant.networks
  · intro session request prepares same
    rw [← same]
    unfold supplicantPeer
    dsimp only
    split
    · rfl
    · cases prepares <;> rfl
  · rfl

/-- Without a network to configure the first command stops the join. -/
theorem sendAll_unnamed (net : WifiNetwork) (session : Session Supplicant) :
    let result := sendAll (supplicantPeer refuses reports)
      (joinCommands { net with id := -1 }) 0 session
    result.1 = -2 ∧ result.2.state.networks = session.state.networks := by
  have answered : supplicantPeer refuses reports session.state
      (.setNetwork (-1) .ssid (quoted net.ssid)) =
        (failReply, { session.state with asked := session.state.asked + 1 }) := by
    cases isRefused : refuses session.state.asked with
    | true => exact supplicantPeer_refused _ isRefused
    | false =>
        -- The number of a network is not negative.
        simp [supplicantPeer, isRefused]
  dsimp only
  rw [joinCommands, sendAll_cons rfl rfl, answered, if_pos failReply_stops]
  exact ⟨rfl, rfl⟩

theorem supplicantPeer_added (isAccepted : refuses supplicant.asked = false) :
    (supplicantPeer refuses reports supplicant .addNetwork).2 =
      { networks := supplicant.networks ++ [⟨freshId supplicant.networks, []⟩]
        asked := supplicant.asked + 1 } := by
  simp [supplicantPeer, isAccepted]

/-- What `ADD_NETWORK` leaves in `net->id`. -/
theorem addNetwork_sent (session : Session Supplicant) (id : Int) :
    let sent := wifiSendCommand (supplicantPeer refuses reports) session .addNetwork id sizeofInt
    sent.ret = 0 ∧
      sent.res =
        if refuses session.state.asked then -1 else (freshId session.state.networks : Int) := by
  have named : sscanfInt (decimal (freshId session.state.networks : Int) ++ ['\n']) =
      .value (freshId session.state.networks : Int) := sscanfInt_decimal _ rfl
  have unnamed : sscanfInt ['F', 'A', 'I', 'L', '\n'] = .mismatch := by decide +kernel
  cases isRefused : refuses session.state.asked with
  | true =>
      simp [wifiSendCommand, Command.request, supplicantPeer, isRefused, failReply,
        wifiReplyAnalyse, Command.ack, unnamed]
  | false =>
      simp [wifiSendCommand, Command.request, supplicantPeer, isRefused, wifiReplyAnalyse,
        Command.ack, named]

/-- With the new network in place a failure leaves it there. -/
theorem sendAll_leavesNothing_iff {net : WifiNetwork} {id : Nat} (isId : net.id = id)
    {session : Session Supplicant}
    (grown : session.state.networks.map Network.id = supplicant.networks.map Network.id ++ [id]) :
    LeavesNothing supplicant (sendAll (supplicantPeer refuses reports) (joinCommands net) 0
        session) ↔
      net.HasKeyText ∧ ∀ position < (joinCommands net).length,
        refuses (session.state.asked + position) = false := by
  have concern : ∀ command ∈ joinCommands net, command.Concerns id :=
    fun command member => isId ▸ joinCommands_concern net command member
  obtain ⟨ids, isZero, returns⟩ := @sendAll_supplicant refuses reports id _ concern session
    (by rw [grown]; simp)
  rw [joinCommands_hasText_iff] at isZero
  rw [← isZero]
  constructor
  · intro leaves
    by_contra nonzero
    have same := leaves (by rw [returns.resolve_left nonzero]; decide)
    rw [same, grown] at ids
    simp at ids
  · intro zero negative
    rw [zero] at negative
    exact absurd negative (by decide)

/-- A join that fails leaves the networks of the supplicant as they were exactly
when the supplicant refuses to add the network or refuses nothing after that. -/
theorem join_leavesNothing_iff (refuses : Nat → Bool) (reports : Nat → Text)
    (supplicant : Supplicant) (net : WifiNetwork) (scanned : List WifiScanRes) :
    LeavesNothing supplicant
        (wifiJoinNetwork (supplicantPeer refuses reports) (Session.start supplicant) net
          scanned) ↔
      RefusedAtOnceOrNever refuses reports supplicant net scanned := by
  have networks := @joinPrelude_networks refuses reports supplicant net scanned
  unfold wifiJoinNetwork RefusedAtOnceOrNever
  dsimp only
  generalize joinPrelude (supplicantPeer refuses reports) (Session.start supplicant) net scanned =
    prepared at networks ⊢
  obtain ⟨ret, res⟩ := @addNetwork_sent refuses reports prepared.2 prepared.1.id
  have session := @wifiSendCommand_session _ (supplicantPeer refuses reports) prepared.2
    .addNetwork .addNetwork rfl prepared.1.id sizeofInt
  rw [if_neg (by rw [ret]; decide), res, session]
  cases isRefused : refuses prepared.2.state.asked with
  | true =>
      rw [supplicantPeer_refused .addNetwork isRefused]
      have unnamed := @sendAll_unnamed refuses reports prepared.1
        ⟨{ prepared.2.state with asked := prepared.2.state.asked + 1 },
          prepared.2.log ++ [(.addNetwork, failReply)]⟩
      simp only [if_true, true_or, iff_true]
      exact fun _ => unnamed.2.trans networks
  | false =>
      have added := @supplicantPeer_added refuses reports prepared.2.state isRefused
      have after := @sendAll_leavesNothing_iff refuses reports supplicant
        { prepared.1 with id := (freshId prepared.2.state.networks : Int) } _ rfl
        ⟨(supplicantPeer refuses reports prepared.2.state .addNetwork).2,
          prepared.2.log ++ [(.addNetwork,
            (supplicantPeer refuses reports prepared.2.state .addNetwork).1)]⟩
        (by simp [added, networks])
      rw [joinCommands_length, added] at after
      simp only [Bool.false_eq_true, if_false, false_or, added]
      exact after

end Joins

/-- The name of the network, the third command, is refused. -/
theorem join_leaves_network_behind :
    ¬ LeavesNothing ⟨[], 0⟩
      (wifiJoinNetwork (supplicantPeer (fun turn => turn = 2) fun _ => [])
        (Session.start ⟨[], 0⟩) homeNetwork []) := by
  decide +kernel

end TuyaAdapter.WpaCommand
