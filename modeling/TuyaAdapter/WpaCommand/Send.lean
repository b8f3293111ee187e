import TuyaAdapter.WpaCommand.Model

/-!
Contract: what one command and a sequence of commands tell their caller.

Owns:
- the outcome of `wifi_send_command` for a command that waits for `OK`;
- the outcome of a sequence that stops at the first failure;
- the rule for everything a join does before `ADD_NETWORK`.
-/

namespace TuyaAdapter.WpaCommand

open Foundation.Decimal

/-- The caller sees that the command failed. -/
def Answer.Stops : Answer → Prop
  | .noConnection => True
  | .requestFailed => False
  | .reply text => ¬ (Answer.reply text).IsOk

instance : ∀ answer, Decidable (Answer.Stops answer)
  | .noConnection => isTrue trivial
  | .requestFailed => isFalse id
  | .reply text => inferInstanceAs (Decidable (¬ (Answer.reply text).IsOk))

theorem Answer.isOk_iff (answer : Answer) :
    answer.IsOk ↔ ¬ answer.Stops ∧ answer ≠ .requestFailed := by
  cases answer with
  | noConnection => simp [Answer.IsOk, Answer.Stops]
  | requestFailed => simp [Answer.IsOk, Answer.Stops]
  | reply text => simp [Answer.Stops]

section Sends

variable {State : Type} {peer : Peer State} {session : Session State} {command : Command}
  {request : Request}

/-! ## One command -/

theorem wifiSendCommand_session (isRequest : command.request = some request) (res : Int)
    (resLen : Nat) :
    (wifiSendCommand peer session command res resLen).session =
      ⟨(peer session.state request).2,
        session.log ++ [(request, (peer session.state request).1)]⟩ := by
  simp only [wifiSendCommand, isRequest]
  split <;> rfl

/-- The reply of a command that waits for `OK`. -/
theorem wifiReplyAnalyse_ok (isAck : command.ack = .ok) {resLen : Nat} (long : 2 < resLen)
    (reply : Text) (res : Int) :
    wifiReplyAnalyse command reply res resLen = if (Answer.reply reply).IsOk then 0 else -1 := by
  have isTwo : "OK".toList.length = 2 := rfl
  simp only [wifiReplyAnalyse, isAck, isTwo, if_pos long]
  rfl

/-- The two ways a caller looks at the result and at `res` agree: it goes on
unless the answer stops it. -/
theorem wifiSendCommand_ok (isRequest : command.request = some request) (isAck : command.ack = .ok)
    {resLen : Nat} (long : 2 < resLen) :
    let sent := wifiSendCommand peer session command 0 resLen
    let answer := (peer session.state request).1
    (sent.ret < 0 ∨ sent.res ≠ 0 ↔ answer.Stops) ∧ (sent.ret = 0 ∧ sent.res = 0 ↔ ¬ answer.Stops) := by
  dsimp only
  cases isAnswer : (peer session.state request).1 with
  | noConnection => simp [wifiSendCommand, isRequest, isAnswer, Answer.Stops]
  | requestFailed => simp [wifiSendCommand, isRequest, isAnswer, Answer.Stops]
  | reply text =>
      simp only [wifiSendCommand, isRequest, isAnswer, wifiReplyAnalyse_ok isAck long,
        Answer.Stops]
      by_cases isOk : (Answer.reply text).IsOk
      · simp [isOk]
      · simp [isOk]

/-! ## A sequence of commands -/

/-- Every command of the sequence has a text and waits for `OK`. -/
def AllWait (commands : List Command) : Prop :=
  ∀ command ∈ commands, command.request.isSome = true ∧ command.ack = .ok

/-- The answers to the commands when all of them are sent, in order. -/
def exchange (peer : Peer State) : State → List Command → List (Request × Answer)
  | _, [] => []
  | state, command :: rest =>
      match command.request with
      | none => exchange peer state rest
      | some request =>
          (request, (peer state request).1) :: exchange peer (peer state request).2 rest

/-- The first command of a sequence: the answer decides whether it goes on. -/
theorem sendAll_cons (isRequest : command.request = some request) (isAck : command.ack = .ok)
    (rest : List Command) :
    sendAll peer (command :: rest) 0 session =
      if (peer session.state request).1.Stops then
        (-2, ⟨(peer session.state request).2,
          session.log ++ [(request, (peer session.state request).1)]⟩)
      else
        sendAll peer rest 0 ⟨(peer session.state request).2,
          session.log ++ [(request, (peer session.state request).1)]⟩ := by
  obtain ⟨failed, passed⟩ :=
    @wifiSendCommand_ok _ peer session command request isRequest isAck sizeofInt (by decide)
  rw [sendAll, wifiSendCommand_session isRequest]
  by_cases stopped : (peer session.state request).1.Stops
  · rw [if_pos (failed.mpr stopped), if_pos stopped]
  · rw [if_neg (fun either => stopped (failed.mp either)), if_neg stopped,
      (passed.mpr stopped).2]

/-- The sequence gives up exactly when an answer stops it, and otherwise has
sent every command. -/
theorem sendAll_spec {commands : List Command} (allWait : AllWait commands)
    (session : Session State) :
    let result := sendAll peer commands 0 session
    (result.1 = 0 ↔ ∀ entry ∈ exchange peer session.state commands, ¬ entry.2.Stops) ∧
      (result.1 = 0 → result.2.log = session.log ++ exchange peer session.state commands) ∧
      (result.1 = 0 ∨ result.1 = -2) := by
  induction commands generalizing session with
  | nil => simp [sendAll, exchange]
  | cons command rest inductionHypothesis =>
      obtain ⟨hasRequest, isAck⟩ := allWait command List.mem_cons_self
      obtain ⟨request, isRequest⟩ := Option.isSome_iff_exists.mp hasRequest
      have restWait : AllWait rest :=
        fun other member => allWait other (List.mem_cons_of_mem _ member)
      dsimp only
      rw [sendAll_cons isRequest isAck]
      simp only [exchange, isRequest, List.forall_mem_cons]
      by_cases stopped : (peer session.state request).1.Stops
      · simp [stopped]
      · obtain ⟨restStops, restLog, restRet⟩ := inductionHypothesis restWait
          ⟨(peer session.state request).2,
            session.log ++ [(request, (peer session.state request).1)]⟩
        rw [if_neg stopped]
        refine ⟨?_, ?_, restRet⟩
        · rw [restStops]
          simp [stopped]
        · intro isZero
          rw [restLog isZero]
          simp

/-! ## The commands of a join -/

/-- What `sprintf` put together comes apart again. -/
theorem splitWepParams_wepParams (id : Int) (text : Text) :
    splitWepParams (wepParams id text) = (id, text) := by
  have noPlus : ∀ char ∈ decimal id, decide (char ≠ '+') = true :=
    fun char member => decide_eq_true (decimal_ne_plus id char member)
  have number : (wepParams id text).takeWhile (· ≠ '+') = decimal id := by
    rw [wepParams, List.takeWhile_append_of_pos noPlus]
    simp
  have rest : (wepParams id text).dropWhile (· ≠ '+') = '+' :: text := by
    rw [wepParams, List.dropWhile_append_of_pos noPlus]
    simp
  have readBack : atoi (decimal id) = id := by
    simpa using atoi_decimal id (show EndsNumber [] from rfl)
  rw [splitWepParams, number, rest, readBack]
  rfl

/-- The request is about this network, or it is the empty one. -/
inductive Request.Concerns (id : Int) : Request → Prop
  | set (field : NetworkField) (value : Text) : Request.Concerns id (.setNetwork id field value)
  | select : Request.Concerns id (.selectNetwork id)
  | empty : Request.Concerns id .empty

/-- The command waits for `OK` and its request is about this network. -/
def Command.Concerns (id : Int) (command : Command) : Prop :=
  command.ack = .ok ∧ ∃ request, command.request = some request ∧ request.Concerns id

theorem setNetworkPsk_concerns (net : WifiNetwork) :
    (Command.setNetworkPsk net).Concerns net.id := by
  by_cases short : net.psk.length < pskWpaHexLen
  · exact ⟨rfl, _, if_pos short, .set .psk _⟩
  · exact ⟨rfl, _, if_neg short, .set .psk _⟩

theorem setNetworkKeyMeth_concerns {net : WifiNetwork}
    (isOpen : net.keyMgmt = .none ∨ net.keyMgmt = .wep) :
    (Command.setNetworkKeyMeth net).Concerns net.id := by
  have accepted : ¬ (net.keyMgmt ≠ .none ∧ net.keyMgmt ≠ .wep) :=
    fun neither => isOpen.elim neither.1 neither.2
  exact ⟨rfl, _, if_neg accepted, .set .keyMgmt _⟩

theorem setNetworkAuthAlg_concerns (id : Int) (text : Text) :
    (Command.setNetworkAuthAlg (wepParams id text)).Concerns id := by
  refine ⟨rfl, _, rfl, ?_⟩
  rw [splitWepParams_wepParams]
  exact .set .authAlg _

theorem setNetworkWepTxKeyId_concerns (id : Int) (text : Text) :
    (Command.setNetworkWepTxKeyId (wepParams id text)).Concerns id := by
  refine ⟨rfl, _, rfl, ?_⟩
  rw [splitWepParams_wepParams]
  exact .set .wepTxKeyidx _

theorem setNetworkWepKey0_concerns (net : WifiNetwork) :
    (Command.setNetworkWepKey0 net).Concerns net.id := by
  by_cases ascii : net.psk.length = 5 ∨ net.psk.length = 13
  · exact ⟨rfl, _, if_pos ascii, .set .wepKey0 _⟩
  · by_cases hex : net.psk.length = 10 ∨ net.psk.length = 26
    · exact ⟨rfl, _, (if_neg ascii).trans (if_pos hex), .set .wepKey0 _⟩
    · exact ⟨rfl, _, (if_neg ascii).trans (if_neg hex), .empty⟩

theorem joinCommands_concern (net : WifiNetwork) :
    ∀ command ∈ joinCommands net, command.Concerns net.id := by
  have ssid : (Command.setNetworkSsid net).Concerns net.id := ⟨rfl, _, rfl, .set .ssid _⟩
  have scanSsid : (Command.setNetworkScanSsid net).Concerns net.id :=
    ⟨rfl, _, rfl, .set .scanSsid _⟩
  have select : (Command.selectNetwork net.id).Concerns net.id := ⟨rfl, _, rfl, .select⟩
  cases isKeyMgmt : net.keyMgmt with
  | none =>
      have keyMeth := setNetworkKeyMeth_concerns (Or.inl isKeyMgmt)
      simp [joinCommands, isKeyMgmt, ssid, scanSsid, select, keyMeth]
  | wep =>
      have keyMeth := setNetworkKeyMeth_concerns (Or.inr isKeyMgmt)
      simp [joinCommands, isKeyMgmt, ssid, scanSsid, select, keyMeth, setNetworkAuthAlg_concerns,
        setNetworkWepKey0_concerns, setNetworkWepTxKeyId_concerns]
  | wpa2psk | wpapsk | other =>
      simp [joinCommands, isKeyMgmt, ssid, scanSsid, select, setNetworkPsk_concerns]

theorem joinCommands_allWait (net : WifiNetwork) : AllWait (joinCommands net) := by
  intro command member
  obtain ⟨isAck, request, isRequest, -⟩ := joinCommands_concern net command member
  exact ⟨by rw [isRequest]; rfl, isAck⟩

/-! ## Before `ADD_NETWORK` -/

/-- The requests a join sends before it adds a network. -/
inductive Request.Prepares : Request → Prop
  | scan : Request.Prepares (.scan none)
  | status : Request.Prepares .status
  | scanResults : Request.Prepares .scanResults
  | blacklistClear : Request.Prepares .blacklistClear

/-- What every preparing request keeps, the whole preparation keeps. -/
theorem joinPrelude_preserves {kept : Session State → Prop}
    (preserved : ∀ (session : Session State) (request : Request), request.Prepares → kept session →
      kept ⟨(peer session.state request).2,
        session.log ++ [(request, (peer session.state request).1)]⟩)
    (start : kept session) (net : WifiNetwork) (scanned : List WifiScanRes) :
    kept (joinPrelude peer session net scanned).2 := by
  have sends : ∀ (session : Session State) (command : Command) (request : Request) (res : Int)
      (resLen : Nat), command.request = some request → request.Prepares → kept session →
      kept (wifiSendCommand peer session command res resLen).session := by
    intro session command request res resLen isRequest prepares isKept
    rw [wifiSendCommand_session isRequest]
    exact preserved session request prepares isKept
  have awaits : ∀ (timeout : Nat) (status : Int) (session : Session State), kept session →
      kept (awaitScan peer timeout status session).2 := by
    intro timeout
    induction timeout with
    | zero =>
        intro status session isKept
        have asked := sends session .getStatus .status status sizeofInt rfl .status isKept
        unfold awaitScan
        dsimp only
        split
        · exact asked
        · exact sends _ .scanR .scanResults 0 _ rfl .scanResults asked
    | succ timeout inductionHypothesis =>
        intro status session isKept
        have asked := sends session .getStatus .status status sizeofInt rfl .status isKept
        unfold awaitScan
        dsimp only
        split
        · exact asked
        · split
          · exact sends _ .scanR .scanResults 0 _ rfl .scanResults asked
          · exact inductionHypothesis _ _ asked
  have looked : ∀ session, kept session → kept (wifiBlacklistClear peer session).2 :=
    fun session isKept => sends session .blacklistClear .blacklistClear 0 _ rfl .blacklistClear isKept
  unfold joinPrelude
  dsimp only
  split
  · apply looked
    apply awaits
    exact sends session (.scan none) (.scan none) 0 _ rfl .scan start
  · exact looked session start

end Sends

end TuyaAdapter.WpaCommand
