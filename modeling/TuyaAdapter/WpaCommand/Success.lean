import TuyaAdapter.WpaCommand.Send

/-!
Contract: when a function that returns 0 was in fact answered.

`wifi_send_command` loses the error of a request that fails, and leaves `res` as
the caller preset it, to the value that means success. So each function below is
right about its success exactly when no such error gets through.
-/

namespace TuyaAdapter.WpaCommand

open Foundation.Decimal

/-! ## Functions -/

/-- The functions that send one command and look whether it was answered `OK`. -/
inductive Waiting where
  | scan
  | scanChannel (num : Int) (freq : Option (Nat → Int))
  | disableNetwork (id : Int)
  | disableAllNetwork
  | removeNetwork (id : Int)
  | removeAllNetwork
  | reconfigure
  | blacklistClear
  | enableNetwork (id : Int)
  | enableAllNetwork
  | disconnectNetwork
  | reconnectNetwork

section Functions

variable {State : Type} (peer : Peer State)

def Waiting.call (session : Session State) : Waiting → Int × Session State
  | .scan => wifiScan peer session
  | .scanChannel num freq => wifiScanChannel peer session num freq
  | .disableNetwork id => wifiDisableNetwork peer session id
  | .disableAllNetwork => wifiDisableAllNetwork peer session
  | .removeNetwork id => wifiRemoveNetwork peer session id
  | .removeAllNetwork => wifiRemoveAllNetwork peer session
  | .reconfigure => wifiReconfigure peer session
  | .blacklistClear => wifiBlacklistClear peer session
  | .enableNetwork id => wifiEnableNetwork peer session id
  | .enableAllNetwork => wifiEnableAllNetwork peer session
  | .disconnectNetwork => wifiDisconnectNetwork peer session
  | .reconnectNetwork => wifiReconnectNetwork peer session

/-- The request a call sends, if it sends one. -/
def Waiting.request : Waiting → Option Request
  | .scan => some (.scan none)
  | .scanChannel _ none => none
  | .scanChannel num (some freq) =>
      if num > 21 then none
      else if num = 0 then some (.scan none)
      else some (.scan (some (scanParams num freq)))
  | .disableNetwork id => some (.disableNetwork (idOrAll id))
  | .disableAllNetwork => some (.disableNetwork none)
  | .removeNetwork id => some (.removeNetwork (idOrAll id))
  | .removeAllNetwork => some (.removeNetwork none)
  | .reconfigure => some .reconfigure
  | .blacklistClear => some .blacklistClear
  | .enableNetwork id => some (.enableNetwork (idOrAll id))
  | .enableAllNetwork => some (.enableNetwork none)
  | .disconnectNetwork => some .disconnect
  | .reconnectNetwork => some .reconnect

/-- A session in which nothing was asked yet. -/
def Session.start (state : State) : Session State := ⟨state, []⟩

@[simp] theorem Session.start_state (state : State) : (Session.start state).state = state := rfl

@[simp] theorem Session.start_log (state : State) : (Session.start state).log = [] := rfl

/-! ## What success means -/

/-- A result of 0 comes with a request that was delivered, and every request was
answered `OK`. -/
def Truthful (result : Int × Session State) : Prop :=
  result.1 = 0 → result.2.log ≠ [] ∧ ∀ entry ∈ result.2.log, entry.2.IsOk

/-- The same for a function that also asks for the status. -/
def TruthfulSave (result : Int × Session State) : Prop :=
  result.1 = 0 →
    (∃ entry ∈ result.2.log, entry.1 = .saveConfig) ∧
      ∀ entry ∈ result.2.log, entry.1 ≠ .status → entry.2.IsOk

/-- The answer is the number of a network. -/
def Answer.NamesNetwork : Answer → Prop
  | .reply text => ∃ id, 0 ≤ id ∧ sscanfInt text = .value id
  | _ => False

/-- `ADD_NETWORK` was answered with a network and everything after it with `OK`. -/
def AddedAndOk : List (Request × Answer) → Prop
  | [] => False
  | (.addNetwork, answer) :: later => answer.NamesNetwork ∧ ∀ entry ∈ later, entry.2.IsOk
  | _ :: later => AddedAndOk later

def TruthfulJoin (result : Int × Session State) : Prop :=
  result.1 = 0 → AddedAndOk result.2.log

/-! ## Conditions -/

/-- The answer is a status that says connected. -/
def Answer.Connected : Answer → Prop
  | .reply text => statusOf (linesOf text) 0 = wifiConnected
  | _ => False

/-- The answers to a save let no lost error through: enabling fails, the status
is not connected, saving is refused, or nothing is lost. -/
def SaveDelivered (state : State) : Prop :=
  let enabled := peer state (.enableNetwork none)
  let status := peer enabled.2 .status
  let saved := (peer status.2 .saveConfig).1
  enabled.1.Stops ∨ ¬ status.1.Connected ∨ (saved ≠ .noConnection ∧ saved.Stops) ∨
    (enabled.1 ≠ .requestFailed ∧ saved ≠ .requestFailed ∧ saved ≠ .noConnection)

/-- The answers to a join let no lost error through: there is no connection for
`ADD_NETWORK`, a later command is stopped, or a network is named and no later
request fails. -/
def JoinDelivered (state : State) (net : WifiNetwork) (scanned : List WifiScanRes) : Prop :=
  let prepared := joinPrelude peer (Session.start state) net scanned
  let added := peer prepared.2.state .addNetwork
  match added.1 with
  | .noConnection => True
  | .requestFailed => ∃ entry ∈ exchange peer added.2 (joinCommands prepared.1), entry.2.Stops
  | .reply text =>
      let id := wifiReplyAnalyse .addNetwork text prepared.1.id sizeofInt
      let later := exchange peer added.2 (joinCommands { prepared.1 with id := id })
      (∃ entry ∈ later, entry.2.Stops) ∨
        (Answer.NamesNetwork (.reply text) ∧ ∀ entry ∈ later, entry.2 ≠ .requestFailed)

end Functions

section Results

variable {State : Type} {peer : Peer State}

/-! ## One command -/

/-- A call either sends nothing and fails, or sends its request and succeeds
unless the answer stops it. -/
theorem Waiting.call_spec (waiting : Waiting) (session : Session State) :
    match waiting.request with
    | none => waiting.call peer session = (-1, session)
    | some request =>
        let answer := (peer session.state request).1
        waiting.call peer session =
          (if answer.Stops then -1 else 0,
            ⟨(peer session.state request).2, session.log ++ [(request, answer)]⟩) := by
  have both : ∀ (command : Command) (request : Request), command.request = some request →
      command.ack = .ok →
      zeroIfBoth (wifiSendCommand peer session command 0 sizeofInt) =
        (if (peer session.state request).1.Stops then -1 else 0,
          ⟨(peer session.state request).2,
            session.log ++ [(request, (peer session.state request).1)]⟩) := by
    intro command request isRequest isAck
    have sent := @wifiSendCommand_ok _ peer session command request isRequest isAck sizeofInt
      (by decide)
    simp only [zeroIfBoth, sent.2, wifiSendCommand_session isRequest, ite_not]
  have either : ∀ (command : Command) (request : Request), command.request = some request →
      command.ack = .ok →
      zeroUnlessEither (wifiSendCommand peer session command 0 sizeofInt) =
        (if (peer session.state request).1.Stops then -1 else 0,
          ⟨(peer session.state request).2,
            session.log ++ [(request, (peer session.state request).1)]⟩) := by
    intro command request isRequest isAck
    have sent := @wifiSendCommand_ok _ peer session command request isRequest isAck sizeofInt
      (by decide)
    simp only [zeroUnlessEither, sent.1, wifiSendCommand_session isRequest]
  cases waiting with
  | scan => exact both (.scan none) _ rfl rfl
  | scanChannel num freq =>
      cases freq with
      | none => rfl
      | some freq =>
          simp only [Waiting.request, Waiting.call, wifiScanChannel]
          by_cases many : num > 21
          · simp only [if_pos many]
          · simp only [if_neg many]
            by_cases zero : num = 0
            · simp only [if_pos zero]
              exact both (.scan none) _ rfl rfl
            · simp only [if_neg zero]
              exact both (.scan _) _ rfl rfl
  | disableNetwork id => exact either (.disableNetwork id) _ rfl rfl
  | disableAllNetwork => exact either (.disableNetwork wpaAllNetwork) _ rfl rfl
  | removeNetwork id => exact either (.removeNetwork id) _ rfl rfl
  | removeAllNetwork => exact either (.removeNetwork wpaAllNetwork) _ rfl rfl
  | reconfigure => exact both .reconfigure _ rfl rfl
  | blacklistClear => exact both .blacklistClear _ rfl rfl
  | enableNetwork id => exact either (.enableNetwork id) _ rfl rfl
  | enableAllNetwork => exact either (.enableNetwork wpaAllNetwork) _ rfl rfl
  | disconnectNetwork => exact both .disconnect _ rfl rfl
  | reconnectNetwork => exact both .reconnect _ rfl rfl

theorem waiting_truthful_iff (waiting : Waiting) (state : State) :
    Truthful (waiting.call peer (Session.start state)) ↔
      ∀ request ∈ waiting.request, (peer state request).1 ≠ .requestFailed := by
  have spec := @Waiting.call_spec _ peer waiting (Session.start state)
  cases isRequest : waiting.request with
  | none =>
      simp only [isRequest] at spec
      simp [spec, Truthful]
  | some request =>
      simp only [isRequest] at spec
      by_cases stops : (peer state request).1.Stops
      · have failed : (peer state request).1 ≠ .requestFailed := by
          intro isFailed
          rw [isFailed] at stops
          exact stops
        rw [spec]
        simp [Truthful, stops, failed]
      · rw [spec]
        simp [Truthful, stops, Answer.isOk_iff]

theorem setCountry_truthful_iff (country : Text) (state : State) :
    Truthful (wifiSetCountry peer (Session.start state) country) ↔
      (peer state (.setCountry country)).1 = .noConnection ∨
        (peer state (.setCountry country)).1.IsOk := by
  cases isAnswer : (peer state (.setCountry country)).1 with
  | noConnection =>
      simp [Truthful, wifiSetCountry, wifiSendCommand, Command.request, isAnswer]
  | requestFailed =>
      simp [Truthful, wifiSetCountry, wifiSendCommand, Command.request, isAnswer]
  | reply text =>
      simp [Truthful, wifiSetCountry, wifiSendCommand, Command.request, isAnswer]

/-! ## Saving -/

/-- The status of a session, and what it leaves in `status`. -/
theorem wifiGetStatus_connected_iff (session : Session State) :
    let sent := wifiGetStatus peer session 0
    (sent.ret = 0 ∧ sent.res = wifiConnected ↔ (peer session.state .status).1.Connected) ∧
      sent.session =
        ⟨(peer session.state .status).2,
          session.log ++ [(.status, (peer session.state .status).1)]⟩ := by
  constructor
  · cases isAnswer : (peer session.state .status).1 with
    | noConnection =>
        simp [wifiGetStatus, wifiSendCommand, Command.request, isAnswer, Answer.Connected]
    | requestFailed =>
        simp [wifiGetStatus, wifiSendCommand, Command.request, isAnswer, Answer.Connected,
          wifiConnected]
    | reply text =>
        simp [wifiGetStatus, wifiSendCommand, Command.request, isAnswer, Answer.Connected,
          wifiReplyAnalyse, Command.ack]
  · exact wifiSendCommand_session rfl 0 sizeofInt

/-- What saving leaves in `res`: no connection leaves it as it was. -/
theorem saveConfig_res_iff (session : Session State) :
    (wifiSendCommand peer session .saveConfig 0 sizeofInt).res = 0 ↔
      ¬ ((peer session.state .saveConfig).1 ≠ .noConnection ∧
        (peer session.state .saveConfig).1.Stops) := by
  cases isAnswer : (peer session.state .saveConfig).1 with
  | noConnection => simp [wifiSendCommand, Command.request, isAnswer]
  | requestFailed => simp [wifiSendCommand, Command.request, isAnswer, Answer.Stops]
  | reply text =>
      have analysed := @wifiReplyAnalyse_ok .saveConfig rfl sizeofInt (by decide) text 0
      by_cases isOk : (Answer.reply text).IsOk
      · simp [wifiSendCommand, Command.request, isAnswer, Answer.Stops, analysed, isOk]
      · simp [wifiSendCommand, Command.request, isAnswer, Answer.Stops, analysed, isOk]

/-- When `wifi_save_network` returns 0, and what it has then asked. -/
theorem wifiSaveNetwork_spec (state : State) :
    let enabled := peer state (.enableNetwork none)
    let status := peer enabled.2 .status
    let saved := peer status.2 .saveConfig
    let result := wifiSaveNetwork peer (Session.start state)
    (result.1 = 0 ↔
        ¬ enabled.1.Stops ∧ status.1.Connected ∧ ¬ (saved.1 ≠ .noConnection ∧ saved.1.Stops)) ∧
      (result.1 = 0 → result.2.log =
        [(.enableNetwork none, enabled.1), (.status, status.1), (.saveConfig, saved.1)]) := by
  have enabling := @Waiting.call_spec _ peer .enableAllNetwork (Session.start state)
  simp only [Waiting.request, Waiting.call, Session.start_state, Session.start_log,
    List.nil_append] at enabling
  obtain ⟨connected, statusSession⟩ := @wifiGetStatus_connected_iff _ peer
    ⟨(peer state (.enableNetwork none)).2,
      [(.enableNetwork none, (peer state (.enableNetwork none)).1)]⟩
  dsimp only at connected statusSession ⊢
  unfold wifiSaveNetwork
  rw [enabling]
  by_cases enableStops : (peer state (.enableNetwork none)).1.Stops
  · simp [enableStops]
  · by_cases isConnected : (peer (peer state (.enableNetwork none)).2 .status).1.Connected
    · have goesOn := connected.mpr isConnected
      simp only [enableStops, if_false, goesOn, and_self, if_true,
        statusSession, saveConfig_res_iff,
        wifiSendCommand_session (show Command.saveConfig.request = some .saveConfig from rfl)]
      simp [isConnected]
    · have givesUp := fun both => isConnected (connected.mp both)
      simp only [enableStops, if_false, if_neg givesUp, isConnected]
      simp

theorem save_truthful_iff (state : State) :
    TruthfulSave (wifiSaveNetwork peer (Session.start state)) ↔ SaveDelivered peer state := by
  obtain ⟨isZero, log⟩ := @wifiSaveNetwork_spec _ peer state
  unfold SaveDelivered
  dsimp only at isZero log ⊢
  generalize (peer state (.enableNetwork none)) = enabled at isZero log ⊢
  generalize (peer enabled.2 .status) = status at isZero log ⊢
  generalize (peer status.2 .saveConfig).1 = saved at isZero log ⊢
  by_cases zero : (wifiSaveNetwork peer (Session.start state)).1 = 0
  · obtain ⟨goesOn, connected, unrefused⟩ := isZero.mp zero
    have savedStops : saved.Stops ↔ saved = .noConnection := by
      constructor
      · exact fun stops => by_contra fun isAnswered => unrefused ⟨isAnswered, stops⟩
      · intro isClosed
        rw [isClosed]
        trivial
    have answered : TruthfulSave (wifiSaveNetwork peer (Session.start state)) ↔
        enabled.1.IsOk ∧ saved.IsOk := by
      simp [TruthfulSave, zero, log zero]
    rw [answered, Answer.isOk_iff, Answer.isOk_iff, savedStops]
    simp [goesOn, connected, and_comm]
  · refine ⟨fun _ => ?_, fun _ isZeroThen => absurd isZeroThen zero⟩
    by_contra delivered
    simp only [not_or] at delivered
    exact zero (isZero.mpr ⟨delivered.1, not_not.mp delivered.2.1, delivered.2.2.1⟩)

/-! ## Joining -/

/-- What comes before the first `ADD_NETWORK` does not matter. -/
theorem addedAndOk_append {before later : List (Request × Answer)} {answer : Answer}
    (quiet : ∀ entry ∈ before, entry.1 ≠ .addNetwork) :
    AddedAndOk (before ++ (.addNetwork, answer) :: later) ↔
      answer.NamesNetwork ∧ ∀ entry ∈ later, entry.2.IsOk := by
  induction before with
  | nil => rfl
  | cons entry rest inductionHypothesis =>
      obtain ⟨request, other⟩ := entry
      have notAdd : request ≠ .addNetwork := quiet (request, other) List.mem_cons_self
      rw [← inductionHypothesis fun entry member => quiet entry (List.mem_cons_of_mem _ member)]
      cases request <;> first | rfl | exact absurd rfl notAdd

theorem joinPrelude_quiet (state : State) (net : WifiNetwork) (scanned : List WifiScanRes) :
    ∀ entry ∈ (joinPrelude peer (Session.start state) net scanned).2.log,
      entry.1 ≠ .addNetwork := by
  apply @joinPrelude_preserves _ peer _
    fun session => ∀ entry ∈ session.log, entry.1 ≠ Request.addNetwork
  · intro session request prepares quiet entry member
    rcases List.mem_append.mp member with earlier | last
    · exact quiet entry earlier
    · rw [List.mem_singleton.mp last]
      cases prepares <;> exact nofun
  · exact fun _ member => absurd member List.not_mem_nil

/-- The part of a join after `ADD_NETWORK` was answered. -/
theorem sendAll_truthful_iff {session : Session State} {before : List (Request × Answer)}
    {answer : Answer} (net : WifiNetwork) (isLog : session.log = before ++ [(.addNetwork, answer)])
    (quiet : ∀ entry ∈ before, entry.1 ≠ .addNetwork) :
    TruthfulJoin (sendAll peer (joinCommands net) 0 session) ↔
      (∃ entry ∈ exchange peer session.state (joinCommands net), entry.2.Stops) ∨
        (answer.NamesNetwork ∧
          ∀ entry ∈ exchange peer session.state (joinCommands net),
            entry.2 ≠ .requestFailed) := by
  obtain ⟨isZero, log, -⟩ := @sendAll_spec _ peer _ (joinCommands_allWait net) session
  by_cases stopped : ∃ entry ∈ exchange peer session.state (joinCommands net), entry.2.Stops
  · have nonzero : (sendAll peer (joinCommands net) 0 session).1 ≠ 0 := by
      intro zero
      obtain ⟨entry, member, stops⟩ := stopped
      exact isZero.mp zero entry member stops
    exact ⟨fun _ => Or.inl stopped, fun _ zero => absurd zero nonzero⟩
  · have goesOn : ∀ entry ∈ exchange peer session.state (joinCommands net), ¬ entry.2.Stops :=
      fun entry member stops => stopped ⟨entry, member, stops⟩
    have zero := isZero.mpr goesOn
    unfold TruthfulJoin
    rw [log zero, isLog, List.append_assoc, List.singleton_append, addedAndOk_append quiet]
    simp only [zero, true_imp_iff, stopped, false_or]
    apply and_congr_right
    intro _
    apply forall₂_congr
    intro entry member
    rw [Answer.isOk_iff]
    simp [goesOn entry member]

theorem join_truthful_iff (state : State) (net : WifiNetwork) (scanned : List WifiScanRes) :
    TruthfulJoin (wifiJoinNetwork peer (Session.start state) net scanned) ↔
      JoinDelivered peer state net scanned := by
  have quiet := @joinPrelude_quiet _ peer state net scanned
  unfold wifiJoinNetwork JoinDelivered
  dsimp only
  generalize joinPrelude peer (Session.start state) net scanned = prepared at quiet ⊢
  have session := @wifiSendCommand_session _ peer prepared.2 .addNetwork .addNetwork rfl
    prepared.1.id sizeofInt
  cases isAnswer : (peer prepared.2.state .addNetwork).1 with
  | noConnection =>
      have failed : (wifiSendCommand peer prepared.2 .addNetwork prepared.1.id sizeofInt).ret = -1 := by
        simp [wifiSendCommand, Command.request, isAnswer]
      rw [if_pos (by rw [failed]; decide)]
      exact ⟨fun _ => trivial, fun _ zero => absurd zero (show (-1 : Int) ≠ 0 by decide)⟩
  | requestFailed =>
      have sent : (wifiSendCommand peer prepared.2 .addNetwork prepared.1.id sizeofInt).ret = 0 ∧
          (wifiSendCommand peer prepared.2 .addNetwork prepared.1.id sizeofInt).res =
            prepared.1.id := by
        simp [wifiSendCommand, Command.request, isAnswer]
      rw [if_neg (by rw [sent.1]; decide), sent.2, session,
        sendAll_truthful_iff prepared.1 (by rw [isAnswer]) quiet]
      simp [Answer.NamesNetwork]
  | reply text =>
      have sent : (wifiSendCommand peer prepared.2 .addNetwork prepared.1.id sizeofInt).ret = 0 ∧
          (wifiSendCommand peer prepared.2 .addNetwork prepared.1.id sizeofInt).res =
            wifiReplyAnalyse .addNetwork text prepared.1.id sizeofInt := by
        simp [wifiSendCommand, Command.request, isAnswer]
      rw [if_neg (by rw [sent.1]; decide), sent.2, session,
        sendAll_truthful_iff _ (by rw [isAnswer]) quiet]

/-! ## All functions -/

/-- For every peer and every state of it: a function that waits for `OK` is right
when it returns 0, exactly when its request does not fail; setting the country
exactly when there is no connection or the answer is `OK`; saving and joining
exactly when no lost error gets through. -/
theorem success_reported_iff (peer : Peer State) (state : State) :
    (∀ waiting : Waiting, Truthful (waiting.call peer (Session.start state)) ↔
        ∀ request ∈ waiting.request, (peer state request).1 ≠ .requestFailed) ∧
      (∀ country, Truthful (wifiSetCountry peer (Session.start state) country) ↔
        (peer state (.setCountry country)).1 = .noConnection ∨
          (peer state (.setCountry country)).1.IsOk) ∧
      (TruthfulSave (wifiSaveNetwork peer (Session.start state)) ↔ SaveDelivered peer state) ∧
      ∀ net scanned, TruthfulJoin (wifiJoinNetwork peer (Session.start state) net scanned) ↔
        JoinDelivered peer state net scanned :=
  ⟨fun waiting => waiting_truthful_iff waiting state,
    fun country => setCountry_truthful_iff country state,
    save_truthful_iff state, join_truthful_iff state⟩

end Results

/-- A supplicant that accepts connections and answers no request. -/
def silentPeer : Peer Unit := fun _ _ => (.requestFailed, ())

/-- A supplicant that refuses to add a network and accepts everything else. -/
def fullPeer : Peer Unit := fun _ request =>
  (.reply (if request = .addNetwork then "FAIL\n".toList else "OK\n".toList), ())

def homeNetwork : WifiNetwork := ⟨0, "home".toList, "password".toList, .wpa2psk⟩

/-- A scan that was never delivered returns 0, and so does a join whose network
was refused. -/
theorem success_reported_without_answer :
    ¬ Truthful (wifiScan silentPeer (Session.start ())) ∧
      ¬ TruthfulJoin (wifiJoinNetwork fullPeer (Session.start ()) homeNetwork []) := by
  constructor
  · intro truthful
    have isOk := (truthful rfl).2 (.scan none, .requestFailed) (by decide)
    exact isOk
  · intro truthful
    obtain ⟨id, -, isValue⟩ : Answer.NamesNetwork (.reply "FAIL\n".toList) := (truthful rfl).1
    have mismatch : sscanfInt "FAIL\n".toList = .mismatch := by decide +kernel
    rw [mismatch] at isValue
    exact absurd isValue nofun

end TuyaAdapter.WpaCommand
