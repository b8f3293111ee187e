import Mathlib.Data.List.Infix
import Mathlib.Data.List.Range
import TuyaAdapter.Foundation.Run
import TuyaAdapter.WpaCtrl.Model

/-!
Contract: which command a returned reply answers.

Answers come in the order of the commands of a connection, so a reply belongs
to an older command exactly when answers to calls that gave up are still on
their way. A connection for each command, as `wifi_send_command` opens it,
leaves no such answers behind.
-/

namespace TuyaAdapter.WpaCtrl

open Foundation.Run

/-! ## Counting -/

/-- The number of the command that an entry took the answer of. -/
def Entry.number : Entry → Option Nat
  | .returned _ (.reply _ datagram) => datagram.answers
  | .received _ datagram => datagram.answers
  | _ => none

/-- The command of the call of `wpa_ctrl_request` that returned. -/
def Entry.own : Entry → Option Nat
  | .returned number _ => some number
  | _ => none

/-- The call returned without an answer. -/
def Entry.isLost : Entry → Bool
  | .returned _ .timedOut => true
  | .returned _ .failed => true
  | _ => false

/-- `wpa_ctrl_recv` took an answer. -/
def Entry.isDrained : Entry → Bool
  | .received _ datagram => datagram.answers.isSome
  | _ => false

def lost (log : List Entry) : Nat := log.countP Entry.isLost

def drained (log : List Entry) : Nat := log.countP Entry.isDrained

/-! ## The invariant -/

/-- The answers that were taken, in order. -/
def taken (log : List Entry) : List Nat := log.filterMap Entry.number

/-- The commands whose calls returned, in order. -/
def calls (log : List Entry) : List Nat := log.filterMap Entry.own

/-- The answers in the socket of a connection. -/
def arrived (inbox : List Datagram) : List Nat := inbox.filterMap Datagram.answers

/-- The commands of a connection that are not answered yet. -/
def unanswered (requests : List Pending) (name : Nat) : List Nat :=
  (requests.filter fun request => request.ctrl = name).map Pending.number

section Invariant

variable {State : Type} (answer : State → Bytes → Bytes × State)

/-- The text is an answer to the command with its number, or a message. -/
def Genuine (sent : List Bytes) (datagram : Datagram) : Prop :=
  match datagram.answers with
  | none => datagram.text.head? = some lessThan
  | some number => ∃ command, sent[number]? = some command ∧
      ∃ state, (answer state command).1 = datagram.text

/-- A reply that was returned is an answer. -/
def Entry.Genuine (sent : List Bytes) : Entry → Prop
  | .returned _ (.reply _ datagram) =>
      WpaCtrl.Genuine answer sent datagram ∧ datagram.answers.isSome = true
  | _ => True

/-- The answers of a connection are in order and complete. -/
structure Connected (requests : List Pending) (name : Nat) (ctrl : Ctrl) : Prop where
  inOrder : ∃ rest, taken ctrl.log ++ rest = List.range ctrl.sent.length ∧
    (ctrl.isOpen = true → rest = arrived ctrl.inbox ++ unanswered requests name)
  returned : calls ctrl.log ++ ctrl.waiting.toList.map Waiting.number =
    List.range ctrl.sent.length
  closed : ctrl.isOpen = false → ctrl.waiting = none ∧ ctrl.inbox = []
  roomy : ∀ waiting ∈ ctrl.waiting, 0 < waiting.room
  datagrams : ∀ datagram ∈ ctrl.inbox, Genuine answer ctrl.sent datagram
  entries : ∀ entry ∈ ctrl.log, entry.Genuine answer ctrl.sent

structure Sound (world : World State) : Prop where
  unopened : ∀ name, world.counter < name → world.ctrls name = .unused
  requests : ∀ request ∈ world.requests,
    (world.ctrls request.ctrl).sent[request.number]? = some request.command
  connected : ∀ name, Connected answer world.requests name (world.ctrls name)

end Invariant

/-! ## The numbers -/

theorem taken_append (log : List Entry) (entry : Entry) :
    taken (log ++ [entry]) = taken log ++ entry.number.toList := by
  cases isNumber : entry.number <;> simp [taken, isNumber]

theorem calls_append (log : List Entry) (entry : Entry) :
    calls (log ++ [entry]) = calls log ++ entry.own.toList := by
  cases isOwn : entry.own <;> simp [calls, isOwn]

theorem arrived_append (inbox : List Datagram) (datagram : Datagram) :
    arrived (inbox ++ [datagram]) = arrived inbox ++ datagram.answers.toList := by
  cases isNumber : datagram.answers <;> simp [arrived, isNumber]

theorem arrived_cons (datagram : Datagram) (rest : List Datagram) :
    arrived (datagram :: rest) = datagram.answers.toList ++ arrived rest := by
  cases isNumber : datagram.answers <;> simp [arrived, isNumber]

theorem unanswered_append (requests : List Pending) (request : Pending) (name : Nat) :
    unanswered (requests ++ [request]) name =
      unanswered requests name ++ if request.ctrl = name then [request.number] else [] := by
  unfold unanswered
  rw [List.filter_append, List.map_append]
  by_cases isName : request.ctrl = name <;> simp [isName]

theorem unanswered_cons (request : Pending) (rest : List Pending) (name : Nat) :
    unanswered (request :: rest) name =
      (if request.ctrl = name then [request.number] else []) ++ unanswered rest name := by
  unfold unanswered
  by_cases isName : request.ctrl = name <;> simp [isName]

/-- In a list that goes on as the numbers from zero, a number is its position. -/
theorem position_of_range {left rest more : List Nat} {number count : Nat}
    (isRange : left ++ number :: rest ++ more = List.range count) : number = left.length := by
  have here : (left ++ number :: rest ++ more)[left.length]? = some number := by simp
  rw [isRange] at here
  obtain ⟨below, isNumber⟩ := List.getElem?_eq_some_iff.mp here
  exact isNumber.symm.trans (List.getElem_range below)

/-! ## One connection -/

theorem Ctrl.deliver_sent (ctrl : Ctrl) (datagram : Datagram) :
    (ctrl.deliver datagram).sent = ctrl.sent := by
  unfold Ctrl.deliver
  split <;> rfl

theorem Ctrl.receive_sent (ctrl : Ctrl) (waiting : Waiting) (datagram : Datagram)
    (rest : List Datagram) : (ctrl.receive waiting datagram rest).sent = ctrl.sent := by
  unfold Ctrl.receive
  simp only
  split <;> rfl


section Connection

variable {State : Type} {answer : State → Bytes → Bytes × State} {requests requests' : List Pending}
  {name : Nat} {ctrl : Ctrl} {datagram : Datagram}

/-- More commands may follow on the connection. -/
theorem Genuine.more {sent : List Bytes} (genuine : Genuine answer sent datagram)
    (command : Bytes) : Genuine answer (sent ++ [command]) datagram := by
  unfold Genuine at genuine ⊢
  split at genuine
  · exact genuine
  · rename_i number
    obtain ⟨text, isSent, answers⟩ := genuine
    refine ⟨text, ?_, answers⟩
    rw [List.getElem?_append_left (List.getElem?_eq_some_iff.mp isSent).1]
    exact isSent

theorem Entry.Genuine.more {sent : List Bytes} {entry : Entry}
    (genuine : entry.Genuine answer sent) (command : Bytes) :
    entry.Genuine answer (sent ++ [command]) := by
  cases entry with
  | returned number outcome =>
      cases outcome with
      | reply room datagram => exact ⟨WpaCtrl.Genuine.more genuine.1 command, genuine.2⟩
      | timedOut => trivial
      | failed => trivial
  | unsent => trivial
  | message text => trivial
  | received room datagram => trivial

theorem connected_unused (none_ : unanswered requests name = []) :
    Connected answer requests name { Ctrl.unused with isOpen := true } where
  inOrder := ⟨[], rfl, fun _ => by rw [none_]; rfl⟩
  returned := rfl
  closed := nofun
  roomy := fun _ member => absurd member (by simp [Ctrl.unused])
  datagrams := fun _ member => absurd member List.not_mem_nil
  entries := fun _ member => absurd member List.not_mem_nil

/-- Commands of other connections do not matter. -/
theorem Connected.congr (connected : Connected answer requests name ctrl)
    (same : unanswered requests' name = unanswered requests name) :
    Connected answer requests' name ctrl :=
  { connected with
    inOrder := by
      rw [same]
      exact connected.inOrder }

theorem Connected.close (connected : Connected answer requests name ctrl)
    (idle : ctrl.waiting = none) :
    Connected answer requests name { ctrl with isOpen := false, inbox := [] } :=
  { connected with
    inOrder := by
      obtain ⟨rest, isRange, -⟩ := connected.inOrder
      exact ⟨rest, isRange, nofun⟩
    closed := fun _ => ⟨idle, rfl⟩
    datagrams := fun _ member => absurd member List.not_mem_nil }

theorem Connected.send (connected : Connected answer requests name ctrl)
    (isOpen : ctrl.isOpen = true) (idle : ctrl.waiting = none) (command : Bytes) {room : Nat}
    (positive : 0 < room) :
    Connected answer (requests ++ [⟨name, ctrl.sent.length, command⟩]) name
      { ctrl with sent := ctrl.sent ++ [command], waiting := some ⟨ctrl.sent.length, room⟩ } where
  inOrder := by
    obtain ⟨rest, isRange, isRest⟩ := connected.inOrder
    refine ⟨rest ++ [ctrl.sent.length], ?_, fun _ => ?_⟩
    · show taken ctrl.log ++ (rest ++ [ctrl.sent.length]) = _
      rw [← List.append_assoc, isRange, List.length_append, List.length_singleton,
        List.range_succ]
    · rw [isRest isOpen, unanswered_append, if_pos rfl, List.append_assoc]
  returned := by
    have returned := connected.returned
    rw [idle, Option.toList_none, List.map_nil, List.append_nil] at returned
    rw [List.length_append, List.length_singleton, List.range_succ, ← returned]
    rfl
  closed := fun isClosed => absurd (isOpen.symm.trans isClosed) (by decide)
  roomy := fun other isOther => by
    rw [← Option.some.inj isOther]
    exact positive
  datagrams := fun datagram member => (connected.datagrams datagram member).more command
  entries := fun entry member => (connected.entries entry member).more command

/-- An entry is written, and what it took is gone from the socket. -/
theorem Connected.write (connected : Connected answer requests name ctrl) {entry : Entry}
    {inbox : List Datagram} {waiting : Option Waiting}
    (numbers : entry.number.toList ++ arrived inbox = arrived ctrl.inbox)
    (fewer : ∀ datagram ∈ inbox, datagram ∈ ctrl.inbox)
    (returns : entry.own.toList ++ waiting.toList.map Waiting.number =
      ctrl.waiting.toList.map Waiting.number)
    (sameRoom : ∀ other ∈ waiting, other ∈ ctrl.waiting)
    (genuine : entry.Genuine answer ctrl.sent) :
    Connected answer requests name
      { ctrl with inbox := inbox, waiting := waiting, log := ctrl.log ++ [entry] } where
  inOrder := by
    obtain ⟨rest, isRange, isRest⟩ := connected.inOrder
    cases isOpen : ctrl.isOpen with
    | true =>
        refine ⟨arrived inbox ++ unanswered requests name, ?_, fun _ => rfl⟩
        rw [isRest isOpen, ← numbers] at isRange
        rw [taken_append, ← isRange]
        simp only [List.append_assoc]
    | false =>
        rw [(connected.closed isOpen).2] at numbers
        refine ⟨rest, ?_, nofun⟩
        rw [taken_append, (List.append_eq_nil_iff.mp numbers).1, List.append_nil]
        exact isRange
  returned := by
    rw [← connected.returned, ← returns, calls_append, List.append_assoc]
  closed := fun isClosed => by
    obtain ⟨idle, nothing⟩ := connected.closed isClosed
    refine ⟨?_, ?_⟩
    · cases isWaiting : waiting with
      | none => rfl
      | some room => exact absurd (sameRoom room isWaiting) (by simp [idle])
    · exact List.eq_nil_iff_forall_not_mem.mpr fun datagram member =>
        absurd (fewer datagram member) (by simp [nothing])
  roomy := fun room member => connected.roomy room (sameRoom room member)
  datagrams := fun datagram member => connected.datagrams datagram (fewer datagram member)
  entries := fun other isOther => by
    rcases List.mem_append.mp isOther with old | new
    · exact connected.entries other old
    · rw [List.mem_singleton.mp new]
      exact genuine

theorem Connected.giveUp (connected : Connected answer requests name ctrl) {outcome : Outcome}
    {waiting : Waiting} (waits : ctrl.waiting = some waiting)
    (noNumber : (Entry.returned waiting.number outcome).number = none)
    (genuine : (Entry.returned waiting.number outcome).Genuine answer ctrl.sent) :
    Connected answer requests name (ctrl.giveUp waiting outcome) := by
  have numbers : (Entry.returned waiting.number outcome).number.toList ++ arrived ctrl.inbox =
      arrived ctrl.inbox := by
    rw [noNumber]
    rfl
  refine connected.write numbers (fun _ member => member) ?_ (fun _ none_ => ?_) genuine
  · rw [waits]
    rfl
  · exact absurd none_ (by simp)

theorem Connected.receive
    (plain : ∀ state command, (answer state command).1.head? ≠ some lessThan)
    (connected : Connected answer requests name ctrl) {waiting : Waiting}
    {rest : List Datagram} (waits : ctrl.waiting = some waiting)
    (isInbox : ctrl.inbox = datagram :: rest) :
    Connected answer requests name (ctrl.receive waiting datagram rest) := by
  have positive : 0 < waiting.room := connected.roomy waiting waits
  have genuine : Genuine answer ctrl.sent datagram :=
    connected.datagrams datagram (by rw [isInbox]; exact List.mem_cons_self)
  have sameHead : (datagram.text.take waiting.room).head? = datagram.text.head? :=
    List.head?_take.trans (if_neg (by omega))
  have fewer : ∀ other ∈ rest, other ∈ ctrl.inbox := fun other member => by
    rw [isInbox]
    exact List.mem_cons_of_mem _ member
  have numbers : datagram.answers.toList ++ arrived rest = arrived ctrl.inbox := by
    rw [isInbox, arrived_cons]
  unfold Ctrl.receive
  simp only [sameHead]
  split
  · rename_i isMessage
    have noNumber : datagram.answers = none := by
      unfold Genuine at genuine
      split at genuine
      · assumption
      · obtain ⟨command, -, state, isText⟩ := genuine
        exact absurd (isText ▸ isMessage) (plain state command)
    rw [noNumber] at numbers
    exact connected.write numbers fewer (List.nil_append _) (fun _ same => same) trivial
  · rename_i notMessage
    have isAnswer : datagram.answers.isSome = true := by
      cases isAnswers : datagram.answers with
      | none => exact absurd (by simpa [Genuine, isAnswers] using genuine) notMessage
      | some number => rfl
    have returns : Entry.Genuine answer ctrl.sent (.returned waiting.number
        (.reply waiting.room datagram)) :=
      ⟨genuine, isAnswer⟩
    refine connected.write numbers fewer ?_ (fun _ none_ => ?_) returns
    · rw [waits]
      rfl
    · exact absurd none_ (by simp)

/-- A datagram comes in, and the supplicant has as many commands less. -/
theorem Connected.deliver (connected : Connected answer requests name ctrl)
    (numbers : datagram.answers.toList ++ unanswered requests' name = unanswered requests name)
    (genuine : Genuine answer ctrl.sent datagram) :
    Connected answer requests' name (ctrl.deliver datagram) := by
  unfold Ctrl.deliver
  obtain ⟨rest, isRange, isRest⟩ := connected.inOrder
  split
  · rename_i isOpen
    refine { connected with inOrder := ?_, closed := ?_, datagrams := ?_ }
    · refine ⟨rest, isRange, fun _ => ?_⟩
      rw [isRest isOpen, ← numbers, arrived_append, List.append_assoc]
    · exact fun isClosed => absurd (isOpen.symm.trans isClosed) (by decide)
    · intro other isOther
      rcases List.mem_append.mp isOther with old | new
      · exact connected.datagrams other old
      · rw [List.mem_singleton.mp new]
        exact genuine
  · rename_i isClosed
    exact { connected with inOrder := ⟨rest, isRange, fun isOpen => absurd isOpen isClosed⟩ }

end Connection

/-! ## Runs -/

section Runs

variable {State : Type} {answer : State → Bytes → Bytes × State} {world next : World State}

/-- Reply buffers have room. -/
def Action.Roomy : Action → Prop
  | .send _ _ room => 0 < room
  | _ => True

instance : ∀ action : Action, Decidable action.Roomy
  | .send _ _ room => inferInstanceAs (Decidable (0 < room))
  | .wpaCtrlOpen | .wpaCtrlClose _ | .sendFails _ | .serve | .unsolicited _ _ | .recv _
  | .timeout _ | .fail _ | .wpaCtrlRecv _ _ => inferInstanceAs (Decidable True)

/-- One connection changes, and nothing is known of the requests of others. -/
theorem Sound.set (sound : Sound answer world) {name : Nat} {ctrl : Ctrl} {requests : List Pending}
    {state : State} (unopened : world.counter < name → ctrl = .unused)
    (others : ∀ other, other ≠ name → unanswered requests other = unanswered world.requests other)
    (sent : ∀ request ∈ requests, request ∈ world.requests ∨
      request.ctrl = name ∧ ctrl.sent[request.number]? = some request.command)
    (keeps : ∃ more, ctrl.sent = (world.ctrls name).sent ++ more)
    (connected : Connected answer requests name ctrl) :
    Sound answer ({ world with requests := requests, state := state }.setCtrl name ctrl) where
  unopened := fun other above => by
    show Function.update world.ctrls name ctrl other = _
    by_cases isName : other = name
    · rw [isName, Function.update_self]
      exact unopened (isName ▸ above)
    · rw [Function.update_of_ne isName]
      exact sound.unopened other above
  requests := fun request member => by
    show (Function.update world.ctrls name ctrl request.ctrl).sent[request.number]? = _
    by_cases isName : request.ctrl = name
    · rw [isName, Function.update_self]
      rcases sent request member with old | new
      · obtain ⟨more, isMore⟩ := keeps
        have wasSent := sound.requests request old
        rw [isName] at wasSent
        rw [isMore, List.getElem?_append_left (List.getElem?_eq_some_iff.mp wasSent).1]
        exact wasSent
      · exact new.2
    · rw [Function.update_of_ne isName]
      rcases sent request member with old | new
      · exact sound.requests request old
      · exact absurd new.1 isName
  connected := fun other => by
    show Connected answer requests other (Function.update world.ctrls name ctrl other)
    by_cases isName : other = name
    · rw [isName, Function.update_self]
      exact connected
    · rw [Function.update_of_ne isName]
      exact (sound.connected other).congr (others other isName)

theorem Sound.known (sound : Sound answer world) {name : Nat}
    (isOpen : (world.ctrls name).isOpen = true) {ctrl : Ctrl} :
    world.counter < name → ctrl = .unused := by
  intro above
  rw [sound.unopened name above] at isOpen
  exact absurd isOpen (by decide)

theorem Sound.waits (sound : Sound answer world) {name : Nat} {waiting : Waiting}
    (waits : (world.ctrls name).waiting = some waiting) {ctrl : Ctrl} :
    world.counter < name → ctrl = .unused := by
  intro above
  rw [sound.unopened name above] at waits
  exact absurd waits (by simp [Ctrl.unused])

/-- A connection changes, and it sends no command. -/
theorem Sound.same (sound : Sound answer world) {name : Nat} {ctrl : Ctrl}
    (unopened : world.counter < name → ctrl = .unused)
    (sameSent : ctrl.sent = (world.ctrls name).sent)
    (connected : Connected answer world.requests name ctrl) :
    Sound answer (world.setCtrl name ctrl) := by
  refine sound.set unopened (fun _ _ => rfl) (fun _ member => Or.inl member) ⟨[], ?_⟩ connected
  rw [sameSent, List.append_nil]

theorem Sound.open_ (sound : Sound answer world) :
    Sound answer ({ world with counter := world.counter + 1 }.setCtrl (world.counter + 1)
      { Ctrl.unused with isOpen := true }) := by
  have isUnused := sound.unopened (world.counter + 1) (Nat.lt_succ_self _)
  have counted : Sound answer { world with counter := world.counter + 1 } :=
    { sound with unopened := fun name above => sound.unopened name (Nat.lt_of_succ_lt above) }
  refine counted.same (fun above => absurd above (Nat.lt_irrefl _)) ?_ (connected_unused ?_)
  · show [] = (world.ctrls (world.counter + 1)).sent
    rw [isUnused]
    rfl
  · unfold unanswered
    rw [List.map_eq_nil_iff, List.filter_eq_nil_iff]
    intro request member isName
    have isSent := sound.requests request member
    rw [of_decide_eq_true isName, isUnused] at isSent
    exact absurd isSent (by simp [Ctrl.unused])

theorem Sound.serve (sound : Sound answer world) {request : Pending} {rest : List Pending}
    (isHead : world.requests = request :: rest) :
    Sound answer ({ world with requests := rest
                               state := (answer world.state request.command).2 }.setCtrl request.ctrl
      ((world.ctrls request.ctrl).deliver
        ⟨some request.number, (answer world.state request.command).1⟩)) := by
  have isSent := sound.requests request (by rw [isHead]; exact List.mem_cons_self)
  have notUnused : ¬ world.counter < request.ctrl := fun above => by
    rw [sound.unopened _ above] at isSent
    exact absurd isSent (by simp [Ctrl.unused])
  refine sound.set (fun above => absurd above notUnused) ?_ ?_ ⟨[], ?_⟩ ?_
  · intro other notName
    rw [isHead, unanswered_cons, if_neg (Ne.symm notName), List.nil_append]
  · intro other member
    rw [isHead]
    exact Or.inl (List.mem_cons_of_mem _ member)
  · rw [Ctrl.deliver_sent, List.append_nil]
  · apply (sound.connected request.ctrl).deliver
    · rw [isHead, unanswered_cons, if_pos rfl]
      rfl
    · exact ⟨request.command, isSent, world.state, rfl⟩

theorem step_sound (plain : ∀ state command, (answer state command).1.head? ≠ some lessThan)
    {action : Action} (sound : Sound answer world) (roomy : action.Roomy)
    (stepped : step answer world action = some next) : Sound answer next := by
  cases action with
  | wpaCtrlOpen =>
      rw [← Option.some.inj stepped]
      exact sound.open_
  | wpaCtrlClose name =>
      obtain ⟨⟨isOpen, idle⟩, isNext⟩ := Option.ite_none_right_eq_some.mp stepped
      rw [← Option.some.inj isNext]
      exact sound.same (sound.known isOpen) rfl ((sound.connected name).close idle)
  | send name command room =>
      obtain ⟨⟨isOpen, idle⟩, isNext⟩ := Option.ite_none_right_eq_some.mp stepped
      rw [← Option.some.inj isNext]
      refine sound.set (sound.known isOpen) ?_ ?_ ⟨[command], rfl⟩
        ((sound.connected name).send isOpen idle command roomy)
      · intro other notName
        rw [unanswered_append, if_neg (Ne.symm notName), List.append_nil]
      · intro request member
        rcases List.mem_append.mp member with old | new
        · exact Or.inl old
        · rw [List.mem_singleton.mp new]
          exact Or.inr ⟨rfl, by simp⟩
  | sendFails name =>
      obtain ⟨⟨isOpen, idle⟩, isNext⟩ := Option.ite_none_right_eq_some.mp stepped
      rw [← Option.some.inj isNext]
      have unsent : Entry.Genuine answer (world.ctrls name).sent .unsent := trivial
      exact sound.same (sound.known isOpen) rfl ((sound.connected name).write rfl
        (fun _ member => member) (List.nil_append _) (fun _ same => same) unsent)
  | serve =>
      cases isHead : world.requests with
      | nil => simp [step, isHead] at stepped
      | cons request rest =>
          simp only [step, isHead, Option.some.injEq] at stepped
          rw [← stepped]
          exact sound.serve isHead
  | unsolicited name text =>
      obtain ⟨isMessage, isNext⟩ := Option.ite_none_right_eq_some.mp stepped
      rw [← Option.some.inj isNext]
      refine sound.same (fun above => ?_) (Ctrl.deliver_sent _ _)
        ((sound.connected name).deliver rfl isMessage)
      rw [sound.unopened name above]
      rfl
  | recv name =>
      cases waits : (world.ctrls name).waiting with
      | none => simp [step, waits] at stepped
      | some waiting =>
          cases isInbox : (world.ctrls name).inbox with
          | nil => simp [step, waits, isInbox] at stepped
          | cons datagram rest =>
              simp only [step, waits, isInbox, Option.some.injEq] at stepped
              rw [← stepped]
              exact sound.same (sound.waits waits) (Ctrl.receive_sent _ _ _ _)
                ((sound.connected name).receive plain waits isInbox)
  | timeout name =>
      cases waits : (world.ctrls name).waiting with
      | none => simp [step, waits] at stepped
      | some waiting =>
          cases isInbox : (world.ctrls name).inbox with
          | cons datagram rest => simp [step, waits, isInbox] at stepped
          | nil =>
              simp only [step, waits, isInbox, Option.some.injEq] at stepped
              rw [← stepped]
              exact sound.same (sound.waits waits) rfl
                ((sound.connected name).giveUp waits rfl trivial)
  | fail name =>
      cases waits : (world.ctrls name).waiting with
      | none => simp [step, waits] at stepped
      | some waiting =>
          simp only [step, waits, Option.some.injEq] at stepped
          rw [← stepped]
          exact sound.same (sound.waits waits) rfl
            ((sound.connected name).giveUp waits rfl trivial)
  | wpaCtrlRecv name room =>
      cases waits : (world.ctrls name).waiting with
      | some other => simp [step, waits] at stepped
      | none =>
          cases isInbox : (world.ctrls name).inbox with
          | nil => simp [step, waits, isInbox] at stepped
          | cons datagram rest =>
              simp only [step, waits, isInbox, Option.some.injEq] at stepped
              rw [← stepped]
              have received : Entry.Genuine answer (world.ctrls name).sent
                (.received room datagram) := trivial
              have numbers : (Entry.received room datagram).number.toList ++ arrived rest =
                  arrived (world.ctrls name).inbox := by
                rw [isInbox, arrived_cons]
                rfl
              have fewer : ∀ other ∈ rest, other ∈ (world.ctrls name).inbox := fun other member => by
                rw [isInbox]
                exact List.mem_cons_of_mem _ member
              have connected := (sound.connected name).write numbers fewer
                (List.nil_append _) (fun _ same => same) received
              rw [waits] at connected
              refine sound.same (fun above => ?_) rfl connected
              rw [sound.unopened name above] at isInbox
              exact absurd isInbox (by simp [Ctrl.unused])

theorem start_sound (state : State) : Sound answer (World.start state) where
  unopened := fun _ _ => rfl
  requests := fun _ member => absurd member List.not_mem_nil
  connected := fun _ =>
    { inOrder := ⟨[], rfl, nofun⟩
      returned := rfl
      closed := fun _ => ⟨rfl, rfl⟩
      roomy := fun _ member => absurd member (by simp [World.start, Ctrl.unused])
      datagrams := fun _ member => absurd member List.not_mem_nil
      entries := fun _ member => absurd member List.not_mem_nil }

/-- A call returns with an answer or without, and the rest of the answers are
drained. -/
theorem taken_length {sent : List Bytes} :
    ∀ {log : List Entry}, (∀ entry ∈ log, entry.Genuine answer sent) →
      (taken log).length + lost log = (calls log).length + drained log := by
  intro log
  induction log with
  | nil => intro _; rfl
  | cons entry rest inductionHypothesis =>
      intro genuine
      have later := inductionHypothesis fun other member =>
        genuine other (List.mem_cons_of_mem _ member)
      have here := genuine entry List.mem_cons_self
      simp only [taken, lost, calls, drained, List.filterMap_cons, List.countP_cons] at later ⊢
      cases entry with
      | returned number outcome =>
          cases outcome with
          | reply room datagram =>
              obtain ⟨answered, isAnswer⟩ := Option.isSome_iff_exists.mp here.2
              simp only [Entry.number, Entry.isLost, Entry.own, Entry.isDrained, isAnswer,
                List.length_cons, Bool.false_eq_true, if_false]
              omega
          | timedOut =>
              simp only [Entry.number, Entry.isLost, Entry.own, Entry.isDrained, List.length_cons,
                Bool.false_eq_true, if_false, if_true]
              omega
          | failed =>
              simp only [Entry.number, Entry.isLost, Entry.own, Entry.isDrained, List.length_cons,
                Bool.false_eq_true, if_false, if_true]
              omega
      | unsent => exact later
      | message text => exact later
      | received room datagram =>
          cases isAnswer : datagram.answers with
          | none =>
              simp only [Entry.number, Entry.isLost, Entry.own, Entry.isDrained, isAnswer,
                Option.isSome_none, Bool.false_eq_true, if_false]
              exact later
          | some answered =>
              simp only [Entry.number, Entry.isLost, Entry.own, Entry.isDrained, isAnswer,
                Option.isSome_some, List.length_cons, Bool.false_eq_true, if_false, if_true]
              omega

theorem run_sound (plain : ∀ state command, (answer state command).1.head? ≠ some lessThan)
    {state : State} {actions : List Action}
    (roomy : EveryStep (step answer) (fun _ => Action.Roomy) (World.start state) actions)
    (ran : run (step answer) (World.start state) actions = some world) : Sound answer world :=
  run_admitted (fun _ _ _ sound isRoomy stepped => step_sound plain sound isRoomy stepped)
    (start_sound state) roomy ran

/-- The answer a call returns is to the command that is as many commands before
its own as answers were lost and not drained. -/
theorem reply_number (plain : ∀ state command, (answer state command).1.head? ≠ some lessThan)
    {state : State} {actions : List Action}
    (roomy : EveryStep (step answer) (fun _ => Action.Roomy) (World.start state) actions)
    (ran : run (step answer) (World.start state) actions = some world) {name own room : Nat}
    {datagram : Datagram} {before after : List Entry}
    (isLog : (world.ctrls name).log = before ++ .returned own (.reply room datagram) :: after) :
    ∃ number command, datagram.answers = some number ∧
      (world.ctrls name).sent[number]? = some command ∧
      (∃ earlier, (answer earlier command).1 = datagram.text) ∧
      number + lost before = own + drained before := by
  have connected := (run_sound plain roomy ran).connected name
  have genuine : ∀ entry ∈ before ++ .returned own (.reply room datagram) :: after,
      entry.Genuine answer (world.ctrls name).sent := by
    rw [← isLog]
    exact connected.entries
  have here : (Entry.returned own (.reply room datagram)).Genuine answer (world.ctrls name).sent :=
    genuine _ (by simp)
  obtain ⟨number, isAnswer⟩ := Option.isSome_iff_exists.mp here.2
  have ownPosition : own = (calls before).length := by
    have isOwn : (Entry.returned own (.reply room datagram)).own = some own := rfl
    have returned := connected.returned
    rw [isLog, calls, List.filterMap_append, List.filterMap_cons_some isOwn] at returned
    exact position_of_range returned
  have position : number = (taken before).length := by
    have isNumber : (Entry.returned own (.reply room datagram)).number = some number := isAnswer
    obtain ⟨rest, inOrder, -⟩ := connected.inOrder
    rw [isLog, taken, List.filterMap_append, List.filterMap_cons_some isNumber] at inOrder
    exact position_of_range inOrder
  have answers := here.1
  simp only [Genuine, isAnswer] at answers
  obtain ⟨command, isSent, isText⟩ := answers
  refine ⟨number, command, isAnswer, isSent, isText, ?_⟩
  rw [position, ownPosition]
  exact taken_length fun entry member => genuine entry (List.mem_append_left _ member)

/-- A supplicant that answers with the command itself. -/
def echo (state : Unit) (command : Bytes) : Bytes × Unit :=
  if command.head? = some lessThan then ([], state) else (command, state)

theorem echo_plain (state : Unit) (command : Bytes) :
    (echo state command).1.head? ≠ some lessThan := by
  unfold echo
  split
  · simp
  · assumption

/-- The second request gets the answer that came too late for the first. -/
def lateAnswer : List Action :=
  [.wpaCtrlOpen, .send 1 [65] 8, .timeout 1, .serve, .send 1 [66] 8, .serve, .recv 1]

theorem reply_number_lateAnswer :
    ∃ world, run (step echo) (World.start ()) lateAnswer = some world ∧
      (world.ctrls 1).log = [.returned 0 .timedOut, .returned 1 (.reply 8 ⟨some 0, [65]⟩)] ∧
      ∃ number command, (⟨some 0, [65]⟩ : Datagram).answers = some number ∧
        (world.ctrls 1).sent[number]? = some command ∧
        (∃ earlier, (echo earlier command).1 = [65]) ∧
        number + lost [.returned 0 .timedOut] = 1 + drained [.returned 0 .timedOut] := by
  have roomy : EveryStep (step echo) (fun _ => Action.Roomy) (World.start ()) lateAnswer :=
    everyStep_of_mem (fun action member _ =>
      (by decide : ∀ action ∈ lateAnswer, action.Roomy) action member) _
  exact ⟨_, rfl, rfl, reply_number echo_plain roomy rfl rfl⟩

/-! ## A connection for each command -/

/-- A command is the only one of its connection, as `wifi_send_command` sends it. -/
def Alone (world : World State) : Action → Prop
  | .send name _ room => 0 < room ∧ (world.ctrls name).sent = []
  | _ => True

instance (world : World State) : ∀ action : Action, Decidable (Alone world action)
  | .send name _ room => inferInstanceAs (Decidable (0 < room ∧ (world.ctrls name).sent = []))
  | .wpaCtrlOpen | .wpaCtrlClose _ | .sendFails _ | .serve | .unsolicited _ _ | .recv _
  | .timeout _ | .fail _ | .wpaCtrlRecv _ _ => inferInstanceAs (Decidable True)

theorem Alone.roomy {action : Action} (alone : Alone world action) : action.Roomy := by
  cases action with
  | send name command room => exact alone.1
  | _ => trivial

theorem sent_setCtrl (name other : Nat) {ctrl : Ctrl}
    (sameSent : ctrl.sent = (world.ctrls name).sent) :
    ((world.setCtrl name ctrl).ctrls other).sent = (world.ctrls other).sent := by
  unfold World.setCtrl
  by_cases isName : other = name
  · rw [isName]
    simp only [Function.update_self, sameSent]
  · simp only [Function.update_of_ne isName]

/-- Only a new connection and a request change what a connection sent. -/
theorem step_sent {action : Action} (stepped : step answer world action = some next)
    (other : Nat) :
    (next.ctrls other).sent = (world.ctrls other).sent ∨ (next.ctrls other).sent = [] ∨
      ∃ command room, action = .send other command room ∧
        (next.ctrls other).sent = (world.ctrls other).sent ++ [command] := by
  cases action with
  | wpaCtrlOpen =>
      rw [← Option.some.inj stepped]
      by_cases isNew : other = world.counter + 1
      · simp [World.setCtrl, isNew, Ctrl.unused]
      · simp [World.setCtrl, isNew]
  | wpaCtrlClose name =>
      rw [← Option.some.inj (Option.ite_none_right_eq_some.mp stepped).2]
      exact Or.inl (sent_setCtrl name other rfl)
  | send name command room =>
      rw [← Option.some.inj (Option.ite_none_right_eq_some.mp stepped).2]
      by_cases isName : other = name
      · rw [isName]
        exact Or.inr (Or.inr ⟨command, room, rfl, by simp [World.setCtrl]⟩)
      · simp [World.setCtrl, isName]
  | sendFails name =>
      rw [← Option.some.inj (Option.ite_none_right_eq_some.mp stepped).2]
      exact Or.inl (sent_setCtrl name other rfl)
  | serve =>
      cases isHead : world.requests with
      | nil => simp [step, isHead] at stepped
      | cons request rest =>
          simp only [step, isHead, Option.some.injEq] at stepped
          rw [← stepped]
          exact Or.inl (sent_setCtrl request.ctrl other (Ctrl.deliver_sent _ _))
  | unsolicited name text =>
      rw [← Option.some.inj (Option.ite_none_right_eq_some.mp stepped).2]
      exact Or.inl (sent_setCtrl name other (Ctrl.deliver_sent _ _))
  | recv name =>
      simp only [step] at stepped
      split at stepped
      · rw [← Option.some.inj stepped]
        exact Or.inl (sent_setCtrl name other (Ctrl.receive_sent _ _ _ _))
      · cases stepped
  | timeout name =>
      simp only [step] at stepped
      split at stepped
      · rw [← Option.some.inj stepped]
        exact Or.inl (sent_setCtrl name other rfl)
      · cases stepped
  | fail name =>
      simp only [step] at stepped
      split at stepped
      · rw [← Option.some.inj stepped]
        exact Or.inl (sent_setCtrl name other rfl)
      · cases stepped
  | wpaCtrlRecv name room =>
      simp only [step] at stepped
      split at stepped
      · rw [← Option.some.inj stepped]
        exact Or.inl (sent_setCtrl name other rfl)
      · cases stepped

def Short (world : World State) : Prop := ∀ name, (world.ctrls name).sent.length ≤ 1

theorem start_short (state : State) : Short (World.start state) := fun _ => Nat.zero_le 1

theorem step_short {action : Action} (kept : Short world) (alone : Alone world action)
    (stepped : step answer world action = some next) : Short next := by
  intro other
  rcases step_sent stepped other with same | nothing | ⟨command, room, isSend, isSent⟩
  · rw [same]
    exact kept other
  · rw [nothing]
    exact Nat.zero_le 1
  · rw [isSend] at alone
    rw [isSent, alone.2]
    exact le_refl 1

theorem Connected.own_lt {name : Nat} {requests : List Pending} {ctrl : Ctrl}
    (connected : Connected answer requests name ctrl) {own : Nat} {outcome : Outcome}
    (member : .returned own outcome ∈ ctrl.log) : own < ctrl.sent.length := by
  have isCall : own ∈ calls ctrl.log := List.mem_filterMap.mpr ⟨_, member, rfl⟩
  have isNumber := List.mem_append_left (ctrl.waiting.toList.map Waiting.number) isCall
  rw [connected.returned] at isNumber
  exact List.mem_range.mp isNumber

/-- With a connection for each command a call returns the answer to its own
command, whatever other connections do and however many calls gave up before. -/
theorem reply_alone (plain : ∀ state command, (answer state command).1.head? ≠ some lessThan)
    {state : State} {actions : List Action}
    (alone : EveryStep (step answer) Alone (World.start state) actions)
    (ran : run (step answer) (World.start state) actions = some world) {name own room : Nat}
    {datagram : Datagram} (member : .returned own (.reply room datagram) ∈ (world.ctrls name).log) :
    ∃ command, (world.ctrls name).sent = [command] ∧ own = 0 ∧ datagram.answers = some own ∧
      ∃ earlier, (answer earlier command).1 = datagram.text := by
  have roomy : EveryStep (step answer) (fun _ => Action.Roomy) (World.start state) actions :=
    alone.mono fun _ _ => Alone.roomy
  have short : Short world :=
    run_admitted (fun _ _ _ kept isAlone stepped => step_short kept isAlone stepped)
      (start_short state) alone ran
  obtain ⟨before, after, isLog⟩ := List.append_of_mem member
  obtain ⟨number, command, isAnswer, isSent, isText, -⟩ := reply_number plain roomy ran isLog
  have below := (List.getElem?_eq_some_iff.mp isSent).1
  have ownBelow := ((run_sound plain roomy ran).connected name).own_lt member
  have onlyOne := short name
  have isZero : number = 0 := by omega
  have ownZero : own = 0 := by omega
  obtain ⟨only, isOnly⟩ := List.length_eq_one_iff.mp (by omega : (world.ctrls name).sent.length = 1)
  rw [isOnly, isZero, List.getElem?_cons_zero, Option.some.injEq] at isSent
  rw [isSent] at isOnly
  exact ⟨command, isOnly, ownZero, by rw [isAnswer, isZero, ownZero], isText⟩

/-- The late answer goes to a connection that is closed. -/
def reopened : List Action :=
  [.wpaCtrlOpen, .send 1 [65] 8, .timeout 1, .wpaCtrlClose 1, .serve, .wpaCtrlOpen,
    .send 2 [66] 8, .unsolicited 2 [60], .serve, .recv 2, .recv 2]

theorem reply_alone_reopened :
    ∃ world, run (step echo) (World.start ()) reopened = some world ∧
      Entry.returned 0 (.reply 8 ⟨some 0, [66]⟩) ∈ (world.ctrls 2).log ∧
      ∃ command, (world.ctrls 2).sent = [command] ∧ 0 = 0 ∧
        (⟨some 0, [66]⟩ : Datagram).answers = some 0 ∧
        ∃ earlier, (echo earlier command).1 = [66] := by
  have alone : EveryStep (step echo) Alone (World.start ()) reopened := by
    decide
  have member : ∀ world, run (step echo) (World.start ()) reopened = some world →
      Entry.returned 0 (.reply 8 ⟨some 0, [66]⟩) ∈ (world.ctrls 2).log := by
    intro world ran
    cases ran
    decide
  exact ⟨_, rfl, member _ rfl, reply_alone echo_plain alone rfl (member _ rfl)⟩

end Runs

end TuyaAdapter.WpaCtrl
