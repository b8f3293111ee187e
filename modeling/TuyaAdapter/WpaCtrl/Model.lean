import Mathlib.Logic.Function.Basic

/-!
Contract: the control sockets of `wpa_ctrl.c`, between any number of
connections and one supplicant.

A step is one socket call of a client or one turn of the supplicant, and the
steps of all of them come in any order. A connection is used by one thread at a
time. The sockets lose and reorder nothing. What the supplicant answers to a
command is a parameter; it may send a message on its own at any time.

A connection is named by the counter in its path. The log of a connection and
the number on a datagram are history: no step reads them.
-/

namespace TuyaAdapter.WpaCtrl

abbrev Bytes := List UInt8

/-- The first byte of a message that is not an answer. -/
def lessThan : UInt8 := 60

/-! ## Connections -/

/-- A datagram on its way to a client. Answers carry the number of the request
on the connection. -/
structure Datagram where
  answers : Option Nat
  text : Bytes
deriving DecidableEq, Repr

/-- How `wpa_ctrl_request` returns once the command is sent. -/
inductive Outcome where
  /-- `0`, with as much of the datagram as there is room for -/
  | reply (room : Nat) (datagram : Datagram)
  /-- `-2` -/
  | timedOut
  /-- what `select` or `recv` returned -/
  | failed
deriving DecidableEq, Repr

inductive Entry where
  /-- The request returned that sent the command with this number. -/
  | returned (number : Nat) (outcome : Outcome)
  /-- `send` failed -/
  | unsent
  /-- `msg_cb` is called, if there is one. -/
  | message (text : Bytes)
  /-- `wpa_ctrl_recv` returned a datagram. -/
  | received (room : Nat) (datagram : Datagram)
deriving DecidableEq, Repr

/-- A request that waits in `select`, with the number of its command and the
size of its reply buffer. -/
structure Waiting where
  number : Nat
  room : Nat
deriving DecidableEq, Repr

/-- `struct wpa_ctrl` with its socket. -/
structure Ctrl where
  isOpen : Bool
  sent : List Bytes
  inbox : List Datagram
  waiting : Option Waiting
  log : List Entry
deriving DecidableEq, Repr

def Ctrl.unused : Ctrl := ⟨false, [], [], none, []⟩

/-- A command in the socket of the supplicant. -/
structure Pending where
  ctrl : Nat
  number : Nat
  command : Bytes
deriving DecidableEq, Repr

structure World (State : Type) where
  counter : Nat
  ctrls : Nat → Ctrl
  requests : List Pending
  state : State

inductive Action where
  | wpaCtrlOpen
  | wpaCtrlClose (ctrl : Nat)
  /-- `wpa_ctrl_request` up to its `select` -/
  | send (ctrl : Nat) (command : Bytes) (room : Nat)
  | sendFails (ctrl : Nat)
  /-- The supplicant takes the next command and answers it. -/
  | serve
  /-- The supplicant sends a message that answers nothing. -/
  | unsolicited (ctrl : Nat) (text : Bytes)
  /-- One turn of the loop of `wpa_ctrl_request` that receives. -/
  | recv (ctrl : Nat)
  | timeout (ctrl : Nat)
  | fail (ctrl : Nat)
  | wpaCtrlRecv (ctrl : Nat) (room : Nat)
deriving DecidableEq, Repr

/-! ## Steps -/

/-- The loop of `wpa_ctrl_request` after `recv`. -/
def Ctrl.receive (ctrl : Ctrl) (waiting : Waiting) (datagram : Datagram) (rest : List Datagram) :
    Ctrl :=
  let res := datagram.text.take waiting.room
  if res.head? = some lessThan then
    -- A message as long as the buffer loses its last byte to the terminator.
    { ctrl with inbox := rest, log := ctrl.log ++ [.message (res.take (waiting.room - 1))] }
  else
    { ctrl with
      inbox := rest
      waiting := none
      log := ctrl.log ++ [.returned waiting.number (.reply waiting.room datagram)] }

/-- The request returns without a datagram. -/
def Ctrl.giveUp (ctrl : Ctrl) (waiting : Waiting) (outcome : Outcome) : Ctrl :=
  { ctrl with waiting := none, log := ctrl.log ++ [.returned waiting.number outcome] }

/-- A datagram to a closed socket is gone. -/
def Ctrl.deliver (ctrl : Ctrl) (datagram : Datagram) : Ctrl :=
  if ctrl.isOpen then { ctrl with inbox := ctrl.inbox ++ [datagram] } else ctrl

def World.setCtrl {State : Type} (world : World State) (name : Nat) (ctrl : Ctrl) : World State :=
  { world with ctrls := Function.update world.ctrls name ctrl }

/-- The step is missing when the client is not in a position to take it. -/
def step {State : Type} (answer : State → Bytes → Bytes × State) (world : World State) :
    Action → Option (World State)
  | .wpaCtrlOpen =>
      let name := world.counter + 1
      some ({ world with counter := name }.setCtrl name { Ctrl.unused with isOpen := true })
  | .wpaCtrlClose name =>
      let ctrl := world.ctrls name
      if ctrl.isOpen = true ∧ ctrl.waiting = none then
        some (world.setCtrl name { ctrl with isOpen := false, inbox := [] })
      else none
  | .send name command room =>
      let ctrl := world.ctrls name
      if ctrl.isOpen = true ∧ ctrl.waiting = none then
        let requests := world.requests ++ [⟨name, ctrl.sent.length, command⟩]
        some ({ world with requests := requests }.setCtrl name
          { ctrl with sent := ctrl.sent ++ [command], waiting := some ⟨ctrl.sent.length, room⟩ })
      else none
  | .sendFails name =>
      let ctrl := world.ctrls name
      if ctrl.isOpen = true ∧ ctrl.waiting = none then
        some (world.setCtrl name { ctrl with log := ctrl.log ++ [.unsent] })
      else none
  | .serve =>
      match world.requests with
      | [] => none
      | request :: rest =>
          let answered := answer world.state request.command
          let ctrl := world.ctrls request.ctrl
          some ({ world with requests := rest, state := answered.2 }.setCtrl request.ctrl
            (ctrl.deliver ⟨some request.number, answered.1⟩))
  | .unsolicited name text =>
      if text.head? = some lessThan then
        some (world.setCtrl name ((world.ctrls name).deliver ⟨none, text⟩))
      else none
  | .recv name =>
      let ctrl := world.ctrls name
      match ctrl.waiting, ctrl.inbox with
      | some waiting, datagram :: rest =>
          some (world.setCtrl name (ctrl.receive waiting datagram rest))
      | _, _ => none
  | .timeout name =>
      let ctrl := world.ctrls name
      match ctrl.waiting, ctrl.inbox with
      | some waiting, [] => some (world.setCtrl name (ctrl.giveUp waiting .timedOut))
      | _, _ => none
  | .fail name =>
      let ctrl := world.ctrls name
      match ctrl.waiting with
      | some waiting => some (world.setCtrl name (ctrl.giveUp waiting .failed))
      | none => none
  | .wpaCtrlRecv name room =>
      let ctrl := world.ctrls name
      match ctrl.waiting, ctrl.inbox with
      | none, datagram :: rest =>
          some (world.setCtrl name
            { ctrl with inbox := rest, log := ctrl.log ++ [.received room datagram] })
      | _, _ => none

/-- No connection is open yet. -/
def World.start {State : Type} (state : State) : World State := ⟨0, fun _ => .unused, [], state⟩

end TuyaAdapter.WpaCtrl
