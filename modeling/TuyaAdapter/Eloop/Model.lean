import Mathlib.Algebra.Group.Int.Defs
import Mathlib.Algebra.Group.Nat.Defs
import Mathlib.Data.List.Sort

/-!
Contract: the event loop of `eloop.c`.

A step is one access of `eloop_run` to the state it shares with signals, one
call of the interface, or one signal. Calls come from handlers and from outside
the loop; a handler does not run the loop again. A signal comes at any point but
inside a call. The clock and `select` are inputs, and an `fd_set` holds any
socket.

The numbers of timeouts, the calls of a pass and the log are history: no step
reads them.
-/

namespace TuyaAdapter.Eloop

abbrev Pointer := Nat

/-- `ELOOP_ALL_CTX` -/
def eloopAllCtx : Pointer := 2 ^ 64 - 1

/-! ## Time -/

structure OsTime where
  sec : Int
  usec : Int
deriving DecidableEq, Repr

/-- What a `long` keeps of a value. -/
def long (value : Int) : Int := value.bmod (2 ^ 64)

/-- The clock counts microseconds. -/
def osGetTime (micros : Nat) : OsTime :=
  ⟨long (micros / 1000000 : Nat), (micros % 1000000 : Nat)⟩

def osTimeBefore (a b : OsTime) : Bool :=
  decide (a.sec < b.sec) || (decide (a.sec = b.sec) && decide (a.usec < b.usec))

def osTimeSub (a b : OsTime) : OsTime :=
  let sec := long (a.sec - b.sec)
  let usec := a.usec - b.usec
  if usec < 0 then ⟨long (sec - 1), usec + 1000000⟩ else ⟨sec, usec⟩

/-- The loop that moves whole seconds out of the microseconds. -/
def OsTime.carry : Nat → OsTime → OsTime
  | 0, time => time
  | turns + 1, time =>
      if 1000000 ≤ time.usec then
        OsTime.carry turns ⟨long (time.sec + 1), time.usec - 1000000⟩
      else time

/-- The time of a new timeout, unless the seconds overflow. -/
def OsTime.after (now : OsTime) (secs usecs : UInt32) : Option OsTime :=
  let sec := long (now.sec + secs.toNat)
  if sec < now.sec then none
  else
    let usec := now.usec + usecs.toNat
    some (OsTime.carry (usec.toNat / 1000000) ⟨sec, usec⟩)

/-! ## Tables -/

inductive EventType where
  | read
  | write
  | exception
deriving DecidableEq, Repr

/-- `struct eloop_sock` -/
structure Sock where
  sock : Nat
  handler : Pointer
  eloopData : Pointer
  userData : Pointer
deriving DecidableEq, Repr

/-- `struct eloop_sock_table` -/
structure SockTable where
  table : List Sock
  changed : Bool
deriving DecidableEq, Repr

/-- `struct eloop_timeout` with the number of its registration -/
structure Timeout where
  number : Nat
  time : OsTime
  handler : Pointer
  eloopData : Pointer
  userData : Pointer
deriving DecidableEq, Repr

/-- `struct eloop_signal` -/
structure Signal where
  sig : Nat
  handler : Pointer
  userData : Pointer
  signaled : Nat
deriving DecidableEq, Repr

/-- `struct eloop_data` with the alarm clock of the process -/
structure EloopData where
  maxSock : Nat
  tables : EventType → SockTable
  timeout : List Timeout
  signals : List Signal
  signaled : Nat
  pendingTerminate : Bool
  alarm : Bool
  terminate : Bool

def eloopInit : EloopData := ⟨0, fun _ => ⟨[], false⟩, [], [], 0, false, false, false⟩

/-! ## The interface -/

def EloopData.setTable (eloop : EloopData) (type : EventType) (table : SockTable) : EloopData :=
  { eloop with tables := fun other => if other = type then table else eloop.tables other }

def eloopRegisterSock (eloop : EloopData) (type : EventType) (sock : Sock) : EloopData :=
  { eloop.setTable type ⟨(eloop.tables type).table ++ [sock], true⟩ with
    maxSock := if eloop.maxSock < sock.sock then sock.sock else eloop.maxSock }

/-- The first entry of the socket goes, if there is one. -/
def eloopUnregisterSock (eloop : EloopData) (type : EventType) (sock : Nat) : EloopData :=
  let table := (eloop.tables type).table
  if table.any fun entry => entry.sock = sock then
    eloop.setTable type ⟨table.eraseP fun entry => entry.sock = sock, true⟩
  else eloop

theorem eloopUnregisterSock_frame (eloop : EloopData) (type : EventType) (sock : Nat) :
    ∃ tables, eloopUnregisterSock eloop type sock = { eloop with tables := tables } := by
  unfold eloopUnregisterSock
  simp only
  split
  · exact ⟨_, rfl⟩
  · exact ⟨eloop.tables, rfl⟩

/-- The list is kept in the order of time. -/
def eloopRegisterTimeout (eloop : EloopData) (timeout : Timeout) : EloopData :=
  { eloop with
    timeout := eloop.timeout.orderedInsert
      (fun new tmp => osTimeBefore new.time tmp.time = true) timeout }

def Timeout.cancelled (handler eloopData userData : Pointer) (timeout : Timeout) : Bool :=
  decide (timeout.handler = handler) &&
    (decide (timeout.eloopData = eloopData) || decide (eloopData = eloopAllCtx)) &&
    (decide (timeout.userData = userData) || decide (userData = eloopAllCtx))

def eloopCancelTimeout (eloop : EloopData) (handler eloopData userData : Pointer) : EloopData :=
  { eloop with
    timeout := eloop.timeout.filter fun timeout =>
      !timeout.cancelled handler eloopData userData }

def eloopIsTimeoutRegistered (eloop : EloopData) (handler eloopData userData : Pointer) : Bool :=
  eloop.timeout.any fun tmp =>
    decide (tmp.handler = handler) && decide (tmp.eloopData = eloopData) &&
      decide (tmp.userData = userData)

def eloopRegisterSignal (eloop : EloopData) (sig : Nat) (handler userData : Pointer) : EloopData :=
  { eloop with signals := eloop.signals ++ [⟨sig, handler, userData, 0⟩] }

def sigint : Nat := 2

def sigterm : Nat := 15

/-- The first entry of the signal is marked. -/
def markSignal (sig : Nat) : List Signal → List Signal
  | [] => []
  | entry :: rest =>
      if entry.sig = sig then { entry with signaled := entry.signaled + 1 } :: rest
      else entry :: markSignal sig rest

def eloopHandleSignal (eloop : EloopData) (sig : Nat) : EloopData :=
  let armed :=
    if (sig = sigint ∨ sig = sigterm) ∧ eloop.pendingTerminate = false then
      { eloop with pendingTerminate := true, alarm := true }
    else eloop
  { armed with signaled := eloop.signaled + 1, signals := markSignal sig eloop.signals }

/-! ## The loop -/

/-- The sockets that `select` found, when it found any. -/
abbrev Found := Option (EventType → List Nat)

inductive Outcome where
  | found (sockets : EventType → List Nat)
  /-- `0`, or `EINTR` -/
  | nothing
  | fails

/-- The place of `eloop_run` where it is. -/
inductive Point where
  /-- The loop does not run. -/
  | idle
  | loop
  | selecting (wait : Option OsTime)
  /-- `eloop_process_pending_signals`, at its first line -/
  | pending (found : Found)
  /-- at `eloop.signaled = 0` -/
  | clearing (found : Found)
  /-- at the test of `eloop.pending_terminate` -/
  | terminating (found : Found)
  /-- at `alarm(0)` -/
  | disarming (found : Found)
  /-- at `eloop.pending_terminate = 0` -/
  | disarmed (found : Found)
  /-- at the test of entry `i` -/
  | signal (found : Found) (i : Nat)
  /-- Entry `i` was found marked. -/
  | marked (found : Found) (i : Nat)
  | inSignal (found : Found) (i : Nat)
  | timeouts (found : Found)
  | inTimeout (found : Found)
  /-- `eloop_sock_table_dispatch`, at its first line -/
  | dispatch (sockets : EventType → List Nat) (type : EventType)
  /-- at the test of entry `i` of the table -/
  | sock (sockets : EventType → List Nat) (type : EventType) (i : Nat)
  | inSock (sockets : EventType → List Nat) (type : EventType) (i : Nat)

/-- The place is one from which calls come. -/
def Point.calls : Point → Bool
  | .idle => true
  | .inSignal _ _ => true
  | .inTimeout _ => true
  | .inSock _ _ _ => true
  | _ => false

inductive Event where
  /-- A timeout is registered at a time of the clock for a delay. -/
  | timeoutRegistered (timeout : Timeout) (micros : Nat) (secs usecs : UInt32)
  | timeoutsCancelled (handler eloopData userData : Pointer)
  | timeoutCalled (timeout : Timeout) (micros : Nat)
  | signalRegistered (sig : Nat)
  /-- A signal comes; entry `i` is the first that is registered for it. -/
  | signalArrived (sig i : Nat)
  /-- The handler of an entry is called. -/
  | signalCalled (i : Nat)
  /-- A pass over a table is over: the table it began with, the sockets that
  were found, the entries it called, and whether the table was changed. -/
  | pass (table : List Sock) (sockets : List Nat) (called : List Sock) (changed : Bool)
deriving DecidableEq, Repr

structure State where
  eloop : EloopData
  point : Point
  registered : Nat
  begun : List Sock
  called : List Sock
  log : List Event

inductive Action where
  | eloopRegisterSock (type : EventType) (sock : Sock)
  | eloopUnregisterSock (type : EventType) (sock : Nat)
  | eloopRegisterTimeout (micros : Nat) (secs usecs : UInt32)
      (handler eloopData userData : Pointer)
  | eloopCancelTimeout (handler eloopData userData : Pointer)
  | eloopRegisterSignal (sig : Nat) (handler userData : Pointer)
  | eloopTerminate
  /-- `eloop_run` is called. -/
  | eloopRun
  /-- The handler returns. -/
  | return_
  | arrive (sig : Nat)
  | select (outcome : Outcome)
  /-- The loop takes its next step. -/
  | advance (micros : Nat)

def State.to (state : State) (point : Point) : State := { state with point := point }

/-- How long `select` may wait. -/
def waitFor (eloop : EloopData) (micros : Nat) : Option OsTime :=
  eloop.timeout.head?.map fun timeout =>
    let now := osGetTime micros
    if osTimeBefore now timeout.time then osTimeSub timeout.time now else ⟨0, 0⟩

/-- The condition of the loop. -/
def EloopData.goesOn (eloop : EloopData) : Bool :=
  !eloop.terminate && (!eloop.timeout.isEmpty || !(eloop.tables .read).table.isEmpty ||
    !(eloop.tables .write).table.isEmpty || !(eloop.tables .exception).table.isEmpty)

/-- The place after the timeouts. -/
def afterTimeouts : Found → Point
  | none => .loop
  | some sockets => .dispatch sockets .read

def afterPass (sockets : EventType → List Nat) : EventType → Point
  | .read => .dispatch sockets .write
  | .write => .dispatch sockets .exception
  | .exception => .loop

/-- A pass over a table is over. -/
def State.passed (state : State) (sockets : EventType → List Nat) (type : EventType) : State :=
  { state with
    point := afterPass sockets type
    log := state.log ++
      [.pass state.begun (sockets type) state.called (state.eloop.tables type).changed] }

def clearMark (i : Nat) (signals : List Signal) : List Signal :=
  signals.modify i fun entry => { entry with signaled := 0 }

def advance (state : State) (micros : Nat) : Option State :=
  let eloop := state.eloop
  match state.point with
  | .loop =>
      if eloop.goesOn = true then some (state.to (.selecting (waitFor eloop micros)))
      else some (state.to .idle)
  | .pending found =>
      if eloop.signaled = 0 then some (state.to (.timeouts found))
      else some (state.to (.clearing found))
  | .clearing found =>
      some (State.to { state with eloop := { eloop with signaled := 0 } } (.terminating found))
  | .terminating found =>
      if eloop.pendingTerminate = true then some (state.to (.disarming found))
      else some (state.to (.signal found 0))
  | .disarming found =>
      some (State.to { state with eloop := { eloop with alarm := false } } (.disarmed found))
  | .disarmed found =>
      some (State.to { state with eloop := { eloop with pendingTerminate := false } }
        (.signal found 0))
  | .signal found i =>
      match eloop.signals[i]? with
      | none => some (state.to (.timeouts found))
      | some entry =>
          if entry.signaled = 0 then some (state.to (.signal found (i + 1)))
          else some (state.to (.marked found i))
  | .marked found i =>
      some { state with
        eloop := { eloop with signals := clearMark i eloop.signals }
        point := .inSignal found i
        log := state.log ++ [.signalCalled i] }
  | .timeouts found =>
      match eloop.timeout with
      | [] => some (state.to (afterTimeouts found))
      | timeout :: rest =>
          if osTimeBefore (osGetTime micros) timeout.time = true then
            some (state.to (afterTimeouts found))
          else
            some { state with
              eloop := { eloop with timeout := rest }
              point := .inTimeout found
              log := state.log ++ [.timeoutCalled timeout micros] }
  | .dispatch sockets type =>
      let table := (eloop.tables type).table
      some { state with
        eloop := eloop.setTable type ⟨table, false⟩
        point := .sock sockets type 0
        begun := table
        called := [] }
  | .sock sockets type i =>
      match (eloop.tables type).table[i]? with
      | none => some (state.passed sockets type)
      | some entry =>
          if entry.sock ∈ sockets type then
            some (State.to { state with called := state.called ++ [entry] }
              (.inSock sockets type i))
          else some (state.to (.sock sockets type (i + 1)))
  | _ => none

/-- The handler returns to the loop. -/
def returns (state : State) : Option State :=
  match state.point with
  | .inSignal found i => some (state.to (.signal found (i + 1)))
  | .inTimeout found => some (state.to (afterTimeouts found))
  | .inSock sockets type i =>
      if (state.eloop.tables type).changed = true then some (state.passed sockets type)
      else some (state.to (.sock sockets type (i + 1)))
  | _ => none

/-- `select` is asked for the sockets up to `max_sock` that are registered. -/
def EloopData.asks (eloop : EloopData) (type : EventType) (sock : Nat) : Prop :=
  sock ∈ (eloop.tables type).table.map Sock.sock ∧ sock < eloop.maxSock + 1

instance (eloop : EloopData) (type : EventType) (sock : Nat) : Decidable (eloop.asks type sock) :=
  inferInstanceAs (Decidable (_ ∧ _))

def selects (state : State) (outcome : Outcome) : Option State :=
  match state.point, outcome with
  | .selecting _, .fails => some (state.to .idle)
  | .selecting _, .nothing => some (state.to (.pending none))
  | .selecting _, .found sockets =>
      if ∀ type ∈ [EventType.read, .write, .exception], ∀ sock ∈ sockets type,
          state.eloop.asks type sock then
        some (state.to (.pending (some sockets)))
      else none
  | _, _ => none

def State.registerTimeout (state : State) (timeout : Timeout) (micros : Nat)
    (secs usecs : UInt32) : State :=
  { state with
    eloop := eloopRegisterTimeout state.eloop timeout
    registered := state.registered + 1
    log := state.log ++ [.timeoutRegistered timeout micros secs usecs] }

/-- A call of the interface. -/
def calls (state : State) : Action → Option State
  | .eloopRegisterSock type sock =>
      some { state with eloop := eloopRegisterSock state.eloop type sock }
  | .eloopUnregisterSock type sock =>
      some { state with eloop := eloopUnregisterSock state.eloop type sock }
  | .eloopRegisterTimeout micros secs usecs handler eloopData userData =>
      let time := (osGetTime micros).after secs usecs
      some (time.elim state fun time =>
        state.registerTimeout ⟨state.registered, time, handler, eloopData, userData⟩ micros secs
          usecs)
  | .eloopCancelTimeout handler eloopData userData =>
      some { state with
        eloop := eloopCancelTimeout state.eloop handler eloopData userData
        log := state.log ++ [.timeoutsCancelled handler eloopData userData] }
  | .eloopRegisterSignal sig handler userData =>
      some { state with
        eloop := eloopRegisterSignal state.eloop sig handler userData
        log := state.log ++ [.signalRegistered sig] }
  | .eloopTerminate => some { state with eloop := { state.eloop with terminate := true } }
  | _ => none

/-- The step is missing when the loop is not at a place to take it. -/
def step (state : State) : Action → Option State
  | .advance micros => advance state micros
  | .return_ => returns state
  | .select outcome => selects state outcome
  | .arrive sig =>
      match state.eloop.signals.findIdx? fun entry => entry.sig = sig with
      | none => none
      | some i =>
          some { state with
            eloop := eloopHandleSignal state.eloop sig
            log := state.log ++ [.signalArrived sig i] }
  | .eloopRun =>
      match state.point with
      | .idle => some (state.to .loop)
      | _ => none
  | action => if state.point.calls = true then calls state action else none

def start : State := ⟨eloopInit, .idle, 0, [], [], []⟩

end TuyaAdapter.Eloop
