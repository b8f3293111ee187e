import Mathlib.Data.List.Basic
import TuyaAdapter.Foundation.Run

/-!
Contract: the polling loop `wifi_status_event_cb` and the poll
`tkl_wifi_station_get_status` behind it.

A turn of the loop is one step. What the poll stores in `stat` may depend on
what was there, because the source leaves `*stat` alone when the interface
cannot be asked for its essid; the loop is proved about for any poll. The
history records, for every turn, the polled status and the delivered event; no
step reads it.
-/

namespace TuyaAdapter.TklWifi

open Foundation.Run

/-! ## Station status -/

/-- `WF_STATION_STAT_E`. -/
inductive StationStat where
  | idle
  | connecting
  | passwdWrong
  | noApFound
  | connFail
  | connSuccess
  | gotIp
  | dhcpFail
deriving DecidableEq, Repr

/-- `WF_EVENT_E`. -/
inductive WfEvent where
  | connected
  | connectFailed
  | disconnected
deriving DecidableEq, Repr

/-- What the system calls of `tkl_wifi_station_get_status` answer. -/
structure Station where
  /-- `wifi_get_mode` says `WIFI_MODE_MANAGED`. -/
  managed : Bool
  /-- `WIFI_WPA_CTRL_PATH` can be accessed. -/
  ctrlPath : Bool
  /-- The address `wifi_get_bssid` stores, missing when it fails. -/
  bssid : Option (List UInt8)
  /-- The length of the address `wifi_get_ip` stores, missing when it fails. -/
  ipLength : Option Nat
  /-- `wifi_check_essid_on`: negative for an error. -/
  essidOn : Int
deriving DecidableEq, Repr

/-- `is_valid_mac` of six bytes. Its last check copies instead of comparing, so
the address of all ones is refused only by the first. -/
def isValidMac (mac : List UInt8) : Bool :=
  mac.headD 0 &&& 1 = 0 ∧ mac ≠ [0, 0, 0, 0, 0, 0]

/-- `tkl_wifi_station_get_status`: what `*stat` holds afterwards. -/
def tklWifiStationGetStatus (station : Station) (stat : StationStat) : StationStat :=
  if station.managed = false then .idle
  else if station.ctrlPath = false then .idle
  else
    let getApMac := station.bssid.any isValidMac
    let getIp := station.ipLength.any (· ≠ 0)
    let stat := if getApMac = false ∨ station.essidOn = 0 then .connFail else stat
    let stat := if getApMac ∧ station.essidOn = 1 ∧ getIp = false then .connSuccess else stat
    if getApMac ∧ station.essidOn = 1 ∧ getIp then .gotIp else stat

/-! ## The loop -/

/-- The variables of `wifi_status_event_cb`; `lastState` is missing for `-1`. -/
structure Locals where
  stat : StationStat
  lastStat : StationStat
  lastState : Option WfEvent
deriving DecidableEq, Repr

/-- What a turn of the loop meets: `sta_conn_flag`, and what the poll makes of
`stat`. -/
structure Turn where
  staConnFlag : Bool
  poll : StationStat → StationStat

/-- What a turn did: the status it polled and the event it delivered. -/
structure Outcome where
  polled : Option StationStat
  delivered : Option WfEvent
deriving DecidableEq, Repr

/-- The rest of a turn once `wf_event` is known and the branch for a connected
station has not delivered: an event is delivered when it is a new one. -/
def deliverNew (locals : Locals) (wfEvent : WfEvent) : Locals × Outcome :=
  if locals.lastState = some wfEvent then (locals, ⟨some locals.stat, none⟩)
  else ({ locals with lastState := some wfEvent }, ⟨some locals.stat, some wfEvent⟩)

/-- One turn of `wifi_status_event_cb`. -/
def wifiStatusEventTurn (locals : Locals) (turn : Turn) : Locals × Outcome :=
  if turn.staConnFlag = false then (locals, ⟨none, none⟩)
  else
    let stat := turn.poll locals.stat
    let locals := { locals with stat := stat }
    if stat = .idle then (locals, ⟨some stat, none⟩)
    else if stat = .connFail then deliverNew locals .connectFailed
    else if stat = .gotIp ∨ stat = .connSuccess then
      if locals.lastStat ≠ stat then
        ({ locals with lastStat := stat, lastState := some .connected },
          ⟨some stat, some .connected⟩)
      else deliverNew locals .connected
    else deliverNew locals .disconnected

structure Loop where
  locals : Locals
  history : List Outcome
deriving DecidableEq, Repr

def step (loop : Loop) (turn : Turn) : Option Loop :=
  let taken := wifiStatusEventTurn loop.locals turn
  some ⟨taken.1, loop.history ++ [taken.2]⟩

/-- The loop as it is entered. -/
def entered : Loop := ⟨⟨.idle, .idle, none⟩, []⟩

/-! ## What the events should say -/

/-- The event of a status that is not idle. -/
def eventOf : StationStat → WfEvent
  | .connSuccess => .connected
  | .gotIp => .connected
  | .connFail => .connectFailed
  | _ => .disconnected

/-- The last event that was delivered. -/
def lastDelivered (history : List Outcome) : Option WfEvent :=
  (history.filterMap Outcome.delivered).getLast?

/-- The two statuses of a connected station are exchanged. -/
def Exchanged (first second : Option StationStat) : Prop :=
  first = some .connSuccess ∧ second = some .gotIp ∨
    first = some .gotIp ∧ second = some .connSuccess

/-- Events track the polled status. -/
structure Tracks (history : List Outcome) : Prop where
  /-- After a turn that polled a status, its event is the last one delivered. -/
  current : ∀ before outcome after stat, history = before ++ outcome :: after →
    outcome.polled = some stat → stat ≠ .idle →
      lastDelivered (before ++ [outcome]) = some (eventOf stat)
  /-- Only a poll that is not idle delivers. -/
  idle : ∀ outcome ∈ history, outcome.polled = none ∨ outcome.polled = some .idle →
    outcome.delivered = none
  /-- Two deliveries in a row are equal only for a connected station that got or
  lost its address with nothing else polled in between. -/
  repeated : ∀ before first middle second after event,
    history = before ++ first :: middle ++ second :: after →
    (∀ outcome ∈ middle, outcome.delivered = none) →
    first.delivered = some event → second.delivered = some event →
      event = .connected ∧ Exchanged first.polled second.polled ∧
        ∀ outcome ∈ middle, ∀ stat, outcome.polled = some stat →
          stat = .idle ∨ some stat = first.polled

/-! ## One turn -/

/-- What a turn can do. Either it delivers nothing and remembers nothing new, or
it delivers the event of the status it polled. -/
theorem turn_cases (locals : Locals) (turn : Turn) :
    let next := (wifiStatusEventTurn locals turn).1
    let outcome := (wifiStatusEventTurn locals turn).2
    (outcome.delivered = none ∧ next.lastStat = locals.lastStat ∧
      next.lastState = locals.lastState ∧
      ∀ stat, outcome.polled = some stat → stat = .idle ∨
        locals.lastState = some (eventOf stat) ∧
          (eventOf stat = .connected → stat = locals.lastStat)) ∨
    ∃ stat, stat ≠ .idle ∧ outcome = ⟨some stat, some (eventOf stat)⟩ ∧
      next.lastState = some (eventOf stat) ∧ (eventOf stat = .connected → next.lastStat = stat) ∧
      (locals.lastState = some (eventOf stat) →
        eventOf stat = .connected ∧ locals.lastStat ≠ stat) := by
  intro next outcome
  unfold next outcome wifiStatusEventTurn deliverNew
  by_cases waiting : turn.staConnFlag = false
  · simp [waiting]
  · simp only [waiting]
    generalize turn.poll locals.stat = stat
    by_cases known : locals.lastState = some (eventOf stat)
    · by_cases same : locals.lastStat = stat
      · left
        cases stat <;> simp_all [eventOf]
      · by_cases isConnected : eventOf stat = .connected
        · right
          refine ⟨stat, ?_⟩
          cases stat <;> simp_all [eventOf]
        · left
          cases stat <;> simp_all [eventOf]
    · by_cases isIdle : stat = .idle
      · left
        simp [isIdle]
      · right
        refine ⟨stat, isIdle, ?_⟩
        by_cases same : locals.lastStat = stat
        · cases stat <;> simp_all [eventOf]
        · cases stat <;> simp_all [eventOf]

/-! ## The memory of the loop and the history -/

theorem lastDelivered_append (history : List Outcome) (outcome : Outcome) :
    lastDelivered (history ++ [outcome]) = outcome.delivered.or (lastDelivered history) := by
  unfold lastDelivered
  cases isDelivered : outcome.delivered with
  | none => simp [List.filterMap_append, isDelivered]
  | some event => simp [List.filterMap_append, isDelivered]

/-- The last delivery is the one after which nothing was delivered. -/
theorem lastDelivered_of_quiet {before after : List Outcome} {outcome : Outcome} {event : WfEvent}
    (delivered : outcome.delivered = some event)
    (quiet : ∀ other ∈ after, other.delivered = none) :
    lastDelivered (before ++ outcome :: after) = some event := by
  have nothing : after.filterMap Outcome.delivered = [] := by
    rw [List.filterMap_eq_nil_iff]
    exact quiet
  unfold lastDelivered
  rw [List.filterMap_append, List.filterMap_cons_some delivered, nothing]
  simp

/-- A history that one turn made longer, cut at one of its turns. -/
theorem split_append {history before after : List Outcome} {last outcome : Outcome}
    (splits : history ++ [last] = before ++ outcome :: after) :
    (after = [] ∧ outcome = last ∧ history = before) ∨
      ∃ rest, after = rest ++ [last] ∧ history = before ++ outcome :: rest := by
  rcases after.eq_nil_or_concat' with isNil | ⟨rest, other, isConcat⟩
  · left
    rw [isNil] at splits
    obtain ⟨sameHistory, sameLast⟩ := List.append_inj' splits rfl
    exact ⟨isNil, (List.cons.inj sameLast).1.symm, sameHistory⟩
  · right
    rw [isConcat, ← List.cons_append, ← List.append_assoc] at splits
    obtain ⟨sameHistory, sameLast⟩ := List.append_inj' splits rfl
    exact ⟨rest, by rw [isConcat, (List.cons.inj sameLast).1], sameHistory⟩

/-- `last_state` is the last delivered event, and after the last `CONNECTED`
nothing but its own status, which is in `last_stat`, has been polled. -/
structure Remembers (loop : Loop) : Prop where
  state : loop.locals.lastState = lastDelivered loop.history
  stat : ∀ before outcome after, loop.history = before ++ outcome :: after →
    outcome.delivered = some .connected → (∀ quiet ∈ after, quiet.delivered = none) →
      outcome.polled = some loop.locals.lastStat ∧ eventOf loop.locals.lastStat = .connected ∧
        ∀ quiet ∈ after, ∀ stat, quiet.polled = some stat →
          stat = .idle ∨ stat = loop.locals.lastStat

theorem remembers_entered : Remembers entered where
  state := rfl
  stat := by
    intro before outcome after splits
    exact absurd splits (by simp [entered])

theorem tracks_entered : Tracks entered.history where
  current := by
    intro before outcome after stat splits
    exact absurd splits (by simp [entered])
  idle := by
    intro outcome member
    exact absurd member (by simp [entered])
  repeated := by
    intro before first middle second after event splits
    exact absurd splits (by simp [entered])

theorem step_remembers {loop next : Loop} {turn : Turn} (remembers : Remembers loop)
    (stepped : step loop turn = some next) : Remembers next := by
  cases stepped
  have cases_ := turn_cases loop.locals turn
  generalize (wifiStatusEventTurn loop.locals turn).1 = locals at cases_ ⊢
  generalize (wifiStatusEventTurn loop.locals turn).2 = outcome at cases_ ⊢
  rcases cases_ with ⟨isQuiet, sameStat, sameState, polls⟩ |
    ⟨stat, notIdle, rfl, newState, newStat, -⟩
  · refine ⟨?_, ?_⟩
    · rw [lastDelivered_append, isQuiet, sameState, remembers.state]
      rfl
    · intro before connected after splits delivered quiet
      rcases split_append splits with ⟨-, rfl, -⟩ | ⟨rest, rfl, older⟩
      · rw [isQuiet] at delivered
        exact absurd delivered (by simp)
      · obtain ⟨polled, isConnected, since⟩ := remembers.stat before connected rest older delivered
          (fun other member => quiet other (by simp [member]))
        have lastState : loop.locals.lastState = some .connected := by
          rw [remembers.state, older]
          exact lastDelivered_of_quiet delivered (fun other member => quiet other (by simp [member]))
        rw [sameStat]
        refine ⟨polled, isConnected, ?_⟩
        intro other member stat isPolled
        rcases List.mem_append.mp member with old | new
        · exact since other old stat isPolled
        · rw [List.mem_singleton.mp new] at isPolled
          rcases polls stat isPolled with isIdle | ⟨known, sameStatus⟩
          · exact Or.inl isIdle
          · rw [lastState] at known
            exact Or.inr (sameStatus (Option.some.inj known).symm)
  · refine ⟨?_, ?_⟩
    · rw [lastDelivered_append, newState]
      rfl
    · intro before connected after splits delivered quiet
      rcases split_append splits with ⟨rfl, rfl, -⟩ | ⟨rest, rfl, -⟩
      · have isConnected : eventOf stat = .connected := Option.some.inj delivered
        rw [newStat isConnected]
        exact ⟨rfl, isConnected, by simp⟩
      · have silent := quiet ⟨some stat, some (eventOf stat)⟩ (by simp)
        exact absurd silent (by simp)

/-- Two statuses of a connected station that differ are exchanged. -/
theorem exchanged_of_ne {first second : StationStat} (isFirst : eventOf first = .connected)
    (isSecond : eventOf second = .connected) (differ : first ≠ second) :
    Exchanged (some first) (some second) := by
  cases first <;> cases second <;> simp_all [eventOf, Exchanged]

theorem step_tracks {loop next : Loop} {turn : Turn} (remembers : Remembers loop)
    (tracks : Tracks loop.history) (stepped : step loop turn = some next) :
    Tracks next.history := by
  cases stepped
  have cases_ := turn_cases loop.locals turn
  generalize (wifiStatusEventTurn loop.locals turn).1 = locals at cases_ ⊢
  generalize (wifiStatusEventTurn loop.locals turn).2 = outcome at cases_ ⊢
  refine ⟨?_, ?_, ?_⟩
  · intro before turned after stat splits polled notIdle
    rcases split_append splits with ⟨-, rfl, rfl⟩ | ⟨rest, -, older⟩
    · rw [lastDelivered_append]
      rcases cases_ with ⟨isQuiet, -, -, polls⟩ | ⟨other, -, rfl, -, -, -⟩
      · obtain ⟨known, -⟩ := (polls stat polled).resolve_left notIdle
        rw [isQuiet, ← known, remembers.state]
        rfl
      · cases polled
        rfl
    · exact tracks.current before turned rest stat older polled notIdle
  · intro other member unpolled
    rcases List.mem_append.mp member with old | new
    · exact tracks.idle other old unpolled
    · rw [List.mem_singleton.mp new] at unpolled ⊢
      rcases cases_ with ⟨isQuiet, -⟩ | ⟨stat, notIdle, rfl, -⟩
      · exact isQuiet
      · exact absurd unpolled (by simp [notIdle])
  · intro before first middle second after event splits quiet isFirst isSecond
    rcases split_append splits with ⟨-, rfl, history⟩ | ⟨rest, -, older⟩
    · rcases cases_ with ⟨isQuiet, -⟩ | ⟨stat, -, rfl, -, -, again⟩
      · rw [isQuiet] at isSecond
        exact absurd isSecond (by simp)
      · have isEvent : eventOf stat = event := Option.some.inj isSecond
        have known : loop.locals.lastState = some (eventOf stat) := by
          rw [remembers.state, history, isEvent]
          exact lastDelivered_of_quiet isFirst quiet
        obtain ⟨isConnected, differ⟩ := again known
        have firstConnected : first.delivered = some .connected := by
          rw [isFirst, ← isEvent, isConnected]
        obtain ⟨polled, wasConnected, since⟩ :=
          remembers.stat before first middle history firstConnected quiet
        rw [polled]
        refine ⟨isEvent.symm.trans isConnected, exchanged_of_ne wasConnected isConnected differ, ?_⟩
        intro other member status isPolled
        rcases since other member status isPolled with isIdle | isLast
        · exact Or.inl isIdle
        · exact Or.inr (congrArg some isLast)
    · exact tracks.repeated before first middle second rest event older quiet isFirst isSecond

/-! ## Every run -/

/-- From the entry of the loop on, whatever is polled and whenever
`sta_conn_flag` changes, the delivered events track the polled status. -/
theorem status_events_track (turns : List Turn) :
    ∃ loop, run step entered turns = some loop ∧ Tracks loop.history := by
  have progress : ∀ loop turn, (Remembers loop ∧ Tracks loop.history) → True →
      ∃ next, step loop turn = some next ∧ (Remembers next ∧ Tracks next.history) := by
    rintro loop turn ⟨remembers, tracks⟩ -
    exact ⟨_, rfl, step_remembers remembers rfl, step_tracks remembers tracks rfl⟩
  obtain ⟨loop, ran, -, tracks⟩ := run_total progress ⟨remembers_entered, tracks_entered⟩
    (everyStep_of_forall (fun _ _ => trivial) entered turns)
  exact ⟨loop, ran, tracks⟩

/-! ## The statuses of the station -/

/-- The statuses `tkl_wifi_station_get_status` stores. -/
def Stored (stat : StationStat) : Prop :=
  stat = .idle ∨ stat = .connFail ∨ stat = .connSuccess ∨ stat = .gotIp

theorem stored_getStatus (station : Station) {stat : StationStat} (stored : Stored stat) :
    Stored (tklWifiStationGetStatus station stat) := by
  unfold tklWifiStationGetStatus
  split
  · exact Or.inl rfl
  · split
    · exact Or.inl rfl
    · simp only
      split
      · exact Or.inr (Or.inr (Or.inr rfl))
      · split
        · exact Or.inr (Or.inr (Or.inl rfl))
        · split
          · exact Or.inr (Or.inl rfl)
          · exact stored

/-- The turn of a loop that asks the station. -/
def Station.turn (station : Station) (staConnFlag : Bool) : Turn :=
  ⟨staConnFlag, tklWifiStationGetStatus station⟩

theorem turn_stat (locals : Locals) (turn : Turn) :
    (wifiStatusEventTurn locals turn).1.stat =
        (if turn.staConnFlag = false then locals.stat else turn.poll locals.stat) ∧
      ∀ stat, (wifiStatusEventTurn locals turn).2.polled = some stat →
        stat = turn.poll locals.stat := by
  unfold wifiStatusEventTurn deliverNew
  grind

/-- A loop that asks the station has stored one of its statuses and never
delivered `DISCONNECTED`. -/
def Reported (loop : Loop) : Prop :=
  Stored loop.locals.stat ∧ ∀ outcome ∈ loop.history, outcome.delivered ≠ some .disconnected

theorem step_reported {loop : Loop} (reported : Reported loop) (station : Station) (flag : Bool) :
    ∃ next, step loop (station.turn flag) = some next ∧ Reported next := by
  obtain ⟨stored, events⟩ := reported
  obtain ⟨newStat, polled⟩ := turn_stat loop.locals (station.turn flag)
  have storedNow : Stored ((station.turn flag).poll loop.locals.stat) :=
    stored_getStatus station stored
  refine ⟨_, rfl, ?_, ?_⟩
  · rw [newStat]
    split
    · exact stored
    · exact storedNow
  · intro outcome member
    rcases List.mem_append.mp member with old | new
    · exact events outcome old
    · rw [List.mem_singleton.mp new]
      rcases turn_cases loop.locals (station.turn flag) with
        ⟨isQuiet, -⟩ | ⟨stat, notIdle, isOutcome, -⟩
      · rw [isQuiet]
        simp
      · rw [isOutcome] at polled ⊢
        rw [← polled stat rfl] at storedNow
        rcases storedNow with isIdle | rfl | rfl | rfl
        · exact absurd isIdle notIdle
        · simp [eventOf]
        · simp [eventOf]
        · simp [eventOf]

/-- The station never reports a status whose event is `DISCONNECTED`, so that
event is not delivered. -/
theorem station_never_disconnected {turns : List Turn}
    (asked : ∀ turn ∈ turns, ∃ (station : Station) (flag : Bool), turn = station.turn flag) :
    ∃ loop, run step entered turns = some loop ∧
      ∀ outcome ∈ loop.history, outcome.delivered ≠ some .disconnected := by
  have progress : ∀ loop turn, Reported loop →
      (∃ (station : Station) (flag : Bool), turn = station.turn flag) →
      ∃ next, step loop turn = some next ∧ Reported next := by
    rintro loop turn reported ⟨station, flag, rfl⟩
    exact step_reported reported station flag
  obtain ⟨loop, ran, -, events⟩ := run_total progress ⟨Or.inl rfl, by simp [entered]⟩
    (everyStep_of_mem (fun turn member _ => asked turn member) entered)
  exact ⟨loop, ran, events⟩

end TuyaAdapter.TklWifi
