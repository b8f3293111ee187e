import Mathlib.Data.List.Infix
import TuyaAdapter.Foundation.Decimal

/-!
Contract: the supplicant commands of `wpa_command.c`, with the peer at the other
end of the control socket as a parameter.

Owns:
- `wifi_send_command` and `wifi_reply_analyse` for the commands that the
  functions below send;
- the functions that wait for `OK`, `wifi_save_network` and
  `wifi_join_network`.

A peer answers every request in its own way: no connection, a request that
fails, or any text. A session keeps what was asked and answered. Texts fit the
buffers of the source; a request stands for the text written next to it.
-/

namespace TuyaAdapter.WpaCommand

open Foundation.Decimal

/-! ## Requests and answers -/

/-- The key types of the header. -/
inductive KeyMgmt where
  | wpa2psk
  | wpapsk
  | wep
  | none
  | other
deriving DecidableEq, Repr

/-- `struct wifi_network`. -/
structure WifiNetwork where
  id : Int
  ssid : Text
  psk : Text
  keyMgmt : KeyMgmt
deriving DecidableEq, Repr

/-- The entries of `struct wifi_scan_res` that a join compares. -/
structure WifiScanRes where
  ssid : Text
  keyMgmt : KeyMgmt
deriving DecidableEq, Repr

inductive NetworkField where
  /-- `ssid` -/
  | ssid
  /-- `scan_ssid` -/
  | scanSsid
  /-- `psk` -/
  | psk
  /-- `auth_alg` -/
  | authAlg
  /-- `wep_key0` -/
  | wepKey0
  /-- `wep_tx_keyidx` -/
  | wepTxKeyidx
  /-- `key_mgmt` -/
  | keyMgmt
deriving DecidableEq, Repr

/-- What is written to the socket. A missing id is `all`. -/
inductive Request where
  /-- `SCAN` or `SCAN params` -/
  | scan (params : Option Text)
  /-- `ADD_NETWORK` -/
  | addNetwork
  /-- `SET_NETWORK id field value` -/
  | setNetwork (id : Int) (field : NetworkField) (value : Text)
  /-- `ENABLE_NETWORK id` -/
  | enableNetwork (id : Option Int)
  /-- `SELECT_NETWORK id` -/
  | selectNetwork (id : Int)
  /-- `RECONFIGURE` -/
  | reconfigure
  /-- `STATUS` -/
  | status
  /-- `SAVE_CONFIG` -/
  | saveConfig
  /-- `SCAN_RESULTS` -/
  | scanResults
  /-- `DISABLE_NETWORK id` -/
  | disableNetwork (id : Option Int)
  /-- `DISCONNECT` -/
  | disconnect
  /-- `RECONNCET`, as the source spells it -/
  | reconnect
  /-- `REMOVE_NETWORK id` -/
  | removeNetwork (id : Option Int)
  /-- `BLACKLIST clear` -/
  | blacklistClear
  /-- `set country name` -/
  | setCountry (country : Text)
  /-- A command that was left empty. -/
  | empty
deriving DecidableEq, Repr

inductive Answer where
  /-- `wpa_ctrl_open` returned `NULL`. -/
  | noConnection
  /-- `wpa_ctrl_request` returned a negative value. -/
  | requestFailed
  | reply (text : Text)
deriving DecidableEq, Repr

/-- The reply starts with `OK`. -/
def Answer.IsOk : Answer → Prop
  | .reply text => text.take 2 = "OK".toList
  | _ => False

instance : ∀ answer, Decidable (Answer.IsOk answer)
  | .reply _ => inferInstanceAs (Decidable (_ = _))
  | .noConnection => inferInstanceAs (Decidable False)
  | .requestFailed => inferInstanceAs (Decidable False)

/-- The other end of the socket. -/
abbrev Peer (State : Type) := State → Request → Answer × State

/-- The state of the peer, and the requests so far with their answers. -/
structure Session (State : Type) where
  state : State
  log : List (Request × Answer)

/-! ## One command -/

/-- A command with its value. -/
inductive Command where
  | scan (params : Option Text)
  | addNetwork
  | setNetworkSsid (net : WifiNetwork)
  | setNetworkScanSsid (net : WifiNetwork)
  | setNetworkPsk (net : WifiNetwork)
  | setNetworkKeyMeth (net : WifiNetwork)
  | setNetworkAuthAlg (params : Text)
  | setNetworkWepKey0 (net : WifiNetwork)
  | setNetworkWepTxKeyId (params : Text)
  | enableNetwork (id : Int)
  | selectNetwork (id : Int)
  | reconfigure
  | getStatus
  | saveConfig
  | scanR
  | disableNetwork (id : Int)
  | disconnect
  | reconnect
  | removeNetwork (id : Int)
  | blacklistClear
  | setCountry (country : Text)
deriving DecidableEq, Repr

inductive Ack where
  | int
  | ok
  | string
deriving DecidableEq, Repr

/-- `wifi_command_pack_sum`. -/
def Command.ack : Command → Ack
  | .addNetwork => .int
  | .getStatus => .int
  | .scanR => .string
  | _ => .ok

/-- `WPA_ALL_NETWORK`. -/
def wpaAllNetwork : Int := -1

/-- `PSK_WPA_HEX_LEN`. -/
def pskWpaHexLen : Nat := 64

def quoted (text : Text) : Text := '"' :: text ++ ['"']

def idOrAll (id : Int) : Option Int := if id = wpaAllNetwork then none else some id

/-- The number before the `+` and the text after it. -/
def splitWepParams (params : Text) : Int × Text :=
  (atoi (params.takeWhile (· ≠ '+')), (params.dropWhile (· ≠ '+')).drop 1)

/-- The command text; missing where the command is given up with -4. -/
def Command.request : Command → Option Request
  | .scan params => some (.scan params)
  | .addNetwork => some .addNetwork
  | .setNetworkSsid net => some (.setNetwork net.id .ssid (quoted net.ssid))
  | .setNetworkScanSsid net => some (.setNetwork net.id .scanSsid "1".toList)
  | .setNetworkPsk net =>
      if net.psk.length < pskWpaHexLen then some (.setNetwork net.id .psk (quoted net.psk))
      else some (.setNetwork net.id .psk net.psk)
  | .setNetworkAuthAlg params =>
      some (.setNetwork (splitWepParams params).1 .authAlg (splitWepParams params).2)
  | .setNetworkWepKey0 net =>
      if net.psk.length = 5 ∨ net.psk.length = 13 then
        some (.setNetwork net.id .wepKey0 (quoted net.psk))
      else if net.psk.length = 10 ∨ net.psk.length = 26 then
        some (.setNetwork net.id .wepKey0 net.psk)
      else some .empty
  | .setNetworkWepTxKeyId params =>
      some (.setNetwork (splitWepParams params).1 .wepTxKeyidx (splitWepParams params).2)
  | .setNetworkKeyMeth net =>
      if net.keyMgmt ≠ .none ∧ net.keyMgmt ≠ .wep then none
      else some (.setNetwork net.id .keyMgmt "NONE".toList)
  | .enableNetwork id => some (.enableNetwork (idOrAll id))
  | .selectNetwork id => some (.selectNetwork id)
  | .reconfigure => some .reconfigure
  | .getStatus => some .status
  | .saveConfig => some .saveConfig
  | .scanR => some .scanResults
  | .disableNetwork id => some (.disableNetwork (idOrAll id))
  | .disconnect => some .disconnect
  | .reconnect => some .reconnect
  | .removeNetwork id => some (.removeNetwork (idOrAll id))
  | .blacklistClear => some .blacklistClear
  | .setCountry country => some (.setCountry country)

/-! ## Replies -/

/-- The lines that `get_line_from_buf` finds: the first one as it is, then the
ones that are not empty. -/
def linesOf (reply : Text) : List Text :=
  match reply.splitOnP fun char => char = '\n' ∨ char = '\r' with
  | [] => []
  | first :: rest => first :: rest.filter (· ≠ [])

/-- `WIFI_SCANING`. -/
def wifiScaning : Int := 1

/-- `WIFI_CONNECTED`. -/
def wifiConnected : Int := 2

/-- `WIFI_UNCONNECTED`. -/
def wifiUnconnected : Int := 3

/-- The loop over the lines of a status. -/
def statusOf : List Text → Int → Int
  | [], res => res
  | line :: rest, _ =>
      if "wpa_state=COMPLETED".toList <:+: line then wifiConnected
      else if "wpa_state=SCANNING".toList <:+: line then wifiScaning
      else statusOf rest wifiUnconnected

/-- `wifi_reply_analyse`: what it leaves in `res`, which held the given value. -/
def wifiReplyAnalyse (command : Command) (reply : Text) (res : Int) (resLen : Nat) : Int :=
  match command.ack with
  | .ok =>
      let count := if resLen > "OK".toList.length then "OK".toList.length else resLen
      if reply.take count = "OK".toList.take count then 0 else -1
  | .int =>
      if command = .getStatus then statusOf (linesOf reply) res
      else
        match sscanfInt reply with
        | .eof => res
        | .mismatch => -1
        | .value value => value
  | .string => res

/-! ## `wifi_send_command` -/

section Functions

variable {State : Type} (peer : Peer State)

/-- What `wifi_send_command` returns, leaves in `res`, and the session after it. -/
structure Sent (State : Type) where
  ret : Int
  res : Int
  session : Session State

def wifiSendCommand (session : Session State) (command : Command) (res : Int) (resLen : Nat) :
    Sent State :=
  match command.request with
  | none => ⟨-4, res, session⟩
  | some request =>
      let answered := peer session.state request
      let session : Session State := ⟨answered.2, session.log ++ [(request, answered.1)]⟩
      match answered.1 with
      | .noConnection => ⟨-1, res, session⟩
      -- The error is printed and lost.
      | .requestFailed => ⟨0, res, session⟩
      | .reply text => ⟨0, wifiReplyAnalyse command text res resLen, session⟩

/-- `sizeof(int)`. -/
def sizeofInt : Nat := 4

/-! ## Functions that wait for `OK` -/

/-- `if ((ret == 0) && (res == 0)) return 0; return -1;` -/
def zeroIfBoth (sent : Sent State) : Int × Session State :=
  (if sent.ret = 0 ∧ sent.res = 0 then 0 else -1, sent.session)

/-- `if (ret < 0 || res != 0) return -1; return 0;` -/
def zeroUnlessEither (sent : Sent State) : Int × Session State :=
  (if sent.ret < 0 ∨ sent.res ≠ 0 then -1 else 0, sent.session)

def wifiScan (session : Session State) : Int × Session State :=
  zeroIfBoth (wifiSendCommand peer session (.scan none) 0 sizeofInt)

/-- The `freq=` parameter: the frequencies with commas between them. -/
def scanParams (num : Int) (freq : Nat → Int) : Text :=
  ("freq=".toList ++ (List.range num.toNat).flatMap fun i => decimal (freq i) ++ [',']).dropLast

/-- `wifi_scan_channel`; a missing `freq` is `NULL`. -/
def wifiScanChannel (session : Session State) (num : Int) (freq : Option (Nat → Int)) :
    Int × Session State :=
  match freq with
  | none => (-1, session)
  | some freq =>
      if num > 21 then (-1, session)
      else if num = 0 then wifiScan peer session
      else
        zeroIfBoth
          (wifiSendCommand peer session (.scan (some (scanParams num freq))) 0 sizeofInt)

def wifiDisableNetwork (session : Session State) (id : Int) : Int × Session State :=
  zeroUnlessEither (wifiSendCommand peer session (.disableNetwork id) 0 sizeofInt)

def wifiDisableAllNetwork (session : Session State) : Int × Session State :=
  wifiDisableNetwork peer session wpaAllNetwork

def wifiRemoveNetwork (session : Session State) (id : Int) : Int × Session State :=
  zeroUnlessEither (wifiSendCommand peer session (.removeNetwork id) 0 sizeofInt)

def wifiRemoveAllNetwork (session : Session State) : Int × Session State :=
  wifiRemoveNetwork peer session wpaAllNetwork

def wifiReconfigure (session : Session State) : Int × Session State :=
  zeroIfBoth (wifiSendCommand peer session .reconfigure 0 sizeofInt)

def wifiBlacklistClear (session : Session State) : Int × Session State :=
  zeroIfBoth (wifiSendCommand peer session .blacklistClear 0 sizeofInt)

def wifiEnableNetwork (session : Session State) (id : Int) : Int × Session State :=
  zeroUnlessEither (wifiSendCommand peer session (.enableNetwork id) 0 sizeofInt)

def wifiEnableAllNetwork (session : Session State) : Int × Session State :=
  wifiEnableNetwork peer session wpaAllNetwork

def wifiDisconnectNetwork (session : Session State) : Int × Session State :=
  zeroIfBoth (wifiSendCommand peer session .disconnect 0 sizeofInt)

def wifiReconnectNetwork (session : Session State) : Int × Session State :=
  zeroIfBoth (wifiSendCommand peer session .reconnect 0 sizeofInt)

/-- `wifi_set_country`: `res` has 32 bytes and is not looked at. -/
def wifiSetCountry (session : Session State) (country : Text) : Int × Session State :=
  let sent := wifiSendCommand peer session (.setCountry country) 0 32
  (if sent.ret < 0 then -1 else 0, sent.session)

/-! ## Functions of several commands -/

/-- `wifi_get_status`, and what it leaves in `status`. -/
def wifiGetStatus (session : Session State) (status : Int) : Sent State :=
  let sent := wifiSendCommand peer session .getStatus status sizeofInt
  { sent with ret := if sent.ret < 0 then -1 else 0 }

def wifiSaveNetwork (session : Session State) : Int × Session State :=
  let enabled := wifiEnableAllNetwork peer session
  if enabled.1 < 0 then enabled
  else
    let status := wifiGetStatus peer enabled.2 0
    if status.ret = 0 ∧ status.res = wifiConnected then
      -- The result is not looked at, only `res`.
      let saved := wifiSendCommand peer status.session .saveConfig 0 sizeofInt
      (if saved.res = 0 then 0 else -1, saved.session)
    else (-1, status.session)

/-- `wifi_get_scan_result`. The entries it parses are left in a frame that is
gone when it returns. -/
def wifiGetScanResult (session : Session State) : Int × Session State :=
  let sent := wifiSendCommand peer session .scanR 0 (128 * 160)
  (if sent.ret < 0 then -1 else 0, sent.session)

/-- The loop of `wifi_get_block_scan_result`. -/
def awaitScan : Nat → Int → Session State → Int × Session State
  | timeout, status, session =>
      let sent := wifiGetStatus peer session status
      if sent.ret < 0 then (-1, sent.session)
      else
        match timeout with
        | 0 => wifiGetScanResult peer sent.session
        | timeout + 1 =>
            if sent.res ≠ wifiScaning then wifiGetScanResult peer sent.session
            else awaitScan timeout sent.res sent.session

def wifiGetBlockScanResult (session : Session State) (timeout : Nat) : Int × Session State :=
  awaitScan peer timeout 0 (wifiScan peer session).2

/-! ## `wifi_join_network` -/

/-- The lengths a WEP key can have. -/
def hasWepLength (psk : Text) : Bool :=
  psk.length = 5 ∨ psk.length = 13 ∨ psk.length = 16 ∨ psk.length = 10 ∨ psk.length = 26 ∨
    psk.length = 32

/-- A WEP network with this name, or with a name that starts so, was seen. -/
def seesWep (scanned : List WifiScanRes) (ssid : Text) : Bool :=
  scanned.any fun entry => entry.keyMgmt = .wep ∧ entry.ssid.take ssid.length = ssid

/-- Everything before `ADD_NETWORK`. `scanned` is what the loop over the scan
list reads, which is whatever the dead frame holds. -/
def joinPrelude (session : Session State) (net : WifiNetwork) (scanned : List WifiScanRes) :
    WifiNetwork × Session State :=
  let looked :=
    if hasWepLength net.psk then
      (if seesWep scanned net.ssid then { net with keyMgmt := .wep } else net,
        (wifiGetBlockScanResult peer session 3).2)
    else (net, session)
  (looked.1, (wifiBlacklistClear peer looked.2).2)

/-- `sprintf(wep_params, "%d+%s", ...)`. -/
def wepParams (id : Int) (text : Text) : Text := decimal id ++ '+' :: text

/-- The commands after `ADD_NETWORK`, in order. -/
def joinCommands (net : WifiNetwork) : List Command :=
  .setNetworkSsid net ::
    ((match net.keyMgmt with
      | .none => [.setNetworkKeyMeth net]
      | .wep =>
          [.setNetworkKeyMeth net, .setNetworkAuthAlg (wepParams net.id "SHARED OPEN".toList),
            .setNetworkWepKey0 net, .setNetworkWepTxKeyId (wepParams net.id "0".toList)]
      | _ => [.setNetworkPsk net]) ++
    [.setNetworkScanSsid net, .selectNetwork net.id])

/-- Send one command after the other and return -2 at the first that fails. -/
def sendAll : List Command → Int → Session State → Int × Session State
  | [], _, session => (0, session)
  | command :: rest, res, session =>
      let sent := wifiSendCommand peer session command res sizeofInt
      if sent.ret < 0 ∨ sent.res ≠ 0 then (-2, sent.session)
      else sendAll rest sent.res sent.session

def wifiJoinNetwork (session : Session State) (net : WifiNetwork) (scanned : List WifiScanRes) :
    Int × Session State :=
  let prepared := joinPrelude peer session net scanned
  let added := wifiSendCommand peer prepared.2 .addNetwork prepared.1.id sizeofInt
  if added.ret < 0 then (-1, added.session)
  else sendAll peer (joinCommands { prepared.1 with id := added.res }) 0 added.session

end Functions

end TuyaAdapter.WpaCommand
