import Mathlib.Algebra.Order.Group.Nat
import Mathlib.Data.List.Basic

/-!
Contract: the radiotap header around raw frames, written by
`wifi_send_rawpacket` and taken off by the receive loops of `sniffer_process`
and `mgnt_process`.

A receive buffer keeps what an earlier frame left in it: the header is read
from the buffer also when fewer bytes than a header arrived. The socket cuts a
datagram at the size of the buffer. An arrival is missing when the receive call
fails.
-/

namespace TuyaAdapter.TklWifi

/-! ## Sending -/

/-- `t_radiotap`. -/
def radiotap : List UInt8 :=
  [0x00, 0x00, 0x0d, 0x00, 0x04, 0x80, 0x02, 0x00, 0x20, 0x00, 0x00, 0x00, 0x00]

/-- `wifi_send_rawpacket`: the bytes it writes and its result. `allocated` says
that `malloc` succeeds, `write` is what the socket answers. -/
def wifiSendRawpacket (allocated : Bool) (write : List UInt8 → Int) (pkt : List UInt8) :
    Option (List UInt8) × Int :=
  if allocated then
    let rawpacket := radiotap ++ pkt
    (some rawpacket, write rawpacket)
  else (none, -1)

/-! ## Receiving -/

/-- A receive buffer: what its bytes hold. -/
abbrev Buffer := Nat → UInt8

/-- `MAX_REV_BUFFER`. -/
def maxRevBuffer : Nat := 512

/-- `sizeof(pkt)` in `mgnt_process`. -/
def mgntBuffer : Nat := 8192

/-- `recvfrom` or `read` of a datagram: the buffer afterwards and the number of
bytes received. -/
def receive (size : Nat) (buffer : Buffer) (datagram : List UInt8) : Buffer × Nat :=
  (fun index => (datagram.take size).getD index (buffer index), (datagram.take size).length)

/-- `it_len` of the header at the start of a buffer. -/
def itLen (buffer : Buffer) : Nat := (buffer 2).toNat + 256 * (buffer 3).toNat

/-- What a callback is handed: a slice of the buffer and the bytes it finds
there. -/
structure Invocation where
  start : Nat
  length : Nat
  bytes : List UInt8
deriving DecidableEq, Repr

/-- The slice of a buffer. -/
def slice (buffer : Buffer) (start length : Nat) : Invocation :=
  ⟨start, length, (List.range length).map fun offset => buffer (start + offset)⟩

/-- One turn of the loop of `sniffer_process`. The length parameter of
`SNIFFER_CALLBACK` is `uint16_t`. -/
def snifferTurn (buffer : Buffer) : Option (List UInt8) → Buffer × Option Invocation
  | none => (buffer, none)
  | some datagram =>
      let received := receive maxRevBuffer buffer datagram
      let skipLen := itLen received.1
      if skipLen < received.2 then
        (received.1, some (slice received.1 skipLen ((received.2 - skipLen) % 2 ^ 16)))
      else (received.1, none)

/-- One turn of the loop of `mgnt_process`. The length parameter of
`WIFI_REV_MGNT_CB` is `uint32_t`. -/
def mgntTurn (buffer : Buffer) : Option (List UInt8) → Buffer × Option Invocation
  | none => (buffer, none)
  | some datagram =>
      let received := receive mgntBuffer buffer datagram
      let skipLen := itLen received.1
      if skipLen < received.2 then
        (received.1, some (slice received.1 skipLen (received.2 % 2 ^ 32)))
      else (received.1, none)

/-- The invocations of a receive loop whose turn is given. -/
def receiveLoop (turn : Buffer → Option (List UInt8) → Buffer × Option Invocation) :
    Buffer → List (Option (List UInt8)) → List Invocation
  | _, [] => []
  | buffer, arrival :: rest =>
      let taken := turn buffer arrival
      taken.2.toList ++ receiveLoop turn taken.1 rest

/-! ## What the loops should do -/

/-- Both loops hand over the packet, once, when they are fed what
`wifi_send_rawpacket` wrote for it. -/
def Survives (pkt : List UInt8) (sniffer mgnt : Buffer) : Prop :=
  ∀ write rawpacket, (wifiSendRawpacket true write pkt).1 = some rawpacket →
    (receiveLoop snifferTurn sniffer [some rawpacket]).map
        (fun invocation => (invocation.length, invocation.bytes)) = [(pkt.length, pkt)] ∧
      (receiveLoop mgntTurn mgnt [some rawpacket]).map
        (fun invocation => (invocation.length, invocation.bytes)) = [(pkt.length, pkt)]

/-- The slices the two loops hand over for a datagram lie within what each of
them received and are the same. -/
structure SlicesAgree (sniffer mgnt : Buffer) (datagram : List UInt8) : Prop where
  snifferInside : ∀ invocation, (snifferTurn sniffer (some datagram)).2 = some invocation →
    invocation.start + invocation.length ≤ (receive maxRevBuffer sniffer datagram).2
  mgntInside : ∀ invocation, (mgntTurn mgnt (some datagram)).2 = some invocation →
    invocation.start + invocation.length ≤ (receive mgntBuffer mgnt datagram).2
  same : (snifferTurn sniffer (some datagram)).2.map
      (fun invocation => (invocation.start, invocation.length)) =
    (mgntTurn mgnt (some datagram)).2.map
      (fun invocation => (invocation.start, invocation.length))

/-- The declared header length, as each loop reads it, leaves nothing of what
was received, or it is zero in a datagram that fits both buffers. -/
def NothingToSkip (sniffer mgnt : Buffer) (datagram : List UInt8) : Prop :=
  let snifferLen := itLen (receive maxRevBuffer sniffer datagram).1
  let mgntLen := itLen (receive mgntBuffer mgnt datagram).1
  (min maxRevBuffer datagram.length ≤ snifferLen ∧ min mgntBuffer datagram.length ≤ mgntLen) ∨
    (0 < datagram.length ∧ datagram.length ≤ maxRevBuffer ∧ snifferLen = 0 ∧ mgntLen = 0)

/-! ## Turns -/

theorem receive_length (size : Nat) (buffer : Buffer) (datagram : List UInt8) :
    (receive size buffer datagram).2 = min size datagram.length := by
  simp [receive]

theorem receive_eq_of_le {size : Nat} {datagram : List UInt8} (fits : datagram.length ≤ size)
    (buffer : Buffer) (index : Nat) :
    (receive size buffer datagram).1 index = datagram.getD index (buffer index) := by
  simp [receive, List.take_of_length_le fits]

/-- The bytes of a packet behind the header that was put before it. -/
theorem slice_wrapped {size : Nat} {pkt : List UInt8} (fits : pkt.length + 13 ≤ size)
    (buffer : Buffer) :
    slice (receive size buffer (radiotap ++ pkt)).1 13 pkt.length = ⟨13, pkt.length, pkt⟩ := by
  have headerLength : radiotap.length = 13 := rfl
  unfold slice
  congr 1
  apply List.ext_getElem
  · simp
  · intro index inMap inPkt
    have inside : (radiotap ++ pkt).length ≤ size := by
      rw [List.length_append, headerLength]
      omega
    rw [List.getElem_map, List.getElem_range, receive_eq_of_le inside]
    simp [List.getD_eq_getElem?_getD, headerLength, inPkt]

theorem itLen_wrapped {size : Nat} (enough : 4 ≤ size) (pkt : List UInt8) (buffer : Buffer) :
    itLen (receive size buffer (radiotap ++ pkt)).1 = 13 := by
  obtain ⟨more, rfl⟩ := Nat.exists_eq_add_of_le enough
  rw [Nat.add_comm]
  rfl

/-- `sniffer_process` takes the header off the length too. -/
theorem snifferTurn_invocation (buffer : Buffer) (datagram : List UInt8) :
    let received := (receive maxRevBuffer buffer datagram).1
    (snifferTurn buffer (some datagram)).2 =
      if itLen received < min maxRevBuffer datagram.length then
        some (slice received (itLen received) (min maxRevBuffer datagram.length - itLen received))
      else none := by
  intro received
  have small : min maxRevBuffer datagram.length - itLen received < 2 ^ 16 := by
    have : min maxRevBuffer datagram.length ≤ 512 := Nat.min_le_left _ _
    omega
  simp only [snifferTurn, receive_length]
  split
  · rw [Nat.mod_eq_of_lt small]
  · rfl

/-- `mgnt_process` hands over the length of what was received, header
included. -/
theorem mgntTurn_invocation (buffer : Buffer) (datagram : List UInt8) :
    let received := (receive mgntBuffer buffer datagram).1
    (mgntTurn buffer (some datagram)).2 =
      if itLen received < min mgntBuffer datagram.length then
        some (slice received (itLen received) (min mgntBuffer datagram.length))
      else none := by
  intro received
  have small : min mgntBuffer datagram.length < 2 ^ 32 := by
    have : min mgntBuffer datagram.length ≤ 8192 := Nat.min_le_left _ _
    omega
  simp only [mgntTurn, receive_length]
  split
  · rw [Nat.mod_eq_of_lt small]
  · rfl

theorem receiveLoop_single (turn : Buffer → Option (List UInt8) → Buffer × Option Invocation)
    (buffer : Buffer) (arrival : Option (List UInt8)) :
    receiveLoop turn buffer [arrival] = (turn buffer arrival).2.toList := by
  simp [receiveLoop]

/-- A wrapped packet that fits the buffer arrives whole. -/
theorem wrapped_length {size : Nat} {pkt : List UInt8} (fits : pkt.length + 13 ≤ size) :
    min size (radiotap ++ pkt).length = pkt.length + 13 := by
  have headerLength : radiotap.length = 13 := rfl
  rw [List.length_append, headerLength]
  omega

/-- The sniffer hands over exactly the packet. -/
theorem sniffer_unwraps {pkt : List UInt8} (notEmpty : 1 ≤ pkt.length)
    (fits : pkt.length + 13 ≤ maxRevBuffer) (buffer : Buffer) :
    receiveLoop snifferTurn buffer [some (radiotap ++ pkt)] = [⟨13, pkt.length, pkt⟩] := by
  rw [receiveLoop_single, snifferTurn_invocation, itLen_wrapped (by decide), wrapped_length fits,
    if_pos (by omega), Nat.add_sub_cancel, slice_wrapped fits]
  rfl

/-- The receiver of management frames hands over thirteen bytes more than the
packet has. -/
theorem mgnt_unwraps {pkt : List UInt8} (notEmpty : 1 ≤ pkt.length)
    (fits : pkt.length + 13 ≤ mgntBuffer) (buffer : Buffer) :
    receiveLoop mgntTurn buffer [some (radiotap ++ pkt)] =
      [slice (receive mgntBuffer buffer (radiotap ++ pkt)).1 13 (pkt.length + 13)] := by
  rw [receiveLoop_single, mgntTurn_invocation, itLen_wrapped (by decide), wrapped_length fits,
    if_pos (by omega)]
  rfl

/-! ## Results -/

theorem not_survives {pkt : List UInt8} (notEmpty : 1 ≤ pkt.length)
    (fits : pkt.length + 13 ≤ mgntBuffer) (sniffer mgnt : Buffer) :
    ¬ Survives pkt sniffer mgnt := by
  intro survives
  obtain ⟨-, onMgnt⟩ := survives (fun _ => 0) (radiotap ++ pkt) rfl
  rw [mgnt_unwraps notEmpty fits] at onMgnt
  have sameLength : pkt.length + 13 = pkt.length :=
    congrArg Prod.fst (List.cons.inj onMgnt).1
  omega

theorem slicesAgree_iff (sniffer mgnt : Buffer) (datagram : List UInt8) :
    SlicesAgree sniffer mgnt datagram ↔ NothingToSkip sniffer mgnt datagram := by
  have snifferTurns := snifferTurn_invocation sniffer datagram
  have mgntTurns := mgntTurn_invocation mgnt datagram
  have snifferReceives := receive_length maxRevBuffer sniffer datagram
  have mgntReceives := receive_length mgntBuffer mgnt datagram
  have sizes : maxRevBuffer = 512 ∧ mgntBuffer = 8192 := ⟨rfl, rfl⟩
  simp only at snifferTurns mgntTurns
  unfold NothingToSkip
  generalize itLen (receive maxRevBuffer sniffer datagram).1 = snifferLen at *
  generalize itLen (receive mgntBuffer mgnt datagram).1 = mgntLen at *
  constructor
  · rintro ⟨snifferInside, mgntInside, same⟩
    by_cases snifferCalls : snifferLen < min maxRevBuffer datagram.length
    · by_cases mgntCalls : mgntLen < min mgntBuffer datagram.length
      · rw [if_pos snifferCalls] at snifferTurns
        rw [if_pos mgntCalls] at mgntTurns
        have inside := mgntInside _ mgntTurns
        rw [snifferTurns, mgntTurns] at same
        simp only [slice, Option.map_some, Option.some.injEq, Prod.mk.injEq] at same inside
        right
        omega
      · rw [snifferTurns, mgntTurns, if_pos snifferCalls, if_neg mgntCalls] at same
        exact absurd same (by simp)
    · by_cases mgntCalls : mgntLen < min mgntBuffer datagram.length
      · rw [snifferTurns, mgntTurns, if_neg snifferCalls, if_pos mgntCalls] at same
        exact absurd same (by simp)
      · left
        omega
  · rintro (⟨snifferSkips, mgntSkips⟩ | ⟨notEmpty, fits, snifferZero, mgntZero⟩)
    · rw [if_neg (by omega)] at snifferTurns mgntTurns
      refine ⟨?_, ?_, ?_⟩
      · simp [snifferTurns]
      · simp [mgntTurns]
      · rw [snifferTurns, mgntTurns]
    · rw [if_pos (by omega)] at snifferTurns mgntTurns
      refine ⟨?_, ?_, ?_⟩
      · intro invocation isInvocation
        rw [snifferTurns] at isInvocation
        cases isInvocation
        simp only [slice]
        omega
      · intro invocation isInvocation
        rw [mgntTurns] at isInvocation
        cases isInvocation
        simp only [slice]
        omega
      · rw [snifferTurns, mgntTurns]
        simp only [slice, Option.map_some, Option.some.injEq, Prod.mk.injEq]
        omega

/-- The sniffer unwraps every packet and the receiver of management frames none,
so that no packet survives both. For whatever is received the slices are inside
and agree exactly when there is no header to skip. -/
theorem raw_frames_unwrap_iff (sniffer mgnt : Buffer) (datagram pkt : List UInt8)
    (notEmpty : 1 ≤ pkt.length) (fits : pkt.length + 13 ≤ maxRevBuffer) :
    (receiveLoop snifferTurn sniffer [some (radiotap ++ pkt)] = [⟨13, pkt.length, pkt⟩] ∧
        ¬ Survives pkt sniffer mgnt) ∧
      (SlicesAgree sniffer mgnt datagram ↔ NothingToSkip sniffer mgnt datagram) := by
  have fitsBoth : pkt.length + 13 ≤ mgntBuffer := fits.trans (by decide)
  exact ⟨⟨sniffer_unwraps notEmpty fits sniffer, not_survives notEmpty fitsBoth sniffer mgnt⟩,
    slicesAgree_iff sniffer mgnt datagram⟩

/-- A packet of two bytes, and five bytes with an empty header, received into
cleared buffers. -/
theorem raw_frames_unwrap_two_bytes :
    ¬ Survives [0x80, 0x00] (fun _ => 0) (fun _ => 0) ∧
      SlicesAgree (fun _ => 0) (fun _ => 0) [0, 0, 0, 0, 1] := by
  have both := raw_frames_unwrap_iff (fun _ => 0) (fun _ => 0) [0, 0, 0, 0, 1] [0x80, 0x00]
    (by decide) (by decide)
  exact ⟨both.1.2, both.2.mpr (Or.inr (by decide))⟩

/-- The frame that is sent for the single byte `0x42`: the receiver of
management frames hands over fourteen bytes from offset thirteen on, of which
only one was received. -/
theorem mgnt_hands_over_header_length :
    ¬ Survives [0x42] (fun _ => 0) (fun _ => 0) ∧
      ¬ SlicesAgree (fun _ => 0) (fun _ => 0) (radiotap ++ [0x42]) := by
  refine ⟨not_survives (by decide) (by decide) _ _, ?_⟩
  rw [slicesAgree_iff]
  unfold NothingToSkip
  decide

end TuyaAdapter.TklWifi
