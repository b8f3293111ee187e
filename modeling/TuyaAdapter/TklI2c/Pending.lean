import Mathlib.Algebra.Order.Group.Nat
import TuyaAdapter.Foundation.Run
import TuyaAdapter.TklI2c.Model

/-!
Contract: when a pending write reaches the bus whole and once.

A pending write waits in the buffer of its port. It is lost when another
transaction or another pending write comes first, cut when it is longer than
the buffer, and replayed when a receive finds it after other traffic. `Orderly`
says of one call that it does none of this.
-/

namespace TuyaAdapter.TklI2c

open Foundation Foundation.Run

/-! ## Histories -/

/-- A pending write: address and bytes. -/
abbrev Pending := UInt16 × List UInt8

/-- The transaction starts with a write of exactly these bytes. -/
def Transaction.StartsWith : Transaction → Pending → Prop
  | .write addr bytes, pending => (addr, bytes) = pending
  | .writeRead addr bytes _, pending => (addr, bytes) = pending
  | _, _ => False

/-- A write that was put before a read is one of these. -/
def Transaction.PrependsOneOf : Transaction → List Pending → Prop
  | .writeRead addr bytes _, open_ => (addr, bytes) ∈ open_
  | _, _ => True

instance : ∀ transaction pending, Decidable (Transaction.StartsWith transaction pending)
  | .write _ _, _ => inferInstanceAs (Decidable (_ = _))
  | .writeRead _ _ _, _ => inferInstanceAs (Decidable (_ = _))
  | .probe _, _ => inferInstanceAs (Decidable False)
  | .read _ _, _ => inferInstanceAs (Decidable False)

instance : ∀ transaction open_, Decidable (Transaction.PrependsOneOf transaction open_)
  | .writeRead _ _ _, _ => inferInstanceAs (Decidable (_ ∈ _))
  | .write _ _, _ => inferInstanceAs (Decidable True)
  | .probe _, _ => inferInstanceAs (Decidable True)
  | .read _ _, _ => inferInstanceAs (Decidable True)

/-- The pending writes that no transaction has followed yet, when the given
ones were open before the history. -/
def openAfter (open_ : List Pending) : List Event → List Pending
  | [] => open_
  | .queued addr bytes :: rest => openAfter (open_ ++ [(addr, bytes)]) rest
  | .bus _ :: rest => openAfter [] rest
  | .returned _ _ :: rest => openAfter open_ rest

/-- Every transaction starts with each pending write that was open before it,
prepends no other, and every count is the number of bytes moved. -/
def Answered (open_ : List Pending) : List Event → Prop
  | [] => True
  | .queued addr bytes :: rest => Answered (open_ ++ [(addr, bytes)]) rest
  | .bus transaction :: rest =>
      (∀ pending ∈ open_, transaction.StartsWith pending) ∧ transaction.PrependsOneOf open_ ∧
        Answered [] rest
  | .returned count moved :: rest => count = moved ∧ Answered open_ rest

instance decidableAnswered : ∀ open_ history, Decidable (Answered open_ history)
  | _, [] => isTrue trivial
  | open_, .queued addr bytes :: rest => decidableAnswered (open_ ++ [(addr, bytes)]) rest
  | _, .bus _ :: rest =>
      have := decidableAnswered [] rest
      inferInstanceAs (Decidable (_ ∧ _ ∧ _))
  | open_, .returned _ _ :: rest =>
      have := decidableAnswered open_ rest
      inferInstanceAs (Decidable (_ ∧ _))

theorem openAfter_append (open_ : List Pending) (first second : List Event) :
    openAfter open_ (first ++ second) = openAfter (openAfter open_ first) second := by
  induction first generalizing open_ with
  | nil => rfl
  | cons event rest inductionHypothesis =>
      cases event with
      | queued addr bytes => exact inductionHypothesis _
      | bus transaction => exact inductionHypothesis _
      | returned count moved => exact inductionHypothesis _

theorem answered_append (open_ : List Pending) (first second : List Event) :
    Answered open_ (first ++ second) ↔
      Answered open_ first ∧ Answered (openAfter open_ first) second := by
  induction first generalizing open_ with
  | nil => simp [Answered, openAfter]
  | cons event rest inductionHypothesis =>
      cases event with
      | queued addr bytes => exact inductionHypothesis _
      | bus transaction =>
          simp only [List.cons_append, Answered, openAfter, inductionHypothesis, and_assoc]
      | returned count moved =>
          simp only [List.cons_append, Answered, openAfter, inductionHypothesis, and_assoc]

/-- The port has sent its pending writes whole, in time and once, and its
counts are right. -/
def PortAnswered (port : Port) : Prop := Answered [] port.history

instance (port : Port) : Decidable (PortAnswered port) := decidableAnswered [] port.history

/-- Every port has. -/
def AllAnswered (ports : Nat → Port) : Prop := ∀ port, PortAnswered (ports port)

/-! ## The condition -/

/-- The kernel moves the bytes it is given, at most as many as asked for. -/
def KernelOk (kernel : Kernel) (size : UInt32) : Prop :=
  ∃ moved, kernel.moved = some moved ∧ moved ≤ size ∧ moved.toNat < 2 ^ 31

def KernelOkStep (_ports : Nat → Port) (action : Action) : Prop :=
  match action.request with
  | .send _ _ size _ => KernelOk action.kernel size
  | .receive _ _ size => KernelOk action.kernel size

/-- A send or a receive of this address finds no pending write of its port that
it would overtake, replace or carry along by mistake. -/
def Orderly (ctx : I2cCtx) : Request → Prop
  | .send devAddr (some data) size true =>
      if size = 0 then ctx.pendingValid = false
      else size ≤ pendingCapacity ∧
        (ctx.pendingValid = true → ctx.pendingAddr = devAddr ∧ ctx.pendingBuf = bytesAt data size)
  | .send _ (some _) _ false => ctx.pendingValid = false
  | .send _ none size _ => size = 0 → ctx.pendingValid = false
  | .receive devAddr _ size =>
      ctx.pendingValid = true → ctx.pendingAddr = devAddr ∧ size.toNat < 2 ^ 16

def OrderlyStep (ports : Nat → Port) (action : Action) : Prop :=
  action.port < i2cNumMax → Orderly (ports action.port).ctx action.request

/-! ## Invariant -/

/-- The buffer of a port holds exactly the open pending writes of its history. -/
structure PortHolds (port : Port) : Prop where
  answered : PortAnswered port
  open_ : ∀ pending ∈ openAfter [] port.history,
    port.ctx.pendingValid = true ∧ pending = (port.ctx.pendingAddr, port.ctx.pendingBuf)
  buffered : port.ctx.pendingValid = true →
    (port.ctx.pendingAddr, port.ctx.pendingBuf) ∈ openAfter [] port.history

section Parts

variable {port : Port}

theorem PortHolds.nothing_open (holds : PortHolds port) (empty : port.ctx.pendingValid = false) :
    openAfter [] port.history = [] := by
  apply List.eq_nil_iff_forall_not_mem.mpr
  intro pending member
  rw [(holds.open_ pending member).1] at empty
  exact absurd empty (by decide)

theorem PortHolds.setLastCount (holds : PortHolds port) (lastCount : UInt32) :
    PortHolds (port.setLastCount lastCount) :=
  ⟨holds.answered, holds.open_, holds.buffered⟩

theorem dataCount_eq {ctx : I2cCtx} (small : ctx.lastCount.toNat < 2 ^ 31) :
    tklI2cGetDataCount ctx = ctx.lastCount.toNat := by
  unfold tklI2cGetDataCount
  rw [BitVec.toInt_eq_toNat_of_lt]
  · rfl
  · show 2 * ctx.lastCount.toNat < 2 ^ 32
    omega

theorem openAfter_finish (event : Event) (moved : Nat) :
    openAfter [] (port.finish [event] moved).history =
      openAfter (openAfter [] port.history) [event] := by
  rw [Port.finish, Port.record, openAfter_append, openAfter_append]
  rfl

theorem portAnswered_finish {event : Event} {moved : Nat} (answered : PortAnswered port)
    (isAnswered : Answered (openAfter [] port.history) [event])
    (counted : tklI2cGetDataCount port.ctx = moved) :
    PortAnswered (port.finish [event] moved) := by
  rw [PortAnswered, Port.finish, Port.record, answered_append, answered_append]
  exact ⟨answered, isAnswered, counted, trivial⟩

/-- A transaction that starts with every open pending write and prepends none
but those closes them all. -/
theorem transact_holds (answered : PortAnswered port) {transaction : Transaction} {moved : Nat}
    (unbuffered : port.ctx.pendingValid = false)
    (starts : ∀ pending ∈ openAfter [] port.history, transaction.StartsWith pending)
    (prepends : transaction.PrependsOneOf (openAfter [] port.history))
    (counted : tklI2cGetDataCount port.ctx = moved) :
    PortHolds (port.finish [.bus transaction] moved) := by
  have closed : openAfter [] (port.finish [.bus transaction] moved).history = [] :=
    openAfter_finish _ moved
  constructor
  · exact portAnswered_finish answered ⟨starts, prepends, trivial⟩ counted
  · intro pending member
    rw [closed] at member
    exact absurd member List.not_mem_nil
  · intro isValid
    have isInvalid : (port.finish [.bus transaction] moved).ctx.pendingValid = false := unbuffered
    rw [isInvalid] at isValid
    exact absurd isValid (by decide)

/-- A pending write that is all there is in the buffer and in the open part of
the history. -/
theorem queue_holds (answered : PortAnswered port) {moved : Nat}
    (isValid : port.ctx.pendingValid = true)
    (same : ∀ pending ∈ openAfter [] port.history,
      pending = (port.ctx.pendingAddr, port.ctx.pendingBuf))
    (counted : tklI2cGetDataCount port.ctx = moved) :
    PortHolds (port.finish [.queued port.ctx.pendingAddr port.ctx.pendingBuf] moved) := by
  have opened : openAfter []
      (port.finish [.queued port.ctx.pendingAddr port.ctx.pendingBuf] moved).history =
      openAfter [] port.history ++ [(port.ctx.pendingAddr, port.ctx.pendingBuf)] :=
    openAfter_finish _ moved
  constructor
  · exact portAnswered_finish answered trivial counted
  · intro pending member
    rw [opened, List.mem_append, List.mem_singleton] at member
    exact ⟨isValid, member.elim (same pending) id⟩
  · intro _
    rw [opened]
    exact List.mem_append_right _ (List.mem_singleton.mpr rfl)

/-- A transaction on a port without a pending write. -/
theorem PortHolds.plain (holds : PortHolds port) {transaction : Transaction} {moved : Nat}
    (unbuffered : port.ctx.pendingValid = false)
    (prepends : transaction.PrependsOneOf [])
    (counted : tklI2cGetDataCount port.ctx = moved) :
    PortHolds (port.finish [.bus transaction] moved) := by
  have nothing := holds.nothing_open unbuffered
  apply transact_holds holds.answered unbuffered _ _ counted
  · intro pending member
    rw [nothing] at member
    exact absurd member List.not_mem_nil
  · rw [nothing]
    exact prepends

/-! ## One call -/

theorem tklI2cMasterSend_holds (holds : PortHolds port) {kernel : Kernel} {devAddr : UInt16}
    {data : Option (Nat → UInt8)} {size : UInt32} {xferPending : Bool}
    (kernelOk : KernelOk kernel size)
    (orderly : Orderly port.ctx (.send devAddr data size xferPending)) :
    PortHolds (tklI2cMasterSend port kernel devAddr data size xferPending).1 := by
  obtain ⟨moved, isMoved, -, small⟩ := kernelOk
  have cleared := holds.setLastCount 0
  unfold tklI2cMasterSend
  by_cases initialized : port.ctx.initialized = true
  · rw [if_pos initialized]
    by_cases zero : size = 0
    · rw [if_pos zero]
      have unbuffered : port.ctx.pendingValid = false := by
        cases data with
        | none => exact orderly zero
        | some data =>
            cases xferPending with
            | false => exact orderly
            | true => simpa [Orderly, zero] using orderly
      unfold prvProbeAddr
      by_cases slave : kernel.slave = true
      · simp only [slave, if_true, isMoved]
        exact cleared.plain unbuffered trivial rfl
      · rw [if_neg slave]
        exact cleared
    · rw [if_neg zero]
      cases data with
      | none => exact cleared
      | some data =>
          cases xferPending with
          | false =>
              have unbuffered : port.ctx.pendingValid = false := orderly
              by_cases slave : kernel.slave = true
              · simp only [slave, if_true, isMoved]
                exact (cleared.setLastCount moved).plain unbuffered trivial (dataCount_eq small)
              · simp only [slave]
                exact cleared
          | true =>
              have fits : size ≤ pendingCapacity ∧ (port.ctx.pendingValid = true →
                  port.ctx.pendingAddr = devAddr ∧ port.ctx.pendingBuf = bytesAt data size) := by
                simpa [Orderly, zero] using orderly
              have uncut : ¬ pendingCapacity < size := UInt32.not_lt.mpr fits.1
              have same : ∀ pending ∈ openAfter [] port.history,
                  pending = (devAddr, bytesAt data size) := by
                intro pending member
                obtain ⟨isValid, isPending⟩ := holds.open_ pending member
                rw [isPending, (fits.2 isValid).1, (fits.2 isValid).2]
              have short : size.toNat < 2 ^ 31 := by
                have := UInt32.le_iff_toNat_le.mp fits.1
                exact Nat.lt_of_le_of_lt this (by decide)
              simp only [if_true, uncut, if_false]
              exact @queue_holds
                ⟨⟨port.ctx.initialized, true, devAddr, bytesAt data size, size⟩, port.history⟩
                holds.answered size.toNat rfl same (dataCount_eq short)
  · rw [if_neg initialized]
    exact holds

theorem tklI2cMasterReceive_holds (holds : PortHolds port) {kernel : Kernel} {devAddr : UInt16}
    {hasData : Bool} {size : UInt32} (kernelOk : KernelOk kernel size)
    (orderly : Orderly port.ctx (.receive devAddr hasData size)) :
    PortHolds (tklI2cMasterReceive port kernel devAddr hasData size).1 := by
  obtain ⟨moved, isMoved, -, small⟩ := kernelOk
  have cleared := holds.setLastCount 0
  unfold tklI2cMasterReceive
  by_cases invalid : hasData = false ∨ size = 0
  · rw [if_pos invalid]
    exact holds
  · rw [if_neg invalid]
    by_cases initialized : port.ctx.initialized = true
    · rw [if_pos initialized]
      by_cases joined : port.ctx.pendingValid = true ∧ port.ctx.pendingAddr = devAddr
      · have fits : size.toNat < 2 ^ 16 := (orderly joined.1).2
        have whole : size.toUInt16.toNat = size.toNat := by
          rw [UInt32.toNat_toUInt16, Nat.mod_eq_of_lt fits]
        have isJoined : (port.setLastCount 0).ctx.pendingValid = true ∧
            (port.setLastCount 0).ctx.pendingAddr = devAddr := joined
        simp only [isJoined, and_self, if_true, isMoved]
        apply @transact_holds
          ⟨⟨port.ctx.initialized, false, devAddr, [], size⟩, port.history⟩ holds.answered
        · rfl
        · intro pending member
          rw [(holds.open_ pending member).2, joined.2]
          rfl
        · rw [← joined.2]
          exact holds.buffered joined.1
        · rw [whole]
          exact dataCount_eq (Nat.lt_trans fits (by decide))
      · have unbuffered : port.ctx.pendingValid = false := by
          by_contra isValid
          rw [Bool.not_eq_false] at isValid
          exact joined ⟨isValid, (orderly isValid).1⟩
        have isPlain : ¬ ((port.setLastCount 0).ctx.pendingValid = true ∧
            (port.setLastCount 0).ctx.pendingAddr = devAddr) := joined
        simp only [isPlain, if_false]
        by_cases slave : kernel.slave = true
        · simp only [slave, if_true, isMoved]
          exact (cleared.setLastCount moved).plain unbuffered trivial (dataCount_eq small)
        · simp only [slave]
          exact cleared
    · rw [if_neg initialized]
      exact holds

end Parts

/-! ## Runs -/

theorem step_holds {ports next : Nat → Port} {action : Action}
    (holds : ∀ port, PortHolds (ports port)) (kernelOk : KernelOkStep ports action)
    (orderly : OrderlyStep ports action) (stepped : step ports action = some next) :
    ∀ port, PortHolds (next port) := by
  unfold step at stepped
  by_cases valid : action.port < i2cNumMax
  · rw [if_pos valid] at stepped
    rw [← Option.some.inj stepped]
    have performed : PortHolds (perform (ports action.port) action.kernel action.request).1 := by
      have isOrderly := orderly valid
      unfold KernelOkStep at kernelOk
      cases request : action.request with
      | send devAddr data size xferPending =>
          rw [request] at kernelOk isOrderly
          exact tklI2cMasterSend_holds (holds action.port) kernelOk isOrderly
      | receive devAddr hasData size =>
          rw [request] at kernelOk isOrderly
          exact tklI2cMasterReceive_holds (holds action.port) kernelOk isOrderly
    intro port
    by_cases isPort : port = action.port
    · rw [isPort, Function.update_self]
      exact performed
    · rw [Function.update_of_ne isPort]
      exact holds port
  · rw [if_neg valid] at stepped
    rw [← Option.some.inj stepped]
    exact holds

/-- In every run of orderly sends and receives, on any ports, every pending
write that was accepted opens the next transaction of its port with exactly its
bytes, no transaction carries a write that was not waiting for it, and every
count is the number of bytes moved. -/
theorem i2c_answered_of_orderly {initialized : Nat → Bool} {actions : List Action}
    (kernelOk : EveryStep step KernelOkStep (freshPorts initialized) actions)
    (orderly : EveryStep step OrderlyStep (freshPorts initialized) actions) :
    EveryState step AllAnswered (freshPorts initialized) actions := by
  have initially : ∀ port, PortHolds (freshPorts initialized port) := by
    intro port
    refine ⟨trivial, fun pending member => absurd member List.not_mem_nil, fun isValid => ?_⟩
    exact absurd isValid (by simp [freshPorts])
  have everywhere : EveryState step (fun ports => ∀ port, PortHolds (ports port))
      (freshPorts initialized) actions := by
    apply everyState_of_everyStep _ initially kernelOk orderly
    intro ports action next holds isKernelOk isOrderly stepped
    exact step_holds holds isKernelOk isOrderly stepped
  exact everywhere.mono fun ports holds port => (holds port).answered

/-- The kernel moves everything. -/
def movesAll (size : UInt32) : Kernel := ⟨true, some size⟩

/-- A pending write to 0x50, a write to 0x51, then a read from 0x50. -/
def overtakenWrite : List Action :=
  [⟨0, .send 0x50 (some fun _ => 7) 1 true, movesAll 1⟩,
    ⟨0, .send 0x51 (some fun _ => 9) 1 false, movesAll 1⟩,
    ⟨0, .receive 0x50 true 2, movesAll 2⟩]

theorem i2c_unanswered_when_overtaken :
    EveryStep step KernelOkStep (freshPorts fun _ => true) overtakenWrite ∧
      ¬ EveryState step AllAnswered (freshPorts fun _ => true) overtakenWrite := by
  constructor
  · have one : KernelOk (movesAll 1) 1 := ⟨1, rfl, by decide, by decide⟩
    have two : KernelOk (movesAll 2) 2 := ⟨2, rfl, by decide, by decide⟩
    exact ⟨one, fun _ _ => ⟨one, fun _ _ => ⟨two, fun _ _ => trivial⟩⟩⟩
  · intro every
    have afterWrite := ((every.2 _ rfl).2 _ rfl).1 0
    exact absurd afterWrite (by decide)

/-- A register read: a pending write of the register, then the read. -/
def registerRead : List Action :=
  [⟨0, .send 0x50 (some fun _ => 7) 1 true, movesAll 1⟩,
    ⟨0, .receive 0x50 true 2, movesAll 2⟩]

theorem i2c_answered_registerRead :
    EveryState step AllAnswered (freshPorts fun _ => true) registerRead := by
  have one : KernelOk (movesAll 1) 1 := ⟨1, rfl, by decide, by decide⟩
  have two : KernelOk (movesAll 2) 2 := ⟨2, rfl, by decide, by decide⟩
  apply i2c_answered_of_orderly
  · exact ⟨one, fun _ _ => ⟨two, fun _ _ => trivial⟩⟩
  · refine ⟨fun _ => ⟨by decide, fun isValid => absurd isValid (by decide)⟩, fun next stepped => ?_⟩
    refine ⟨fun _ _ => ?_, fun _ _ => trivial⟩
    rw [← Option.some.inj stepped]
    exact ⟨rfl, by decide⟩

end TuyaAdapter.TklI2c
