import Mathlib.Algebra.Order.Group.Nat
import Mathlib.Data.List.Basic
import TuyaAdapter.Foundation.Run

/-!
Contract: `tuya_smartpointer.c` and what it passes to `tkl_system_free`.

The model keeps the control block with the members the functions read and a
record of the pointers that were freed. The mutex member only guards the
counter: every call is one step. `tuya_smartpointer_create` clears the control
block and never assigns its `malk` member, so the release in
`tuya_smartpointer_put` and `tuya_smartpointer_del` always takes the data for
memory of the caller.
-/

namespace TuyaAdapter.TuyaSmartpointer

open Foundation Foundation.Run

/-! ## The functions -/

/-- The pointers that can reach `tkl_system_free`. -/
inductive Pointer where
  | null
  /-- The memory `tuya_smartpointer_create` allocated. -/
  | controlBlock
  /-- The data the caller handed over. -/
  | callerData
  /-- The copy behind the control block, inside the same allocation. -/
  | embeddedCopy
deriving DecidableEq, Repr

/-- `SMARTPOINTER_T`, less the mutex. -/
structure Smartpointer where
  malk : Bool
  rfc : UInt32
  dataLen : UInt32
  data : Pointer
deriving DecidableEq, Repr

/-- The control block, while it is allocated, and the pointers freed so far. -/
structure World where
  spData : Option Smartpointer
  freed : List Pointer
deriving DecidableEq, Repr

/-- `memset` over the control block. -/
def Smartpointer.zeroed : Smartpointer := ⟨false, 0, 0, .null⟩

/-- `tuya_smartpointer_create`: `hasData` says that `data` is not `NULL`,
`granted` whether `tkl_system_malloc` succeeds. -/
def tuyaSmartpointerCreate (hasData : Bool) (dataLen : UInt32) (malk : Bool) (cnt : UInt32)
    (granted : Bool) : Option World :=
  if dataLen = 0 ∨ hasData = false then none
  else if granted then
    let spData := Smartpointer.zeroed
    let spData :=
      if malk then { spData with data := .embeddedCopy } else { spData with data := .callerData }
    let spData := { spData with dataLen := dataLen }
    let spData := { spData with rfc := cnt }
    some ⟨some spData, []⟩
  else none

/-- The release shared by `tuya_smartpointer_put` and `tuya_smartpointer_del`. -/
def release (world : World) (spData : Smartpointer) : World :=
  let freed := if spData.malk = false then world.freed ++ [spData.data] else world.freed
  ⟨none, freed ++ [.controlBlock]⟩

/-- `tuya_smartpointer_get`. -/
def tuyaSmartpointerGet (world : World) (spData : Smartpointer) : World :=
  { world with spData := some { spData with rfc := spData.rfc + 1 } }

/-- `tuya_smartpointer_put`. -/
def tuyaSmartpointerPut (world : World) (spData : Smartpointer) : World :=
  let rfc := spData.rfc - 1
  let spData := { spData with rfc := rfc }
  if 0 = rfc then release world spData else { world with spData := some spData }

/-- `tuya_smartpointer_del`. -/
def tuyaSmartpointerDel (world : World) (spData : Smartpointer) : World :=
  release world spData

inductive Call where
  | get
  | put
  | del
deriving DecidableEq, Repr

/-- One call; nothing may be called on a released pointer. -/
def step (world : World) (call : Call) : Option World :=
  world.spData.map fun spData =>
    match call with
    | .get => tuyaSmartpointerGet world spData
    | .put => tuyaSmartpointerPut world spData
    | .del => tuyaSmartpointerDel world spData

/-! ## What a run should have released -/

/-- The references are `cnt` and one for each get, less one for each put. -/
def references (cnt : Nat) (calls : List Call) : Nat :=
  cnt + calls.count .get - calls.count .put

/-- The calls end the life of the data. -/
def Ends (cnt : Nat) (calls : List Call) : Prop :=
  Call.del ∈ calls ∨ references cnt calls = 0

instance (cnt : Nat) (calls : List Call) : Decidable (Ends cnt calls) :=
  inferInstanceAs (Decidable (_ ∨ _))

/-- Nothing is freed before the end; then the control block is freed once, with
the caller's data when no copy was made and with nothing else when one was. -/
def ReleasedOnce (malk : Bool) (cnt : Nat) (calls : List Call) (world : World) : Prop :=
  if Ends cnt calls then
    world.freed.count .controlBlock = 1 ∧
      if malk then ∀ pointer ∈ world.freed, pointer = .controlBlock
      else world.freed.count .callerData = 1
  else world.freed = []

/-- The counter stays below `2 ^ 32`. -/
def CountFits (world : World) : Call → Prop
  | .get => ∀ spData ∈ world.spData, spData.rfc.toNat + 1 < 2 ^ 32
  | _ => True

instance (world : World) : ∀ call, Decidable (CountFits world call)
  | .get => inferInstanceAs (Decidable (∀ spData ∈ world.spData, _))
  | .put => inferInstanceAs (Decidable True)
  | .del => inferInstanceAs (Decidable True)

/-! ## Runs -/

/-- Nothing is called after the release. -/
theorem run_released {world final : World} {calls : List Call} (released : world.spData = none)
    (ran : run step world calls = some final) : calls = [] ∧ final = world := by
  cases calls with
  | nil => exact ⟨rfl, (Option.some.inj ran).symm⟩
  | cons call rest =>
      obtain ⟨next, stepped, -⟩ := run_cons_eq_some.mp ran
      simp [step, released] at stepped

/-- A run either leaves the counter at the number of references and frees
nothing, or ends with the release of the data and the control block. The
induction is on the calls, with the counter as the number of references left. -/
theorem run_freed {spData : Smartpointer} {cnt : Nat} {calls : List Call} {final : World}
    (clear : spData.malk = false) (counted : spData.rfc.toNat = cnt) (positive : 0 < cnt)
    (fits : EveryStep step CountFits ⟨some spData, []⟩ calls)
    (ran : run step ⟨some spData, []⟩ calls = some final) :
    (¬ Ends cnt calls ∧ final.freed = []) ∨
      (Ends cnt calls ∧ final.freed = [spData.data, .controlBlock]) := by
  induction calls generalizing spData cnt with
  | nil =>
      left
      have final_eq : final = ⟨some spData, []⟩ := (Option.some.inj ran).symm
      rw [final_eq]
      refine ⟨?_, rfl⟩
      simp [Ends, references]
      omega
  | cons call rest inductionHypothesis =>
      obtain ⟨next, stepped, tail⟩ := run_cons_eq_some.mp ran
      have later := fits.2 next stepped
      cases call with
      | get =>
          have room : spData.rfc.toNat + 1 < 2 ^ 32 := fits.1 spData rfl
          have raised : (spData.rfc + 1).toNat = cnt + 1 := by
            rw [UInt32.toNat_add, UInt32.toNat_one, Nat.mod_eq_of_lt room, counted]
          have next_eq : next = ⟨some { spData with rfc := spData.rfc + 1 }, []⟩ :=
            (Option.some.inj stepped).symm
          rw [next_eq] at later tail
          have ends : Ends cnt (.get :: rest) ↔ Ends (cnt + 1) rest := by
            simp [Ends, references, Nat.add_assoc, Nat.add_comm 1]
          rw [ends]
          exact @inductionHypothesis { spData with rfc := spData.rfc + 1 } (cnt + 1) clear raised
            (Nat.succ_pos _) later tail
      | put =>
          have lowered : (spData.rfc - 1).toNat = cnt - 1 := by
            rw [UInt32.toNat_sub_of_le, UInt32.toNat_one, counted]
            rw [UInt32.le_iff_toNat_le, UInt32.toNat_one, counted]
            exact positive
          by_cases isLast : cnt = 1
          · right
            have zero : 0 = spData.rfc - 1 := by
              apply UInt32.toNat_inj.mp
              rw [lowered, isLast]
              rfl
            have next_eq : next = ⟨none, [spData.data, .controlBlock]⟩ := by
              rw [← Option.some.inj stepped]
              simp [tuyaSmartpointerPut, ← zero, release, clear]
            have finished := run_released (by rw [next_eq]) tail
            rw [finished.1, finished.2, next_eq]
            refine ⟨Or.inr ?_, rfl⟩
            simp [references, isLast]
          · have notZero : ¬ 0 = spData.rfc - 1 := by
              intro zero
              have := congrArg UInt32.toNat zero
              rw [lowered, UInt32.toNat_zero] at this
              omega
            have next_eq : next = ⟨some { spData with rfc := spData.rfc - 1 }, []⟩ := by
              rw [← Option.some.inj stepped]
              simp [tuyaSmartpointerPut, notZero]
            rw [next_eq] at later tail
            have ends : Ends cnt (.put :: rest) ↔ Ends (cnt - 1) rest := by
              have counts : cnt + rest.count .get - (rest.count .put + 1) =
                  cnt - 1 + rest.count .get - rest.count .put := by
                omega
              simp [Ends, references, counts]
            rw [ends]
            exact @inductionHypothesis { spData with rfc := spData.rfc - 1 } (cnt - 1) clear lowered
              (by omega) later tail
      | del =>
          right
          have next_eq : next = ⟨none, [spData.data, .controlBlock]⟩ := by
            rw [← Option.some.inj stepped]
            simp [tuyaSmartpointerDel, release, clear]
          have finished := run_released (by rw [next_eq]) tail
          rw [finished.2, next_eq]
          exact ⟨Or.inl List.mem_cons_self, rfl⟩

/-- The data handed to a new smart pointer. -/
def initialData (malk : Bool) : Pointer := if malk then .embeddedCopy else .callerData

theorem tuyaSmartpointerCreate_eq {hasData malk granted : Bool} {dataLen cnt : UInt32}
    {world : World}
    (created : tuyaSmartpointerCreate hasData dataLen malk cnt granted = some world) :
    world = ⟨some ⟨false, cnt, dataLen, initialData malk⟩, []⟩ := by
  unfold tuyaSmartpointerCreate at created
  split at created
  · exact absurd created (by simp)
  · split at created
    · rw [← Option.some.inj created]
      cases malk <;> rfl
    · exact absurd created (by simp)

/-- Over every run of a created smart pointer, what was freed is what should
have been exactly when no copy of the data was made or the run does not reach
the release: the release of a copy passes an interior pointer to
`tkl_system_free`. -/
theorem smartpointer_releasedOnce_iff {hasData malk granted : Bool} {dataLen cnt : UInt32}
    {world final : World} {calls : List Call}
    (created : tuyaSmartpointerCreate hasData dataLen malk cnt granted = some world)
    (positive : 1 ≤ cnt.toNat) (fits : EveryStep step CountFits world calls)
    (ran : run step world calls = some final) :
    ReleasedOnce malk cnt.toNat calls final ↔ malk = false ∨ ¬ Ends cnt.toNat calls := by
  rw [tuyaSmartpointerCreate_eq created] at fits ran
  have facts := @run_freed ⟨false, cnt, dataLen, initialData malk⟩ cnt.toNat calls final rfl rfl
    positive fits ran
  rcases facts with ⟨goesOn, nothing⟩ | ⟨ends, freed⟩
  · simp [ReleasedOnce, goesOn, nothing]
  · cases malk with
    | false => simp [ReleasedOnce, ends, freed, initialData]
    | true => simp [ReleasedOnce, ends, freed, initialData]

/-- A copy with one reference, put once. -/
theorem smartpointer_frees_embeddedCopy :
    ∃ world final, tuyaSmartpointerCreate true 4 true 1 true = some world ∧
      EveryStep step CountFits world [.put] ∧ run step world [.put] = some final ∧
      final.freed = [.embeddedCopy, .controlBlock] ∧ ¬ ReleasedOnce true 1 [.put] final := by
  refine ⟨⟨some ⟨false, 1, 4, .embeddedCopy⟩, []⟩,
    ⟨none, [.embeddedCopy, .controlBlock]⟩, by decide, by decide, by decide, rfl, ?_⟩
  simp [ReleasedOnce, Ends, references]

/-- The caller's data with two references, one more taken and all given back. -/
theorem smartpointer_releasedOnce_callerData :
    ReleasedOnce false 2 [.get, .put, .put, .put] ⟨none, [.callerData, .controlBlock]⟩ :=
  (smartpointer_releasedOnce_iff
    (show tuyaSmartpointerCreate true 4 false 2 true =
      some ⟨some ⟨false, 2, 4, .callerData⟩, []⟩ by decide)
    (by decide) (by decide) (by decide)).mpr (Or.inl rfl)

end TuyaAdapter.TuyaSmartpointer
