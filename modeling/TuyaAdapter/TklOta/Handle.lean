import TuyaAdapter.Foundation.Run
import TuyaAdapter.TklOta.Model

/-!
Contract: the `FILE` of an upgrade over any number of attempts.

`tkl_ota_end_notify` closes the file and leaves `s_upgrade_fd` alone, so that the
next `tkl_ota_start_notify` closes it again. What the calls so far have left is
part of the state, as `Phase`, because callers process and end only what they
have started.
-/

namespace TuyaAdapter.TklOta

open Foundation Foundation.Run

/-! ## Calls -/

inductive Call where
  | start (opens : Bool)
  | data (pack : Pack)
  | end_

/-- Where the caller is: no attempt is under way, because none was started yet or
the last start failed; one is; or the last one was ended. -/
inductive Phase where
  | idle
  | running
  | ended
deriving DecidableEq, Repr

structure Upgrade where
  ota : Ota
  phase : Phase
deriving DecidableEq, Repr

def Upgrade.fresh : Upgrade := ⟨.fresh, .idle⟩

def step (upgrade : Upgrade) : Call → Option Upgrade
  | .start opens =>
      let started := tklOtaStartNotify upgrade.ota opens
      some ⟨started.1, if started.2 = .ok then .running else .idle⟩
  | .data pack => some { upgrade with ota := (tklOtaDataProcess upgrade.ota pack).1 }
  | .end_ => some ⟨(tklOtaEndNotify upgrade.ota).1, .ended⟩

/-- Data and end come after a start that succeeded and before the matching
end. -/
def Legal (upgrade : Upgrade) : Call → Prop
  | .start _ => True
  | .data _ => upgrade.phase = .running
  | .end_ => upgrade.phase = .running

instance (upgrade : Upgrade) : ∀ call, Decidable (Legal upgrade call)
  | .start _ => inferInstanceAs (Decidable True)
  | .data _ => inferInstanceAs (Decidable (_ = _))
  | .end_ => inferInstanceAs (Decidable (_ = _))

/-! ## The property and the condition -/

/-- Every file that was written to or closed was open, and every file but the
last that was opened has been closed exactly once. -/
structure HandlesInOrder (upgrade : Upgrade) : Prop where
  kept : upgrade.ota.files.Kept
  closed : ∀ name, name + 1 < upgrade.ota.files.obtained.length →
    upgrade.ota.files.returnedNames.count name = 1

/-- No attempt is started after one that was ended. -/
def NotAfterEnd (upgrade : Upgrade) : Call → Prop
  | .start _ => upgrade.phase ≠ .ended
  | _ => True

instance (upgrade : Upgrade) : ∀ call, Decidable (NotAfterEnd upgrade call)
  | .start _ => inferInstanceAs (Decidable (_ ≠ _))
  | .data _ => inferInstanceAs (Decidable True)
  | .end_ => inferInstanceAs (Decidable True)

/-! ## The static handle -/

/-- What `s_upgrade_fd` is in each phase, while the files are in order. -/
structure Holds (upgrade : Upgrade) : Prop where
  kept : upgrade.ota.files.Kept
  idle : upgrade.phase = .idle → upgrade.ota.upgradeFd = none
  /-- Only the last file that was opened can still be open. -/
  running : upgrade.phase = .running → ∃ file, upgrade.ota.upgradeFd = some file ∧
    file + 1 = upgrade.ota.files.obtained.length ∧ upgrade.ota.files.Held file
  ended : upgrade.phase = .ended → ∃ file, upgrade.ota.upgradeFd = some file ∧
    file ∈ upgrade.ota.files.returnedNames
  others : ∀ name, upgrade.ota.files.Held name →
    upgrade.phase = .running ∧ upgrade.ota.upgradeFd = some name

theorem holds_fresh : Holds .fresh where
  kept := Ledger.kept_fresh
  idle := fun _ => rfl
  running := fun isRunning => absurd isRunning (by decide)
  ended := fun isEnded => absurd isEnded (by decide)
  others := fun name held => absurd held (Ledger.held_fresh name)

theorem handlesInOrder_of_holds {upgrade : Upgrade} (holds : Holds upgrade) :
    HandlesInOrder upgrade where
  kept := holds.kept
  closed := by
    intro name notLast
    rw [holds.kept.count_returned (by omega)]
    intro held
    obtain ⟨isRunning, isFd⟩ := holds.others name held
    obtain ⟨file, isFile, last, -⟩ := holds.running isRunning
    rw [isFd] at isFile
    rw [Option.some.inj isFile] at notLast
    omega

/-- The files after `tkl_ota_start_notify` has closed what it found. -/
def closedFiles (ota : Ota) : Ledger Unit :=
  match ota.upgradeFd with
  | none => ota.files
  | some file => ota.files.giveBack file ()

theorem start_files (ota : Ota) (opens : Bool) :
    (tklOtaStartNotify ota opens).1.files =
        (if opens then (closedFiles ota).obtain () else closedFiles ota) ∧
      (tklOtaStartNotify ota opens).1.upgradeFd =
        (if opens then some (closedFiles ota).nextName else none) ∧
      (tklOtaStartNotify ota opens).2 = (if opens then .ok else .comError) := by
  unfold tklOtaStartNotify closedFiles Ota.fopen Ota.fclose
  cases ota.upgradeFd <;> cases opens <;> simp

/-- A start after which everything older is closed leaves at most the new file
open. -/
theorem holds_start {upgrade : Upgrade} (closed : (closedFiles upgrade.ota).Accounted none)
    (opens : Bool) : ∃ next, step upgrade (.start opens) = some next ∧ Holds next := by
  obtain ⟨files, fd, result⟩ := start_files upgrade.ota opens
  refine ⟨_, rfl, ?_⟩
  cases opens with
  | false =>
      simp only [Bool.false_eq_true, if_false] at files fd result
      refine ⟨?_, ?_, ?_, ?_, ?_⟩
      · rw [files]
        exact closed.kept
      · exact fun _ => fd
      · simp [result]
      · simp [result]
      · intro name held
        rw [files] at held
        exact absurd held (closed.not_held name)
  | true =>
      simp only [if_true] at files fd result
      have opened := Ledger.accounted_obtain closed ()
      refine ⟨?_, ?_, ?_, ?_, ?_⟩
      · rw [files]
        exact opened.kept
      · simp [result]
      · intro _
        rw [files, fd]
        exact ⟨_, rfl, by simp [Ledger.nextName, Ledger.obtain],
          (Ledger.held_obtain closed.kept () _).mpr (Or.inr rfl)⟩
      · simp [result]
      · intro name held
        rw [files] at held
        rw [fd]
        exact ⟨by simp [result], opened.owned name held⟩

/-- Closing the open file leaves none open. -/
theorem Holds.closed {upgrade : Upgrade} (holds : Holds upgrade) {file : Nat}
    (isFd : upgrade.ota.upgradeFd = some file) (held : upgrade.ota.files.Held file) :
    (upgrade.ota.files.giveBack file ()).Accounted none := by
  have accounted : upgrade.ota.files.Accounted (some file) :=
    ⟨holds.kept, fun name isHeld => isFd ▸ (holds.others name isHeld).2⟩
  exact Ledger.accounted_giveBack accounted held (List.getElem?_eq_getElem held.1)

/-- Unless the last attempt was ended, a start closes what there is to close. -/
theorem Holds.closedFiles {upgrade : Upgrade} (holds : Holds upgrade)
    (notEnded : upgrade.phase ≠ .ended) : (closedFiles upgrade.ota).Accounted none := by
  cases isPhase : upgrade.phase with
  | idle =>
      have isClosed : TklOta.closedFiles upgrade.ota = upgrade.ota.files := by
        simp [TklOta.closedFiles, holds.idle isPhase]
      rw [isClosed]
      refine ⟨holds.kept, fun name held => ?_⟩
      have isRunning := (holds.others name held).1
      rw [isPhase] at isRunning
      exact absurd isRunning (by decide)
  | running =>
      obtain ⟨file, isFd, -, held⟩ := holds.running isPhase
      have isClosed : TklOta.closedFiles upgrade.ota = upgrade.ota.files.giveBack file () := by
        simp [TklOta.closedFiles, isFd]
      rw [isClosed]
      exact holds.closed isFd held
  | ended => exact absurd isPhase notEnded

/-! ## Steps -/

/-- Writing to the open file changes neither the files nor the handle. -/
theorem data_files {ota : Ota} {file : Nat} (isFd : ota.upgradeFd = some file)
    (held : ota.files.Held file) (pack : Pack) :
    (tklOtaDataProcess ota pack).1.files = ota.files ∧
      (tklOtaDataProcess ota pack).1.upgradeFd = ota.upgradeFd := by
  simp only [tklOtaDataProcess, Ota.fwrite, isFd, and_true]
  exact Ledger.use_of_held held

theorem step_holds {upgrade : Upgrade} (holds : Holds upgrade) (call : Call)
    (legal : Legal upgrade call) (notAfterEnd : NotAfterEnd upgrade call) :
    ∃ next, step upgrade call = some next ∧ Holds next := by
  cases call with
  | start opens => exact holds_start (holds.closedFiles notAfterEnd) opens
  | data pack =>
      obtain ⟨file, isFd, isLast, held⟩ := holds.running legal
      obtain ⟨isFiles, sameFd⟩ := data_files isFd held pack
      refine ⟨_, rfl, ?_, ?_, ?_, ?_, ?_⟩
      · rw [isFiles]
        exact holds.kept
      · rw [sameFd]
        exact holds.idle
      · rw [isFiles, sameFd]
        exact holds.running
      · rw [isFiles, sameFd]
        exact holds.ended
      · rw [isFiles, sameFd]
        exact holds.others
  | end_ =>
      obtain ⟨file, isFd, -, held⟩ := holds.running legal
      have closed := holds.closed isFd held
      have isOta : (tklOtaEndNotify upgrade.ota).1 =
          { upgrade.ota with files := upgrade.ota.files.giveBack file () } := by
        simp [tklOtaEndNotify, Ota.fclose, isFd]
      refine ⟨_, rfl, ?_⟩
      rw [isOta]
      refine ⟨closed.kept, fun isIdle => absurd isIdle (by simp),
        fun isRunning => absurd isRunning (by simp),
        fun _ => ⟨file, isFd, by simp [Ledger.returnedNames, Ledger.giveBack]⟩, ?_⟩
      intro name stillHeld
      exact absurd stillHeld (closed.not_held name)

/-- A start after an end closes the file a second time. -/
theorem step_after_end {upgrade : Upgrade} (holds : Holds upgrade) (call : Call)
    (afterEnd : ¬ NotAfterEnd upgrade call) :
    ∃ next, step upgrade call = some next ∧ ¬ HandlesInOrder next := by
  cases call with
  | start opens =>
      have isEnded : upgrade.phase = .ended := not_not.mp afterEnd
      obtain ⟨file, isFd, isClosed⟩ := holds.ended isEnded
      obtain ⟨files, -, -⟩ := start_files upgrade.ota opens
      have names : (tklOtaStartNotify upgrade.ota opens).1.files.returnedNames =
          upgrade.ota.files.returnedNames ++ [file] := by
        rw [files]
        cases opens <;>
          simp [closedFiles, isFd, Ledger.returnedNames, Ledger.giveBack, Ledger.obtain]
      refine ⟨_, rfl, ?_⟩
      intro inOrder
      have once := inOrder.kept.once
      rw [names, List.nodup_append] at once
      exact once.2.2 file isClosed file (by simp) rfl
  | data pack => exact absurd trivial afterEnd
  | end_ => exact absurd trivial afterEnd

/-! ## Every run -/

/-- Over every sequence of calls the files stay in order exactly as long as no
attempt is started after one that was ended. -/
theorem ota_handle_in_order_iff {calls : List Call}
    (legal : EveryStep step Legal .fresh calls) :
    EveryState step HandlesInOrder .fresh calls ↔ EveryStep step NotAfterEnd .fresh calls :=
  everyState_iff_of_broken (fun _ holds => handlesInOrder_of_holds holds)
    (fun _ call holds isLegal notAfterEnd => step_holds holds call isLegal notAfterEnd)
    (fun _ call holds _ afterEnd => step_after_end holds call afterEnd) holds_fresh legal

/-- Attempts that were aborted by a new start, one of which failed to open the
file, and a last one that was ended. -/
theorem ota_handle_in_order_aborted :
    EveryState step HandlesInOrder .fresh
      [.start true, .start false, .start true, .data ⟨1, 0, fun _ => 7, 1⟩, .start true, .end_] :=
  (ota_handle_in_order_iff (by decide)).mpr (by decide)

/-- An upgrade that was ended and then tried again: its file is closed twice. -/
theorem ota_retry_closes_twice :
    EveryStep step Legal .fresh [.start true, .end_, .start true] ∧
      ¬ EveryState step HandlesInOrder .fresh [.start true, .end_, .start true] := by
  refine ⟨by decide, ?_⟩
  intro states
  have last := ((states.2 _ rfl).2 _ rfl).2 _ rfl
  exact absurd last.kept.once (by decide)

end TuyaAdapter.TklOta
