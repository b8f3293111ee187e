import Mathlib.Data.List.Basic

/-!
Owns logs that grow at their end. `Every` asks a condition of every entry and of
what was in the log before it.
-/

namespace TuyaAdapter.Foundation.History

variable {Entry : Type*} {holds weaker : List Entry → Entry → Prop} {log : List Entry}

/-- The condition holds of every entry with the log before it. -/
def Every (holds : List Entry → Entry → Prop) (log : List Entry) : Prop :=
  ∀ before entry after, log = before ++ entry :: after → holds before entry

theorem every_nil : Every holds [] := by
  intro before entry after isLog
  simp at isLog

/-- An entry of a longer log is the last one or was there before. -/
theorem append_split {entry other : Entry} {before after : List Entry}
    (isLog : log ++ [entry] = before ++ other :: after) :
    (before = log ∧ other = entry ∧ after = []) ∨
      ∃ earlier, after = earlier ++ [entry] ∧ log = before ++ other :: earlier := by
  rcases List.eq_nil_or_concat after with isNil | ⟨earlier, last, isConcat⟩
  · rw [isNil] at isLog
    obtain ⟨isBefore, isOther⟩ := List.append_inj' isLog rfl
    exact Or.inl ⟨isBefore.symm, (List.singleton_injective isOther).symm, isNil⟩
  · have split : log ++ [entry] = (before ++ other :: earlier) ++ [last] := by
      rw [isLog, isConcat, List.concat_eq_append, List.append_assoc, List.cons_append]
    obtain ⟨isLeft, isLast⟩ := List.append_inj' split rfl
    rw [List.concat_eq_append, ← List.singleton_injective isLast] at isConcat
    exact Or.inr ⟨earlier, isConcat, isLeft⟩

theorem Every.append (every : Every holds log) {entry : Entry} (here : holds log entry) :
    Every holds (log ++ [entry]) := by
  intro before other after isLog
  rcases append_split isLog with ⟨isBefore, isOther, -⟩ | ⟨earlier, -, isLeft⟩
  · rw [isBefore, isOther]
    exact here
  · exact every before other earlier isLeft

theorem Every.mono (every : Every holds log)
    (implies : ∀ before entry, holds before entry → weaker before entry) : Every weaker log :=
  fun before entry after isLog => implies before entry (every before entry after isLog)

end TuyaAdapter.Foundation.History
