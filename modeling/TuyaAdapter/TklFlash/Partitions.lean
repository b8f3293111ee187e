import TuyaAdapter.TklFlash.Contents

/-!
Contract: the partitions of the flash, each a store of its own.

The partitions that `tkl_flash_get_one_type_info` gives out are whole blocks in
the file and do not meet. As long as every write stays in some partition, and
the file was made whole, a read inside a partition succeeds and sees only the
writes of that partition.
-/

namespace TuyaAdapter.TklFlash

open Foundation.History Foundation.Run

/-- The addresses are in the partition. -/
def Partition.Has (part : Partition) (addr length : Nat) : Prop :=
  part.startAddr ≤ addr ∧ addr + length ≤ part.startAddr + part.size

instance (part : Partition) (addr length : Nat) : Decidable (part.Has addr length) :=
  inferInstanceAs (Decidable (_ ∧ _))

theorem partition_fits {kvProtected : Bool} {type : FlashType} {part : Partition}
    (isPartition : partition kvProtected type = some part) :
    part.startAddr % part.blockSize = 0 ∧ part.size % part.blockSize = 0 ∧
      part.startAddr + part.size ≤ flashFileSize := by
  cases type with
  | kvProtect =>
      simp only [partition, Option.ite_none_right_eq_some, Option.some.injEq] at isPartition
      rw [← isPartition.2]
      decide
  | notListed => cases isPartition
  | _ =>
      cases isPartition
      decide

theorem partition_disjoint {kvProtected : Bool} {type other : FlashType} {part otherPart : Partition}
    (isPartition : partition kvProtected type = some part)
    (isOther : partition kvProtected other = some otherPart) (notSame : type ≠ other) :
    part.startAddr + part.size ≤ otherPart.startAddr ∨
      otherPart.startAddr + otherPart.size ≤ part.startAddr := by
  cases kvProtected <;> cases type <;> cases other <;>
    simp only [partition, Option.some.injEq, reduceCtorEq, Bool.false_eq_true, if_true, if_false]
      at isPartition isOther <;>
    first
      | exact absurd rfl notSame
      | (rw [← isPartition, ← isOther]; decide)

/-- The event is a write inside of the partition. -/
def Event.within (part : Partition) : Event → Bool
  | .wrote addr data => decide (part.Has addr data.length)
  | _ => false

/-- A write stays in a partition, and the file is made whole. -/
def Action.Disciplined (kvProtected : Bool) : Action → Prop
  | .getOneTypeInfo reached => flashFileSize ≤ reached
  | .write addr data _ _ => ∃ type part, partition kvProtected type = some part ∧
      part.Has addr.toNat data.length
  | _ => True

def Event.Disciplined (kvProtected : Bool) : Event → Prop
  | .made size => size = flashFileSize
  | .wrote addr data => ∃ type part, partition kvProtected type = some part ∧
      part.Has addr data.length
  | _ => True

section Steps

variable {kvProtected : Bool} {state next : State}

theorem step_disciplined {action : Action}
    (kept : ∀ event ∈ state.log, event.Disciplined kvProtected)
    (disciplined : action.Disciplined kvProtected) (stepped : step state action = some next) :
    ∀ event ∈ next.log, event.Disciplined kvProtected := by
  have grown : ∀ event : Event, event.Disciplined kvProtected →
      ∀ other ∈ state.log ++ [event], other.Disciplined kvProtected := by
    intro event here other member
    rcases List.mem_append.mp member with old | new
    · exact kept other old
    · rw [List.mem_singleton.mp new]
      exact here
  cases action with
  | getOneTypeInfo reached =>
      rw [← Option.some.inj stepped]
      unfold getOneTypeInfo
      split
      · exact kept
      · split
        · exact kept
        · exact grown _ (min_eq_right disciplined)
  | read addr size =>
      rw [← Option.some.inj (Option.ite_none_right_eq_some.mp stepped).2]
      unfold read
      split
      · exact grown _ trivial
      · exact grown _ trivial
  | write addr data taken reached =>
      rw [← Option.some.inj (Option.ite_none_right_eq_some.mp stepped).2]
      obtain ⟨type, part, isPartition, above, below⟩ := disciplined
      unfold write
      split
      · refine grown _ ⟨type, part, isPartition, above, ?_⟩
        have shorter : (data.take reached).length ≤ data.length := by simp
        omega
      · exact kept
  | restart =>
      rw [← Option.some.inj stepped]
      exact kept

/-- Writes in other partitions do not show. -/
theorem lastWritten_within {type : FlashType} {part : Partition} {address : Nat}
    (isPartition : partition kvProtected type = some part) (above : part.startAddr ≤ address)
    (below : address < part.startAddr + part.size) :
    ∀ {log : List Event}, (∀ event ∈ log, event.Disciplined kvProtected) →
      lastWritten log address = lastWritten (log.filter (Event.within part)) address := by
  intro log
  induction log using List.reverseRecOn with
  | nil => intro _; rfl
  | append_singleton log event inductionHypothesis =>
      intro disciplined
      have earlier := inductionHypothesis fun other member =>
        disciplined other (List.mem_append_left _ member)
      have here := disciplined event (List.mem_append_right _ (List.mem_singleton_self _))
      rw [List.filter_append, lastWritten_append, earlier]
      cases isWithin : event.within part with
      | true =>
          have kept : [event].filter (Event.within part) = [event] := by simp [isWithin]
          rw [kept, lastWritten_append]
      | false =>
          have dropped : [event].filter (Event.within part) = [] := by simp [isWithin]
          rw [dropped, List.append_nil]
          cases isWritten : event.written address with
          | none => exact Option.none_or
          | some byte =>
              -- The write is in another partition, which the address is not in.
              cases event with
              | made size => cases isWritten
              | read addr size result data => cases isWritten
              | wrote addr data =>
                  obtain ⟨other, otherPart, isOther, otherHas⟩ := here
                  obtain ⟨lower, upper⟩ := covered_eq_some isWritten
                  by_cases same : type = other
                  · rw [← same, isPartition] at isOther
                    rw [← Option.some.inj isOther] at otherHas
                    exact absurd otherHas (of_decide_eq_false isWithin)
                  · have apart := partition_disjoint isPartition isOther same
                    unfold Partition.Has at otherHas
                    omega

/-- A read inside a partition of an open flash succeeds, and returns what was
written last in that partition, or `0xff`. -/
theorem partition_reads {actions : List Action}
    (disciplined : EveryStep step (fun _ => Action.Disciplined kvProtected) start actions)
    (ran : run step start actions = some state) {type : FlashType} {part : Partition}
    (isPartition : partition kvProtected type = some part) {before after : List Event}
    {addr size : Nat} {result : Result} {data : Bytes}
    (isLog : state.log = before ++ .read addr size result data :: after)
    (inside : part.Has addr size) (isReady : result ≠ .resourceNotReady) :
    result = .ok ∧ data.length = size ∧ ∀ i < size, data[i]? =
      some ((lastWritten (before.filter (Event.within part)) (addr + i)).getD 0xff) := by
  obtain ⟨isOk, returned, failed, wasReady⟩ := reads_right ran before _ after isLog
  obtain ⟨isMade, long, notWrite⟩ := wasReady isReady
  have everyEvent : ∀ event ∈ state.log, event.Disciplined kvProtected :=
    run_admitted (fun _ _ _ kept isDisciplined stepped => step_disciplined kept isDisciplined stepped)
      (fun _ member => absurd member List.not_mem_nil) disciplined ran
  have earlier : ∀ event ∈ before, event.Disciplined kvProtected := fun event member =>
    everyEvent event (by rw [isLog]; exact List.mem_append_left _ member)
  have isWhole : madeSize before = flashFileSize := earlier _ isMade
  have fits := (partition_fits isPartition).2.2
  unfold Partition.Has at inside
  have succeeds : result = .ok := by
    cases result with
    | ok => rfl
    | resourceNotReady => exact absurd rfl isReady
    | fileReadFailed =>
        have tooLong := (failed rfl).2
        omega
    | fileWriteFailed => exact absurd rfl notWrite
  refine ⟨succeeds, (returned succeeds).1, fun i below => ?_⟩
  rw [(returned succeeds).2 i below]
  unfold content
  rw [lastWritten_within isPartition (by omega) (by omega) earlier, isWhole, if_pos (by omega)]

theorem twoProcesses_disciplined :
    EveryStep step (fun _ => Action.Disciplined false) start twoProcesses := by
  refine everyStep_of_mem (fun action member _ => ?_) _
  simp only [twoProcesses, List.mem_cons, List.not_mem_nil, or_false] at member
  rcases member with rfl | rfl | rfl | rfl | rfl | rfl | rfl
  · exact le_refl _
  · exact ⟨.kvKey, _, rfl, by decide⟩
  · exact ⟨.kvData, _, rfl, by decide⟩
  · trivial
  · trivial
  · exact le_refl _
  · trivial

theorem partition_reads_two :
    ∃ state before, run step start twoProcesses = some state ∧
      state.log = before ++ .read 4096 4 .ok [2, 3, 0xff, 0xff] :: [] ∧
      Result.ok = .ok ∧ [2, 3, 0xff, 0xff].length = 4 ∧ ∀ i < 4, [2, 3, 0xff, 0xff][i]? =
        some ((lastWritten (before.filter (Event.within ⟨4096, 4096, 0x8000⟩)) (4096 + i)).getD
          0xff) :=
  ⟨_, [_, _, _, _], rfl, rfl, partition_reads twoProcesses_disciplined rfl
    (rfl : partition false .kvData = some ⟨4096, 4096, 0x8000⟩) rfl (by decide) (by decide)⟩

end Steps

end TuyaAdapter.TklFlash
