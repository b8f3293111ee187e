import Mathlib.Data.List.Induction
import TuyaAdapter.Foundation.History
import TuyaAdapter.Foundation.Run
import TuyaAdapter.TklFlash.Model

/-!
Contract: what a read of the flash returns, over whole runs with restarts.

A byte is the one written last at its address, `0xff` when none was and the file
was made that long, and zero in a hole that a write behind the end left. Writes
that stay in their partition leave the other partitions alone.
-/

namespace TuyaAdapter.TklFlash

open Foundation.ByteMemory Foundation.History Foundation.Run

/-! ## What the log says -/

/-- The byte of the write at an address. -/
def covered (addr : Nat) (data : Bytes) (address : Nat) : Option UInt8 :=
  if addr ≤ address then data[address - addr]? else none

def Event.written (address : Nat) : Event → Option UInt8
  | .wrote addr data => covered addr data address
  | _ => none

/-- The file is made or written. -/
def Event.touches : Event → Bool
  | .made _ => true
  | .wrote _ _ => true
  | .read _ _ _ _ => false

/-- The byte written last at an address. -/
def lastWritten (log : List Event) (address : Nat) : Option UInt8 :=
  log.foldl (fun earlier event => (event.written address).or earlier) none

/-- How long the file was made. -/
def madeSize (log : List Event) : Nat :=
  log.foldl (fun earlier event => match event with
    | .made size => size
    | _ => earlier) 0

/-- How long the file is. -/
def extent (log : List Event) : Nat :=
  log.foldl (fun earlier event => match event with
    | .made size => size
    | .wrote addr data => if data = [] then earlier else max earlier (addr + data.length)
    | _ => earlier) 0

def content (log : List Event) (address : Nat) : UInt8 :=
  (lastWritten log address).getD (if address < madeSize log then 0xff else 0)

/-- What a read returned is right. -/
def Event.Right (before : List Event) : Event → Prop
  | .read addr size result data =>
      (result = .ok → size = 0 ∨ addr + size ≤ extent before) ∧
        (result = .ok → data.length = size ∧
          ∀ i < size, data[i]? = some (content before (addr + i))) ∧
        (result = .fileReadFailed → 0 < size ∧ extent before < addr + size) ∧
        (result ≠ .resourceNotReady → .made (madeSize before) ∈ before ∧
          madeSize before ≤ extent before ∧ result ≠ .fileWriteFailed)
  | _ => True

section Log

variable (log : List Event) (address : Nat)

theorem lastWritten_append (event : Event) :
    lastWritten (log ++ [event]) address = (event.written address).or (lastWritten log address) := by
  unfold lastWritten
  rw [List.foldl_append]
  rfl

theorem extent_wrote (addr : Nat) (data : Bytes) :
    extent (log ++ [.wrote addr data]) =
      if data = [] then extent log else max (extent log) (addr + data.length) := by
  unfold extent
  rw [List.foldl_append]
  rfl

theorem extent_made (size : Nat) : extent (log ++ [.made size]) = size := by
  unfold extent
  rw [List.foldl_append]
  rfl

theorem extent_read (addr size : Nat) (result : Result) (data : Bytes) :
    extent (log ++ [.read addr size result data]) = extent log := by
  unfold extent
  rw [List.foldl_append]
  rfl

theorem madeSize_wrote (addr : Nat) (data : Bytes) :
    madeSize (log ++ [.wrote addr data]) = madeSize log := by
  unfold madeSize
  rw [List.foldl_append]
  rfl

theorem madeSize_made (size : Nat) : madeSize (log ++ [.made size]) = size := by
  unfold madeSize
  rw [List.foldl_append]
  rfl

theorem madeSize_read (addr size : Nat) (result : Result) (data : Bytes) :
    madeSize (log ++ [.read addr size result data]) = madeSize log := by
  unfold madeSize
  rw [List.foldl_append]
  rfl

end Log

theorem covered_eq_some {addr address : Nat} {data : Bytes} {byte : UInt8}
    (isCovered : covered addr data address = some byte) :
    addr ≤ address ∧ address < addr + data.length := by
  unfold covered at isCovered
  split at isCovered
  · have inside := (List.getElem?_eq_some_iff.mp isCovered).1
    omega
  · cases isCovered

/-! ## The file -/

/-- The file is what the log says. -/
structure Holds (log : List Event) (file : File) : Prop where
  size : file.size = extent log
  isMade : .made (madeSize log) ∈ log
  made : madeSize log ≤ extent log
  inside : ∀ address, (lastWritten log address).isSome = true → address < extent log
  bytes : ∀ address, address < file.size → file.bytes address = content log address

structure Kept (state : State) : Prop where
  absent : state.file = none → state.isOpen = false ∧ ∀ event ∈ state.log, event.touches = false
  present : ∀ file, state.file = some file → Holds state.log file
  right : Every Event.Right state.log

section Steps

variable {state next : State} {log : List Event} {file : File}

theorem Holds.write (holds : Holds log file) (addr : Nat) (data : Bytes) :
    Holds (log ++ [.wrote addr data]) (file.write addr data) := by
  have sameMade := madeSize_wrote log addr data
  have isExtent := extent_wrote log addr data
  have isLast := fun address => lastWritten_append log address (.wrote addr data)
  by_cases isEmpty : data = []
  · have nothing : ∀ address, (Event.wrote addr data).written address = none := by
      intro address
      rw [isEmpty]
      simp [Event.written, covered]
    have same : file.write addr data = file := if_pos isEmpty
    rw [if_pos isEmpty] at isExtent
    have sameLast : ∀ address, lastWritten (log ++ [.wrote addr data]) address =
        lastWritten log address := fun address => by rw [isLast, nothing, Option.none_or]
    rw [same]
    refine ⟨holds.size.trans isExtent.symm, ?_, ?_, ?_, ?_⟩
    · rw [sameMade]
      exact List.mem_append_left _ holds.isMade
    · rw [sameMade, isExtent]
      exact holds.made
    · intro address isSome
      rw [sameLast] at isSome
      rw [isExtent]
      exact holds.inside address isSome
    · intro address below
      unfold content
      rw [sameLast, sameMade]
      exact holds.bytes address below
  · rw [if_neg isEmpty] at isExtent
    have isFile : file.write addr data = _ := if_neg isEmpty
    rw [isFile]
    refine ⟨?_, ?_, ?_, ?_, ?_⟩
    · rw [isExtent, holds.size]
    · rw [sameMade]
      exact List.mem_append_left _ holds.isMade
    · rw [sameMade, isExtent]
      exact holds.made.trans (le_max_left _ _)
    · intro address isSome
      rw [isLast] at isSome
      rw [isExtent]
      cases isCovered : (Event.wrote addr data).written address with
      | none =>
          rw [isCovered, Option.none_or] at isSome
          exact lt_of_lt_of_le (holds.inside address isSome) (le_max_left _ _)
      | some byte => exact lt_of_lt_of_le (covered_eq_some isCovered).2 (le_max_right _ _)
    · intro address below
      simp only at below ⊢
      unfold content
      rw [isLast, sameMade]
      by_cases inside : addr ≤ address ∧ address < addr + data.length
      · have isByte : (Event.wrote addr data).written address = data[address - addr]? :=
          if_pos inside.1
        have within : address - addr < data.length := by omega
        rw [writeBytes_inside inside.1 inside.2, isByte, List.getElem?_eq_getElem within]
        simp [List.getD, within]
      · have isNone : (Event.wrote addr data).written address = none := by
          cases isCovered : (Event.wrote addr data).written address with
          | none => rfl
          | some byte => exact absurd (covered_eq_some isCovered) inside
        rw [writeBytes_outside (by omega), isNone, Option.none_or]
        by_cases old : address < file.size
        · rw [writeBytes_outside (by omega)]
          exact holds.bytes address old
        · -- The address is in the hole, where nothing was written and nothing made.
          have notWritten : lastWritten log address = none := by
            cases isWritten : lastWritten log address with
            | none => rfl
            | some byte =>
                have inExtent := holds.inside address (by rw [isWritten]; rfl)
                have sameSize := holds.size
                omega
          have notMade : ¬ address < madeSize log := by
            have sameSize := holds.size
            have isMade := holds.made
            omega
          rw [writeBytes_inside (by omega) (by omega), notWritten, if_neg notMade]
          rfl

theorem lastWritten_untouched (address : Nat) :
    ∀ {log : List Event}, (∀ event ∈ log, event.touches = false) →
      lastWritten log address = none := by
  intro log
  induction log using List.reverseRecOn with
  | nil => intro _; rfl
  | append_singleton log event inductionHypothesis =>
      intro untouched
      have earlier := inductionHypothesis fun other member =>
        untouched other (List.mem_append_left _ member)
      have here := untouched event (List.mem_append_right _ (List.mem_singleton_self _))
      rw [lastWritten_append, earlier]
      cases event with
      | read addr size result data => rfl
      | made size => cases here
      | wrote addr data => cases here

theorem holds_made (reached : Nat) (untouched : ∀ event ∈ log, event.touches = false) :
    Holds (log ++ [.made (flashFileInit reached).size]) (flashFileInit reached) := by
  have notWritten : ∀ address, lastWritten (log ++ [.made (flashFileInit reached).size]) address =
      none := by
    intro address
    rw [lastWritten_append, lastWritten_untouched address untouched]
    rfl
  refine ⟨(extent_made _ _).symm, ?_, ?_, ?_, ?_⟩
  · rw [madeSize_made]
    exact List.mem_append_right _ (List.mem_singleton_self _)
  · rw [madeSize_made, extent_made]
  · intro address isSome
    rw [notWritten] at isSome
    cases isSome
  · intro address below
    unfold content
    rw [notWritten, madeSize_made, if_pos below]
    rfl

theorem Holds.read (holds : Holds log file) (addr size : Nat) (result : Result) (data : Bytes) :
    Holds (log ++ [.read addr size result data]) file := by
  have sameLast : ∀ address, lastWritten (log ++ [.read addr size result data]) address =
      lastWritten log address := fun address => by
    rw [lastWritten_append]
    exact Option.none_or
  refine ⟨?_, ?_, ?_, ?_, ?_⟩
  · rw [extent_read]
    exact holds.size
  · rw [madeSize_read]
    exact List.mem_append_left _ holds.isMade
  · rw [madeSize_read, extent_read]
    exact holds.made
  · intro address isSome
    rw [sameLast] at isSome
    rw [extent_read]
    exact holds.inside address isSome
  · intro address below
    unfold content
    rw [sameLast, madeSize_read]
    exact holds.bytes address below

theorem Holds.right (holds : Holds log file) (addr size : Nat) :
    Event.Right log (.read addr size
      (if (file.read addr size).length = size then .ok else .fileReadFailed)
      (file.read addr size)) := by
  have isLength : (file.read addr size).length = min size (file.size - addr) := by
    simp [File.read]
  have sameSize := holds.size
  by_cases isWhole : (file.read addr size).length = size
  · rw [if_pos isWhole]
    refine ⟨fun _ => by omega, fun _ => ⟨isWhole, fun i below => ?_⟩, nofun,
      fun _ => ⟨holds.isMade, holds.made, nofun⟩⟩
    have within : i < min size (file.size - addr) := by omega
    have isByte : (file.read addr size)[i]? = some (file.bytes (addr + i)) := by
      simp [File.read, List.getElem?_map, List.getElem?_range within]
    rw [isByte, holds.bytes (addr + i) (by omega)]
  · rw [if_neg isWhole]
    exact ⟨nofun, nofun, fun _ => by omega, fun _ => ⟨holds.isMade, holds.made, nofun⟩⟩

theorem Kept.getOneTypeInfo (kept : Kept state) (reached : Nat) :
    Kept (getOneTypeInfo state reached) := by
  unfold TklFlash.getOneTypeInfo
  split
  · exact kept
  · split
    · rename_i file isFile
      refine ⟨fun absent => ?_, kept.present, kept.right⟩
      rw [isFile] at absent
      cases absent
    · rename_i isNone
      have untouched := (kept.absent isNone).2
      refine ⟨nofun, fun file isFile => ?_, kept.right.append trivial⟩
      rw [← Option.some.inj isFile]
      exact holds_made reached untouched

theorem Kept.read (kept : Kept state) (addr size : Nat) : Kept (read state addr size) := by
  unfold TklFlash.read
  have stays : ∀ result data,
      (∀ event ∈ state.log, event.touches = false) →
        ∀ event ∈ state.log ++ [.read addr size result data], event.touches = false := by
    intro result data untouched event member
    rcases List.mem_append.mp member with old | new
    · exact untouched event old
    · rw [List.mem_singleton.mp new]
      rfl
  split
  · rename_i file isOpen isFile
    have holds := kept.present file isFile
    refine ⟨fun absent => ?_, fun other isOther => ?_, kept.right.append (holds.right addr size)⟩
    · exact absurd (isFile.symm.trans absent) (by simp)
    · exact (kept.present other isOther).read addr size _ _
  · refine ⟨fun absent => ?_, fun other isOther => ?_, kept.right.append ⟨nofun, nofun, nofun,
      fun ready => absurd rfl ready⟩⟩
    · exact ⟨(kept.absent absent).1, stays _ _ (kept.absent absent).2⟩
    · exact (kept.present other isOther).read addr size _ _

theorem Kept.write (kept : Kept state) (addr : Nat) (data : Bytes) (taken reached : Nat) :
    Kept (write state addr data taken reached).1 := by
  unfold TklFlash.write
  split
  · rename_i file isOpen isFile
    refine ⟨nofun, fun other isOther => ?_, kept.right.append trivial⟩
    rw [← Option.some.inj isOther]
    exact (kept.present file isFile).write addr _
  · exact kept

theorem step_kept {action : Action} (kept : Kept state) (stepped : step state action = some next) :
    Kept next := by
  cases action with
  | getOneTypeInfo reached =>
      rw [← Option.some.inj stepped]
      exact kept.getOneTypeInfo reached
  | read addr size =>
      rw [← Option.some.inj (Option.ite_none_right_eq_some.mp stepped).2]
      exact kept.read addr.toNat size.toNat
  | write addr data taken reached =>
      rw [← Option.some.inj (Option.ite_none_right_eq_some.mp stepped).2]
      exact kept.write addr.toNat data taken reached
  | restart =>
      rw [← Option.some.inj stepped]
      exact ⟨fun absent => ⟨rfl, (kept.absent absent).2⟩, kept.present, kept.right⟩

theorem start_kept : Kept start where
  absent := fun _ => ⟨rfl, fun _ member => absurd member List.not_mem_nil⟩
  present := fun _ isFile => nomatch isFile
  right := every_nil

/-- A read returns what was written last, or what the file was made of, and
fails when it reaches behind the end. -/
theorem reads_right {actions : List Action} (ran : run step start actions = some state) :
    Every Event.Right state.log :=
  (run_invariant (fun _ _ _ kept stepped => step_kept kept stepped) start_kept ran : Kept state).right

/-- The second process reads what the first one wrote, next to a write of the
other partition and in front of one that was cut. -/
def twoProcesses : List Action :=
  [.getOneTypeInfo flashFileSize, .write 4095 [1] 1 1, .write 4096 [2, 3, 4] 3 2, .restart,
    .read 4096 1, .getOneTypeInfo flashFileSize, .read 4096 4]

theorem reads_right_two :
    ∃ state, run step start twoProcesses = some state ∧
      .read 4096 4 .ok [2, 3, 0xff, 0xff] ∈ state.log ∧ Every Event.Right state.log := by
  have isRead : ∀ state, run step start twoProcesses = some state →
      .read 4096 4 .ok [2, 3, 0xff, 0xff] ∈ state.log := by
    intro state ran
    cases ran
    decide
  exact ⟨_, rfl, isRead _ rfl, reads_right (rfl : run step start twoProcesses = some _)⟩

end Steps

end TuyaAdapter.TklFlash
