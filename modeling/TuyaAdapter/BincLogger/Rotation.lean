import Mathlib.Algebra.Ring.Nat
import Mathlib.Logic.Function.Basic
import TuyaAdapter.Foundation.Decimal

/-!
Contract: the log files of `logger.c`.

File 0 is the one the program writes; rotation renames file `index` to file
`index + 1`, from the oldest on. Removing and renaming work; opening a file and
writing to one may fail. A character is a byte. A restart of the program loses
the settings and keeps the files. `written` is the history of the lines that
went to a file, whichever it was.
-/

namespace TuyaAdapter.BincLogger

open Foundation.Decimal

/-! ## The logger -/

inductive LogLevel where
  | debug | info | warn | error
deriving DecidableEq, Repr

def LogLevel.number : LogLevel → Nat
  | .debug => 0
  | .info => 1
  | .warn => 2
  | .error => 3

/-- `log_level_names`. -/
def LogLevel.name : LogLevel → String
  | .debug => "DEBUG"
  | .info => "INFO"
  | .warn => "WARN"
  | .error => "ERROR"

def bufferSize : Nat := 1024

/-- `MAX_FILE_SIZE`. -/
def defaultFileSize : Nat := 1024 * 64

/-- `MAX_LOGS`. -/
def defaultFiles : Nat := 5

inductive Output where
  | stdout
  | file
deriving DecidableEq, Repr

/-- The lines of every log file there is. -/
abbrev Files := Nat → Option (List Text)

/-- `LogSettings`, and the files. -/
structure Logger where
  enabled : Bool
  level : LogLevel
  fout : Option Output
  maxFileSize : Nat
  maxFiles : Nat
  currentSize : Nat
  logCallback : Bool
  files : Files
  written : List Text

/-- The program starts, with the files that are there. -/
def start (files : Files) (written : List Text) : Logger :=
  ⟨true, .debug, none, defaultFileSize, defaultFiles, 0, false, files, written⟩

def totalSize (lines : List Text) : Nat := (lines.map List.length).sum

/-- A file is opened for appending, and its size is taken; standard output stands
in for a file that cannot be opened. -/
def openLogFile (logger : Logger) (opens : Bool) : Logger :=
  if opens then
    let lines := (logger.files 0).getD []
    { logger with
      fout := some .file
      files := Function.update logger.files 0 (some lines)
      currentSize := totalSize lines }
  else { logger with fout := some .stdout }

def orDefault (value default : Nat) : Nat := if value ≠ 0 then value else default

/-- The name of the file is always the same. -/
def logSetFilename (logger : Logger) (maxSize maxFiles : Nat) (opens : Bool) : Logger :=
  openLogFile
    { logger with
      maxFileSize := orDefault maxSize defaultFileSize
      maxFiles := orDefault maxFiles defaultFiles }
    opens

/-- One pass of the loop: file `index` takes the place of the next one. -/
def renameFile (files : Files) (index : Nat) : Files :=
  let removed :=
    if (files (index + 1)).isSome then Function.update files (index + 1) none else files
  if (removed index).isSome then
    Function.update (Function.update removed (index + 1) (removed index)) index none
  else removed

/-- From the file with the highest number on. -/
def rotateLogFiles (files : Files) : Nat → Files
  | 0 => files
  | index + 1 => rotateLogFiles (renameFile files index) index

/-- The counter of the loop is an `int`. -/
def rotations (maxFiles : Nat) : Nat := if maxFiles < 2 ^ 31 then maxFiles else 0

def rotateLogFileIfNeeded (logger : Logger) (opens : Bool) : Logger :=
  if logger.currentSize < logger.maxFileSize ∨ logger.fout ≠ some .file ∨ logger.logCallback then
    logger
  else
    let files := rotateLogFiles logger.files (rotations logger.maxFiles)
    openLogFile { logger with files } opens

def logLine (timestamp level tag message : Text) : Text :=
  timestamp ++ ' ' :: (level ++ ' ' :: '[' :: (tag ++ ']' :: ' ' :: (message ++ ['\n'])))

/-- A line that cannot be written changes nothing. -/
def logLog (logger : Logger) (line : Text) (writes : Bool) : Logger :=
  if writes then
    let counted := { logger with currentSize := logger.currentSize + line.length }
    match logger.fout with
    | some .file =>
        let lines := (logger.files 0).getD []
        { counted with
          files := Function.update logger.files 0 (some (lines ++ [line]))
          written := logger.written ++ [line] }
    | _ => counted
  else logger

def logLogAtLevel (logger : Logger) (level : LogLevel) (timestamp tag message : Text)
    (opens writes : Bool) : Logger :=
  let ready :=
    if logger.fout = none ∧ logger.logCallback = false then { logger with fout := some .stdout }
    else logger
  let rotated := rotateLogFileIfNeeded ready opens
  if rotated.level.number ≤ level.number ∧ rotated.enabled ∧ ¬rotated.logCallback then
    let text := message.take (bufferSize - 1)
    logLog rotated (logLine timestamp level.name.toList tag text) writes
  else rotated

inductive Action where
  | setLevel (level : LogLevel)
  | setHandler (callback : Bool)
  | setEnabled (enabled : Bool)
  | setFilename (maxSize maxFiles : Nat) (opens : Bool)
  | log (level : LogLevel) (timestamp tag message : Text) (opens writes : Bool)
  | restart
deriving DecidableEq, Repr

def step (logger : Logger) : Action → Logger
  | .setLevel level => { logger with level }
  | .setHandler callback => { logger with logCallback := callback }
  | .setEnabled enabled => { logger with enabled }
  | .setFilename maxSize maxFiles opens => logSetFilename logger maxSize maxFiles opens
  | .log level timestamp tag message opens writes =>
      logLogAtLevel logger level timestamp tag message opens writes
  | .restart => start logger.files logger.written

/-- The logger after all the actions, from a directory without log files. -/
def run (actions : List Action) : Logger := actions.foldl step (start (fun _ => none) [])

/-! ## Rotation -/

/-- The lines of the files up to a number, the oldest first. -/
def kept (files : Files) : Nat → List Text
  | 0 => (files 0).getD []
  | index + 1 => (files (index + 1)).getD [] ++ kept files index

theorem renameFile_apply (files : Files) (index other : Nat) :
    renameFile files index other =
      if other = index then none else if other = index + 1 then files index else files other := by
  unfold renameFile
  cases next : files (index + 1) <;> cases here : files index <;>
    simp <;> grind

/-- Rotation moves every file up to the next number. -/
theorem rotateLogFiles_apply (files : Files) (count other : Nat) :
    rotateLogFiles files count other =
      if other ≤ count then
        match other with
        | 0 => if count = 0 then files 0 else none
        | before + 1 => files before
      else files other := by
  induction count generalizing files with
  | zero =>
      cases other with
      | zero => rfl
      | succ before => simp [rotateLogFiles]
  | succ count inductionHypothesis =>
      rw [rotateLogFiles, inductionHypothesis]
      cases other with
      | zero => cases count <;> simp [renameFile_apply]
      | succ before =>
          simp only [renameFile_apply]
          grind

/-- Only the oldest file is lost. -/
theorem kept_rotateLogFiles (files : Files) {count : Nat} (positive : 0 < count) :
    kept files count = (files count).getD [] ++ kept (rotateLogFiles files count) count := by
  have shifted : ∀ index < count,
      kept (rotateLogFiles files count) (index + 1) = kept files index := by
    intro index below
    induction index with
    | zero =>
        rw [kept, kept, kept, rotateLogFiles_apply, rotateLogFiles_apply]
        simp [positive.ne', Nat.succ_le_of_lt below]
    | succ index inductionHypothesis =>
        have inside : index + 1 + 1 ≤ count := below
        rw [kept, inductionHypothesis (by omega), rotateLogFiles_apply, if_pos inside]
        rfl
  obtain ⟨index, rfl⟩ := Nat.exists_eq_succ_of_ne_zero positive.ne'
  rw [shifted index (Nat.lt_succ_self _), kept]

/-! ## What is kept -/

/-- A file that was rotated is full. -/
def Full (size : Nat) (file : Option (List Text)) : Prop :=
  ∃ lines, file = some lines ∧ size ≤ totalSize lines

/-- Without its last line, a file is smaller than the limit. -/
def Fits (size : Nat) (file : Option (List Text)) : Prop :=
  ∀ lines last, file = some (lines ++ [last]) → totalSize lines < size

structure Rotating (size count : Nat) (logger : Logger) : Prop where
  current : logger.fout = some .file → logger.maxFileSize = size ∧ logger.maxFiles = count ∧
    ∃ lines, logger.files 0 = some lines ∧ logger.currentSize = totalSize lines
  retained : ∃ dropped, logger.written = dropped ++ kept logger.files count ∧
    (dropped ≠ [] → ∀ index < count, Full size (logger.files (index + 1)))
  full : ∀ index, (logger.files (index + 1)).isSome → Full size (logger.files (index + 1))
  closed : ∀ index, (logger.files (index + 2)).isSome → (logger.files (index + 1)).isSome
  fits : ∀ index, Fits size (logger.files index)
  only : ∀ index, count < index → logger.files index = none

variable {size count : Nat} {logger : Logger}

theorem totalSize_append (first second : List Text) :
    totalSize (first ++ second) = totalSize first + totalSize second := by
  unfold totalSize
  rw [List.map_append, List.sum_append]

theorem fits_none (size : Nat) : Fits size none := by
  rintro lines last ⟨⟩

theorem fits_nil (size : Nat) : Fits size (some []) := by
  intro lines last isLines
  simp at isLines

/-- A change that leaves the files alone, and the file that is written. -/
theorem Rotating.of_files {after : Logger} (rotating : Rotating size count logger)
    (sameFiles : after.files = logger.files) (sameWritten : after.written = logger.written)
    (current : after.fout = some .file → after.maxFileSize = size ∧ after.maxFiles = count ∧
      ∃ lines, logger.files 0 = some lines ∧ after.currentSize = totalSize lines) :
    Rotating size count after := by
  obtain ⟨-, retained, full, closed, fits, only⟩ := rotating
  rw [← sameFiles] at retained full closed fits only current
  rw [← sameWritten] at retained
  exact ⟨current, retained, full, closed, fits, only⟩

theorem kept_open (files : Files) (count : Nat) :
    kept (Function.update files 0 (some ((files 0).getD []))) count = kept files count := by
  induction count with
  | zero => simp [kept]
  | succ count inductionHypothesis => rw [kept, kept, inductionHypothesis]; simp

theorem Rotating.opened (rotating : Rotating size count logger)
    (isSize : logger.maxFileSize = size) (isCount : logger.maxFiles = count) (opens : Bool) :
    Rotating size count (openLogFile logger opens) := by
  unfold openLogFile
  cases opens with
  | false => exact rotating.of_files rfl rfl (by rintro ⟨⟩)
  | true =>
      change Rotating size count
        { logger with
          fout := some .file
          files := Function.update logger.files 0 (some ((logger.files 0).getD []))
          currentSize := totalSize ((logger.files 0).getD []) }
      obtain ⟨dropped, isWritten, allFull⟩ := rotating.retained
      have isOpen : Function.update logger.files 0 (some ((logger.files 0).getD [])) 0 =
          some ((logger.files 0).getD []) := Function.update_self ..
      refine ⟨fun _ => ⟨isSize, isCount, _, isOpen, rfl⟩, ⟨dropped, ?_, allFull⟩,
        rotating.full, rotating.closed, ?_, ?_⟩
      · change logger.written = dropped ++ kept (Function.update logger.files 0 _) count
        rw [kept_open]
        exact isWritten
      · intro index
        change Fits size (Function.update logger.files 0 _ index)
        rw [Function.update_apply]
        split
        · cases isFile : logger.files 0 with
          | none => exact fits_nil size
          | some lines =>
              have isFits := rotating.fits 0
              rwa [isFile] at isFits
        · exact rotating.fits index
      · intro index above
        change Function.update logger.files 0 _ index = none
        rw [Function.update_of_ne (by omega)]
        exact rotating.only index above

theorem Rotating.rotated (rotating : Rotating size count logger) (positive : 0 < count)
    {lines : List Text} (isFile : logger.files 0 = some lines) (isFull : size ≤ totalSize lines) :
    Rotating size count
      { logger with
        files := rotateLogFiles logger.files count
        fout := none } := by
  obtain ⟨dropped, isWritten, allFull⟩ := rotating.retained
  have fullBefore : ∀ index, (logger.files index).isSome → Full size (logger.files index) := by
    intro index isSome
    cases index with
    | zero => exact ⟨lines, isFile, isFull⟩
    | succ index => exact rotating.full index isSome
  have below : ∀ index, (logger.files (index + 1)).isSome → ∀ other ≤ index + 1,
      (logger.files other).isSome := by
    intro index isSome other isBelow
    induction index with
    | zero =>
        rcases Nat.le_one_iff_eq_zero_or_eq_one.mp isBelow with isZero | isOne
        · rw [isZero, isFile]
          rfl
        · rwa [isOne]
    | succ index inductionHypothesis =>
        rcases Nat.lt_or_eq_of_le isBelow with isLower | isHere
        · exact inductionHypothesis (rotating.closed index isSome) (by omega)
        · rwa [isHere]
  refine ⟨by rintro ⟨⟩, ⟨dropped ++ (logger.files count).getD [], ?_, ?_⟩, ?_, ?_, ?_, ?_⟩
  · dsimp only
    rw [isWritten, kept_rotateLogFiles logger.files positive, List.append_assoc]
  · intro isDropped index isIndex
    dsimp only
    rw [rotateLogFiles_apply, if_pos (Nat.succ_le_of_lt isIndex)]
    apply fullBefore
    by_cases wasDropped : dropped = []
    · rw [wasDropped, List.nil_append] at isDropped
      obtain ⟨last, rfl⟩ := Nat.exists_eq_succ_of_ne_zero positive.ne'
      refine below last ?_ index (by omega)
      cases isLast : logger.files (last + 1) with
      | none =>
          rw [isLast] at isDropped
          exact absurd rfl isDropped
      | some _ => rfl
    · cases index with
      | zero =>
          rw [isFile]
          rfl
      | succ index =>
          obtain ⟨old, isOld, -⟩ := allFull wasDropped index (by omega)
          rw [isOld]
          rfl
  · intro index isSome
    dsimp only at isSome ⊢
    rw [rotateLogFiles_apply] at isSome ⊢
    split
    · next inside =>
        rw [if_pos inside] at isSome
        exact fullBefore index isSome
    · next outside =>
        rw [if_neg outside, rotating.only _ (by omega)] at isSome
        cases isSome
  · intro index isSome
    dsimp only at isSome ⊢
    rw [rotateLogFiles_apply] at isSome ⊢
    split at isSome
    · next inside =>
        rw [if_pos (by omega)]
        exact below index isSome index (Nat.le_succ _)
    · rw [rotating.only _ (by omega)] at isSome
      cases isSome
  · intro index
    dsimp only
    rw [rotateLogFiles_apply]
    cases index with
    | zero =>
        rw [if_pos (Nat.zero_le _)]
        simp only [positive.ne', if_false]
        exact fits_none size
    | succ index =>
        split
        · exact rotating.fits index
        · exact rotating.fits (index + 1)
  · intro index above
    dsimp only
    rw [rotateLogFiles_apply, if_neg (by omega)]
    exact rotating.only index above

theorem openLogFile_closed (logger : Logger) (opens : Bool) :
    openLogFile { logger with fout := none } opens = openLogFile logger opens := by
  cases opens <;> rfl

/-- Either the file has room, or the files were rotated and a new one is opened. -/
theorem Rotating.rotation_cases (rotating : Rotating size count logger)
    (small : count < 2 ^ 31) (opens : Bool) :
    (rotateLogFileIfNeeded logger opens = logger ∧
      (logger.fout = some .file → logger.logCallback = false → logger.currentSize < size)) ∨
    (∃ lines, logger.maxFileSize = size ∧ logger.maxFiles = count ∧
      logger.files 0 = some lines ∧ size ≤ totalSize lines ∧
      rotateLogFileIfNeeded logger opens =
        openLogFile { logger with files := rotateLogFiles logger.files count } opens) := by
  unfold rotateLogFileIfNeeded
  split
  · next room =>
      refine .inl ⟨rfl, fun isOpen noCallback => ?_⟩
      obtain ⟨isSize, -⟩ := rotating.current isOpen
      rcases room with hasRoom | notOpen | isCallback
      · rwa [isSize] at hasRoom
      · exact absurd isOpen notOpen
      · rw [noCallback] at isCallback
        cases isCallback
  · next needed =>
      obtain ⟨isLarge, needed⟩ := not_or.mp needed
      obtain ⟨isSize, isCount, lines, isFile, isCurrent⟩ :=
        rotating.current (not_not.mp (not_or.mp needed).1)
      rw [isSize, isCurrent] at isLarge
      refine .inr ⟨lines, isSize, isCount, isFile, Nat.not_lt.mp isLarge, ?_⟩
      rw [rotations, isCount, if_pos small]

theorem Rotating.rotatedIfNeeded (rotating : Rotating size count logger)
    (positive : 0 < count) (small : count < 2 ^ 31) (opens : Bool) :
    Rotating size count (rotateLogFileIfNeeded logger opens) := by
  rcases rotating.rotation_cases small opens with
    ⟨same, -⟩ | ⟨lines, isSize, isCount, isFile, isFull, isRotated⟩
  · rwa [same]
  · rw [isRotated, ← openLogFile_closed]
    exact (rotating.rotated positive isFile isFull).opened isSize isCount opens

/-- A file that was just rotated is empty. -/
theorem Rotating.room (rotating : Rotating size count logger) (positiveSize : 0 < size)
    (positive : 0 < count) (small : count < 2 ^ 31) {opens : Bool}
    (isOpen : (rotateLogFileIfNeeded logger opens).fout = some .file)
    (noCallback : (rotateLogFileIfNeeded logger opens).logCallback = false) :
    (rotateLogFileIfNeeded logger opens).currentSize < size := by
  rcases rotating.rotation_cases small opens with
    ⟨same, hasRoom⟩ | ⟨lines, isSize, isCount, isFile, isFull, isRotated⟩
  · rw [same] at isOpen noCallback ⊢
    exact hasRoom isOpen noCallback
  · rw [isRotated] at isOpen ⊢
    have isEmpty : rotateLogFiles logger.files count 0 = none := by
      rw [rotateLogFiles_apply, if_pos (Nat.zero_le _)]
      exact if_neg positive.ne'
    cases opens with
    | false => cases isOpen
    | true =>
        change totalSize ((rotateLogFiles logger.files count 0).getD []) < size
        rw [isEmpty]
        exact positiveSize

/-! ## Every run -/

theorem kept_append (files : Files) (lines : List Text) (line : Text) (count : Nat)
    (isFile : files 0 = some lines) :
    kept (Function.update files 0 (some (lines ++ [line]))) count = kept files count ++ [line] := by
  induction count with
  | zero => simp [kept, isFile]
  | succ count inductionHypothesis => rw [kept, kept, inductionHypothesis]; simp

theorem Rotating.appended (rotating : Rotating size count logger)
    (room : logger.fout = some .file → logger.currentSize < size) (line : Text) (writes : Bool) :
    Rotating size count (logLog logger line writes) := by
  unfold logLog
  cases writes with
  | false => exact rotating
  | true =>
      rw [if_pos rfl]
      cases isOut : logger.fout with
      | none => exact rotating.of_files rfl rfl (by rintro ⟨⟩)
      | some output =>
          cases output with
          | stdout => exact rotating.of_files rfl rfl (by rintro ⟨⟩)
          | file =>
              obtain ⟨isSize, isCount, lines, isFile, isCurrent⟩ := rotating.current isOut
              obtain ⟨dropped, isWritten, allFull⟩ := rotating.retained
              have isOpen := room isOut
              dsimp only
              rw [isFile, Option.getD_some]
              have isAppended : Function.update logger.files 0 (some (lines ++ [line])) 0 =
                  some (lines ++ [line]) := Function.update_self ..
              refine ⟨fun _ => ⟨isSize, isCount, _, isAppended, ?_⟩,
                ⟨dropped, ?_, allFull⟩, rotating.full, rotating.closed, ?_, ?_⟩
              · rw [totalSize_append, ← isCurrent]
                rfl
              · rw [kept_append logger.files lines line count isFile, isWritten, List.append_assoc]
              · intro index
                cases index with
                | zero =>
                    intro before last isLines
                    change Function.update logger.files 0 (some (lines ++ [line])) 0 =
                      some (before ++ [last]) at isLines
                    rw [Function.update_self, Option.some.injEq] at isLines
                    obtain ⟨rfl, -⟩ := List.append_inj' isLines rfl
                    rwa [← isCurrent]
                | succ index => exact rotating.fits (index + 1)
              · intro index above
                change Function.update logger.files 0 _ index = none
                rw [Function.update_of_ne (by omega)]
                exact rotating.only index above

theorem Rotating.logged (rotating : Rotating size count logger) (positiveSize : 0 < size)
    (positive : 0 < count) (small : count < 2 ^ 31) (level : LogLevel)
    (timestamp tag message : Text) (opens writes : Bool) :
    Rotating size count (logLogAtLevel logger level timestamp tag message opens writes) := by
  have ready : Rotating size count (if logger.fout = none ∧ logger.logCallback = false then
      { logger with fout := some .stdout } else logger) := by
    split
    · exact rotating.of_files rfl rfl (by rintro ⟨⟩)
    · exact rotating
  unfold logLogAtLevel
  generalize (if logger.fout = none ∧ logger.logCallback = false then
      { logger with fout := some .stdout } else logger) = opened at ready
  dsimp only
  split
  · next isLogged =>
      refine (ready.rotatedIfNeeded positive small opens).appended (fun isOpen => ?_) _ _
      exact ready.room positiveSize positive small isOpen (Bool.eq_false_iff.mpr isLogged.2.2)
  · exact ready.rotatedIfNeeded positive small opens

/-- The file is always given the same limits. -/
def SameLimits (maxSize maxFiles : Nat) : Action → Prop
  | .setFilename size files _ => size = maxSize ∧ files = maxFiles
  | _ => True

instance (maxSize maxFiles : Nat) : DecidablePred (SameLimits maxSize maxFiles)
  | .setFilename _ _ _ => inferInstanceAs (Decidable (_ ∧ _))
  | .setLevel _ => .isTrue trivial
  | .setHandler _ => .isTrue trivial
  | .setEnabled _ => .isTrue trivial
  | .log _ _ _ _ _ _ => .isTrue trivial
  | .restart => .isTrue trivial

theorem Rotating.stepped {maxSize maxFiles : Nat}
    (rotating : Rotating (orDefault maxSize defaultFileSize) (orDefault maxFiles defaultFiles)
      logger)
    (small : maxFiles < 2 ^ 31) {action : Action} (same : SameLimits maxSize maxFiles action) :
    Rotating (orDefault maxSize defaultFileSize) (orDefault maxFiles defaultFiles)
      (step logger action) := by
  have positiveSize : 0 < orDefault maxSize defaultFileSize := by
    unfold orDefault defaultFileSize
    split <;> omega
  have positive : 0 < orDefault maxFiles defaultFiles := by
    unfold orDefault defaultFiles
    split <;> omega
  have bounded : orDefault maxFiles defaultFiles < 2 ^ 31 := by
    unfold orDefault defaultFiles
    split <;> omega
  cases action with
  | setLevel level => exact rotating.of_files rfl rfl rotating.current
  | setHandler callback => exact rotating.of_files rfl rfl rotating.current
  | setEnabled enabled => exact rotating.of_files rfl rfl rotating.current
  | setFilename size files opens =>
      obtain ⟨rfl, rfl⟩ := same
      have limited : Rotating (orDefault size defaultFileSize) (orDefault files defaultFiles)
          { logger with
            maxFileSize := orDefault size defaultFileSize
            maxFiles := orDefault files defaultFiles } :=
        rotating.of_files rfl rfl fun isOpen => ⟨rfl, rfl, (rotating.current isOpen).2.2⟩
      exact limited.opened rfl rfl opens
  | log level timestamp tag message opens writes =>
      exact rotating.logged positiveSize positive bounded level timestamp tag message
        opens writes
  | restart => exact rotating.of_files rfl rfl (by rintro ⟨⟩)

theorem rotating_run {maxSize maxFiles : Nat} (small : maxFiles < 2 ^ 31) (actions : List Action)
    (same : ∀ action ∈ actions, SameLimits maxSize maxFiles action) :
    Rotating (orDefault maxSize defaultFileSize) (orDefault maxFiles defaultFiles)
      (run actions) := by
  have initial : ∀ logger, Rotating (orDefault maxSize defaultFileSize)
      (orDefault maxFiles defaultFiles) logger →
      Rotating (orDefault maxSize defaultFileSize) (orDefault maxFiles defaultFiles)
        (actions.foldl step logger) := by
    intro logger rotating
    induction actions generalizing logger with
    | nil => exact rotating
    | cons action actions inductionHypothesis =>
        have sameHere := same action (List.mem_cons_self ..)
        have sameLater := fun later isLater => same later (List.mem_cons_of_mem _ isLater)
        exact inductionHypothesis sameLater _ (rotating.stepped small sameHere)
  refine initial _ ⟨by rintro ⟨⟩, ⟨[], ?_, fun isDropped => absurd rfl isDropped⟩, ?_, ?_, ?_, ?_⟩
  · have isEmpty : ∀ count, kept (fun _ => none) count = [] := by
      intro count
      induction count with
      | zero => rfl
      | succ count inductionHypothesis => rw [kept, inductionHypothesis]; rfl
    exact (isEmpty _).symm
  · rintro index ⟨⟩
  · rintro index ⟨⟩
  · exact fun index => fits_none _
  · exact fun index above => rfl

theorem kept_full {files : Files} (allFull : ∀ index < count, Full size (files (index + 1))) :
    count * size ≤ totalSize (kept files count) := by
  induction count with
  | zero =>
      rw [Nat.zero_mul]
      exact Nat.zero_le _
  | succ count inductionHypothesis =>
      obtain ⟨lines, isFile, isFull⟩ := allFull count (Nat.lt_succ_self _)
      have rest := inductionHypothesis fun index below => allFull index (by omega)
      rw [kept, isFile, totalSize_append, Nat.succ_mul]
      exact Nat.add_comm .. ▸ Nat.add_le_add isFull rest

/-- While the file is always given the same limits, and whatever restarts and failures
there are, the files hold the lines that were written last, in their order and each
once: every line of them, until as many bytes as the older files must hold are left.
A file has room when a line is written to it, and no other file is made. -/
theorem logs_kept {maxSize maxFiles : Nat} (small : maxFiles < 2 ^ 31) (actions : List Action)
    (same : ∀ action ∈ actions, SameLimits maxSize maxFiles action) :
    let size := orDefault maxSize defaultFileSize
    let count := orDefault maxFiles defaultFiles
    let logger := run actions
    (∃ dropped, logger.written = dropped ++ kept logger.files count ∧
      (dropped ≠ [] → count * size ≤ totalSize (kept logger.files count))) ∧
    (∀ index, Fits size (logger.files index)) ∧
    ∀ index, count < index → logger.files index = none := by
  obtain ⟨-, ⟨dropped, isWritten, allFull⟩, -, -, fits, only⟩ := rotating_run small actions same
  exact ⟨⟨dropped, isWritten, fun isDropped => kept_full (allFull isDropped)⟩, fits, only⟩

def rotated : List Action :=
  [.setFilename 30 2 true, .log .info "t1".toList "A".toList "one".toList true true,
   .log .warn "t2".toList "A".toList "two, longer".toList true true, .restart,
   .setFilename 30 2 true, .log .info "t3".toList "A".toList "three".toList true true,
   .log .error "t4".toList "B".toList "four and more".toList true true,
   .log .debug "t5".toList "B".toList "five".toList true true,
   .log .debug "t6".toList "B".toList "six, the longest".toList true true,
   .log .info "t7".toList "A".toList "seven".toList true true]

theorem logs_kept_rotated :
    (∃ dropped, (run rotated).written = dropped ++ kept (run rotated).files 2 ∧
      (dropped ≠ [] → 2 * 30 ≤ totalSize (kept (run rotated).files 2))) ∧
    (run rotated).written.length = 7 ∧ (kept (run rotated).files 2).length = 5 := by
  have same : ∀ action ∈ rotated, SameLimits 30 2 action := by decide
  have retained := logs_kept (by decide : 2 < 2 ^ 31) rotated same
  exact ⟨retained.1, by decide, by decide⟩

end TuyaAdapter.BincLogger
