import Mathlib.Data.List.GetD
import Mathlib.Data.List.TakeWhile
import TuyaAdapter.Foundation.Pieces
import TuyaAdapter.TuyaTools.Strncasecmp
import TuyaAdapter.WpaCommand.Model

/-!
Contract: `get_line_from_buf` of `wpa_command.c`, on texts in memory.

Memory goes on behind the terminator of the text, and may hold anything there.
What is written to the line buffer is a list of bytes, from its start on. Texts
are shorter than 2^31, so that the positions, of type `int`, do not overflow. The
loops run on fuel: they are missing when they need more turns.
-/

namespace TuyaAdapter.WpaCommand

open Foundation.Decimal Foundation.Pieces TuyaTools

/-! ## The function -/

/-- Line feed or carriage return. -/
def isLineEnd (byte : UInt8) : Bool := byte = 10 ∨ byte = 13

/-- `strncpy`: the bytes written. -/
def strncpy (source : Nat → UInt8) (start len : Nat) : List UInt8 :=
  let chars := ((List.range' start len).map source).takeWhile (· ≠ 0)
  chars ++ List.replicate (len - chars.length) 0

/-- What is returned, and what is written to the line buffer. -/
structure GotLine where
  ret : Int
  line : List UInt8
deriving DecidableEq, Repr

/-- The variables of the loop. -/
structure LineScan where
  i : Nat
  endcnt : Int
  linestart : Nat

/-- The loop over the line ends behind one; where it stops. -/
def skipLoop (buf : Nat → UInt8) : Nat → Nat → Option Nat
  | 0, _ => none
  | fuel + 1, j =>
      if buf j ≠ 0 then
        if isLineEnd (buf j) then skipLoop buf fuel (j + 1) else some j
      else some j

/-- The turn of the loop up to its last test: it returns, or goes on there. -/
def lineTurn (buf : Nat → UInt8) (index : Int) (fuel : Nat) (scan : LineScan) :
    Option (GotLine ⊕ LineScan) :=
  if isLineEnd (buf scan.i) ∨ buf scan.i = 0 then
    let endcnt := scan.endcnt + 1
    if index = endcnt then
      let len := scan.i - scan.linestart
      some (.inl ⟨0, strncpy buf scan.linestart len ++ [0]⟩)
    else
      (skipLoop buf fuel (scan.i + 1)).map fun j =>
        if buf j = 0 then .inl ⟨-1, []⟩ else .inr ⟨j, endcnt, j⟩
  else some (.inr scan)

def lineLoop (buf : Nat → UInt8) (index : Int) : Nat → LineScan → Option GotLine
  | 0, _ => none
  | fuel + 1, scan =>
      match lineTurn buf index fuel scan with
      | none => none
      | some (.inl got) => some got
      | some (.inr scan) =>
          if buf scan.i = 0 then some ⟨-1, []⟩
          else lineLoop buf index fuel { scan with i := scan.i + 1 }

def getLineFromBuf (fuel : Nat) (index : Int) (buf : Nat → UInt8) : Option GotLine :=
  lineLoop buf index fuel ⟨0, -1, 0⟩

/-! ## The property and the condition -/

/-- The piece asked for, or nothing. -/
def expected (text : List UInt8) (index : Nat) : GotLine :=
  match (pieces isLineEnd text)[index]? with
  | some piece => ⟨0, piece ++ [0]⟩
  | none => ⟨-1, []⟩

/-- Whatever is behind the text, the call ends, finds the piece and writes no more
than the line buffer holds. -/
def Exact (text : List UInt8) (index size : Nat) : Prop :=
  ∀ buf, StringAt buf 0 text →
    (∃ fuel, getLineFromBuf fuel index buf = some (expected text index)) ∧
      (expected text index).line.length ≤ size

/-- The piece and its terminator fit, and a text that has too few pieces ends with
a line end. -/
def Guarded (text : List UInt8) (index size : Nat) : Prop :=
  (∀ piece, (pieces isLineEnd text)[index]? = some piece → piece.length < size) ∧
    ((pieces isLineEnd text).length ≤ index → EndsLine isLineEnd text)

/-! ## The loop over line ends -/

variable {buf : Nat → UInt8}

theorem skipLoop_found {fuel j stop : Nat} {rest : List UInt8} (string : StringAt buf j rest)
    (found : skipLoop buf fuel j = some stop) :
    StringAt buf stop (rest.dropWhile isLineEnd) := by
  induction fuel generalizing j rest with
  | zero => exact absurd found (by simp [skipLoop])
  | succ fuel inductionHypothesis =>
      rw [skipLoop] at found
      cases string with
      | nil terminator =>
          rw [if_neg (not_not.mpr terminator)] at found
          rw [← Option.some.inj found]
          exact StringAt.nil terminator
      | cons more later =>
          rw [if_pos more] at found
          by_cases ends : isLineEnd (buf j) = true
          · rw [if_pos ends] at found
            rw [List.dropWhile_cons_of_pos ends]
            exact inductionHypothesis later found
          · rw [if_neg ends] at found
            rw [List.dropWhile_cons_of_neg ends, ← Option.some.inj found]
            exact StringAt.cons more later

/-- The place of the terminator does not change. -/
theorem skipLoop_reaches {fuel j stop : Nat} {rest : List UInt8} (string : StringAt buf j rest)
    (found : skipLoop buf fuel j = some stop) :
    stop + (rest.dropWhile isLineEnd).length = j + rest.length := by
  induction fuel generalizing j rest with
  | zero => exact absurd found (by simp [skipLoop])
  | succ fuel inductionHypothesis =>
      rw [skipLoop] at found
      cases string with
      | nil terminator =>
          rw [if_neg (not_not.mpr terminator)] at found
          rw [← Option.some.inj found, List.dropWhile_nil]
      | cons more later =>
          rw [if_pos more] at found
          by_cases ends : isLineEnd (buf j) = true
          · rw [if_pos ends] at found
            rw [List.dropWhile_cons_of_pos ends, inductionHypothesis later found, List.length_cons]
            omega
          · rw [if_neg ends] at found
            rw [List.dropWhile_cons_of_neg ends, ← Option.some.inj found]

theorem skipLoop_ends {fuel j : Nat} {rest : List UInt8} (string : StringAt buf j rest)
    (enough : rest.length < fuel) : ∃ stop, skipLoop buf fuel j = some stop := by
  induction fuel generalizing j rest with
  | zero => exact absurd enough (Nat.not_lt_zero _)
  | succ fuel inductionHypothesis =>
      rw [skipLoop]
      cases string with
      | nil terminator =>
          rw [if_neg (not_not.mpr terminator)]
          exact ⟨j, rfl⟩
      | cons more later =>
          rw [List.length_cons] at enough
          rw [if_pos more]
          by_cases ends : isLineEnd (buf j) = true
          · rw [if_pos ends]
            exact inductionHypothesis later (Nat.lt_of_succ_lt_succ enough)
          · rw [if_neg ends]
            exact ⟨j, rfl⟩

/-! ## One turn -/

/-- The scan stands behind a part of a piece. -/
structure Standing (buf : Nat → UInt8) (scan : LineScan) (before rest : List UInt8) : Prop where
  position : scan.i = scan.linestart + before.length
  isPiece : (List.range' scan.linestart before.length).map buf = before
  plain : ∀ byte ∈ before, isLineEnd byte = false
  nonzero : ∀ byte ∈ before, byte ≠ 0
  string : StringAt buf scan.i rest

variable {scan : LineScan} {before rest : List UInt8} {index : Int}

theorem strncpy_piece (standing : Standing buf scan before rest) :
    strncpy buf scan.linestart (scan.i - scan.linestart) = before := by
  have isLength : scan.i - scan.linestart = before.length := by
    rw [standing.position, Nat.add_sub_cancel_left]
  have whole : before.takeWhile (· ≠ 0) = before := by
    rw [List.takeWhile_eq_self_iff]
    exact fun byte member => decide_eq_true (standing.nonzero byte member)
  rw [isLength, strncpy, standing.isPiece, whole, Nat.sub_self, List.replicate_zero,
    List.append_nil]

/-- At a line end or the terminator, the piece asked for is found. -/
theorem lineLoop_here (standing : Standing buf scan before rest)
    (ends : isLineEnd (buf scan.i) = true ∨ buf scan.i = 0) (isIndex : index = scan.endcnt + 1)
    (fuel : Nat) : lineLoop buf index (fuel + 1) scan = some ⟨0, before ++ [0]⟩ := by
  rw [lineLoop, lineTurn, if_pos ends]
  simp only [isIndex, if_true, strncpy_piece standing]

/-- Otherwise the scan goes on behind the run. -/
theorem lineLoop_next (ends : isLineEnd (buf scan.i) = true ∨ buf scan.i = 0)
    (notIndex : index ≠ scan.endcnt + 1) {fuel stop : Nat}
    (found : skipLoop buf fuel (scan.i + 1) = some stop) :
    lineLoop buf index (fuel + 1) scan =
      if buf stop = 0 then some ⟨-1, []⟩
      else lineLoop buf index fuel ⟨stop + 1, scan.endcnt + 1, stop⟩ := by
  rw [lineLoop, lineTurn, if_pos ends]
  simp only [if_neg notIndex, found, Option.map_some]
  by_cases terminator : buf stop = 0
  · simp only [if_pos terminator]
  · simp only [if_neg terminator]

theorem lineLoop_stuck (ends : isLineEnd (buf scan.i) = true ∨ buf scan.i = 0)
    (notIndex : index ≠ scan.endcnt + 1) {fuel : Nat}
    (endless : skipLoop buf fuel (scan.i + 1) = none) :
    lineLoop buf index (fuel + 1) scan = none := by
  rw [lineLoop, lineTurn, if_pos ends]
  simp only [if_neg notIndex, endless, Option.map_none]

theorem lineLoop_plain (plain : isLineEnd (buf scan.i) = false) (more : buf scan.i ≠ 0)
    (fuel : Nat) :
    lineLoop buf index (fuel + 1) scan =
      lineLoop buf index fuel { scan with i := scan.i + 1 } := by
  have notEnd : ¬ (isLineEnd (buf scan.i) = true ∨ buf scan.i = 0) := by
    rw [plain]
    simpa using more
  rw [lineLoop, lineTurn, if_neg notEnd]
  simp only [if_neg more]

theorem Standing.plain_turn {later : List UInt8}
    (standing : Standing buf scan before (buf scan.i :: later))
    (plain : isLineEnd (buf scan.i) = false) (more : buf scan.i ≠ 0)
    (string : StringAt buf (scan.i + 1) later) :
    Standing buf { scan with i := scan.i + 1 } (before ++ [buf scan.i]) later := by
  refine ⟨?_, ?_, ?_, ?_, string⟩
  · rw [List.length_append, List.length_singleton, standing.position]
    rfl
  · rw [List.length_append, List.length_singleton, List.range'_concat, List.map_append,
      standing.isPiece, Nat.one_mul, ← standing.position]
    rfl
  · intro byte member
    rcases List.mem_append.mp member with earlier | here
    · exact standing.plain byte earlier
    · rw [List.mem_singleton.mp here]
      exact plain
  · intro byte member
    rcases List.mem_append.mp member with earlier | here
    · exact standing.nonzero byte earlier
    · rw [List.mem_singleton.mp here]
      exact more

/-- The scan stands behind the first byte of the next piece. -/
theorem Standing.start {stop : Nat} {later : List UInt8} (endcnt : Int)
    (plain : isLineEnd (buf stop) = false) (more : buf stop ≠ 0)
    (string : StringAt buf (stop + 1) later) :
    Standing buf ⟨stop + 1, endcnt, stop⟩ [buf stop] later := by
  refine ⟨rfl, rfl, ?_, ?_, string⟩
  · intro byte member
    rw [List.mem_singleton.mp member]
    exact plain
  · intro byte member
    rw [List.mem_singleton.mp member]
    exact more

/-! ## A turn that leaves a piece -/

/-- The scan stands at the terminator, at a byte of its piece or at a line end. -/
theorem Standing.cases (standing : Standing buf scan before rest) :
    (rest = [] ∧ buf scan.i = 0) ∨
      (∃ later, rest = buf scan.i :: later ∧ isLineEnd (buf scan.i) = false ∧ buf scan.i ≠ 0 ∧
        Standing buf { scan with i := scan.i + 1 } (before ++ [buf scan.i]) later) ∨
      ∃ later, rest = buf scan.i :: later ∧ isLineEnd (buf scan.i) = true ∧
        StringAt buf (scan.i + 1) later := by
  have string := standing.string
  cases rest with
  | nil =>
      cases string with
      | nil terminator => exact Or.inl ⟨rfl, terminator⟩
  | cons byte later =>
      cases string with
      | cons more string =>
          cases ends : isLineEnd (buf scan.i) with
          | false => exact Or.inr (Or.inl ⟨later, rfl, rfl, more, standing.plain_turn ends more string⟩)
          | true => exact Or.inr (Or.inr ⟨later, rfl, rfl, string⟩)

/-- Another piece starts behind a run of line ends. -/
structure NextPiece (buf : Nat → UInt8) (scan : LineScan) (before later : List UInt8) (stop : Nat)
    (others : List UInt8) : Prop where
  more : buf stop ≠ 0
  standing : Standing buf ⟨stop + 1, scan.endcnt + 1, stop⟩ [buf stop] others
  arePieces : pieces isLineEnd (before ++ buf scan.i :: later) =
    before :: pieces isLineEnd (buf stop :: others)
  ended : EndsLine isLineEnd (before ++ buf scan.i :: later) ↔
    EndsLine isLineEnd (buf stop :: others)
  reached : stop + others.length = scan.i + later.length
  shorter : others.length < later.length

/-- Behind a run of line ends stands the terminator or another piece. -/
theorem behind_run {later : List UInt8} {fuel stop : Nat}
    (plain : ∀ byte ∈ before, isLineEnd byte = false) (ends : isLineEnd (buf scan.i) = true)
    (string : StringAt buf (scan.i + 1) later)
    (found : skipLoop buf fuel (scan.i + 1) = some stop) :
    (buf stop = 0 ∧ pieces isLineEnd (before ++ buf scan.i :: later) = [before] ∧
        EndsLine isLineEnd (before ++ buf scan.i :: later)) ∨
      ∃ others, NextPiece buf scan before later stop others := by
  have isBehind := skipLoop_found string found
  have reached := skipLoop_reaches string found
  have shorter := List.length_dropWhile_le isLineEnd later
  have notEnd := List.head?_dropWhile_not isLineEnd later
  have ended := endsLine_cut ends before later
  cases behind : later.dropWhile isLineEnd with
  | nil =>
      rw [behind] at isBehind
      cases isBehind with
      | nil terminator =>
          exact Or.inl ⟨terminator, pieces_cut_last plain ends behind, ended.mpr (Or.inl behind)⟩
  | cons first others =>
      have arePieces := pieces_cut plain ends behind
      rw [behind] at isBehind reached shorter notEnd ended
      rw [List.length_cons] at reached shorter
      cases isBehind with
      | cons more string =>
          have plainStop : isLineEnd (buf stop) = false := by simpa using notEnd
          refine Or.inr ⟨others, more, Standing.start _ plainStop more string, arePieces, ?_,
            by omega, shorter⟩
          rw [ended]
          exact or_iff_right (List.cons_ne_nil _ _)

/-! ## A run on a text whose pieces or whose end decide -/

theorem expected_zero {text later : List UInt8} {others : List (List UInt8)}
    (arePieces : pieces isLineEnd text = later :: others) : expected text 0 = ⟨0, later ++ [0]⟩ := by
  rw [expected, arePieces, List.getElem?_cons_zero]

theorem expected_succ {text later piece : List UInt8}
    (arePieces : pieces isLineEnd text = piece :: pieces isLineEnd later) (k : Nat) :
    expected text (k + 1) = expected later k := by
  rw [expected, expected, arePieces, List.getElem?_cons_succ]

theorem expected_none {text : List UInt8} {k : Nat} (few : (pieces isLineEnd text).length ≤ k) :
    expected text k = ⟨-1, []⟩ := by
  rw [expected, List.getElem?_eq_none few]

/-- The piece asked for is found, or the text is known to have no more pieces: it
ends with a line end, or another terminator follows. -/
theorem lineLoop_runs {fuel k : Nat} (standing : Standing buf scan before rest)
    (enough : rest.length + 1 < fuel) (isIndex : index = scan.endcnt + 1 + k)
    (decided : (pieces isLineEnd (before ++ rest)).length ≤ k →
      EndsLine isLineEnd (before ++ rest) ∨ buf (scan.i + rest.length + 1) = 0) :
    lineLoop buf index fuel scan = some (expected (before ++ rest) k) := by
  induction fuel generalizing scan before rest k with
  | zero => exact absurd enough (Nat.not_lt_zero _)
  | succ fuel inductionHypothesis =>
      have plainPieces := pieces_plain standing.plain
      rcases standing.cases with ⟨rfl, terminator⟩ | ⟨later, rfl, plain, more, next⟩ |
        ⟨later, rfl, ends, string⟩
      · rw [List.append_nil, plainPieces] at decided
        rw [List.append_nil]
        cases k with
        | zero =>
            rw [lineLoop_here standing (Or.inr terminator) (by simpa using isIndex),
              expected_zero plainPieces]
        | succ k =>
            have another := (decided (Nat.le_add_left _ _)).resolve_left
              (not_endsLine_of_plain standing.plain)
            obtain ⟨stop, found⟩ :=
              skipLoop_ends (StringAt.nil another) (Nat.lt_of_succ_lt_succ enough)
            cases skipLoop_found (StringAt.nil another) found with
            | nil isZero =>
                rw [lineLoop_next (Or.inr terminator) (by omega) found, if_pos isZero,
                  expected_none (by rw [plainPieces]; exact Nat.le_add_left _ _)]
      · rw [List.length_cons] at enough decided
        have behind : scan.i + 1 + later.length + 1 = scan.i + (later.length + 1) + 1 := by omega
        rw [lineLoop_plain plain more,
          inductionHypothesis next (Nat.lt_of_succ_lt_succ enough) isIndex ?_,
          List.append_assoc, List.singleton_append]
        rw [List.append_assoc, List.singleton_append, behind]
        exact decided
      · rw [List.length_cons] at enough decided
        cases k with
        | zero =>
            rw [lineLoop_here standing (Or.inl ends) (by simpa using isIndex),
              expected_zero (pieces_append_cons standing.plain ends later)]
        | succ k =>
            obtain ⟨stop, found⟩ := skipLoop_ends string (show later.length < fuel by omega)
            have notIndex : index ≠ scan.endcnt + 1 := by omega
            rw [lineLoop_next (Or.inl ends) notIndex found]
            rcases behind_run standing.plain ends string found with
              ⟨terminator, arePieces, -⟩ | ⟨others, piece⟩
            · rw [if_pos terminator, expected_none]
              rw [arePieces]
              exact Nat.le_add_left _ _
            · have reached := piece.reached
              have shorter := piece.shorter
              have isEnd : stop + 1 + others.length + 1 = scan.i + (later.length + 1) + 1 := by
                omega
              rw [if_neg piece.more, expected_succ piece.arePieces, inductionHypothesis
                piece.standing (by omega) (show index = scan.endcnt + 1 + 1 + (k : Int) by omega)
                ?_, List.singleton_append]
              intro few
              rw [piece.arePieces, List.length_cons, piece.ended] at decided
              rw [List.singleton_append]
              change _ ∨ buf (stop + 1 + others.length + 1) = 0
              rw [isEnd]
              exact decided (Nat.succ_le_succ few)

/-! ## A run that gets lost behind the terminator -/

/-- Behind the first zero, there is nothing but letters. -/
def LettersBehind (buf : Nat → UInt8) : Prop :=
  ∀ address later, buf address = 0 → address < later → buf later = 120

theorem lineLoop_letters (letters : ∀ address, scan.i ≤ address → buf address = 120) (fuel : Nat) :
    lineLoop buf index fuel scan = none := by
  induction fuel generalizing scan with
  | zero => rfl
  | succ fuel inductionHypothesis =>
      have here := letters scan.i (Nat.le_refl _)
      rw [lineLoop_plain (by rw [here]; decide) (by rw [here]; decide)]
      apply inductionHypothesis
      intro address behind
      exact letters address (Nat.le_of_succ_le behind)

/-- From the terminator on, the scan goes on among the letters. -/
theorem lineLoop_terminator (behindZero : LettersBehind buf) (terminator : buf scan.i = 0)
    (notIndex : index ≠ scan.endcnt + 1) (fuel : Nat) :
    lineLoop buf index (fuel + 1) scan = none := by
  have letters : ∀ address, scan.i < address → buf address = 120 :=
    fun address behind => behindZero scan.i address terminator behind
  cases fuel with
  | zero => exact lineLoop_stuck (Or.inr terminator) notIndex rfl
  | succ fuel =>
      have found : skipLoop buf (fuel + 1) (scan.i + 1) = some (scan.i + 1) := by
        rw [skipLoop, letters _ (Nat.lt_succ_self _)]
        rfl
      rw [lineLoop_next (Or.inr terminator) notIndex found, letters _ (Nat.lt_succ_self _),
        if_neg (by decide)]
      apply lineLoop_letters
      intro address behind
      exact letters address (Nat.lt_of_succ_lt behind)

theorem lineLoop_lost {fuel k : Nat} (behindZero : LettersBehind buf)
    (standing : Standing buf scan before rest) (isIndex : index = scan.endcnt + 1 + k)
    (few : (pieces isLineEnd (before ++ rest)).length ≤ k)
    (unended : ¬ EndsLine isLineEnd (before ++ rest)) :
    lineLoop buf index fuel scan = none := by
  induction fuel generalizing scan before rest k with
  | zero => rfl
  | succ fuel inductionHypothesis =>
      rcases standing.cases with ⟨rfl, terminator⟩ | ⟨later, rfl, plain, more, next⟩ |
        ⟨later, rfl, ends, string⟩
      · rw [List.append_nil, pieces_plain standing.plain, List.length_singleton] at few
        exact lineLoop_terminator behindZero terminator (by omega) fuel
      · rw [lineLoop_plain plain more]
        apply inductionHypothesis next isIndex
        · rw [List.append_assoc, List.singleton_append]
          exact few
        · rw [List.append_assoc, List.singleton_append]
          exact unended
      · have notFirst : 0 < k := by
          rw [pieces_append_cons standing.plain ends, List.length_cons] at few
          omega
        have notIndex : index ≠ scan.endcnt + 1 := by omega
        cases found : skipLoop buf fuel (scan.i + 1) with
        | none => exact lineLoop_stuck (Or.inl ends) notIndex found
        | some stop =>
            rw [lineLoop_next (Or.inl ends) notIndex found]
            rcases behind_run standing.plain ends string found with
              ⟨-, -, ended⟩ | ⟨others, piece⟩
            · exact absurd ended unended
            · rw [piece.arePieces, List.length_cons] at few
              rw [piece.ended] at unended
              rw [if_neg piece.more]
              exact inductionHypothesis piece.standing
                (show index = scan.endcnt + 1 + 1 + ((k - 1 : Nat) : Int) by omega)
                (Nat.le_sub_of_add_le few) unended

/-! ## The texts on which the function is exact -/

/-- A text, its terminator, and letters behind it. -/
def lettersBehind (text : List UInt8) (address : Nat) : UInt8 := (text ++ [0]).getD address 120

theorem stringAt_of_getElem {start : Nat} {text : List UInt8}
    (nonzero : ∀ byte ∈ text, byte ≠ 0)
    (bytes : ∀ k (inside : k < text.length), buf (start + k) = text[k])
    (terminator : buf (start + text.length) = 0) : StringAt buf start text := by
  induction text generalizing start with
  | nil => exact StringAt.nil terminator
  | cons byte rest inductionHypothesis =>
      have first := bytes 0 (Nat.succ_pos _)
      rw [Nat.add_zero, List.getElem_cons_zero] at first
      obtain ⟨more, later⟩ := List.forall_mem_cons.mp nonzero
      rw [← first]
      refine StringAt.cons (first ▸ more) (inductionHypothesis later ?_ ?_)
      · intro k inside
        have next := bytes (k + 1) (Nat.succ_lt_succ inside)
        rw [List.getElem_cons_succ] at next
        rw [Nat.add_assoc, Nat.add_comm 1 k]
        exact next
      · rw [Nat.add_assoc, Nat.add_comm 1 rest.length]
        exact terminator

theorem lettersBehind_string {text : List UInt8} (nonzero : ∀ byte ∈ text, byte ≠ 0) :
    StringAt (lettersBehind text) 0 text := by
  apply stringAt_of_getElem nonzero
  · intro k inside
    rw [lettersBehind, Nat.zero_add, List.getD_append _ _ _ _ inside,
      List.getD_eq_getElem _ _ inside]
  · rw [lettersBehind, Nat.zero_add, List.getD_append_right _ _ _ _ (Nat.le_refl _), Nat.sub_self]
    rfl

theorem lettersBehind_letters {text : List UInt8} (nonzero : ∀ byte ∈ text, byte ≠ 0) :
    LettersBehind (lettersBehind text) := by
  intro address later isZero behind
  have atEnd : text.length ≤ address := by
    by_contra inside
    rw [lettersBehind, List.getD_append _ _ _ _ (Nat.lt_of_not_le inside),
      List.getD_eq_getElem _ _ (Nat.lt_of_not_le inside)] at isZero
    exact nonzero _ (List.getElem_mem _) isZero
  rw [lettersBehind, List.getD_eq_default]
  rw [List.length_append, List.length_singleton]
  omega

theorem Standing.first {text : List UInt8} (string : StringAt buf 0 text) :
    Standing buf ⟨0, -1, 0⟩ [] text :=
  ⟨rfl, rfl, fun _ member => absurd member List.not_mem_nil,
    fun _ member => absurd member List.not_mem_nil, string⟩

theorem Exact.guarded {text : List UInt8} (nonzero : ∀ byte ∈ text, byte ≠ 0) {index size : Nat}
    (isExact : Exact text index size) : Guarded text index size := by
  obtain ⟨⟨fuel, found⟩, fits⟩ := isExact _ (lettersBehind_string nonzero)
  constructor
  · intro piece isPiece
    rw [expected, isPiece, List.length_append, List.length_singleton] at fits
    exact fits
  · intro few
    by_contra unended
    have lost : lineLoop (lettersBehind text) index fuel ⟨0, -1, 0⟩ = none :=
      lineLoop_lost (lettersBehind_letters nonzero)
        (Standing.first (lettersBehind_string nonzero))
        (show (index : Int) = -1 + 1 + index by omega) few unended
    rw [getLineFromBuf, lost] at found
    exact absurd found (by simp)

theorem Guarded.exact {text : List UInt8} {index size : Nat} (guarded : Guarded text index size) :
    Exact text index size := by
  intro buf string
  constructor
  · exact ⟨text.length + 2, lineLoop_runs (Standing.first string) (Nat.lt_succ_self _)
      (show (index : Int) = -1 + 1 + index by omega) fun few => Or.inl (guarded.2 few)⟩
  · cases isPiece : (pieces isLineEnd text)[index]? with
    | none =>
        rw [expected, isPiece]
        exact Nat.zero_le _
    | some piece =>
        rw [expected, isPiece, List.length_append, List.length_singleton]
        exact guarded.1 piece isPiece

/-! ## Replies

The buffer of a reply is filled with zeros before each request, so that another
terminator follows the one of the reply. -/

/-- The bytes of a reply. -/
def bytesOf (reply : Text) : List UInt8 := reply.map fun char => UInt8.ofNat char.toNat

theorem isLineEnd_ofNat {char : Char} (narrow : char.toNat < 256) :
    isLineEnd (UInt8.ofNat char.toNat) = decide (char = '\n' ∨ char = '\r') := by
  have isByte : (UInt8.ofNat char.toNat).toNat = char.toNat := by
    rw [UInt8.toNat_ofNat', Nat.mod_eq_of_lt narrow]
  have same : ∀ other : Char, char = other ↔ char.toNat = other.toNat :=
    fun other => ⟨fun isOther => by rw [isOther], fun isOther => Char.toNat_inj.mp isOther⟩
  unfold isLineEnd
  rw [decide_eq_decide, ← UInt8.toNat_inj, ← UInt8.toNat_inj, isByte, same, same]
  rfl

theorem linesOf_eq_pieces (reply : Text) :
    linesOf reply = pieces (fun char => char = '\n' ∨ char = '\r') reply := by
  unfold linesOf pieces
  cases reply.splitOnP (fun char => char = '\n' ∨ char = '\r') <;> rfl

/-- The lines that the other functions of the module loop over. -/
theorem getLineFromBuf_linesOf {reply : Text} (narrow : ∀ char ∈ reply, char.toNat < 256)
    (string : StringAt buf 0 (bytesOf reply)) (another : buf (reply.length + 1) = 0)
    (index : Nat) :
    ∃ fuel, getLineFromBuf fuel index buf =
      some (match (linesOf reply)[index]? with
        | some line => ⟨0, bytesOf line ++ [0]⟩
        | none => ⟨-1, []⟩) := by
  have arePieces : pieces isLineEnd (bytesOf reply) = (linesOf reply).map bytesOf := by
    rw [linesOf_eq_pieces]
    exact pieces_map fun char member => isLineEnd_ofNat (narrow char member)
  refine ⟨(bytesOf reply).length + 2, ?_⟩
  have found := lineLoop_runs (Standing.first string) (Nat.lt_succ_self _)
    (show (index : Int) = -1 + 1 + index by omega) fun _ => Or.inr (by
      rw [bytesOf, List.length_map, Nat.zero_add]
      exact another)
  rw [getLineFromBuf, found, expected, List.nil_append, arePieces, List.getElem?_map]
  cases (linesOf reply)[index]? with
  | none => rfl
  | some line => rfl

/-! ## The result -/

/-- The function is exact when the piece fits and, where there is none, the text
ends with a line end. -/
theorem getLineFromBuf_exact_iff {text : List UInt8} (nonzero : ∀ byte ∈ text, byte ≠ 0)
    (index size : Nat) : Exact text index size ↔ Guarded text index size :=
  ⟨fun isExact => isExact.guarded nonzero, Guarded.exact⟩

/-- The second line of `ab` and `cd`, each with a line end. -/
theorem getLineFromBuf_second : Exact [97, 98, 10, 99, 100, 10] 1 256 := by
  rw [getLineFromBuf_exact_iff (by simp)]
  constructor
  · intro piece isPiece
    have isSecond : (pieces isLineEnd [97, 98, 10, 99, 100, 10])[1]? = some [99, 100] := by decide
    rw [isSecond] at isPiece
    rw [← Option.some.inj isPiece]
    decide
  · exact fun _ => ⟨10, rfl, rfl⟩

/-- After `OK`, the letter behind the terminator is found as a second line; and a
line of 256 letters does not fit with its terminator. -/
theorem getLineFromBuf_behind_and_long :
    getLineFromBuf 9 1 (fun address => [79, 75, 0, 120, 0].getD address 0) =
        some ⟨0, [120, 0]⟩ ∧
      ¬ Exact [79, 75] 1 256 ∧ ¬ Exact (List.replicate 256 97) 0 256 := by
  refine ⟨by decide, ?_, ?_⟩
  · intro isExact
    have plain : ∀ byte ∈ ([79, 75] : List UInt8), isLineEnd byte = false := by simp [isLineEnd]
    have ended := (isExact.guarded (by simp)).2
    rw [pieces_plain plain] at ended
    exact not_endsLine_of_plain plain (ended (Nat.le_refl 1))
  · intro isExact
    have plain : ∀ byte ∈ List.replicate 256 (97 : UInt8), isLineEnd byte = false := by
      intro byte member
      rw [List.eq_of_mem_replicate member]
      rfl
    have nonzero : ∀ byte ∈ List.replicate 256 (97 : UInt8), byte ≠ 0 := by
      intro byte member
      rw [List.eq_of_mem_replicate member]
      decide
    have fits := (isExact.guarded nonzero).1 (List.replicate 256 97)
    rw [pieces_plain plain, List.length_replicate] at fits
    exact Nat.lt_irrefl 256 (fits rfl)

end TuyaAdapter.WpaCommand
