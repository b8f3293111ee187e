import Mathlib.Data.List.Nodup
import TuyaAdapter.Foundation.Run
import TuyaAdapter.TklCamera.Model

/-!
Contract: the mappings of a camera are balanced on every path.

While an array of buffers exists its entries name exactly the regions that are
mapped. Start builds the array entry by entry and every failure hands what it
has to stop, which unmaps it; so outside a call the array exists exactly while
the camera streams.
-/

namespace TuyaAdapter.TklCamera

open Foundation Foundation.Run

/-! ## Sequences of calls -/

/-- A camera and what its last call returned. -/
structure Session where
  camera : Camera
  last : Option Reply
deriving DecidableEq, Repr

def step (session : Session) (call : Call) : Option Session :=
  let done := perform session.camera call
  some ⟨done.1, some done.2⟩

/-! ## The property -/

/-- The entry of the array is a region that is mapped with the length it
says. -/
def Mapped (regions : Ledger Nat) (buf : V4l2Buf) : Prop :=
  ∃ name, buf.start = some name ∧ regions.Held name ∧
    regions.obtained[name]? = some buf.length

/-- The mappings are balanced between calls. -/
structure Balanced (session : Session) : Prop where
  /-- Nothing was unmapped but regions that were mapped, once, with their
  length. -/
  kept : session.camera.regions.Kept
  /-- A camera that streams has at least two buffers, all mapped. -/
  streams : session.camera.ctx.streaming = true → ∃ buffers,
    session.camera.ctx.buffers = some buffers ∧
      buffers.length = session.camera.ctx.buffersNum ∧ 2 ≤ session.camera.ctx.buffersNum ∧
      ∀ buf ∈ buffers, Mapped session.camera.regions buf
  /-- A failed start and a stop leave no mapping and no array. -/
  released : (∃ result, session.last = some (.started result) ∧ result ≠ .ok) ∨
      (∃ result, session.last = some (.stopped result)) →
    session.camera.ctx.buffers = none ∧ ∀ name, ¬ session.camera.regions.Held name
  /-- A frame is the mapped buffer with the index that goes with it. -/
  frame : ∀ frame, session.last = some (.dequeued .ok frame) → ∃ given buffers buf,
    frame = some given ∧ given.index.toNat < session.camera.ctx.buffersNum ∧
      session.camera.ctx.buffers = some buffers ∧ buffers[given.index.toNat]? = some buf ∧
      given.data = buf.start ∧ Mapped session.camera.regions buf

/-- After close every region has been unmapped exactly once, with its length,
and nothing else; there is no array. -/
structure Settled (closed : Ledger Nat × Option (List V4l2Buf)) : Prop where
  kept : closed.1.Kept
  once : ∀ name, name < closed.1.obtained.length → closed.1.returnedNames.count name = 1
  buffers : closed.2 = none

/-! ## The array and the regions -/

/-- The regions the entries of an array name. -/
def entries (buffers : List V4l2Buf) : List (Nat × Nat) := buffers.filterMap V4l2Buf.region

theorem entries_blank {blank : V4l2Buf} (isBlank : blank.region = none)
    (before after : List V4l2Buf) :
    entries (before ++ blank :: after) = entries before ++ entries after := by
  simp [entries, isBlank]

/-- The entries of the array name exactly the mapped regions. -/
structure Covers (regions : Ledger Nat) (buffers : List V4l2Buf) : Prop where
  kept : regions.Kept
  once : ((entries buffers).map Prod.fst).Nodup
  agrees : ∀ entry ∈ entries buffers, regions.obtained[entry.1]? = some entry.2
  held : ∀ name, regions.Held name ↔ name ∈ (entries buffers).map Prod.fst

theorem covers_fresh : Covers .fresh [] where
  kept := Ledger.kept_fresh
  once := List.nodup_nil
  agrees := by simp [entries]
  held := by simp [entries]

/-- The cover depends on the entries that name a region only. -/
theorem Covers.of_entries {regions : Ledger Nat} {buffers others : List V4l2Buf}
    (covers : Covers regions buffers) (same : entries others = entries buffers) :
    Covers regions others := by
  refine ⟨covers.kept, ?_, ?_, ?_⟩
  · rw [same]
    exact covers.once
  · rw [same]
    exact covers.agrees
  · rw [same]
    exact covers.held

theorem Covers.mapped {regions : Ledger Nat} {buffers : List V4l2Buf}
    (covers : Covers regions buffers) {buf : V4l2Buf} (member : buf ∈ buffers)
    (isRegion : buf.region.isSome) : Mapped regions buf := by
  obtain ⟨entry, isEntry⟩ := Option.isSome_iff_exists.mp isRegion
  have inEntries : entry ∈ entries buffers := List.mem_filterMap.mpr ⟨buf, member, isEntry⟩
  have parts : buf.start = some entry.1 ∧ buf.length = entry.2 := by
    unfold V4l2Buf.region at isEntry
    split at isEntry
    · exact absurd isEntry (by simp)
    · rename_i start isStart
      split at isEntry
      · exact absurd isEntry (by simp)
      · cases isEntry
        exact ⟨isStart, rfl⟩
  refine ⟨entry.1, parts.1, (covers.held entry.1).mpr (List.mem_map_of_mem inEntries), ?_⟩
  rw [parts.2]
  exact covers.agrees entry inEntries

/-- Unmapping what an array names leaves nothing mapped. -/
theorem Covers.unmapped {regions : Ledger Nat} {buffers : List V4l2Buf}
    (covers : Covers regions buffers) : Covers (regions.giveBackAll (entries buffers)) [] := by
  have due : ∀ entry ∈ entries buffers, regions.Held entry.1 ∧
      regions.obtained[entry.1]? = some entry.2 := by
    intro entry member
    exact ⟨(covers.held entry.1).mpr (List.mem_map_of_mem member), covers.agrees entry member⟩
  obtain ⟨kept, held⟩ := Ledger.kept_giveBackAll covers.kept covers.once due
  refine ⟨kept, List.nodup_nil, by simp [entries], ?_⟩
  intro name
  rw [held, covers.held]
  simp [entries]

/-- The array gets the region that was just mapped. -/
theorem Covers.extend {regions : Ledger Nat} {before after : List V4l2Buf} {blank : V4l2Buf}
    (isBlank : blank.region = none) (covers : Covers regions (before ++ blank :: after))
    {length : Nat} (notZero : length ≠ 0) :
    Covers (regions.obtain length)
      (before ++ ⟨some regions.nextName, length⟩ :: after) := by
  have old := entries_blank isBlank before after
  have new : entries (before ++ ⟨some regions.nextName, length⟩ :: after) =
      entries before ++ (regions.nextName, length) :: entries after := by
    simp [entries, V4l2Buf.region, notZero]
  have unnamed : regions.nextName ∉ (entries before ++ entries after).map Prod.fst := by
    rw [← old, ← covers.held]
    intro held
    exact absurd held.1 (Nat.lt_irrefl _)
  have once := covers.once
  rw [old] at once
  refine ⟨Ledger.kept_obtain covers.kept length, ?_, ?_, ?_⟩
  · rw [new, List.map_append, List.map_cons, List.nodup_middle]
    rw [List.map_append] at unnamed once
    exact List.nodup_cons.mpr ⟨unnamed, once⟩
  · rw [new]
    intro entry member
    have cases_ : entry = (regions.nextName, length) ∨ entry ∈ entries before ++ entries after := by
      simp only [List.mem_append, List.mem_cons] at member ⊢
      tauto
    rcases cases_ with rfl | isOld
    · exact Ledger.data_obtain regions length
    · rw [← old] at isOld
      have agrees := covers.agrees entry isOld
      have known := (List.getElem?_eq_some_iff.mp agrees).1
      simp only [Ledger.obtain]
      rw [List.getElem?_append_left known, agrees]
  · intro name
    rw [Ledger.held_obtain covers.kept, covers.held, old, new]
    simp only [List.map_append, List.map_cons, List.mem_append, List.mem_cons]
    tauto

/-! ## The loop of start -/

theorem region_zeroed : V4l2Buf.zeroed.region = none := rfl

/-- One buffer: whatever fails, the array names exactly what is mapped, and when
the loop goes on the buffer is mapped. -/
theorem mapBuffer_spec (answers : BufferAnswers) {before after : List V4l2Buf}
    {regions : Ledger Nat} (covers : Covers regions (before ++ .zeroed :: after)) :
    let mapped := mapBuffer answers before.length ⟨before ++ .zeroed :: after, regions, true⟩
    ∃ buf, mapped.buffers = before ++ buf :: after ∧ Covers mapped.regions mapped.buffers ∧
      (mapped.going = true → buf.region.isSome) := by
  have setHere : ∀ buf, (before ++ V4l2Buf.zeroed :: after).set before.length buf =
      before ++ buf :: after := by
    intro buf
    rw [List.set_append_right _ _ (Nat.le_refl _), Nat.sub_self]
    rfl
  unfold mapBuffer
  cases answers.querybuf with
  | none => exact ⟨.zeroed, rfl, covers, fun going => absurd going (by simp)⟩
  | some length =>
      simp only
      split
      · refine ⟨⟨none, length.toNat⟩, setHere _, ?_, fun going => absurd going (by simp)⟩
        rw [setHere]
        refine covers.of_entries ?_
        rw [entries_blank rfl, entries_blank region_zeroed]
      · rename_i accepted
        have notZero : length.toNat ≠ 0 := by
          intro isZero
          exact accepted (Or.inl (UInt32.toNat_inj.mp isZero))
        refine ⟨_, setHere _, ?_, fun _ => by simp [V4l2Buf.region, notZero]⟩
        rw [setHere]
        exact covers.extend region_zeroed notZero

/-- The loop, from a part of the array that is mapped on. -/
theorem mapBuffers_spec (answers : Nat → BufferAnswers) {before : List V4l2Buf} (left : Nat)
    {regions : Ledger Nat} (covers : Covers regions (before ++ List.replicate left .zeroed))
    (mappedBefore : ∀ buf ∈ before, buf.region.isSome) :
    let mapped := mapBuffers answers left before.length
      ⟨before ++ List.replicate left .zeroed, regions, true⟩
    Covers mapped.regions mapped.buffers ∧ mapped.buffers.length = before.length + left ∧
      (mapped.going = true → ∀ buf ∈ mapped.buffers, buf.region.isSome) := by
  induction left generalizing before regions with
  | zero =>
      refine ⟨covers, by simp [mapBuffers], fun _ buf member => mappedBefore buf ?_⟩
      simpa [mapBuffers] using member
  | succ left inductionHypothesis =>
      rw [List.replicate_succ] at covers ⊢
      obtain ⟨buf, isBuffers, coversNext, isMapped⟩ :=
        mapBuffer_spec (answers before.length) covers
      simp only [mapBuffers]
      split
      · rename_i going
        generalize mapBuffer (answers before.length) before.length
          ⟨before ++ V4l2Buf.zeroed :: List.replicate left .zeroed, regions, true⟩ = mapped at *
        obtain ⟨buffers, others, goes⟩ := mapped
        simp only at isBuffers coversNext isMapped going
        subst isBuffers going
        have shifted : before ++ buf :: List.replicate left .zeroed =
            (before ++ [buf]) ++ List.replicate left .zeroed := by simp
        rw [shifted] at coversNext ⊢
        have mappedNext : ∀ other ∈ before ++ [buf], other.region.isSome := by
          intro other member
          rcases List.mem_append.mp member with old | new
          · exact mappedBefore other old
          · rw [List.mem_singleton.mp new]
            exact isMapped rfl
        have rest := inductionHypothesis coversNext mappedNext
        rw [List.length_append, List.length_singleton] at rest
        refine ⟨rest.1, ?_, rest.2.2⟩
        rw [rest.2.1]
        omega
      · rename_i stopped
        refine ⟨coversNext, ?_, fun going => absurd going stopped⟩
        rw [isBuffers]
        simp

/-! ## Cameras between calls -/

/-- The array exists exactly while the camera streams, and names what is
mapped. -/
structure Steady (camera : Camera) : Prop where
  opened : 0 ≤ camera.ctx.fd
  idle : camera.ctx.streaming = false →
    camera.ctx.buffers = none ∧ Covers camera.regions []
  streaming : camera.ctx.streaming = true → ∃ buffers, camera.ctx.buffers = some buffers ∧
    buffers.length = camera.ctx.buffersNum ∧ 2 ≤ camera.ctx.buffersNum ∧
    Covers camera.regions buffers ∧ ∀ buf ∈ buffers, buf.region.isSome

/-- Stop unmaps what the array names and leaves a camera that does not
stream. -/
theorem stop_spec {camera : Camera} (opened : 0 ≤ camera.ctx.fd) {buffers : List V4l2Buf}
    (isBuffers : camera.ctx.buffers.getD [] = buffers)
    (isNum : buffers.length = camera.ctx.buffersNum ∨ camera.ctx.buffers = none)
    (covers : Covers camera.regions buffers) :
    Steady (tklCameraV4l2Stop camera).1 ∧
      (tklCameraV4l2Stop camera).1.ctx.streaming = false := by
  have notNegative : ¬ camera.ctx.fd < 0 := not_lt.mpr opened
  unfold tklCameraV4l2Stop
  rw [if_neg notNegative]
  simp only
  cases isArray : camera.ctx.buffers with
  | none =>
      rw [isArray] at isBuffers
      simp only [Option.getD_none] at isBuffers
      subst isBuffers
      refine ⟨⟨opened, fun _ => ⟨rfl, covers⟩, fun isStreaming => absurd isStreaming ?_⟩, rfl⟩
      simp
  | some array =>
      rw [isArray] at isBuffers isNum
      simp only [Option.getD_some] at isBuffers
      subst isBuffers
      have whole : array.take camera.ctx.buffersNum = array := by
        rw [← isNum.resolve_right (by simp), List.take_length]
      simp only [whole]
      refine ⟨⟨opened, fun _ => ⟨rfl, covers.unmapped⟩, fun isStreaming => absurd isStreaming ?_⟩,
        trivial⟩
      simp

theorem steady_stop {camera : Camera} (steady : Steady camera) :
    Steady (tklCameraV4l2Stop camera).1 ∧
      (tklCameraV4l2Stop camera).1.ctx.streaming = false := by
  cases isStreaming : camera.ctx.streaming with
  | false =>
      obtain ⟨isNone, covers⟩ := steady.idle isStreaming
      exact stop_spec steady.opened (by simp [isNone]) (Or.inr isNone) covers
  | true =>
      obtain ⟨buffers, isBuffers, isNum, -, covers, -⟩ := steady.streaming isStreaming
      exact stop_spec steady.opened (by simp [isBuffers]) (Or.inl isNum) covers

theorem steady_start {camera : Camera} (steady : Steady camera) (answers : StartAnswers) :
    Steady (tklCameraV4l2Start answers camera).1 ∧
      ((tklCameraV4l2Start answers camera).2 ≠ .ok →
        (tklCameraV4l2Start answers camera).1.ctx.streaming = false) := by
  have notNegative : ¬ camera.ctx.fd < 0 := not_lt.mpr steady.opened
  unfold tklCameraV4l2Start
  rw [if_neg notNegative]
  by_cases isStreaming : camera.ctx.streaming = true
  · rw [if_pos isStreaming]
    exact ⟨steady, fun failed => absurd rfl failed⟩
  · rw [if_neg isStreaming]
    have isIdle : camera.ctx.streaming = false := Bool.not_eq_true _ ▸ isStreaming
    obtain ⟨isNone, covers⟩ := steady.idle isIdle
    cases answers.reqbufs with
    | none => exact ⟨steady, fun _ => isIdle⟩
    | some count =>
        simp only
        split
        · exact ⟨steady, fun _ => isIdle⟩
        · rename_i enough
          split
          · refine ⟨⟨steady.opened, fun _ => ⟨rfl, covers⟩, fun streams => ?_⟩, fun _ => isIdle⟩
            exact absurd streams isStreaming
          · have blanks : Covers camera.regions ([] ++ List.replicate count.toNat .zeroed) :=
              covers.of_entries (by simp [entries, region_zeroed])
            obtain ⟨coversAll, isLength, allMapped⟩ :=
              mapBuffers_spec answers.buffer count.toNat blanks (by simp)
            simp only [List.nil_append, List.length_nil, Nat.zero_add] at coversAll isLength allMapped
            generalize mapBuffers answers.buffer count.toNat 0
              ⟨List.replicate count.toNat .zeroed, camera.regions, true⟩ = mapped at *
            let building : Camera :=
              ⟨{ camera.ctx with buffers := some mapped.buffers, buffersNum := count.toNat },
                mapped.regions⟩
            have stops : Steady (tklCameraV4l2Stop building).1 ∧
                (tklCameraV4l2Stop building).1.ctx.streaming = false :=
              stop_spec steady.opened rfl (Or.inl isLength) coversAll
            split
            · exact ⟨stops.1, fun _ => stops.2⟩
            · rename_i going
              split
              · exact ⟨stops.1, fun _ => stops.2⟩
              · have atLeastTwo : 2 ≤ count.toNat := not_lt.mp enough
                refine ⟨⟨steady.opened, fun isFalse => absurd isFalse (by simp), fun _ => ?_⟩,
                  fun failed => absurd rfl failed⟩
                exact ⟨mapped.buffers, rfl, isLength, atLeastTwo, coversAll,
                  allMapped (Bool.not_eq_false _ ▸ going)⟩

theorem steady_open {answers : OpenAnswers} {bufferCount : UInt32} {knownFormat : Bool}
    {camera : Camera}
    (opens : tklCameraV4l2Open answers bufferCount knownFormat = (some camera, .ok)) :
    Steady camera := by
  obtain ⟨count, isCamera, notNegative⟩ : ∃ count,
      camera = ⟨⟨answers.fd, false, count, none, 0⟩, .fresh⟩ ∧ ¬ answers.fd < 0 := by
    unfold tklCameraV4l2Open at opens
    grind
  rw [isCamera]
  exact ⟨not_lt.mp notNegative, fun _ => ⟨rfl, covers_fresh⟩,
    fun isStreaming => absurd isStreaming (by simp)⟩

/-! ## Steps -/

/-- A frame comes from the array. -/
theorem dequeueLoop_frame {ctx : V4l2Ctx} {attempts : List Attempt} {frame : Option Frame}
    (dequeued : dequeueLoop ctx attempts = some (.ok, frame)) :
    ∃ given, frame = some given ∧ given.index.toNat < ctx.buffersNum ∧
      given.data = ((ctx.buffers.getD []).getD given.index.toNat .zeroed).start := by
  induction attempts using dequeueLoop.induct ctx with
  | case1 => exact absurd dequeued (by simp [dequeueLoop])
  | case2 rest inductionHypothesis => exact inductionHypothesis (by simpa [dequeueLoop] using dequeued)
  | case3 rest inductionHypothesis => exact inductionHypothesis (by simpa [dequeueLoop] using dequeued)
  | case4 rest => exact absurd dequeued (by simp [dequeueLoop])
  | case5 rest => exact absurd dequeued (by simp [dequeueLoop])
  | case6 rest => exact absurd dequeued (by simp [dequeueLoop])
  | case7 index bytesused rest outside => exact absurd dequeued (by simp [dequeueLoop, outside])
  | case8 index bytesused rest inside =>
      simp only [dequeueLoop, if_neg inside, Option.some.injEq, Prod.mk.injEq, true_and] at dequeued
      exact ⟨_, dequeued.symm, Nat.lt_of_not_le inside, rfl⟩

/-- Between calls a steady camera is balanced, as far as its last reply is not
concerned. -/
theorem Steady.kept {camera : Camera} (steady : Steady camera) : camera.regions.Kept := by
  cases isStreaming : camera.ctx.streaming with
  | false => exact (steady.idle isStreaming).2.kept
  | true =>
      obtain ⟨buffers, -, -, -, covers, -⟩ := steady.streaming isStreaming
      exact covers.kept

theorem Steady.streams {camera : Camera} (steady : Steady camera)
    (isStreaming : camera.ctx.streaming = true) :
    ∃ buffers, camera.ctx.buffers = some buffers ∧ buffers.length = camera.ctx.buffersNum ∧
      2 ≤ camera.ctx.buffersNum ∧ ∀ buf ∈ buffers, Mapped camera.regions buf := by
  obtain ⟨buffers, isBuffers, isNum, enough, covers, allMapped⟩ := steady.streaming isStreaming
  exact ⟨buffers, isBuffers, isNum, enough,
    fun buf member => covers.mapped member (allMapped buf member)⟩

theorem Steady.released {camera : Camera} (steady : Steady camera)
    (isIdle : camera.ctx.streaming = false) :
    camera.ctx.buffers = none ∧ ∀ name, ¬ camera.regions.Held name := by
  obtain ⟨isNone, covers⟩ := steady.idle isIdle
  refine ⟨isNone, fun name held => ?_⟩
  exact absurd ((covers.held name).mp held) (by simp [entries])

theorem Steady.frame {camera : Camera} (steady : Steady camera) {attempts : List Attempt}
    {frame : Option Frame} (dequeued : tklCameraV4l2Dequeue camera attempts = some (.ok, frame)) :
    ∃ given buffers buf, frame = some given ∧ given.index.toNat < camera.ctx.buffersNum ∧
      camera.ctx.buffers = some buffers ∧ buffers[given.index.toNat]? = some buf ∧
      given.data = buf.start ∧ Mapped camera.regions buf := by
  unfold tklCameraV4l2Dequeue at dequeued
  cases isStreaming : camera.ctx.streaming with
  | false => exact absurd dequeued (by simp [isStreaming])
  | true =>
      rw [isStreaming, if_neg (by simp)] at dequeued
      obtain ⟨given, isGiven, inside, data⟩ := dequeueLoop_frame dequeued
      obtain ⟨buffers, isBuffers, isNum, -, allMapped⟩ := steady.streams isStreaming
      have below : given.index.toNat < buffers.length := isNum ▸ inside
      refine ⟨given, buffers, buffers[given.index.toNat], isGiven, inside, isBuffers,
        List.getElem?_eq_getElem below, ?_, allMapped _ (List.getElem_mem below)⟩
      rw [data, isBuffers, Option.getD_some, List.getD_eq_getElem?_getD,
        List.getElem?_eq_getElem below, Option.getD_some]

theorem step_balanced {session : Session} (steady : Steady session.camera) (call : Call) :
    ∃ next, step session call = some next ∧ Steady next.camera ∧ Balanced next := by
  cases call with
  | start answers =>
      obtain ⟨kept, failed⟩ := steady_start steady answers
      refine ⟨_, rfl, kept, kept.kept, kept.streams, ?_,
        fun frame isLast => absurd isLast (by simp [perform])⟩
      rintro (⟨result, isLast, notOk⟩ | ⟨result, isLast⟩)
      · refine kept.released (failed ?_)
        simp only [perform, Option.some.injEq, Reply.started.injEq] at isLast
        rw [isLast]
        exact notOk
      · exact absurd isLast (by simp [perform])
  | stop =>
      obtain ⟨kept, isIdle⟩ := steady_stop steady
      exact ⟨_, rfl, kept, kept.kept, kept.streams, fun _ => kept.released isIdle,
        fun frame isLast => absurd isLast (by simp [perform])⟩
  | dequeue attempts =>
      have sameCamera : (perform session.camera (.dequeue attempts)).1 = session.camera := by
        simp only [perform]
        split <;> rfl
      have onlyDequeued : ∀ result, (perform session.camera (.dequeue attempts)).2 ≠ .started result ∧
          (perform session.camera (.dequeue attempts)).2 ≠ .stopped result := by
        intro result
        simp only [perform]
        split <;> simp
      refine ⟨_, rfl, ?_⟩
      rw [sameCamera]
      refine ⟨steady, steady.kept, steady.streams, ?_, ?_⟩
      · rintro (⟨result, isLast, -⟩ | ⟨result, isLast⟩)
        · exact absurd (Option.some.inj isLast) (onlyDequeued result).1
        · exact absurd (Option.some.inj isLast) (onlyDequeued result).2
      · intro frame isLast
        refine steady.frame (?_ : tklCameraV4l2Dequeue session.camera attempts = some (.ok, frame))
        simp only [perform, Option.some.injEq] at isLast
        split at isLast
        · exact absurd isLast (by simp)
        · rename_i result isResult
          simp only [Reply.dequeued.injEq] at isLast
          rw [isResult, ← isLast.1, ← isLast.2]
  | queue index qbuf =>
      refine ⟨_, rfl, steady, steady.kept, steady.streams, ?_,
        fun frame isLast => absurd isLast (by simp [perform])⟩
      rintro (⟨result, isLast, -⟩ | ⟨result, isLast⟩)
      · exact absurd isLast (by simp [perform])
      · exact absurd isLast (by simp [perform])

/-! ## Every run -/

/-- What every call keeps. -/
def Sound (session : Session) : Prop := Steady session.camera ∧ Balanced session

theorem balanced_opened {camera : Camera} (steady : Steady camera) : Balanced ⟨camera, none⟩ where
  kept := steady.kept
  streams := steady.streams
  released := by simp
  frame := by simp

/-- Close leaves every region unmapped exactly once. -/
theorem close_settles {camera : Camera} (steady : Steady camera) :
    Settled (tklCameraV4l2Close camera) := by
  obtain ⟨stopped, isIdle⟩ := steady_stop steady
  obtain ⟨isNone, noneHeld⟩ := stopped.released isIdle
  refine ⟨stopped.kept, ?_, isNone⟩
  intro name known
  exact (stopped.kept.count_returned known).mpr (noneHeld name)

/-- Whatever the driver refuses, the mappings of a camera that was opened are
balanced after every call, and closing it settles them. -/
theorem camera_mappings_balanced {answers : OpenAnswers} {bufferCount : UInt32}
    {knownFormat : Bool} {camera : Camera}
    (opens : tklCameraV4l2Open answers bufferCount knownFormat = (some camera, .ok))
    (calls : List Call) :
    EveryState step Balanced ⟨camera, none⟩ calls ∧
      ∃ final, run step ⟨camera, none⟩ calls = some final ∧
        Settled (tklCameraV4l2Close final.camera) := by
  have steady := steady_open opens
  have progress : ∀ session call, Sound session → True →
      ∃ next, step session call = some next ∧ Sound next := by
    rintro session call ⟨isSteady, -⟩ -
    exact step_balanced isSteady call
  have always : EveryStep step (fun _ _ => True) ⟨camera, none⟩ calls :=
    everyStep_of_forall (fun _ _ => trivial) _ calls
  have opened : Sound ⟨camera, none⟩ := ⟨steady, balanced_opened steady⟩
  constructor
  · have every : EveryState step Sound ⟨camera, none⟩ calls :=
      everyState_of_progress progress opened always
    exact every.mono (fun _ sound => sound.2)
  · obtain ⟨final, ran, finally_⟩ := run_total progress opened always
    exact ⟨final, ran, close_settles finally_.1⟩

/-- Two buffers are granted; the first start fails at the second `mmap`, the next
one succeeds and a frame is taken. -/
theorem camera_mappings_balanced_retry :
    let refusing : StartAnswers :=
      ⟨some 2, true, fun index => ⟨some 4096, index = 0, true⟩, true⟩
    let granting : StartAnswers := ⟨some 2, true, fun _ => ⟨some 4096, true, true⟩, true⟩
    let camera : Camera := ⟨⟨3, false, 4, none, 0⟩, .fresh⟩
    EveryState step Balanced ⟨camera, none⟩
      [.start refusing, .start granting, .dequeue [.again, .filled 1 100], .queue 1 true] := by
  intro refusing granting camera
  have opens : tklCameraV4l2Open ⟨true, 3, true, true, true, true⟩ 4 true = (some camera, .ok) := rfl
  exact (camera_mappings_balanced opens _).1

end TuyaAdapter.TklCamera
