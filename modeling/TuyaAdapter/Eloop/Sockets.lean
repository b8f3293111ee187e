import TuyaAdapter.Eloop.Model
import TuyaAdapter.Foundation.Run

/-!
Contract: the sockets of `eloop.c` over whole runs.

`select` is asked for every registered socket. A pass over a table calls the
entries whose sockets were found, in the order of the table: all of them when no
handler changes the table, and those up to the change when one does.
-/

namespace TuyaAdapter.Eloop

open Foundation.Run

/-- The entries of a table whose sockets were found. -/
def ready (sockets : List Nat) (table : List Sock) : List Sock :=
  table.filter fun entry => entry.sock ∈ sockets

/-- A pass calls what was found, up to a change of the table. -/
def Event.Fair : Event → Prop
  | .pass table sockets called changed =>
      called <+: ready sockets table ∧ (changed = false → called = ready sockets table)
  | _ => True

/-- How far the pass is that the loop is in. -/
def Point.Underway (eloop : EloopData) (begun called : List Sock) : Point → Prop
  | .sock sockets type i =>
      (eloop.tables type).changed = false ∧ (eloop.tables type).table = begun ∧
        called = ready (sockets type) (begun.take i)
  | .inSock sockets type i =>
      ((eloop.tables type).changed = false → (eloop.tables type).table = begun) ∧
        called = ready (sockets type) (begun.take (i + 1))
  | _ => True

structure Watched (state : State) : Prop where
  asked : ∀ type, ∀ entry ∈ (state.eloop.tables type).table, entry.sock ≤ state.eloop.maxSock
  underway : state.point.Underway state.eloop state.begun state.called
  fair : ∀ event ∈ state.log, event.Fair

section Steps

variable {state next : State}

theorem ready_take_prefix (sockets : List Nat) (table : List Sock) (i : Nat) :
    ready sockets (table.take i) <+: ready sockets table :=
  (List.take_prefix i table).filter _

theorem ready_take_succ {sockets : List Nat} {table : List Sock} {i : Nat} {entry : Sock}
    (isEntry : table[i]? = some entry) :
    ready sockets (table.take (i + 1)) =
      ready sockets (table.take i) ++ if entry.sock ∈ sockets then [entry] else [] := by
  unfold ready
  rw [List.take_add_one, isEntry, List.filter_append, Option.toList_some]
  by_cases isFound : entry.sock ∈ sockets <;> simp [isFound]

/-- The loop goes on outside of a pass. -/
theorem Watched.outside (watched : Watched state) (event : Option Event)
    (isLog : next.log = state.log ++ event.toList) (fair : ∀ event_ ∈ event, event_.Fair)
    (sameTables : next.eloop.tables = state.eloop.tables)
    (sameMax : next.eloop.maxSock = state.eloop.maxSock)
    (underway : next.point.Underway next.eloop next.begun next.called) : Watched next where
  asked := by
    rw [sameTables, sameMax]
    exact watched.asked
  underway := underway
  fair := fun other member => by
    rw [isLog] at member
    rcases List.mem_append.mp member with old | new
    · exact watched.fair other old
    · exact fair other (Option.mem_toList.mp new)

theorem afterPass_underway (sockets : EventType → List Nat) (type : EventType)
    (eloop : EloopData) (begun called : List Sock) :
    (afterPass sockets type).Underway eloop begun called := by
  cases type <;> trivial

theorem afterTimeouts_underway (found : Found) (eloop : EloopData) (begun called : List Sock) :
    (afterTimeouts found).Underway eloop begun called := by
  cases found <;> trivial

theorem Watched.passed (watched : Watched state) {sockets : EventType → List Nat}
    {type : EventType}
    (isPrefix : state.called <+: ready (sockets type) state.begun)
    (complete : (state.eloop.tables type).changed = false →
      state.called = ready (sockets type) state.begun) : Watched (state.passed sockets type) :=
  watched.outside (some _) rfl
    (fun event member => by rw [← Option.some.inj member]; exact ⟨isPrefix, complete⟩) rfl rfl
    (afterPass_underway sockets type _ _ _)

theorem advance_watched {micros : Nat} (watched : Watched state)
    (stepped : advance state micros = some next) : Watched next := by
  have underway := watched.underway
  unfold advance at stepped
  cases isPoint : state.point with
  | loop =>
      simp only [isPoint] at stepped
      split at stepped <;> cases stepped <;>
        exact watched.outside none (List.append_nil _).symm nofun rfl rfl trivial
  | pending found =>
      simp only [isPoint] at stepped
      split at stepped <;> cases stepped <;>
        exact watched.outside none (List.append_nil _).symm nofun rfl rfl trivial
  | clearing found =>
      simp only [isPoint] at stepped
      cases stepped
      exact watched.outside none (List.append_nil _).symm nofun rfl rfl trivial
  | terminating found =>
      simp only [isPoint] at stepped
      split at stepped <;> cases stepped <;>
        exact watched.outside none (List.append_nil _).symm nofun rfl rfl trivial
  | disarming found =>
      simp only [isPoint] at stepped
      cases stepped
      exact watched.outside none (List.append_nil _).symm nofun rfl rfl trivial
  | disarmed found =>
      simp only [isPoint] at stepped
      cases stepped
      exact watched.outside none (List.append_nil _).symm nofun rfl rfl trivial
  | signal found i =>
      simp only [isPoint] at stepped
      split at stepped
      · cases stepped
        exact watched.outside none (List.append_nil _).symm nofun rfl rfl trivial
      · split at stepped <;> cases stepped <;>
          exact watched.outside none (List.append_nil _).symm nofun rfl rfl trivial
  | marked found i =>
      simp only [isPoint] at stepped
      cases stepped
      exact watched.outside (some _) rfl
        (fun event member => by rw [← Option.some.inj member]; trivial) rfl rfl trivial
  | timeouts found =>
      have after := afterTimeouts_underway found state.eloop state.begun state.called
      simp only [isPoint] at stepped
      split at stepped
      · cases stepped
        exact watched.outside none (List.append_nil _).symm nofun rfl rfl after
      · split at stepped
        · cases stepped
          exact watched.outside none (List.append_nil _).symm nofun rfl rfl after
        · cases stepped
          exact watched.outside (some _) rfl
            (fun event member => by rw [← Option.some.inj member]; trivial) rfl rfl trivial
  | dispatch sockets type =>
      simp only [isPoint] at stepped
      cases stepped
      refine ⟨fun other entry member => ?_, ?_, watched.fair⟩
      · refine watched.asked other entry ?_
        simp only [EloopData.setTable] at member
        split at member
        · rename_i isType
          rw [isType]
          exact member
        · exact member
      · simp [Point.Underway, EloopData.setTable, ready]
  | sock sockets type i =>
      rw [isPoint] at underway
      obtain ⟨unchanged, isBegun, isCalled⟩ := underway
      simp only [isPoint] at stepped
      split at stepped
      · rename_i isNone
        rw [isBegun] at isNone
        have whole : state.begun.take i = state.begun :=
          List.take_of_length_le (List.getElem?_eq_none_iff.mp isNone)
        rw [whole] at isCalled
        cases stepped
        exact watched.passed (isCalled ▸ List.prefix_rfl) (fun _ => isCalled)
      · rename_i entry isEntry
        rw [isBegun] at isEntry
        have further : ready (sockets type) (state.begun.take (i + 1)) =
            ready (sockets type) (state.begun.take i) ++
              if entry.sock ∈ sockets type then [entry] else [] := ready_take_succ isEntry
        split at stepped
        · rename_i isFound
          rw [if_pos isFound, ← isCalled] at further
          cases stepped
          exact watched.outside none (List.append_nil _).symm nofun rfl rfl
            ⟨fun _ => isBegun, further.symm⟩
        · rename_i notFound
          rw [if_neg notFound, List.append_nil, ← isCalled] at further
          cases stepped
          exact watched.outside none (List.append_nil _).symm nofun rfl rfl
            ⟨unchanged, isBegun, further.symm⟩
  | idle | selecting _ | inSignal _ _ | inTimeout _ | inSock _ _ _ =>
      simp only [isPoint] at stepped
      cases stepped

theorem returns_watched (watched : Watched state) (stepped : returns state = some next) :
    Watched next := by
  have underway := watched.underway
  unfold returns at stepped
  split at stepped
  · cases stepped
    exact watched.outside none (List.append_nil _).symm nofun rfl rfl trivial
  · rename_i found isPoint
    cases stepped
    exact watched.outside none (List.append_nil _).symm nofun rfl rfl
      (afterTimeouts_underway found _ _ _)
  · rename_i sockets type i isPoint
    rw [isPoint] at underway
    obtain ⟨same, isCalled⟩ := underway
    split at stepped
    · rename_i changed
      cases stepped
      refine watched.passed ?_ (fun unchanged => absurd (changed.symm.trans unchanged) (by decide))
      rw [isCalled]
      exact ready_take_prefix _ _ _
    · rename_i notChanged
      have unchanged := Bool.eq_false_iff.mpr notChanged
      cases stepped
      exact watched.outside none (List.append_nil _).symm nofun rfl rfl
        ⟨unchanged, same unchanged, isCalled⟩
  · cases stepped

theorem selects_watched {outcome : Outcome} (watched : Watched state)
    (stepped : selects state outcome = some next) : Watched next := by
  unfold selects at stepped
  split at stepped
  · cases stepped
    exact watched.outside none (List.append_nil _).symm nofun rfl rfl trivial
  · cases stepped
    exact watched.outside none (List.append_nil _).symm nofun rfl rfl trivial
  · rw [← Option.some.inj (Option.ite_none_right_eq_some.mp stepped).2]
    exact watched.outside none (List.append_nil _).symm nofun rfl rfl trivial
  · cases stepped

/-- A handler, or a caller outside of the loop, changes one table. -/
theorem Point.Underway.set {point : Point} {eloop : EloopData} {begun called : List Sock}
    (underway : point.Underway eloop begun called) (fromCall : point.calls = true)
    (type : EventType) (table : List Sock) (maxSock : Nat) :
    point.Underway { eloop.setTable type ⟨table, true⟩ with maxSock := maxSock } begun called := by
  cases point with
  | inSock sockets other i =>
      refine ⟨fun unchanged => ?_, underway.2⟩
      simp only [EloopData.setTable] at unchanged ⊢
      split at unchanged
      · cases unchanged
      · rename_i notType
        rw [if_neg notType]
        exact underway.1 unchanged
  | sock sockets other i => cases fromCall
  | _ => trivial

/-- Calls that leave the tables alone leave the pass alone. -/
theorem Point.Underway.frame {point : Point} {eloop other : EloopData} {begun called : List Sock}
    (underway : point.Underway eloop begun called) (sameTables : other.tables = eloop.tables) :
    point.Underway other begun called := by
  cases point with
  | inSock sockets type i =>
      unfold Point.Underway at underway ⊢
      rw [sameTables]
      exact underway
  | sock sockets type i =>
      unfold Point.Underway at underway ⊢
      rw [sameTables]
      exact underway
  | _ => trivial

theorem Watched.registerSock (watched : Watched state) (fromCall : state.point.calls = true)
    (type : EventType) (sock : Sock) :
    Watched { state with eloop := eloopRegisterSock state.eloop type sock } where
  asked := fun other entry member => by
    simp only [eloopRegisterSock, EloopData.setTable] at member ⊢
    have below : entry.sock ≤ state.eloop.maxSock ∨ entry = sock := by
      split at member
      · rcases List.mem_append.mp member with old | new
        · exact Or.inl (watched.asked type entry old)
        · exact Or.inr (List.mem_singleton.mp new)
      · exact Or.inl (watched.asked other entry member)
    rcases below with old | new
    · split <;> omega
    · rw [new]
      split <;> omega
  underway := watched.underway.set fromCall type _ _
  fair := watched.fair

theorem Watched.unregisterSock (watched : Watched state) (fromCall : state.point.calls = true)
    (type : EventType) (sock : Nat) :
    Watched { state with eloop := eloopUnregisterSock state.eloop type sock } := by
  unfold eloopUnregisterSock
  simp only
  split
  · refine ⟨fun other entry member => ?_, watched.underway.set fromCall type _ _, watched.fair⟩
    simp only [EloopData.setTable] at member
    split at member
    · exact watched.asked type entry (List.mem_of_mem_eraseP member)
    · exact watched.asked other entry member
  · exact watched

theorem calls_watched {action : Action} (watched : Watched state)
    (fromCall : state.point.calls = true) (stepped : calls state action = some next) :
    Watched next := by
  have underway := watched.underway
  cases action with
  | eloopRegisterSock type sock =>
      cases stepped
      exact watched.registerSock fromCall type sock
  | eloopUnregisterSock type sock =>
      cases stepped
      exact watched.unregisterSock fromCall type sock
  | eloopRegisterTimeout micros secs usecs handler eloopData userData =>
      rw [← Option.some.inj stepped]
      cases isTime : (osGetTime micros).after secs usecs with
      | none => exact watched
      | some time =>
          exact watched.outside (some _) rfl
            (fun event member => by rw [← Option.some.inj member]; trivial) rfl rfl
            (underway.frame rfl)
  | eloopCancelTimeout handler eloopData userData =>
      cases stepped
      exact watched.outside (some _) rfl
        (fun event member => by rw [← Option.some.inj member]; trivial) rfl rfl
        (underway.frame rfl)
  | eloopRegisterSignal sig handler userData =>
      cases stepped
      exact watched.outside (some _) rfl
        (fun event member => by rw [← Option.some.inj member]; trivial) rfl rfl
        (underway.frame rfl)
  | eloopTerminate =>
      cases stepped
      exact watched.outside none (List.append_nil _).symm nofun rfl rfl (underway.frame rfl)
  | _ => cases stepped

theorem eloopHandleSignal_frame (eloop : EloopData) (sig : Nat) :
    (eloopHandleSignal eloop sig).tables = eloop.tables ∧
      (eloopHandleSignal eloop sig).maxSock = eloop.maxSock := by
  unfold eloopHandleSignal
  simp only
  split <;> exact ⟨rfl, rfl⟩

theorem step_watched {action : Action} (watched : Watched state)
    (stepped : step state action = some next) : Watched next := by
  unfold step at stepped
  split at stepped
  · exact advance_watched watched stepped
  · exact returns_watched watched stepped
  · exact selects_watched watched stepped
  · rename_i sig
    obtain ⟨sameTables, sameMax⟩ := eloopHandleSignal_frame state.eloop sig
    split at stepped
    · cases stepped
    · cases stepped
      exact watched.outside (some _) rfl
        (fun event member => by rw [← Option.some.inj member]; trivial) sameTables sameMax
        (watched.underway.frame sameTables)
  · split at stepped
    · cases stepped
      exact watched.outside none (List.append_nil _).symm nofun rfl rfl trivial
    · cases stepped
  · obtain ⟨fromCall, isCall⟩ := Option.ite_none_right_eq_some.mp stepped
    exact calls_watched watched fromCall isCall

theorem start_watched : Watched start where
  asked := fun _ _ member => absurd member List.not_mem_nil
  underway := trivial
  fair := fun _ member => absurd member List.not_mem_nil

/-- `select` is asked for every registered socket, and each pass calls the
entries of its table that were found, all of them or those up to a change. -/
theorem sockets_served {actions : List Action} (ran : run step start actions = some state) :
    (∀ type, ∀ entry ∈ (state.eloop.tables type).table, state.eloop.asks type entry.sock) ∧
      ∀ table sockets called changed, .pass table sockets called changed ∈ state.log →
        called <+: ready sockets table ∧ (changed = false → called = ready sockets table) := by
  have watched : Watched state :=
    run_invariant (fun _ _ _ watched stepped => step_watched watched stepped) start_watched ran
  refine ⟨fun type entry member => ⟨List.mem_map_of_mem member, ?_⟩, ?_⟩
  · exact Nat.lt_succ_of_le (watched.asked type entry member)
  · exact fun table sockets called changed member => watched.fair _ member

/-- A handler takes its own socket out, which puts the next one off. -/
def changedPass : List Action :=
  [.eloopRegisterSock .read ⟨4, 1, 0, 0⟩, .eloopRegisterSock .read ⟨5, 2, 0, 0⟩, .eloopRun,
    .advance 0, .select (.found fun type => if type = .read then [5, 4] else []), .advance 0,
    .advance 0, .advance 0, .advance 0, .eloopUnregisterSock .read 4, .return_]

theorem sockets_served_changedPass :
    ∃ state, run step start changedPass = some state ∧
      .pass [⟨4, 1, 0, 0⟩, ⟨5, 2, 0, 0⟩] [5, 4] [⟨4, 1, 0, 0⟩] true ∈ state.log ∧
      (∀ type, ∀ entry ∈ (state.eloop.tables type).table, state.eloop.asks type entry.sock) ∧
      ∀ table sockets called changed, .pass table sockets called changed ∈ state.log →
        called <+: ready sockets table ∧ (changed = false → called = ready sockets table) := by
  have logged : ∀ state, run step start changedPass = some state →
      .pass [⟨4, 1, 0, 0⟩, ⟨5, 2, 0, 0⟩] [5, 4] [⟨4, 1, 0, 0⟩] true ∈ state.log := by
    intro state ran
    cases ran
    decide
  exact ⟨_, rfl, logged _ rfl, sockets_served (rfl : run step start changedPass = some _)⟩

end Steps

end TuyaAdapter.Eloop
