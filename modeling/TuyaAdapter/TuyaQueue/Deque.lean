import TuyaAdapter.Foundation.Run
import TuyaAdapter.TuyaQueue.Model

/-!
Contract: the queue is a bounded sequence with two ends.

`Deque.perform` says what a call does to the sequence of items and what it
answers. `Holds` relates a queue to the sequence: its cycle of nodes carries
the items, its counter counts the room left, and exactly the nodes of the cycle
are allocated.
-/

namespace TuyaAdapter.TuyaQueue

open Foundation Foundation.CircularList Foundation.Run

variable {Item Context : Type}

/-! ## The sequence -/

namespace Deque

/-- Put an item at an end when there is room for it. -/
def put (capacity : Nat) (items : List Item) (item : Option Item) (granted : Bool)
    (extended : Item → List Item) : List Item × OperateRet :=
  match item with
  | none => (items, .invalidParm)
  | some item =>
      if granted then
        if items.length < capacity then (extended item, .ok) else (items, .exceedUpperLimit)
      else (items, .mallocFailed)

/-- Visit the items from the front until the callback answers false. -/
def visit (callback : TraverseCb Item Context) : List Item → Context → List Item × Context
  | [], context => ([], context)
  | item :: rest, context =>
      if (callback context item).2 then
        (item :: (visit callback rest (callback context item).1).1,
          (visit callback rest (callback context item).1).2)
      else ([item], (callback context item).1)

/-- A call on a sequence of at most `capacity` items. -/
def perform (capacity : UInt32) (items : List Item) : Call Item Context →
    List Item × Reply Item Context
  | .input item memory =>
      let result := put capacity.toNat items item memory.isSome fun item => items ++ [item]
      (result.1, .status result.2)
  | .inputInstant item memory =>
      let result := put capacity.toNat items item memory.isSome fun item => item :: items
      (result.1, .status result.2)
  | .output wanted =>
      match items with
      | [] => ([], .copied .notFound none)
      | item :: rest => (rest, .copied .ok (if wanted then some item else none))
  | .peek wanted =>
      if wanted then
        match items with
        | [] => ([], .copied .notFound none)
        | item :: rest => (item :: rest, .copied .ok (some item))
      else (items, .copied .invalidParm none)
  | .traverse callback context =>
      match callback with
      | none => (items, .visited .invalidParm [] context)
      | some callback =>
          (items, .visited .ok (visit callback items context).1 (visit callback items context).2)
  | .clear => ([], .status .ok)
  | .deleteBatch num =>
      if num = 0 then (items, .status .invalidParm)
      else (items.drop num.toNat,
        .status (if items.length < num.toNat then .notFound else .ok))
  | .getFreeNum => (items, .number (UInt32.ofNat (capacity.toNat - items.length)))
  | .getUsedNum => (items, .number (UInt32.ofNat items.length))
  | .getMaxNum => (items, .number capacity)

/-- The sequence after a list of calls. -/
def after (capacity : UInt32) (calls : List (Call Item Context)) : List Item :=
  calls.foldl (fun items call => (perform capacity items call).1) []

end Deque

/-- The call reports an error. -/
def Reply.Failed : Reply Item Context → Prop
  | .status result => result ≠ .ok
  | .copied result _ => result ≠ .ok
  | .visited result _ _ => result ≠ .ok
  | .number _ => False

/-- Only `tuya_queue_delete_batch` changes the sequence and reports an error. -/
theorem Deque.unchanged_of_failed {capacity : UInt32} {items : List Item}
    {call : Call Item Context} (failed : (Deque.perform capacity items call).2.Failed)
    (notBatch : ∀ num, call ≠ .deleteBatch num) :
    (Deque.perform capacity items call).1 = items := by
  have put : ∀ (item : Option Item) granted (extended : Item → List Item),
      (Deque.put capacity.toNat items item granted extended).2 ≠ .ok →
        (Deque.put capacity.toNat items item granted extended).1 = items := by
    intro item granted extended isError
    cases item with
    | none => rfl
    | some item =>
        by_cases isGranted : granted = true
        · by_cases room : items.length < capacity.toNat
          · simp [Deque.put, isGranted, room] at isError
          · simp [Deque.put, isGranted, room]
        · simp [Deque.put, isGranted]
  cases call with
  | input item memory => exact put item _ _ failed
  | inputInstant item memory => exact put item _ _ failed
  | output wanted =>
      cases items with
      | nil => rfl
      | cons item rest => exact absurd rfl failed
  | peek wanted =>
      by_cases isWanted : wanted = true
      · cases items with
        | nil => simp [Deque.perform, isWanted]
        | cons item rest => simp [Deque.perform, isWanted]
      · simp [Deque.perform, isWanted]
  | traverse callback context => cases callback <;> rfl
  | clear => exact absurd rfl failed
  | deleteBatch num => exact absurd rfl (notBatch num)
  | getFreeNum => rfl
  | getUsedNum => rfl
  | getMaxNum => rfl

/-! ## Invariant -/

/-- The queue holds the items, in the nodes listed. -/
structure HoldsIn (queue : Queue Item) (nodes : List Nat) (items : List Item) : Prop where
  ring : Ring queue.links queue.head nodes
  content : nodes.map queue.data = items
  live : queue.live.Perm nodes
  notNull : 0 ∉ nodes
  count : queue.queueFree.toNat + nodes.length = queue.queueLen.toNat

/-- The queue holds the items. -/
def Holds (queue : Queue Item) (items : List Item) : Prop :=
  ∃ nodes, HoldsIn queue nodes items

/-- `tkl_system_malloc` answers with memory that is not in use: not `NULL`, not
the queue itself and not a live item. -/
def MallocFresh (queue : Queue Item) : Call Item Context → Prop
  | .input (some _) (some node) => node ≠ 0 ∧ node ≠ queue.head ∧ node ∉ queue.live
  | .inputInstant (some _) (some node) => node ≠ 0 ∧ node ≠ queue.head ∧ node ∉ queue.live
  | _ => True

instance (queue : Queue Item) : ∀ call : Call Item Context, Decidable (MallocFresh queue call)
  | .input (some _) (some _) => inferInstanceAs (Decidable (_ ∧ _))
  | .inputInstant (some _) (some _) => inferInstanceAs (Decidable (_ ∧ _))
  | .input none _ => inferInstanceAs (Decidable True)
  | .input (some _) none => inferInstanceAs (Decidable True)
  | .inputInstant none _ => inferInstanceAs (Decidable True)
  | .inputInstant (some _) none => inferInstanceAs (Decidable True)
  | .output _ => inferInstanceAs (Decidable True)
  | .peek _ => inferInstanceAs (Decidable True)
  | .traverse _ _ => inferInstanceAs (Decidable True)
  | .clear => inferInstanceAs (Decidable True)
  | .deleteBatch _ => inferInstanceAs (Decidable True)
  | .getFreeNum => inferInstanceAs (Decidable True)
  | .getUsedNum => inferInstanceAs (Decidable True)
  | .getMaxNum => inferInstanceAs (Decidable True)

theorem tuyaQueueCreate_holds (links : Links Nat) (data : Nat → Item) (head : Nat)
    (queueLen : UInt32) : Holds (tuyaQueueCreate links data head queueLen) [] :=
  ⟨[], initListHead_ring links head, rfl, List.Perm.refl _, List.not_mem_nil, rfl⟩

/-! ## Operations -/

section Operations

variable {queue : Queue Item} {nodes : List Nat} {items : List Item}

theorem HoldsIn.length_eq (holds : HoldsIn queue nodes items) : items.length = nodes.length := by
  rw [← holds.content, List.length_map]

theorem HoldsIn.room_iff (holds : HoldsIn queue nodes items) :
    0 < queue.queueFree ↔ items.length < queue.queueLen.toNat := by
  have count := holds.count
  have length := holds.length_eq
  rw [UInt32.lt_iff_toNat_lt, UInt32.toNat_zero]
  omega

theorem HoldsIn.filled_iff (holds : HoldsIn queue nodes items) :
    queue.queueFree < queue.queueLen ↔ items ≠ [] := by
  have count := holds.count
  have length := holds.length_eq
  rw [UInt32.lt_iff_toNat_lt, ← List.length_pos_iff]
  omega

/-- The node of a granted allocation before it is linked. -/
def withItem (queue : Queue Item) (node : Nat) (item : Item) : Queue Item :=
  { queue with
    live := node :: queue.live
    links := initListHead queue.links node
    data := Function.update queue.data node item }

theorem HoldsIn.withItem (holds : HoldsIn queue nodes items) {node : Nat} (item : Item)
    (notHead : node ≠ queue.head) (unused : node ∉ queue.live) :
    node ∉ queue.head :: nodes ∧ Ring (withItem queue node item).links queue.head nodes ∧
      nodes.map (withItem queue node item).data = items := by
  have outside : node ∉ nodes := fun member => unused (holds.live.mem_iff.mpr member)
  have fresh : node ∉ queue.head :: nodes := by
    rw [List.mem_cons, not_or]
    exact ⟨notHead, outside⟩
  refine ⟨fresh, initListHead_outside holds.ring fresh, ?_⟩
  rw [← holds.content]
  apply List.map_congr_left
  intro other member
  apply Function.update_of_ne
  rintro rfl
  exact outside member

theorem enqueue_spec (holds : Holds queue items) (item : Option Item) (memory : Option Nat)
    (policy : EnqueuePolicy)
    (fresh : ∀ node, item.isSome → memory = some node →
      node ≠ 0 ∧ node ≠ queue.head ∧ node ∉ queue.live) :
    ∃ next, Holds next
        (Deque.put queue.queueLen.toNat items item memory.isSome fun item =>
          match policy with
          | .sendToBack => items ++ [item]
          | .sendToFront => item :: items).1 ∧
      next.queueLen = queue.queueLen ∧
      enqueue queue item memory policy = some (next,
        (Deque.put queue.queueLen.toNat items item memory.isSome fun item =>
          match policy with
          | .sendToBack => items ++ [item]
          | .sendToFront => item :: items).2) := by
  cases item with
  | none => exact ⟨queue, holds, rfl, rfl⟩
  | some item =>
      cases memory with
      | none => exact ⟨queue, holds, rfl, rfl⟩
      | some node =>
          obtain ⟨nodes, holds⟩ := holds
          obtain ⟨notNull, notHead, unused⟩ := fresh node rfl rfl
          obtain ⟨outside, ring, content⟩ := holds.withItem item notHead unused
          have count := holds.count
          by_cases room : 0 < queue.queueFree
          · have lowered : (queue.queueFree - 1).toNat = queue.queueFree.toNat - 1 :=
              UInt32.toNat_sub_of_le _ _ (by
                rw [UInt32.le_iff_toNat_le, UInt32.toNat_one]
                exact UInt32.lt_iff_toNat_lt.mp room)
            have positive : 0 < queue.queueFree.toNat := UInt32.lt_iff_toNat_lt.mp room
            have hasRoom := holds.room_iff.mp room
            simp only [Deque.put, Option.isSome_some, if_true, hasRoom]
            cases policy with
            | sendToBack =>
                refine ⟨{ withItem queue node item with
                    links := tuyaListAddTail (withItem queue node item).links node queue.head
                    queueFree := queue.queueFree - 1 },
                  ⟨nodes ++ [node], tuyaListAddTail_ring ring outside, ?_, ?_, ?_, ?_⟩, rfl, ?_⟩
                · show (nodes ++ [node]).map (withItem queue node item).data = items ++ [item]
                  rw [List.map_append, content]
                  simp [withItem]
                · exact (holds.live.cons node).trans (List.perm_append_singleton _ _).symm
                · rw [List.mem_append, not_or]
                  exact ⟨holds.notNull, by simpa using notNull.symm⟩
                · show (queue.queueFree - 1).toNat + (nodes ++ [node]).length = _
                  rw [lowered, List.length_append, List.length_singleton]
                  show _ = queue.queueLen.toNat
                  omega
                · simp only [enqueue, room, if_true]
                  rfl
            | sendToFront =>
                refine ⟨{ withItem queue node item with
                    links := tuyaListAdd (withItem queue node item).links node queue.head
                    queueFree := queue.queueFree - 1 },
                  ⟨node :: nodes, tuyaListAdd_ring ring outside, ?_, ?_, ?_, ?_⟩, rfl, ?_⟩
                · show (node :: nodes).map (withItem queue node item).data = item :: items
                  rw [List.map_cons, content]
                  simp [withItem]
                · exact holds.live.cons node
                · rw [List.mem_cons, not_or]
                  exact ⟨notNull.symm, holds.notNull⟩
                · show (queue.queueFree - 1).toNat + (node :: nodes).length = _
                  rw [lowered, List.length_cons]
                  show _ = queue.queueLen.toNat
                  omega
                · simp only [enqueue, room, if_true]
                  rfl
          · have noRoom : ¬ items.length < queue.queueLen.toNat :=
              fun hasRoom => room (holds.room_iff.mpr hasRoom)
            simp only [Deque.put, Option.isSome_some, if_true, noRoom, if_false]
            refine ⟨{ withItem queue node item with live := queue.live },
              ⟨nodes, ring, content, holds.live, holds.notNull, count⟩, rfl, ?_⟩
            simp [enqueue, room, tklSystemFree, withItem]

theorem tuyaQueueOutput_spec (holds : Holds queue items) (wanted : Bool) :
    ∃ next, Holds next items.tail ∧ next.queueLen = queue.queueLen ∧
      tuyaQueueOutput queue wanted = some (next,
        match items with
        | [] => (.notFound, none)
        | item :: _ => (.ok, if wanted then some item else none)) := by
  obtain ⟨nodes, holds⟩ := holds
  cases items with
  | nil =>
      have unfilled : ¬ queue.queueFree < queue.queueLen := by
        rw [holds.filled_iff]
        simp
      exact ⟨queue, ⟨nodes, holds⟩, rfl, by simp [tuyaQueueOutput, unfilled]⟩
  | cons item rest =>
      have filled : queue.queueFree < queue.queueLen := holds.filled_iff.mpr (by simp)
      obtain ⟨node, others, isNodes⟩ : ∃ node others, nodes = node :: others :=
        List.exists_cons_of_length_pos (by rw [← holds.length_eq]; simp)
      subst isNodes
      have first : queue.links.next queue.head = node :=
        (Option.some.inj holds.ring.ends.1).symm
      have member : node ∈ queue.live := holds.live.mem_iff.mpr List.mem_cons_self
      have content := holds.content
      rw [List.map_cons, List.cons.injEq] at content
      have raised : (queue.queueFree + 1).toNat = queue.queueFree.toNat + 1 := by
        rw [UInt32.toNat_add, UInt32.toNat_one]
        apply Nat.mod_eq_of_lt
        have := UInt32.lt_iff_toNat_lt.mp filled
        have := queue.queueLen.toNat_lt
        omega
      refine ⟨{ queue with
          links := tuyaListDel queue.links node
          live := queue.live.erase node
          queueFree := queue.queueFree + 1 },
        ⟨others, tuyaListDel_ring holds.ring, content.2, ?_, ?_, ?_⟩, rfl, ?_⟩
      · have erased := holds.live.erase node
        rw [List.erase_cons_head] at erased
        exact erased
      · exact fun isNull => holds.notNull (List.mem_cons_of_mem _ isNull)
      · show (queue.queueFree + 1).toNat + others.length = queue.queueLen.toNat
        have count := holds.count
        rw [List.length_cons] at count
        rw [raised]
        omega
      · simp [tuyaQueueOutput, filled, first, tklSystemFree, member, content.1]

theorem tuyaQueuePeek_spec (holds : Holds queue items) (wanted : Bool) :
    (tuyaQueuePeek queue wanted : OperateRet × Option Item) =
      if wanted then
        match items with
        | [] => (.notFound, none)
        | item :: _ => (.ok, some item)
      else (.invalidParm, none) := by
  obtain ⟨nodes, holds⟩ := holds
  unfold tuyaQueuePeek
  split
  · cases items with
    | nil =>
        have unfilled : ¬ queue.queueFree < queue.queueLen := by
          rw [holds.filled_iff]
          simp
        rw [if_neg unfilled]
    | cons item rest =>
        rw [if_pos (holds.filled_iff.mpr (by simp))]
        obtain ⟨node, others, isNodes⟩ : ∃ node others, nodes = node :: others :=
          List.exists_cons_of_length_pos (by rw [← holds.length_eq]; simp)
        subst isNodes
        have first : queue.links.next queue.head = node :=
          (Option.some.inj holds.ring.ends.1).symm
        have content := holds.content
        rw [List.map_cons, List.cons.injEq] at content
        rw [first, content.1]
  · rfl

/-- A loop over the list goes on at a node of the cycle, to the one behind it. -/
theorem ring_goesOn {links : Links Nat} {head node p : Nat} {front back : List Nat}
    (ring : Ring links head (front ++ node :: back)) (notNull : 0 ∉ node :: back)
    (isFirst : ((node :: back) ++ [head]).head? = some p) :
    p = node ∧ (p ≠ 0 ∧ p ≠ head) ∧ Ring links head ((front ++ [node]) ++ back) ∧
      (back ++ [head]).head? = some (links.next p) := by
  have isNode : p = node := (Option.some.inj isFirst).symm
  obtain ⟨after, isAfter⟩ : ∃ after, (back ++ [head]).head? = some after := by
    cases back with
    | nil => exact ⟨head, rfl⟩
    | cons first rest => exact ⟨first, rfl⟩
  refine ⟨isNode, ⟨?_, ?_⟩, by simpa using ring, ?_⟩
  · intro isNull
    exact notNull (by simp [← isNode, isNull])
  · intro isHead
    have different := (List.nodup_cons.mp ring.different).1
    rw [← isHead, isNode] at different
    exact different (by simp)
  · rw [isNode, ring.next_eq isAfter]
    exact isAfter

/-- From a node of the cycle on, the loop visits the rest of the items. The
induction is on the nodes that are left. -/
theorem traverseLoop_spec (callback : TraverseCb Item Context) {front back : List Nat}
    (ring : Ring queue.links queue.head (front ++ back)) (notNull : 0 ∉ back) {fuel p : Nat}
    (enough : back.length < fuel) (isFirst : (back ++ [queue.head]).head? = some p)
    (context : Context) :
    traverseLoop queue callback fuel p context =
      some (Deque.visit callback (back.map queue.data) context) := by
  induction back generalizing front fuel p context with
  | nil =>
      obtain ⟨fuel, rfl⟩ := Nat.exists_eq_add_one.mpr enough
      have isHead : p = queue.head := (Option.some.inj isFirst).symm
      simp [traverseLoop, isHead, Deque.visit]
  | cons node back inductionHypothesis =>
      obtain ⟨fuel, rfl⟩ := Nat.exists_eq_add_one.mpr (Nat.zero_lt_of_lt enough)
      obtain ⟨isNode, goesOn, moved, isAfter⟩ := ring_goesOn ring notNull isFirst
      have rest := inductionHypothesis moved
        (fun isNull => notNull (List.mem_cons_of_mem _ isNull))
        (show back.length < fuel by simpa using enough) isAfter
        (callback context (queue.data p)).1
      simp only [traverseLoop, if_pos goesOn, rest, Option.map_some]
      rw [isNode, List.map_cons, Deque.visit]
      split <;> rfl

theorem tuyaQueueTraverse_spec (holds : Holds queue items)
    (callback : Option (TraverseCb Item Context)) (context : Context) :
    tuyaQueueTraverse queue callback context = some (
      match callback with
      | none => (.invalidParm, [], context)
      | some callback => (.ok, Deque.visit callback items context)) := by
  obtain ⟨nodes, holds⟩ := holds
  cases callback with
  | none => rfl
  | some callback =>
      have whole : Ring queue.links queue.head ([] ++ nodes) := holds.ring
      have enough : nodes.length < queue.live.length + 1 := by
        rw [holds.live.length_eq]
        exact Nat.lt_succ_self _
      have visited := traverseLoop_spec callback whole holds.notNull enough
        holds.ring.ends.1 context
      rw [tuyaQueueTraverse, visited, holds.content]
      rfl

/-- The loop frees every node. The induction is on the nodes of the cycle, whose
first is always the one the loop stands on. -/
theorem clearLoop_spec (ring : Ring queue.links queue.head nodes)
    (live : queue.live.Perm nodes) {fuel : Nat} (enough : nodes.length < fuel) :
    ∃ links, Ring links queue.head [] ∧
      clearLoop fuel queue (queue.links.next queue.head) =
        some { queue with links := links, live := [] } := by
  induction nodes generalizing queue fuel with
  | nil =>
      obtain ⟨fuel, rfl⟩ := Nat.exists_eq_add_one.mpr enough
      have isHead : queue.links.next queue.head = queue.head :=
        (Option.some.inj ring.ends.1).symm
      refine ⟨queue.links, ring, ?_⟩
      rw [clearLoop, isHead, ← List.perm_nil.mp live]
      simp
  | cons node rest inductionHypothesis =>
      obtain ⟨fuel, rfl⟩ := Nat.exists_eq_add_one.mpr (Nat.zero_lt_of_lt enough)
      have isNode : queue.links.next queue.head = node :=
        (Option.some.inj ring.ends.1).symm
      have notHead : node ≠ queue.head := by
        rintro rfl
        exact (List.nodup_cons.mp ring.different).1 List.mem_cons_self
      have member : node ∈ queue.live := live.mem_iff.mpr List.mem_cons_self
      have shorter := tuyaListDel_ring ring
      have erased := live.erase node
      rw [List.erase_cons_head] at erased
      have following : (tuyaListDel queue.links node).next queue.head = queue.links.next node := by
        have first : Ring queue.links queue.head ([] ++ node :: rest) := ring
        exact (first.next_eq shorter.ends.1).symm
      obtain ⟨links, isRing, cleared⟩ := @inductionHypothesis
        { queue with
          links := tuyaListDel queue.links node
          live := queue.live.erase node }
        shorter erased fuel (by simpa using enough)
      refine ⟨links, isRing, ?_⟩
      rw [clearLoop, isNode, ← following]
      simp only [ne_eq, notHead, not_false_eq_true, if_true, tklSystemFree, member,
        Option.bind_some]
      exact cleared

theorem tuyaQueueClear_spec (holds : Holds queue items) :
    ∃ next, Holds next ([] : List Item) ∧ next.queueLen = queue.queueLen ∧
      tuyaQueueClear queue = some (next, .ok) := by
  obtain ⟨nodes, holds⟩ := holds
  have enough : nodes.length < queue.live.length + 1 := by
    rw [holds.live.length_eq]
    exact Nat.lt_succ_self _
  obtain ⟨links, ring, cleared⟩ := clearLoop_spec holds.ring holds.live enough
  refine ⟨{ queue with links := links, live := [], queueFree := queue.queueLen },
    ⟨[], ring, rfl, List.Perm.refl _, List.not_mem_nil, rfl⟩, rfl, ?_⟩
  rw [tuyaQueueClear, cleared]
  rfl

theorem deleteLoop_spec (holds : Holds queue items) (count : Nat) :
    ∃ next, Holds next (items.drop count) ∧ next.queueLen = queue.queueLen ∧
      deleteLoop count queue =
        some (next, if items.length < count then .notFound else .ok) := by
  induction count generalizing queue items with
  | zero => exact ⟨queue, holds, rfl, rfl⟩
  | succ count inductionHypothesis =>
      obtain ⟨next, nextHolds, sameLen, produced⟩ := tuyaQueueOutput_spec holds false
      cases items with
      | nil =>
          refine ⟨next, nextHolds, sameLen, ?_⟩
          simp [deleteLoop, produced]
      | cons item rest =>
          obtain ⟨final, finalHolds, finalLen, finished⟩ := inductionHypothesis nextHolds
          refine ⟨final, finalHolds, finalLen.trans sameLen, ?_⟩
          simp only [deleteLoop, produced, Option.bind_some, if_true, finished, List.tail_cons,
            List.length_cons, Nat.add_lt_add_iff_right]
          rfl

theorem tuyaQueueDeleteBatch_spec (holds : Holds queue items) (num : UInt32) :
    ∃ next, Holds next (if num = 0 then items else items.drop num.toNat) ∧
      next.queueLen = queue.queueLen ∧
      tuyaQueueDeleteBatch queue num = some (next,
        if num = 0 then .invalidParm
        else if items.length < num.toNat then .notFound else .ok) := by
  by_cases isZero : num = 0
  · simp only [tuyaQueueDeleteBatch, isZero, if_true]
    exact ⟨queue, holds, rfl, rfl⟩
  · simp only [tuyaQueueDeleteBatch, isZero, if_false]
    exact deleteLoop_spec holds num.toNat

/-- One call: the queue answers what the sequence answers and holds it again. -/
theorem perform_spec {call : Call Item Context} (holds : Holds queue items)
    (fresh : MallocFresh queue call) :
    ∃ next, perform queue call =
        some (next, (Deque.perform queue.queueLen items call).2) ∧
      Holds next (Deque.perform queue.queueLen items call).1 ∧
      next.queueLen = queue.queueLen := by
  have freshNode : ∀ item memory,
      (call = .input item memory ∨ call = .inputInstant item memory) →
      ∀ node, item.isSome → memory = some node →
        node ≠ 0 ∧ node ≠ queue.head ∧ node ∉ queue.live := by
    intro item memory isInput node hasItem isNode
    obtain ⟨value, rfl⟩ := Option.isSome_iff_exists.mp hasItem
    rw [isNode] at isInput
    rcases isInput with rfl | rfl <;> exact fresh
  cases call with
  | input item memory =>
      obtain ⟨next, nextHolds, sameLen, done⟩ :=
        enqueue_spec holds item memory .sendToBack (freshNode item memory (Or.inl rfl))
      exact ⟨next, by rw [perform, tuyaQueueInput, done]; rfl, nextHolds, sameLen⟩
  | inputInstant item memory =>
      obtain ⟨next, nextHolds, sameLen, done⟩ :=
        enqueue_spec holds item memory .sendToFront (freshNode item memory (Or.inr rfl))
      exact ⟨next, by rw [perform, tuyaQueueInputInstant, done]; rfl, nextHolds, sameLen⟩
  | output wanted =>
      obtain ⟨next, nextHolds, sameLen, done⟩ := tuyaQueueOutput_spec holds wanted
      refine ⟨next, ?_, ?_, sameLen⟩
      · rw [perform, done]
        cases items <;> rfl
      · cases items with
        | nil => exact nextHolds
        | cons item rest => exact nextHolds
  | peek wanted =>
      refine ⟨queue, ?_, ?_, rfl⟩
      · rw [perform, tuyaQueuePeek_spec holds wanted]
        cases wanted <;> cases items <;> rfl
      · cases wanted <;> cases items <;> exact holds
  | traverse callback context =>
      refine ⟨queue, ?_, ?_, rfl⟩
      · rw [perform, tuyaQueueTraverse_spec holds]
        cases callback <;> rfl
      · cases callback <;> exact holds
  | clear =>
      obtain ⟨next, nextHolds, sameLen, done⟩ := tuyaQueueClear_spec holds
      exact ⟨next, by rw [perform, done]; rfl, nextHolds, sameLen⟩
  | deleteBatch num =>
      obtain ⟨next, nextHolds, sameLen, done⟩ := tuyaQueueDeleteBatch_spec holds num
      refine ⟨next, ?_, ?_, sameLen⟩
      · rw [perform, done]
        by_cases isZero : num = 0 <;> simp [Deque.perform, isZero]
      · by_cases isZero : num = 0
        · simpa [Deque.perform, isZero] using nextHolds
        · simpa [Deque.perform, isZero] using nextHolds
  | getFreeNum =>
      refine ⟨queue, ?_, holds, rfl⟩
      obtain ⟨nodes, inNodes⟩ := holds
      have room : queue.queueLen.toNat - items.length = queue.queueFree.toNat := by
        rw [inNodes.length_eq, ← inNodes.count]
        exact Nat.add_sub_cancel _ _
      rw [perform, Deque.perform, room, UInt32.ofNat_toNat, tuyaQueueGetFreeNum]
  | getUsedNum =>
      refine ⟨queue, ?_, holds, rfl⟩
      obtain ⟨nodes, inNodes⟩ := holds
      have used : queue.queueLen - queue.queueFree = UInt32.ofNat items.length := by
        apply UInt32.toNat_inj.mp
        have count := inNodes.count
        have bounded := queue.queueLen.toNat_lt
        rw [UInt32.toNat_sub_of_le _ _ (by rw [UInt32.le_iff_toNat_le]; omega),
          UInt32.toNat_ofNat_of_lt' (by rw [inNodes.length_eq]; show _ < 2 ^ 32; omega),
          inNodes.length_eq]
        omega
      rw [perform, Deque.perform, tuyaQueueGetUsedNum, used]
  | getMaxNum => exact ⟨queue, rfl, holds, rfl⟩

end Operations

/-! ## Runs -/

theorem run_holds {capacity : UInt32} {queue : Queue Item} {items : List Item}
    {calls : List (Call Item Context)} (holds : Holds queue items)
    (sameLen : queue.queueLen = capacity) (fresh : EveryStep step MallocFresh queue calls) :
    ∃ final, run step queue calls = some final ∧ final.queueLen = capacity ∧
      Holds final (calls.foldl (fun items call => (Deque.perform capacity items call).1) items) := by
  induction calls generalizing queue items with
  | nil => exact ⟨queue, rfl, sameLen, holds⟩
  | cons call rest inductionHypothesis =>
      obtain ⟨next, done, nextHolds, nextLen⟩ := perform_spec holds fresh.1
      have stepped : step queue call = some next := by
        rw [step, done]
        rfl
      rw [sameLen] at nextHolds nextLen
      obtain ⟨final, ran, finalLen, finalHolds⟩ :=
        inductionHypothesis nextHolds nextLen (fresh.2 next stepped)
      exact ⟨final, run_cons_eq_some.mpr ⟨next, stepped, ran⟩, finalLen, finalHolds⟩

/-- One item from each end, a third refused by the full queue, one taken out. -/
def fullQueue : List (Call Nat Unit) :=
  [.input (some 5) (some 16), .inputInstant (some 6) (some 32), .input (some 7) (some 48),
    .output true]

end TuyaAdapter.TuyaQueue
