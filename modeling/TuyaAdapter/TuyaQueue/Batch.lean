import TuyaAdapter.TuyaQueue.Deque
import Mathlib.Algebra.Order.Group.Nat

/-!
Contract: `tuya_queue_get_batch`.

The loop first counts `start` nodes and then copies up to `num` items. Behind
it the two counters tell how far the list went, which decides the result. The
offset of a copy is a product of two `uint32_t`: a batch that ends `2 ^ 32` bytes
or more behind its first item is copied to wrapped offsets.
-/

namespace TuyaAdapter.TuyaQueue

open Foundation Foundation.CircularList Foundation.Run

variable {Item Context : Type}

/-- The copies of a list of items from a counter on, as the loop makes them. -/
def batchCopies (itemSize : UInt32) : Nat → List Item → List (BatchCopy Item)
  | _, [] => []
  | count, item :: rest =>
      ⟨count * itemSize.toNat % 2 ^ 32, item⟩ :: batchCopies itemSize (count + 1) rest

theorem batchCopies_length (itemSize : UInt32) (items : List Item) (count : Nat) :
    (batchCopies itemSize count items).length = items.length := by
  induction items generalizing count with
  | nil => rfl
  | cons item rest inductionHypothesis =>
      rw [batchCopies, List.length_cons, inductionHypothesis, List.length_cons]

theorem batchCopies_getElem? (itemSize : UInt32) (items : List Item) (count k : Nat) :
    (batchCopies itemSize count items)[k]? =
      items[k]?.map fun item => ⟨(count + k) * itemSize.toNat % 2 ^ 32, item⟩ := by
  induction items generalizing count k with
  | nil => rfl
  | cons item rest inductionHypothesis =>
      cases k with
      | zero => rfl
      | succ k =>
          rw [batchCopies, List.getElem?_cons_succ, List.getElem?_cons_succ, inductionHypothesis,
            show count + 1 + k = count + (k + 1) by omega]

/-! ## The loop -/

section Loop

variable {queue : SizedQueue Item} {start num : UInt32} {front back : List Nat} {fuel p : Nat}

/-- Once enough nodes are skipped the loop copies. The induction is on the nodes
that are left. -/
theorem batchLoop_copies (ring : Ring queue.links queue.head (front ++ back)) (notNull : 0 ∉ back)
    (enough : back.length < fuel) (isFirst : (back ++ [queue.head]).head? = some p)
    (count : UInt32) :
    batchLoop queue start num fuel p start count =
      some (start, UInt32.ofNat (count.toNat + min (num.toNat - count.toNat) back.length),
        batchCopies queue.itemSize count.toNat
          ((back.map queue.data).take (num.toNat - count.toNat))) := by
  induction back generalizing front fuel p count with
  | nil =>
      obtain ⟨fuel, rfl⟩ := Nat.exists_eq_add_one.mpr enough
      have isHead : p = queue.head := (Option.some.inj isFirst).symm
      simp [batchLoop, isHead, batchCopies]
  | cons node back inductionHypothesis =>
      obtain ⟨fuel, rfl⟩ := Nat.exists_eq_add_one.mpr (Nat.zero_lt_of_lt enough)
      obtain ⟨isNode, goesOn, moved, isAfter⟩ := ring_goesOn ring notNull isFirst
      rw [batchLoop, if_pos goesOn, if_neg (UInt32.lt_irrefl start)]
      by_cases full : num ≤ count
      · have noMore : num.toNat - count.toNat = 0 := by
          rw [UInt32.le_iff_toNat_le] at full
          omega
        rw [if_pos full, noMore]
        simp [batchCopies]
      · have below : count.toNat < num.toNat := by
          rw [UInt32.le_iff_toNat_le] at full
          omega
        have numSmall := num.toNat_lt
        have following : (count + 1).toNat = count.toNat + 1 := by
          rw [UInt32.toNat_add, UInt32.toNat_one]
          omega
        have rest := inductionHypothesis moved
          (fun isNull => notNull (List.mem_cons_of_mem _ isNull))
          (show back.length < fuel by simpa using enough) isAfter (count + 1)
        rw [following] at rest
        obtain ⟨more, isMore⟩ : ∃ more, num.toNat - count.toNat = more + 1 :=
          Nat.exists_eq_add_one.mpr (by omega)
        have fewer : num.toNat - (count.toNat + 1) = more := by omega
        rw [if_neg full, rest, fewer, isMore, Option.map_some, List.map_cons, List.take_succ_cons,
          batchCopies, isNode, UInt32.toNat_mul, List.length_cons, Nat.succ_min_succ]
        rw [show count.toNat + 1 + min more back.length =
          count.toNat + (min more back.length).succ by omega]

/-- From the first node on the loop skips, then copies. -/
theorem batchLoop_spec (ring : Ring queue.links queue.head (front ++ back)) (notNull : 0 ∉ back)
    (enough : back.length < fuel) (isFirst : (back ++ [queue.head]).head? = some p)
    (index : UInt32) (notPassed : index.toNat ≤ start.toNat) :
    batchLoop queue start num fuel p index 0 =
      some (UInt32.ofNat (min start.toNat (index.toNat + back.length)),
        UInt32.ofNat (min num.toNat (back.length - (start.toNat - index.toNat))),
        batchCopies queue.itemSize 0
          (((back.map queue.data).drop (start.toNat - index.toNat)).take num.toNat)) := by
  induction back generalizing front fuel p index with
  | nil =>
      obtain ⟨fuel, rfl⟩ := Nat.exists_eq_add_one.mpr enough
      have isHead : p = queue.head := (Option.some.inj isFirst).symm
      simp [batchLoop, isHead, batchCopies, Nat.min_eq_right notPassed]
  | cons node back inductionHypothesis =>
      by_cases before : index < start
      · obtain ⟨fuel, rfl⟩ := Nat.exists_eq_add_one.mpr (Nat.zero_lt_of_lt enough)
        obtain ⟨isNode, goesOn, moved, isAfter⟩ := ring_goesOn ring notNull isFirst
        have below : index.toNat < start.toNat := UInt32.lt_iff_toNat_lt.mp before
        have startSmall := start.toNat_lt
        have following : (index + 1).toNat = index.toNat + 1 := by
          rw [UInt32.toNat_add, UInt32.toNat_one]
          omega
        have rest := inductionHypothesis moved
          (fun isNull => notNull (List.mem_cons_of_mem _ isNull))
          (show back.length < fuel by simpa using enough) isAfter (index + 1) (by omega)
        obtain ⟨more, isMore⟩ : ∃ more, start.toNat - index.toNat = more + 1 :=
          Nat.exists_eq_add_one.mpr (by omega)
        have fewer : start.toNat - (index.toNat + 1) = more := by omega
        rw [following, fewer] at rest
        rw [batchLoop, if_pos goesOn, if_pos before, rest, isMore, List.map_cons,
          List.drop_succ_cons, List.length_cons, Nat.add_sub_add_right,
          show index.toNat + 1 + back.length = index.toNat + (back.length + 1) by omega]
      · have isStart : index = start := by
          apply UInt32.toNat_inj.mp
          rw [UInt32.lt_iff_toNat_lt] at before
          omega
        rw [isStart, batchLoop_copies ring notNull enough isFirst 0]
        simp

end Loop

/-! ## The call -/

/-- `tuya_queue_get_batch` reads the items from `start` on. It succeeds when there
are enough of them. -/
theorem tuyaQueueGetBatch_spec {queue : SizedQueue Item} {items : List Item}
    (holds : Holds queue.toQueue items) (short : items.length < 2 ^ 32) (start : UInt32)
    {num : UInt32} (asked : num ≠ 0) :
    tuyaQueueGetBatch queue start true num =
      some (queue, if start.toNat + num.toNat ≤ items.length then .ok else .notFound,
        batchCopies queue.itemSize 0 ((items.drop start.toNat).take num.toNat)) := by
  obtain ⟨nodes, holds⟩ := holds
  have whole : Ring queue.links queue.head ([] ++ nodes) := holds.ring
  have enough : nodes.length < queue.live.length + 1 := by
    rw [holds.live.length_eq]
    exact Nat.lt_succ_self _
  have sameLength := holds.length_eq
  have positive : num.toNat ≠ 0 := by
    intro isZero
    exact asked (UInt32.toNat_inj.mp isZero)
  have walked := @batchLoop_spec _ queue start num _ _ _ _ whole holds.notNull enough
    holds.ring.ends.1 0 (by simp)
  rw [UInt32.toNat_zero, Nat.sub_zero, Nat.zero_add, holds.content, ← sameLength] at walked
  have startSmall := start.toNat_lt
  have numSmall := num.toNat_lt
  have indexIs : UInt32.ofNat (min start.toNat items.length) = start ↔
      start.toNat ≤ items.length := by
    rw [← UInt32.toNat_inj, UInt32.toNat_ofNat_of_lt' (by rw [UInt32.size]; omega)]
    omega
  have countIs : UInt32.ofNat (min num.toNat (items.length - start.toNat)) = num ↔
      num.toNat ≤ items.length - start.toNat := by
    rw [← UInt32.toNat_inj, UInt32.toNat_ofNat_of_lt' (by rw [UInt32.size]; omega)]
    omega
  have misses : (UInt32.ofNat (min start.toNat items.length) ≠ start ∨
      UInt32.ofNat (min num.toNat (items.length - start.toNat)) ≠ num) ↔
        ¬ start.toNat + num.toNat ≤ items.length := by
    rw [ne_eq, ne_eq, indexIs, countIs]
    omega
  rw [tuyaQueueGetBatch, if_neg (by simp [asked]), walked, Option.map_some]
  dsimp only
  by_cases inside : start.toNat + num.toNat ≤ items.length
  · rw [if_neg (fun missed => misses.mp missed inside), if_pos inside]
  · rw [if_pos (misses.mpr inside), if_neg inside]

/-- A batch that lies inside the queue is copied to its place in the buffer,
item by item and nothing else; any other is not found. The queue is as it was. -/
def BatchMeets (queue : SizedQueue Item) (items : List Item) (start num : UInt32) : Prop :=
  ∃ result copies, tuyaQueueGetBatch queue start true num = some (queue, result, copies) ∧
    if start.toNat + num.toNat ≤ items.length then
      result = .ok ∧ copies.length = num.toNat ∧
        ∀ k, k < num.toNat → ∃ item, items[start.toNat + k]? = some item ∧
          copies[k]? = some ⟨k * queue.itemSize.toNat, item⟩
    else result = .notFound

/-- The batch is not inside the queue, or its last item starts less than
`2 ^ 32` bytes behind its first one. -/
def OffsetsFit (queue : SizedQueue Item) (items : List Item) (start num : UInt32) : Prop :=
  items.length < start.toNat + num.toNat ∨
    (num.toNat - 1) * queue.itemSize.toNat < 2 ^ 32

instance (queue : SizedQueue Item) (items : List Item) (start num : UInt32) :
    Decidable (OffsetsFit queue items start num) :=
  inferInstanceAs (Decidable (_ ∨ _))

/-- The copies of a batch inside the queue. -/
theorem batchCopies_of_inside (itemSize : UInt32) {items : List Item} {start num k : Nat}
    (inside : start + num ≤ items.length) (below : k < num) :
    ∃ item, items[start + k]? = some item ∧
      (batchCopies itemSize 0 ((items.drop start).take num))[k]? =
        some ⟨k * itemSize.toNat % 2 ^ 32, item⟩ := by
  have within : start + k < items.length := by omega
  refine ⟨items[start + k], List.getElem?_eq_getElem within, ?_⟩
  rw [batchCopies_getElem?, List.getElem?_take_of_lt below, List.getElem?_drop,
    List.getElem?_eq_getElem within, Option.map_some, Nat.zero_add]

theorem batchMeets_iff {queue : SizedQueue Item} {items : List Item}
    (holds : Holds queue.toQueue items) (short : items.length < 2 ^ 32) (start : UInt32)
    {num : UInt32} (asked : num ≠ 0) :
    BatchMeets queue items start num ↔ OffsetsFit queue items start num := by
  have isBatch := tuyaQueueGetBatch_spec holds short start asked
  have positive : 0 < num.toNat := by
    apply Nat.pos_of_ne_zero
    intro isZero
    exact asked (UInt32.toNat_inj.mp isZero)
  unfold BatchMeets OffsetsFit
  by_cases inside : start.toNat + num.toNat ≤ items.length
  · rw [if_pos inside] at isBatch
    simp only [if_pos inside]
    constructor
    · intro meets
      obtain ⟨result, copies, isOther, -, -, placed⟩ := meets
      right
      rw [isBatch] at isOther
      have sameCopies : batchCopies queue.itemSize 0 ((items.drop start.toNat).take num.toNat) =
          copies := congrArg (fun result => result.2.2) (Option.some.inj isOther)
      -- The last item of the batch.
      obtain ⟨item, -, isPlaced⟩ := placed (num.toNat - 1) (by omega)
      obtain ⟨other, -, isCopied⟩ := batchCopies_of_inside queue.itemSize inside
        (show num.toNat - 1 < num.toNat by omega)
      rw [sameCopies, isPlaced] at isCopied
      have sameOffset := congrArg BatchCopy.offset (Option.some.inj isCopied)
      dsimp only at sameOffset
      rw [sameOffset]
      exact Nat.mod_lt _ (by decide)
    · intro fits
      have last := fits.resolve_left (by omega)
      refine ⟨_, _, isBatch, rfl, ?_, ?_⟩
      · rw [batchCopies_length, List.length_take, List.length_drop]
        omega
      · intro k below
        obtain ⟨item, isItem, isCopied⟩ := batchCopies_of_inside queue.itemSize inside below
        have earlier : k * queue.itemSize.toNat ≤ (num.toNat - 1) * queue.itemSize.toNat :=
          Nat.mul_le_mul_right _ (by omega)
        rw [Nat.mod_eq_of_lt (lt_of_le_of_lt earlier last)] at isCopied
        exact ⟨item, isItem, isCopied⟩
  · rw [if_neg inside] at isBatch
    simp only [if_neg inside]
    constructor
    · intro _
      exact Or.inl (by omega)
    · intro _
      exact ⟨_, _, isBatch, rfl⟩

/-- Three items in a queue. -/
def threeItems : List (Call Nat Unit) :=
  [.input (some 5) (some 16), .input (some 6) (some 32), .input (some 7) (some 48)]

end TuyaAdapter.TuyaQueue
