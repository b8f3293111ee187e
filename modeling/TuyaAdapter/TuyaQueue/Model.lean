import TuyaAdapter.OperateRet
import TuyaAdapter.TuyaQueue.TuyaList

/-!
Contract: `tuya_queue.c` over a memory of list nodes.

Every call runs under the queue mutex and is one step. A node is the address of
its `QUEUE_ITEM_T`, whose first member is the list node. An item stands for the
`item_size` bytes that are copied. What `tkl_system_malloc` answers is part of
a call; `tkl_system_free` fails on an address that is not allocated, so a step
that frees twice has no result. The loops over the list carry a bound, one more
than the number of allocated nodes, and have no result when they exceed it.
-/

namespace TuyaAdapter.TuyaQueue

open Foundation.CircularList

variable {Item Context : Type}

/-- `TUYA_QUEUE_T` and the memory its list lives in. -/
structure Queue (Item : Type) where
  links : Links Nat
  data : Nat → Item
  live : List Nat
  head : Nat
  queueLen : UInt32
  queueFree : UInt32

/-- `ENQUEUE_POLICY_E`. -/
inductive EnqueuePolicy where
  | sendToBack
  | sendToFront
deriving DecidableEq, Repr

/-- `tuya_queue_create` with its allocations granted. -/
def tuyaQueueCreate (links : Links Nat) (data : Nat → Item) (head : Nat) (queueLen : UInt32) :
    Queue Item :=
  ⟨initListHead links head, data, [], head, queueLen, queueLen⟩

/-- `tkl_system_free` of an item. -/
def tklSystemFree (queue : Queue Item) (node : Nat) : Option (Queue Item) :=
  if node ∈ queue.live then some { queue with live := queue.live.erase node } else none

/-- `__enqueue`; `memory` is the answer of `tkl_system_malloc`. -/
def enqueue (queue : Queue Item) (item : Option Item) (memory : Option Nat)
    (policy : EnqueuePolicy) : Option (Queue Item × OperateRet) :=
  match item with
  | none => some (queue, .invalidParm)
  | some item =>
      match memory with
      | none => some (queue, .mallocFailed)
      | some node =>
          let queue :=
            { queue with
              live := node :: queue.live
              links := initListHead queue.links node
              data := Function.update queue.data node item }
          if 0 < queue.queueFree then
            let links :=
              match policy with
              | .sendToBack => tuyaListAddTail queue.links node queue.head
              | .sendToFront => tuyaListAdd queue.links node queue.head
            some ({ queue with links := links, queueFree := queue.queueFree - 1 }, .ok)
          else (tklSystemFree queue node).map fun queue => (queue, .exceedUpperLimit)

/-- `tuya_queue_input`. -/
def tuyaQueueInput (queue : Queue Item) (item : Option Item) (memory : Option Nat) :=
  enqueue queue item memory .sendToBack

/-- `tuya_queue_input_instant`. -/
def tuyaQueueInputInstant (queue : Queue Item) (item : Option Item) (memory : Option Nat) :=
  enqueue queue item memory .sendToFront

/-- `tuya_queue_output`; `wanted` says that `item` is not `NULL`. -/
def tuyaQueueOutput (queue : Queue Item) (wanted : Bool) :
    Option (Queue Item × OperateRet × Option Item) :=
  if queue.queueFree < queue.queueLen then
    let node := queue.links.next queue.head
    let copied := if wanted then some (queue.data node) else none
    (tklSystemFree { queue with links := tuyaListDel queue.links node } node).map fun queue =>
      ({ queue with queueFree := queue.queueFree + 1 }, .ok, copied)
  else some (queue, .notFound, none)

/-- `tuya_queue_peek`. -/
def tuyaQueuePeek (queue : Queue Item) (wanted : Bool) : OperateRet × Option Item :=
  if wanted then
    if queue.queueFree < queue.queueLen then
      (.ok, some (queue.data (queue.links.next queue.head)))
    else (.notFound, none)
  else (.invalidParm, none)

/-- `TRAVERSE_CB`: the context after the call and the answer. -/
abbrev TraverseCb (Item Context : Type) := Context → Item → Context × Bool

/-- The loop of `tuya_queue_traverse` from node `p` on: the items visited and
the context. -/
def traverseLoop (queue : Queue Item) (callback : TraverseCb Item Context) :
    Nat → Nat → Context → Option (List Item × Context)
  | 0, _, _ => none
  | fuel + 1, p, context =>
      if p ≠ 0 ∧ p ≠ queue.head then
        let answer := callback context (queue.data p)
        if answer.2 then
          (traverseLoop queue callback fuel (queue.links.next p) answer.1).map fun result =>
            (queue.data p :: result.1, result.2)
        else some ([queue.data p], answer.1)
      else some ([], context)

/-- `tuya_queue_traverse`. -/
def tuyaQueueTraverse (queue : Queue Item) (callback : Option (TraverseCb Item Context))
    (context : Context) : Option (OperateRet × List Item × Context) :=
  match callback with
  | none => some (.invalidParm, [], context)
  | some callback =>
      (traverseLoop queue callback (queue.live.length + 1) (queue.links.next queue.head)
        context).map fun result => (.ok, result)

/-- The loop of `tuya_queue_clear` from node `p` on. The following node is read
before the current one is freed. -/
def clearLoop : Nat → Queue Item → Nat → Option (Queue Item)
  | 0, _, _ => none
  | fuel + 1, queue, p =>
      let n := queue.links.next p
      if p ≠ queue.head then
        (tklSystemFree { queue with links := tuyaListDel queue.links p } p).bind fun queue =>
          clearLoop fuel queue n
      else some queue

/-- `tuya_queue_clear`. -/
def tuyaQueueClear (queue : Queue Item) : Option (Queue Item × OperateRet) :=
  (clearLoop (queue.live.length + 1) queue (queue.links.next queue.head)).map fun queue =>
    ({ queue with queueFree := queue.queueLen }, .ok)

/-- A queue with its `item_size`, which no call changes. -/
structure SizedQueue (Item : Type) extends Queue Item where
  itemSize : UInt32

/-- One `memcpy` of an item into the buffer of the caller. -/
structure BatchCopy (Item : Type) where
  offset : Nat
  item : Item
deriving DecidableEq, Repr

/-- The loop of `tuya_queue_get_batch` from node `p` on: the two counters behind
it and the copies made. The offset of a copy is a product of two `uint32_t`. -/
def batchLoop (queue : SizedQueue Item) (start num : UInt32) :
    Nat → Nat → UInt32 → UInt32 → Option (UInt32 × UInt32 × List (BatchCopy Item))
  | 0, _, _, _ => none
  | fuel + 1, p, index, count =>
      if p ≠ 0 ∧ p ≠ queue.head then
        if index < start then batchLoop queue start num fuel (queue.links.next p) (index + 1) count
        else if num ≤ count then some (index, count, [])
        else
          (batchLoop queue start num fuel (queue.links.next p) index (count + 1)).map fun result =>
            (result.1, result.2.1,
              ⟨(count * queue.itemSize).toNat, queue.data p⟩ :: result.2.2)
      else some (index, count, [])

/-- `tuya_queue_get_batch`; `wanted` says that `items` is not `NULL`. -/
def tuyaQueueGetBatch (queue : SizedQueue Item) (start : UInt32) (wanted : Bool) (num : UInt32) :
    Option (SizedQueue Item × OperateRet × List (BatchCopy Item)) :=
  if wanted = false ∨ num = 0 then some (queue, .invalidParm, [])
  else
    (batchLoop queue start num (queue.live.length + 1) (queue.links.next queue.head) 0 0).map
      fun result =>
        if result.1 ≠ start ∨ result.2.1 ≠ num then (queue, .notFound, result.2.2)
        else (queue, .ok, result.2.2)

/-- The loop of `tuya_queue_delete_batch`. -/
def deleteLoop : Nat → Queue Item → Option (Queue Item × OperateRet)
  | 0, queue => some (queue, .ok)
  | count + 1, queue =>
      (tuyaQueueOutput queue false).bind fun result =>
        if result.2.1 = .ok then deleteLoop count result.1 else some (result.1, result.2.1)

/-- `tuya_queue_delete_batch`. -/
def tuyaQueueDeleteBatch (queue : Queue Item) (num : UInt32) :
    Option (Queue Item × OperateRet) :=
  if num = 0 then some (queue, .invalidParm) else deleteLoop num.toNat queue

/-- `tuya_queue_get_free_num`. -/
def tuyaQueueGetFreeNum (queue : Queue Item) : UInt32 := queue.queueFree

/-- `tuya_queue_get_used_num`. -/
def tuyaQueueGetUsedNum (queue : Queue Item) : UInt32 := queue.queueLen - queue.queueFree

/-- `tuya_queue_get_max_num`. -/
def tuyaQueueGetMaxNum (queue : Queue Item) : UInt32 := queue.queueLen

/-! ## Calls -/

inductive Call (Item Context : Type) where
  | input (item : Option Item) (memory : Option Nat)
  | inputInstant (item : Option Item) (memory : Option Nat)
  | output (wanted : Bool)
  | peek (wanted : Bool)
  | traverse (callback : Option (TraverseCb Item Context)) (context : Context)
  | clear
  | deleteBatch (num : UInt32)
  | getFreeNum
  | getUsedNum
  | getMaxNum

/-- What a call returns and writes for its caller. -/
inductive Reply (Item Context : Type) where
  | status (result : OperateRet)
  | copied (result : OperateRet) (item : Option Item)
  | visited (result : OperateRet) (items : List Item) (context : Context)
  | number (value : UInt32)

/-- A call on a queue: the queue after it and the reply. -/
def perform (queue : Queue Item) : Call Item Context →
    Option (Queue Item × Reply Item Context)
  | .input item memory =>
      (tuyaQueueInput queue item memory).map fun (queue, result) => (queue, .status result)
  | .inputInstant item memory =>
      (tuyaQueueInputInstant queue item memory).map fun (queue, result) => (queue, .status result)
  | .output wanted =>
      (tuyaQueueOutput queue wanted).map fun (queue, result, item) => (queue, .copied result item)
  | .peek wanted =>
      some (queue, .copied (tuyaQueuePeek queue wanted).1 (tuyaQueuePeek queue wanted).2)
  | .traverse callback context =>
      (tuyaQueueTraverse queue callback context).map fun (result, items, context) =>
        (queue, .visited result items context)
  | .clear => (tuyaQueueClear queue).map fun (queue, result) => (queue, .status result)
  | .deleteBatch num =>
      (tuyaQueueDeleteBatch queue num).map fun (queue, result) => (queue, .status result)
  | .getFreeNum => some (queue, .number (tuyaQueueGetFreeNum queue))
  | .getUsedNum => some (queue, .number (tuyaQueueGetUsedNum queue))
  | .getMaxNum => some (queue, .number (tuyaQueueGetMaxNum queue))

/-- The queue after a call. -/
def step (queue : Queue Item) (call : Call Item Context) : Option (Queue Item) :=
  (perform queue call).map Prod.fst

end TuyaAdapter.TuyaQueue
