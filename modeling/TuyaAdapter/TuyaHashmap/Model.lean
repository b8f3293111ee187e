import TuyaAdapter.Foundation.HashChain

/-!
Contract: `tuya_hashmap.c` over a memory of elements.

An element is the address of its `HASHMAP_ELEMENT_T`. `hash` stands for
`__hashmap_hash_int` on a table of some size: any function from keys to
buckets, so any collisions. Keys that compare equal are equal, and data is a
pointer that is not `NULL`. What `tkl_system_malloc` answers is part of a call;
`tkl_system_free` fails on an address that is not allocated. The loops over a
chain carry a bound, one more than the number of allocated elements, and have
no result when they exceed it.
-/

namespace TuyaAdapter.TuyaHashmap

open Foundation.HashChain

variable {Key Data : Type}

/-- `HASHMAP_T` and the memory its elements live in. `live` are the allocated
elements, the newest first. -/
structure Hashmap (Key Data : Type) where
  size : Int
  chains : Chains Nat Nat
  key : Nat → Key
  data : Nat → Data
  live : List Nat

/-- `MAP_OK`, `MAP_OMEM` and `MAP_MISSING`. -/
inductive MapRet where
  | ok
  | omem
  | missing
deriving DecidableEq, Repr

/-- `tuya_hashmap_new` with its allocations granted; the elements hold whatever
the memory holds. -/
def tuyaHashmapNew (next : Nat → Option Nat) (pprev : Nat → Slot Nat Nat) (key : Nat → Key)
    (data : Nat → Data) : Hashmap Key Data :=
  ⟨0, ⟨fun _ => none, next, pprev⟩, key, data, []⟩

section Functions

variable [DecidableEq Key] [DecidableEq Data] (hash : Key → Nat)

/-- `tuya_hashmap_put`; `memory` is the answer of `tkl_system_malloc`. -/
def tuyaHashmapPut (map : Hashmap Key Data) (key : Key) (data : Data) (memory : Option Nat) :
    Hashmap Key Data × MapRet :=
  match memory with
  | none => (map, .omem)
  | some element =>
      ({ size := map.size + 1
         chains := map.chains.addHead element (hash key)
         key := Function.update map.key element key
         data := Function.update map.data element data
         live := element :: map.live }, .ok)

/-- The loop of `__hash_find`. -/
def findLoop (map : Hashmap Key Data) (key : Key) : Nat → Option Nat → Option (Option Nat)
  | 0, _ => none
  | _ + 1, none => some none
  | bound + 1, some pos =>
      if key = map.key pos then some (some pos) else findLoop map key bound (map.chains.next pos)

def hashFind (map : Hashmap Key Data) (key : Key) : Option (Option Nat) :=
  match map.chains.first (hash key) with
  | none => some none
  | some first => findLoop map key (map.live.length + 1) (some first)

/-- `tuya_hashmap_get`, with what it puts at `arg`; missing is `NULL`. -/
def tuyaHashmapGet (map : Hashmap Key Data) (key : Key) : Option (MapRet × Option Data) := do
  match ← hashFind hash map key with
  | none => some (.missing, none)
  | some element => some (.ok, some (map.data element))

/-- `__hash_find_next_element`: the search goes on behind `curr`, for its key. -/
def hashFindNextElement (map : Hashmap Key Data) (curr : Nat) : Option (Option Nat) :=
  findLoop map (map.key curr) (map.live.length + 1) (map.chains.next curr)

/-- The offset of `data` in a `HASHMAP_ELEMENT_T`. -/
def dataOffset : Nat := 8

/-- `tuya_hashmap_data_traversal`, with what it puts at `arg_iterator`. An
iterator is the address of the `data` of an element; `0` is `NULL`. -/
def tuyaHashmapDataTraversal (map : Hashmap Key Data) (key : Key) (argIterator : Nat) :
    Option (MapRet × Nat) :=
  let found :=
    if argIterator = 0 then hashFind hash map key
    else hashFindNextElement map (argIterator - dataOffset)
  found.map fun element =>
    match element with
    | none => (.missing, 0)
    | some element => (.ok, element + dataOffset)

/-- `TUYA_HASHMAP_FOR_EACH_DATA` with a body that leaves the map alone: the
iterators its body sees. -/
def tuyaHashmapForEachData (map : Hashmap Key Data) (key : Key) : Nat → Nat → Option (List Nat)
  | 0, _ => none
  | bound + 1, dataIter =>
      (tuyaHashmapDataTraversal hash map key dataIter).bind fun result =>
        if result.1 = .ok then
          (tuyaHashmapForEachData map key bound result.2).map fun rest => result.2 :: rest
        else some []

/-- What an iterator points to. -/
def dataAt (map : Hashmap Key Data) (dataIter : Nat) : Data := map.data (dataIter - dataOffset)

/-- The element is wanted by a removal; `data` is missing when it is `NULL`. -/
def Wanted (map : Hashmap Key Data) (key : Key) (data : Option Data) (element : Nat) : Prop :=
  key = map.key element ∧ (data = none ∨ data = some (map.data element))

instance (map : Hashmap Key Data) (key : Key) (data : Option Data) (element : Nat) :
    Decidable (Wanted map key data element) := inferInstanceAs (Decidable (_ ∧ _))

/-- The loop of `tuya_hashmap_remove`: what `tmp_element` holds behind it. The
loop leaves it at the last element it looked at. -/
def removeLoop (map : Hashmap Key Data) (key : Key) (data : Option Data) :
    Nat → Option Nat → Option Nat → Option (Option Nat)
  | 0, _, _ => none
  | _ + 1, none, tmpElement => some tmpElement
  | bound + 1, some pos, _ =>
      if Wanted map key data pos then some (some pos)
      else removeLoop map key data bound (map.chains.next pos) (some pos)

def tklSystemFree (map : Hashmap Key Data) (element : Nat) : Option (Hashmap Key Data) :=
  if element ∈ map.live then some { map with live := map.live.erase element } else none

def tuyaHashmapRemove (map : Hashmap Key Data) (key : Key) (data : Option Data) :
    Option (Hashmap Key Data × MapRet) :=
  match map.chains.first (hash key) with
  | none => some (map, .missing)
  | some first => do
      match ← removeLoop map key data (map.live.length + 1) (some first) none with
      | none => some (map, .missing)
      | some element => do
          let map ← tklSystemFree { map with chains := map.chains.del element } element
          some ({ map with size := map.size - 1 }, .ok)

def tuyaHashmapLength (map : Hashmap Key Data) : Int := map.size

/-! ## Calls -/

inductive Call (Key Data : Type) where
  | put (key : Key) (data : Data) (memory : Option Nat)
  | get (key : Key)
  | remove (key : Key) (data : Option Data)
  | length

inductive Reply (Data : Type) where
  | status (ret : MapRet)
  | got (ret : MapRet) (data : Option Data)
  | count (size : Int)
deriving DecidableEq, Repr

def perform (map : Hashmap Key Data) : Call Key Data → Option (Hashmap Key Data × Reply Data)
  | .put key data memory =>
      let result := tuyaHashmapPut hash map key data memory
      some (result.1, .status result.2)
  | .get key => (tuyaHashmapGet hash map key).map fun result => (map, .got result.1 result.2)
  | .remove key data =>
      (tuyaHashmapRemove hash map key data).map fun result => (result.1, .status result.2)
  | .length => some (map, .count (tuyaHashmapLength map))

/-- The map after a call. -/
def step (map : Hashmap Key Data) (call : Call Key Data) : Option (Hashmap Key Data) :=
  (perform hash map call).map Prod.fst

/-- A sequence of calls with their replies. -/
def performAll : Hashmap Key Data → List (Call Key Data) →
    Option (Hashmap Key Data × List (Reply Data))
  | map, [] => some (map, [])
  | map, call :: rest => do
      let done ← perform hash map call
      let later ← performAll done.1 rest
      some (later.1, done.2 :: later.2)

end Functions

end TuyaAdapter.TuyaHashmap
