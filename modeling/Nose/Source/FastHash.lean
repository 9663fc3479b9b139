import Nose.Library.ArrayLists
import Nose.Library.LoggedRun
import Nose.Library.ShadowTable

/-
This file gives the hash table of `fasthash.h`. A pointer to a node is its position in the array of the nodes, and a
table has an index list, as `FastHash` and `FastHashDynamic` give it one. A result of `none` means that a loop over
a chain does not end.
-/

namespace Nose

/-- This is `FastHashBase::ItemNode`. -/
structure ItemNode where
  index : Nat
  pNext : Option Nat
  deriving DecidableEq

/-- This is `FastHashBase`. An array holds what its memory holds, also before the first write. -/
structure FastHashBase (Key Value : Type) where
  fsize : Nat
  tsize : Nat
  nodes : Nat → Key × Value
  itemnodes : Nat → ItemNode
  freelist : Option Nat
  lookuptable : Nat → Option Nat
  indexlist : Nat → Nat
  fIndexValid : Bool
  indexStart : Nat
  size : Nat

namespace FastHashBase

variable {Key Value : Type}

/-- `Reset` links every node into the free list. -/
def reset (table : FastHashBase Key Value) : FastHashBase Key Value :=
  { table with
    lookuptable := fun t => if t < table.tsize then none else table.lookuptable t
    itemnodes := fun x =>
      if x < table.fsize then ⟨x, if x = table.fsize - 1 then none else some (x + 1)⟩ else table.itemnodes x
    freelist := if table.fsize = 0 then none else some 0
    size := 0
    fIndexValid := true
    indexStart := 0 }

/-- `Init` takes over the arrays with their old contents. -/
def init (fsize tsize : Nat) (nodelist : Nat → Key × Value) (itemnodelist : Nat → ItemNode)
    (table : Nat → Option Nat) (indexlist : Nat → Nat) : FastHashBase Key Value :=
  reset
    { fsize, tsize, nodes := nodelist, itemnodes := itemnodelist, freelist := none, lookuptable := table, indexlist,
      fIndexValid := true, indexStart := 0, size := 0 }

variable [DecidableEq Key]

/-- This is the loop of `Find`. It gives the node of the key and the node before it. -/
def findLoop (table : FastHashBase Key Value) (key : Key) :
    Nat → Option Nat → Option Nat → Option (Option Nat × Option Nat)
  | 0, _, _ => none
  | _ + 1, pPrev, none => some (none, pPrev)
  | fuel + 1, pPrev, some pProbe =>
      if (table.nodes (table.itemnodes pProbe).index).1 = key then some (some pProbe, pPrev)
      else findLoop table key fuel (some pProbe) (table.itemnodes pProbe).pNext

/-- A chain has no more than all the nodes, and one more turn finds its end. -/
def find (hash : Key → Nat) (table : FastHashBase Key Value) (key : Key) : Option (Option Nat × Option Nat) :=
  findLoop table key (table.fsize + 1) none (table.lookuptable (hash key % table.tsize))

omit [DecidableEq Key] in
/-- This is the inner loop of `ReIndex`. -/
def reIndexChain (table : FastHashBase Key Value) :
    Nat → Option Nat → (Nat → Nat) × Nat → Option ((Nat → Nat) × Nat)
  | 0, _, _ => none
  | _ + 1, none, written => some written
  | fuel + 1, some pNode, (indexlist, index) =>
      reIndexChain table fuel (table.itemnodes pNode).pNext
        (Function.update indexlist index (table.itemnodes pNode).index, index + 1)

def reIndex (table : FastHashBase Key Value) : Option (FastHashBase Key Value) :=
  if table.size = 0 then some table
  else
    ((List.range table.tsize).foldlM
      (fun written t => reIndexChain table (table.fsize + 1) (table.lookuptable t) written)
      (table.indexlist, 0)).map fun written =>
        { table with indexlist := written.1, fIndexValid := true, indexStart := 0 }

/-- The size is still the one before the node is added. -/
def updateIndexWithAdd (table : FastHashBase Key Value) (pNode : Nat) : FastHashBase Key Value :=
  if table.fIndexValid ∧ table.size < table.fsize then
    { table with
      indexlist :=
        Function.update table.indexlist ((table.size + table.indexStart) % table.fsize) (table.itemnodes pNode).index }
  else table

/-- The size is still the one before the node is removed. -/
def updateIndexWithRemove (table : FastHashBase Key Value) (pNode : Nat) : FastHashBase Key Value :=
  if table.size = 0 ∨ (1 < table.size ∧ table.fIndexValid = false) then table
  else if table.size = 1 then { table with fIndexValid := true, indexStart := 0 }
  else if (table.itemnodes pNode).index = table.indexlist table.indexStart then
    { table with indexStart := (table.indexStart + 1) % table.fsize }
  else if (table.itemnodes pNode).index =
      table.indexlist ((table.indexStart + (table.size - 1)) % table.fsize) then table
  else { table with fIndexValid := false }

omit [DecidableEq Key] in
/-- A full table answers with -1. -/
def insert (hash : Key → Nat) (table : FastHashBase Key Value) (key : Key) (value : Value) :
    Int × FastHashBase Key Value :=
  let hashindex := hash key % table.tsize
  match table.freelist with
  | none => (-1, table)
  | some pInsert =>
      let pHead := table.lookuptable hashindex
      let table :=
        { table with
          freelist := (table.itemnodes pInsert).pNext
          nodes := Function.update table.nodes (table.itemnodes pInsert).index (key, value) }
      let table :=
        { table with
          itemnodes := Function.update table.itemnodes pInsert { table.itemnodes pInsert with pNext := pHead }
          lookuptable := Function.update table.lookuptable hashindex (some pInsert) }
      let table := table.updateIndexWithAdd pInsert
      (1, { table with size := table.size + 1 })

/-- A key that is not there answers with -1. -/
def remove (hash : Key → Nat) (table : FastHashBase Key Value) (key : Key) :
    Option (Int × FastHashBase Key Value) :=
  (table.find hash key).map fun
    | (none, _) => (-1, table)
    | (some pNode, pPrev) =>
        let pNext := (table.itemnodes pNode).pNext
        let table :=
          match pPrev with
          | none => { table with lookuptable := Function.update table.lookuptable (hash key % table.tsize) pNext }
          | some prev =>
              { table with itemnodes := Function.update table.itemnodes prev { table.itemnodes prev with pNext := pNext } }
        let table := table.updateIndexWithRemove pNode
        (1,
          { table with
            itemnodes := Function.update table.itemnodes pNode { table.itemnodes pNode with pNext := table.freelist }
            freelist := some pNode
            size := table.size - 1 })

/-- A pointer to a value is the position of its item. -/
def lookup (hash : Key → Nat) (table : FastHashBase Key Value) (key : Key) : Option (Option Nat) :=
  (table.find hash key).map fun found => found.1.map fun pNode => (table.itemnodes pNode).index

omit [DecidableEq Key] in
/-- The value that a pointer leads to. -/
def load (table : FastHashBase Key Value) (pValue : Nat) : Value := (table.nodes pValue).2

omit [DecidableEq Key] in
/-- A caller writes through the pointer that `Lookup` gave. -/
def store (table : FastHashBase Key Value) (pValue : Nat) (value : Value) : FastHashBase Key Value :=
  { table with nodes := Function.update table.nodes pValue ((table.nodes pValue).1, value) }

def exist (hash : Key → Nat) (table : FastHashBase Key Value) (key : Key) : Option Bool :=
  (table.find hash key).map fun found => found.1.isSome

omit [DecidableEq Key] in
/-- An index list that is not valid is built again. -/
def lookupByIndex (table : FastHashBase Key Value) (index : Nat) :
    Option (Option (Key × Value) × FastHashBase Key Value) :=
  if table.size ≤ index then some (none, table)
  else
    (if table.fIndexValid then some table else table.reIndex).map fun table =>
      if table.fIndexValid then
        (some (table.nodes (table.indexlist ((table.indexStart + index) % table.fsize))), table)
      else (none, table)

end FastHashBase

/-- These are the calls of the public functions. A `store` writes through the pointer of a lookup. -/
inductive FastHashCall (Key Value : Type) where
  | insert (key : Key) (value : Value)
  | remove (key : Key)
  | lookup (key : Key)
  | store (key : Key) (value : Value)
  | exist (key : Key)
  | lookupByIndex (index : Nat)
  | size
  | reset

/-- These are the results that a caller sees. -/
inductive FastHashResult (Value : Type) where
  | code (result : Int)
  | value (found : Option Value)
  | flag (found : Bool)
  | size (count : Nat)
  deriving DecidableEq

section

variable {Key Value : Type} [DecidableEq Key]

/-- The item that an index gives depends on the order of the index list, so it is no part of the results. -/
def fastHashStep (hash : Key → Nat) (table : FastHashBase Key Value) :
    FastHashCall Key Value → Option (FastHashBase Key Value × List (FastHashResult Value))
  | .insert key value => some ((table.insert hash key value).2, [.code (table.insert hash key value).1])
  | .remove key => (table.remove hash key).map fun result => (result.2, [.code result.1])
  | .lookup key => (table.lookup hash key).map fun found => (table, [.value (found.map table.load)])
  | .store key value =>
      (table.lookup hash key).map fun
        | none => (table, [.flag false])
        | some pValue => (table.store pValue value, [.flag true])
  | .exist key => (table.exist hash key).map fun found => (table, [.flag found])
  | .lookupByIndex index => (table.lookupByIndex index).map fun result => (result.2, [.flag result.1.isSome])
  | .size => some (table, [.size table.size])
  | .reset => some (table.reset, [])

end

end Nose
