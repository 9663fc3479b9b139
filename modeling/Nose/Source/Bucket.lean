import Nose.Library.CMemory

/-
This file gives the table of nodes from `bucket.c`. The mutex calls are left out.
-/

namespace Nose

open CMemory

/-- These are the status codes of `nose.h`. -/
def ok : Int := 1

def failed : Int := 0

def error : Int := -1

/-- The last byte of an id field terminates it. -/
def terminateId (id : CharArray 21) : CharArray 21 := id.set 20 0

/-- The field `state` is left out because no function reads or writes it. -/
structure BucketItem where
  port : UInt16
  ipv4 : CharArray 16
  nodeId : CharArray 21
  joinTimestap : Int
  vlanIpv4 : CharArray 16
  natType : Int
  deriving DecidableEq, Repr

def maxBucketSize : Int := 255

/-- The entries are the slots from zero to `top`. -/
structure Bucket where
  top : Int
  visited : Int
  b : Nat → BucketItem

/-- A push reads the clock. Past the end of two id fields that agree it reads foreign memory. -/
structure PushContext where
  now : Int
  past : Nat → Bool

def copyItems (b : Nat → BucketItem) : Nat → List BucketItem → Nat → BucketItem
  | _, [] => b
  | i, item :: rest => copyItems (Function.update b i item) (i + 1) rest

/-- A null pointer or too many items give an empty bucket. -/
def initBucket (bkt : Bucket) (initItems : Option (List BucketItem)) : Bucket :=
  let bkt := { bkt with top := -1, visited := 0 }
  match initItems with
  | none => bkt
  | some items =>
      if (items.length : Int) > maxBucketSize then bkt
      else { bkt with top := bkt.top + items.length, b := copyItems bkt.b 0 items }

/-- The number of iterations of a loop over the entries. -/
def Bucket.count (bkt : Bucket) : Nat := (bkt.top + 1).toNat

/-- This is the array after the first iterations of the shifting loop. -/
def shiftDown (b : Nat → BucketItem) : Nat → Nat → BucketItem
  | 0 => b
  | i + 1 => Function.update (shiftDown b i) i (shiftDown b i (i + 1))

def popBackBucket (bkt : Bucket) : Bucket :=
  { bkt with top := bkt.top - 1, b := shiftDown bkt.b bkt.top.toNat }

/-- The loop stops at the first entry with the same id. -/
def hasNodeId (ctx : PushContext) (bkt : Bucket) (item : BucketItem) : Bool :=
  (List.range bkt.count).any fun i => strcmp (ctx.past i) item.nodeId.toList (bkt.b i).nodeId.toList

def pushFrontBucket (ctx : PushContext) (bkt : Bucket) (item : BucketItem) : Bucket :=
  if hasNodeId ctx bkt item then bkt
  else
    let bkt := if bkt.top + 1 = maxBucketSize then popBackBucket bkt else bkt
    let item := { item with joinTimestap := ctx.now }
    { bkt with top := bkt.top + 1, b := Function.update bkt.b (bkt.top + 1).toNat item }

/-- The loop runs down the bucket and up the caller's array. -/
def copyDown (b : Nat → BucketItem) : Nat → Nat → (Nat → BucketItem) → Nat → BucketItem
  | 0, _, items => items
  | i + 1, j, items => copyDown b i (j + 1) (Function.update items j (b i))

def getTopBucketItems (bkt : Bucket) (items : Nat → BucketItem) (size : Int) : Int × (Nat → BucketItem) :=
  (if size > 1 + bkt.top then bkt.top + 1 else size, copyDown bkt.b bkt.count 0 items)

/-- A pointer into the bucket is the index of its slot. -/
def getFrontBucket (bkt : Bucket) : Option Int := if bkt.top = -1 then none else some bkt.top

/-- This is the slot of the oldest entry, also when the bucket is empty. -/
def getBackBucket (_bkt : Bucket) : Int := 0

/-- The remainder by the size of an empty bucket has no value. The second result is the bucket afterwards. -/
def getNextBucketItem (bkt : Bucket) : Option (Int × Bucket) :=
  if bkt.top + 1 = 0 then none
  else
    let visited := bkt.visited.tmod (bkt.top + 1)
    some (visited, { bkt with visited := visited + 1 })

def popFrontBucket (bkt : Bucket) : Bucket := if bkt.top ≥ 0 then { bkt with top := bkt.top - 1 } else bkt

def isEmptyBucket (bkt : Bucket) : Int := if bkt.top = -1 then 1 else 0

def bucketSize (bkt : Bucket) : Int := bkt.top + 1

/-- The search runs from the newest entry down. -/
def searchDown (past : Nat → Bool) (b : Nat → BucketItem) (vlanIpv4 : List UInt8) : Nat → Option BucketItem
  | 0 => none
  | i + 1 =>
      if strcmp (past i) (b i).vlanIpv4.toList vlanIpv4 then some (b i) else searchDown past b vlanIpv4 i

/-- The second result is the caller's item afterwards. -/
def getItemByVlanIpv4 (past : Nat → Bool) (bkt : Bucket) (vlanIpv4 : List UInt8) (item : BucketItem) :
    Int × BucketItem :=
  match searchDown past bkt.b vlanIpv4 bkt.count with
  | some found => (ok, found)
  | none => (failed, item)

end Nose
