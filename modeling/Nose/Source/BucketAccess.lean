import Nose.Source.Bucket

/-
This file gives the functions of `bucket.c` that touch an array once more, with a check of each access. The array of a
bucket has 255 slots, and the array of a caller is a list of its items. A function fails when it leaves an array.
-/

namespace Nose.CheckedBucket

open CMemory

def slot (b : Nat → BucketItem) (i : Int) : Option BucketItem :=
  if 0 ≤ i ∧ i < maxBucketSize then some (b i.toNat) else none

def setSlot (b : Nat → BucketItem) (i : Int) (item : BucketItem) : Option (Nat → BucketItem) :=
  if 0 ≤ i ∧ i < maxBucketSize then some (Function.update b i.toNat item) else none

/-- The loop copies an item and then counts it. -/
def copyItems (bkt : Bucket) : Int → List BucketItem → Option Bucket
  | _, [] => some bkt
  | i, item :: rest => do
      let b ← setSlot bkt.b i item
      copyItems { bkt with top := bkt.top + 1, b := b } (i + 1) rest

def initBucket (bkt : Bucket) (initItems : Option (List BucketItem)) : Option Bucket :=
  let bkt := { bkt with top := -1, visited := 0 }
  match initItems with
  | none => some bkt
  | some items => if (items.length : Int) > maxBucketSize then some bkt else copyItems bkt 0 items

/-- The loop runs up from the slot `i` for the given number of iterations. -/
def hasNodeId (ctx : PushContext) (bkt : Bucket) (item : BucketItem) : Nat → Nat → Option Bool
  | 0, _ => some false
  | n + 1, i => do
      let entry ← slot bkt.b i
      if strcmp (ctx.past i) item.nodeId.toList entry.nodeId.toList then return true
      else hasNodeId ctx bkt item n (i + 1)

def shiftDown : Nat → Int → (Nat → BucketItem) → Option (Nat → BucketItem)
  | 0, _, b => some b
  | n + 1, i, b => do
      let entry ← slot b i
      let b ← setSlot b (i - 1) entry
      shiftDown n (i + 1) b

def popBackBucket (bkt : Bucket) : Option Bucket := do
  let b ← shiftDown bkt.top.toNat 1 bkt.b
  return { bkt with top := bkt.top - 1, b := b }

def pushFrontBucket (ctx : PushContext) (bkt : Bucket) (item : BucketItem) : Option Bucket := do
  if ← hasNodeId ctx bkt item bkt.count 0 then return bkt
  else
    let bkt ← if bkt.top + 1 = maxBucketSize then popBackBucket bkt else some bkt
    let item := { item with joinTimestap := ctx.now }
    let b ← setSlot bkt.b (bkt.top + 1) item
    return { bkt with top := bkt.top + 1, b := b }

def searchDown (past : Nat → Bool) (b : Nat → BucketItem) (vlanIpv4 : List UInt8) : Nat → Option (Option BucketItem)
  | 0 => some none
  | i + 1 => do
      let entry ← slot b i
      if strcmp (past i) entry.vlanIpv4.toList vlanIpv4 then return some entry
      else searchDown past b vlanIpv4 i

def getItemByVlanIpv4 (past : Nat → Bool) (bkt : Bucket) (vlanIpv4 : List UInt8) (item : BucketItem) :
    Option (Int × BucketItem) := do
  match ← searchDown past bkt.b vlanIpv4 bkt.count with
  | some found => return (ok, found)
  | none => return (failed, item)

/-- This is the memory of a call that copies entries to its caller. -/
structure TopItems where
  bkt : Bucket
  items : List BucketItem

/-- A write fails outside of the caller's array. -/
def TopItems.store (memory : TopItems) (j : Nat) (item : BucketItem) : Option TopItems :=
  if j < memory.items.length then some { memory with items := memory.items.set j item } else none

/-- The loop runs down the bucket and up the caller's array. -/
def copyDown : Nat → Nat → TopItems → Option TopItems
  | 0, _, memory => some memory
  | i + 1, j, memory => do
      let memory ← memory.store j (memory.bkt.b i)
      copyDown i (j + 1) memory

/-- The second result is the memory afterwards. -/
def getTopBucketItems (memory : TopItems) (size : Int) : Option (Int × TopItems) := do
  let rSize := if size > 1 + memory.bkt.top then memory.bkt.top + 1 else size
  let memory ← copyDown memory.bkt.count 0 memory
  return (rSize, memory)

end Nose.CheckedBucket
