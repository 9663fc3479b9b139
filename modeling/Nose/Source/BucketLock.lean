import Nose.Library.ThreadLock
import Nose.Source.Bucket

/-
This file gives the functions of `bucket.c` once more, with their calls of the mutex. What a function does between two
calls is taken from the functions without them.
-/

namespace Nose.Locked

open CMemory ThreadLock

/-- The mutex is initialised only when there are items. -/
def initBucket (bkt : Bucket) (initItems : Option (List BucketItem)) : Locked Bucket :=
  match initItems with
  | none => return Nose.initBucket bkt none
  | some items => do
      mutexInit
      return Nose.initBucket bkt (some items)

/-- The last call locks the mutex again. -/
def popBackBucket (bkt : Bucket) : Locked Bucket := do
  mutexLock
  let bkt := Nose.popBackBucket bkt
  mutexLock
  return bkt

/-- The oldest entry of a full bucket is dropped while the mutex is locked. -/
def pushFrontBucket (ctx : PushContext) (bkt : Bucket) (item : BucketItem) : Locked Bucket := do
  mutexLock
  if hasNodeId ctx bkt item then
    mutexUnlock
    return bkt
  else
    let bkt ← if bkt.top + 1 = maxBucketSize then popBackBucket bkt else pure bkt
    let item := { item with joinTimestap := ctx.now }
    let bkt := { bkt with top := bkt.top + 1, b := Function.update bkt.b (bkt.top + 1).toNat item }
    mutexUnlock
    return bkt

def getTopBucketItems (bkt : Bucket) (items : Option (Nat → BucketItem)) (size : Int) :
    Locked (Int × Option (Nat → BucketItem)) :=
  match items with
  | none => return (0, none)
  | some items => do
      mutexLock
      let result := Nose.getTopBucketItems bkt items size
      mutexUnlock
      return (result.1, some result.2)

def getFrontBucket (bkt : Bucket) : Locked (Option Int) := critical (Nose.getFrontBucket bkt)

def getBackBucket (bkt : Bucket) : Locked Int := critical (Nose.getBackBucket bkt)

/-- The program stops at a division by zero. -/
def getNextBucketItem (bkt : Bucket) : Locked (Int × Bucket) := do
  mutexLock
  match Nose.getNextBucketItem bkt with
  | none => crash
  | some result =>
      mutexUnlock
      return result

def popFrontBucket (bkt : Bucket) : Locked Bucket := critical (Nose.popFrontBucket bkt)

def isEmptyBucket (bkt : Bucket) : Locked Int := critical (Nose.isEmptyBucket bkt)

def bucketSize (bkt : Bucket) : Locked Int := critical (Nose.bucketSize bkt)

/-- The mutex is unlocked on both ways out of the search. -/
def getItemByVlanIpv4 (past : Nat → Bool) (bkt : Bucket) (vlanIpv4 : Option (List UInt8)) (item : Option BucketItem) :
    Locked (Int × Option BucketItem) :=
  match vlanIpv4, item with
  | some vlanIpv4, some item => do
      mutexLock
      match searchDown past bkt.b vlanIpv4 bkt.count with
      | some found =>
          mutexUnlock
          return (ok, some found)
      | none =>
          mutexUnlock
          return (failed, some item)
  | _, _ => return (error, item)

end Nose.Locked
