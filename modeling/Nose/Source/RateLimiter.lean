import Nose.Source.FastHash
import Nose.Source.SocketAddress

/-
This file gives the rate limiter of `ratelimiter.cpp`. The time of a check is given with it and is not negative, and the
lock is free when it is taken.
-/

namespace Nose

open CMemory

/-- This is the number that consecutive bytes of memory hold. -/
def numberOf (host : ByteOrder) (bytes : List UInt8) : Nat :=
  match host with
  | .little => bytes.foldr (fun byte value => byte.toNat + 256 * value) 0
  | .big => bytes.foldl (fun value byte => 256 * value + byte.toNat) 0

/-- This is `RateTrackerAddress`, with the sixteen bytes of its two words. -/
abbrev RateTrackerAddress := List UInt8

/-- `GetIP` overwrites the first of the cleared bytes. -/
def rateTrackerAddress (host : ByteOrder) (addr : CSocketAddress) : RateTrackerAddress :=
  addr.getIP host ++ List.replicate (16 - (addr.getIP host).length) 0

/-- This is `FastHash_Hash` of an address, where `size_t` has eight bytes. -/
def rateTrackerHash (host : ByteOrder) (addr : RateTrackerAddress) : Nat :=
  numberOf host (addr.take 8) ^^^ numberOf host ((addr.drop 8).take 8)

structure RateTracker where
  count : Nat
  firstEntryTime : Nat
  lastEntryTime : Nat
  penaltyTime : Nat
  deriving DecidableEq, Repr

namespace RateLimiter

def maxRate : Nat := 3600

def minCountForConsideration : Nat := 60

def resetIntervalSeconds : Nat := 120

def penaltyTimeSeconds : Nat := 3600

/-- The product is one of 64 bits. -/
def getRate (pRT : RateTracker) : Nat :=
  if pRT.count < minCountForConsideration then 0
  else
    let seconds := if pRT.firstEntryTime < pRT.lastEntryTime then pRT.lastEntryTime - pRT.firstEntryTime else 1
    pRT.count * 3600 % 2 ^ 64 / seconds

abbrev Table := FastHashBase RateTrackerAddress RateTracker

/-- The constructor gives the table half as many buckets as entries. A table for fewer than two entries would get no
bucket this way. `InitTable` looks for a prime number of buckets then, and this case is left out. -/
def create (tablesize : Nat) (nodelist : Nat → RateTrackerAddress × RateTracker) (itemnodelist : Nat → ItemNode)
    (lookuptable : Nat → Option Nat) (indexlist : Nat → Nat) : Table :=
  FastHashBase.init tablesize (tablesize / 2) nodelist itemnodelist lookuptable indexlist

/-- These are the dump of a full table and the answer to a check. -/
inductive Event where
  | dump
  | answer (addr : RateTrackerAddress) (time : Nat) (allowed : Bool)
  deriving DecidableEq

/-- This is `RateCheckImpl`. -/
def rateCheckImpl (host : ByteOrder) (table : Table) (addr : CSocketAddress) (currentTime : Nat) :
    Option (Bool × Table × List Event) :=
  let rtaddr := rateTrackerAddress host addr
  (table.lookup (rateTrackerHash host) rtaddr).bind fun
    | none =>
        let rt : RateTracker := ⟨1, currentTime, currentTime, 0⟩
        let result := table.insert (rateTrackerHash host) rtaddr rt
        if result.1 = -1 then
          some (true, (result.2.reset.insert (rateTrackerHash host) rtaddr rt).2, [.dump])
        else some (true, result.2, [])
    | some pRT =>
        let rt := table.load pRT
        let rt := { rt with count := (rt.count + 1) % 2 ^ 64, lastEntryTime := currentTime }
        let rate := getRate rt
        if rt.penaltyTime ≠ 0 then
          if currentTime ≤ rt.penaltyTime then some (false, table.store pRT rt, [])
          else if rate < maxRate then some (true, table.store pRT { rt with penaltyTime := 0 }, [])
          else some (false, table.store pRT { rt with penaltyTime := currentTime + penaltyTimeSeconds }, [])
        else if maxRate ≤ rate then
          some (false, table.store pRT { rt with penaltyTime := currentTime + penaltyTimeSeconds }, [])
        else if resetIntervalSeconds < rt.lastEntryTime - rt.firstEntryTime then
          ((table.store pRT rt).remove (rateTrackerHash host) rtaddr).map fun removed => (true, removed.2, [])
        else some (true, table.store pRT rt, [])

/-- A check comes with its address and the time. -/
def rateCheck (host : ByteOrder) (table : Table) (request : CSocketAddress × Nat) : Option (Table × List Event) :=
  (rateCheckImpl host table request.1 request.2).map fun result =>
    (result.2.1, result.2.2 ++ [.answer (rateTrackerAddress host request.1) request.2 result.1])

end RateLimiter

end Nose
