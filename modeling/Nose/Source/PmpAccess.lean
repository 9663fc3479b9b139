import Nose.Library.BoundedAccess
import Nose.Source.Pmp

/-
This file gives the decoders of `pmp.c` once more, with a check of each access. The buffer is a list of exactly `size`
bytes. A decoder fails when it reads a byte past the list or writes a byte past a field. A `strncpy` is checked as if it
read its whole count.
-/

namespace Nose.Checked

open CMemory DottedQuad

abbrev access := BoundedAccess.access

def pmpDiscoveryReqUnpack (host : ByteOrder) (port : UInt16) (sourceId targetId : CharArray 21) (buf : List UInt8) :
    Option (Int × UInt16 × CharArray 21 × CharArray 21) :=
  if sizeT buf.length < 44 then some (error, port, sourceId, targetId)
  else do
    let targetId ← BoundedAccess.strncpy targetId (← access buf 4 20) 20
    let sourceId ← BoundedAccess.strncpy sourceId (← access buf 24 20) 20
    let targetId ← BoundedAccess.setChar targetId 20 0
    let sourceId ← BoundedAccess.setChar sourceId 20 0
    let port := load16 host (← access buf 2 2) 0
    return (ok, port, sourceId, targetId)

def discoveryOptionsUnpack (host : ByteOrder) (ctx : Nat → PushContext) (buf : List UInt8) :
    Nat → Nat → BucketItem → Bucket → Option Bucket
  | 0, _, _, b => some b
  | n + 1, offset, item, b => do
      let port := load16 host (← access buf offset 2) 0
      let nodeId ← BoundedAccess.copy item.nodeId (← access buf (offset + 8) 20) 20
      let address := loadAddr (← access buf (offset + 4) 4) 0
      let ipv4 ← BoundedAccess.setString item.ipv4 (inetNtoa address)
      let item := { item with port := port, nodeId := nodeId, ipv4 := ipv4 }
      discoveryOptionsUnpack host ctx buf n (offset + 28) item (pushFrontBucket (ctx n) b item)

def pmpDiscoveryRspUnpack (host : ByteOrder) (ctx : Nat → PushContext) (item : BucketItem) (b : Bucket)
    (buf : List UInt8) : Option (Int × Bucket) :=
  if sizeT buf.length < 44 then some (error, b)
  else do
    let count := (load16 host (← access buf 2 2) 0).toNat
    if sizeT buf.length < count * 28 + 24 then some (error, b)
    else do
      let b ← discoveryOptionsUnpack host ctx buf count 24 item b
      return (ok, b)

def pmpPingReqUnpack (sourceId targetId : CharArray 21) (buf : List UInt8) :
    Option (Int × CharArray 21 × CharArray 21) :=
  if sizeT buf.length < 44 then some (error, sourceId, targetId)
  else do
    let sourceId ← BoundedAccess.strncpy sourceId (← access buf 24 20) 20
    let targetId ← BoundedAccess.strncpy targetId (← access buf 4 20) 20
    let sourceId ← BoundedAccess.setChar sourceId 20 0
    let targetId ← BoundedAccess.setChar targetId 20 0
    return (ok, sourceId, targetId)

def getPeersOptionsUnpack (host : ByteOrder) (ctx : Nat → PushContext) (buf : List UInt8) :
    Nat → Nat → BucketItem → Bucket → Option Bucket
  | 0, _, _, b => some b
  | n + 1, offset, item, b => do
      let port := htons host (load16 host (← access buf (offset + 2) 2) 0)
      let natType := ((← access buf offset 1) 0).toNat
      let nodeId ← BoundedAccess.copy item.nodeId (← access buf (offset + 12) 20) 20
      let address := loadAddr (← access buf (offset + 4) 4) 0
      let ipv4 ← BoundedAccess.setString item.ipv4 (inetNtoa address)
      let address := loadAddr (← access buf (offset + 8) 4) 0
      let vlanIpv4 ← BoundedAccess.setString item.vlanIpv4 (inetNtoa address)
      let item := { item with port := port, natType := natType, nodeId := nodeId, ipv4 := ipv4, vlanIpv4 := vlanIpv4 }
      getPeersOptionsUnpack host ctx buf n (offset + 32) item (pushFrontBucket (ctx n) b item)

def pmpGetPeersRspUnpack (host : ByteOrder) (ctx : Nat → PushContext) (item : BucketItem) (b : Bucket)
    (buf : List UInt8) : Option (Int × Bucket) :=
  if sizeT buf.length < 24 then some (error, b)
  else do
    let count := (htons host (load16 host (← access buf 2 2) 0)).toNat
    if sizeT buf.length < 24 + 32 * count then some (error, b)
    else do
      let b ← getPeersOptionsUnpack host ctx buf count 24 item b
      return (ok, b)

def pmpPeerRegistryReqUnpack (host : ByteOrder) (ctx : PushContext) (item : BucketItem) (peerId : CharArray 21)
    (b : Bucket) (buf : List UInt8) : Option (Int × CharArray 21 × Bucket) :=
  if sizeT buf.length < 56 then some (error, peerId, b)
  else do
    let natType := (htons host (load16 host (← access buf 2 2) 0)).toNat
    let port := htons host (load16 host (← access buf 6 2) 0)
    let address := loadAddr (← access buf 8 4) 0
    let ipv4 ← BoundedAccess.setString item.ipv4 (inetNtoa address)
    let address := loadAddr (← access buf 12 4) 0
    let vlanIpv4 ← BoundedAccess.setString item.vlanIpv4 (inetNtoa address)
    let nodeId ← BoundedAccess.copy item.nodeId (← access buf 36 20) 20
    let nodeId ← BoundedAccess.setChar nodeId 20 0
    let item := { item with natType := natType, port := port, ipv4 := ipv4, vlanIpv4 := vlanIpv4, nodeId := nodeId }
    let peerId ← BoundedAccess.copy peerId nodeId.memory 20
    let peerId ← BoundedAccess.setChar peerId 20 0
    return (ok, peerId, pushFrontBucket ctx b item)

/-- The search leaves the bucket as it is, and the bucket is returned for comparison with the other decoders. -/
def pmpFindPeerReqUnpack (past : Nat → Bool) (peerId mstpId : CharArray 21) (b : Bucket) (item : BucketItem)
    (buf : List UInt8) : Option (Int × CharArray 21 × CharArray 21 × BucketItem × Bucket) :=
  if sizeT buf.length < 48 then some (error, peerId, mstpId, item, b)
  else do
    let address := loadAddr (← access buf 4 4) 0
    let ipv4 ← BoundedAccess.setString (Vector.replicate 16 0 : CharArray 16) (inetNtoa address)
    let peerId ← BoundedAccess.copy peerId (← access buf 28 20) 20
    let mstpId ← BoundedAccess.copy mstpId (← access buf 8 20) 20
    let mstpId ← BoundedAccess.setChar mstpId 20 0
    let peerId ← BoundedAccess.setChar peerId 20 0
    let result := getItemByVlanIpv4 past b ipv4.toList item
    return (result.1, peerId, mstpId, result.2, b)

end Nose.Checked
