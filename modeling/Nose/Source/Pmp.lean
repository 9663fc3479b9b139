import Nose.Library.DottedQuad
import Nose.Source.Bucket

/-
This file gives the packets of the peer manage protocol from `pmp.c` and `pmp.h`. The tests for null
pointers are left out, except for the results of `malloc`.
-/

namespace Nose

open CMemory DottedQuad

/-- These are the packet types of the protocol. -/
def disc : UInt8 := 0

def ping : UInt8 := 1

def gPs : UInt8 := 2

def rP : UInt8 := 3

def fP : UInt8 := 4

/-- These are the packet codes of the protocol. -/
def req : UInt8 := 0

def rsp : UInt8 := 1

/-- This is `struct nat_type`. -/
structure NatType where
  natType : Int
  port : Int
  ipv4 : CharArray 16

/-- A comparison with `sizeof` converts the signed size to `size_t`. -/
def sizeT (size : Int) : Nat := (size % 2 ^ 64).toNat

/-- The memory behind a pointer into a block. -/
def pointer (block : Block) (offset : Nat) : Block := fun i => block (offset + i)

def loadAddr (block : Block) (offset : Nat) : InAddr :=
  ⟨block offset, block (offset + 1), block (offset + 2), block (offset + 3)⟩

def storeAddr (block : Block) (offset : Nat) (address : InAddr) : Block :=
  setByte (setByte (setByte (setByte block offset address.first) (offset + 1) address.second)
    (offset + 2) address.third) (offset + 3) address.fourth

/-- This stores `struct PMP_Header` at the start of a packet. -/
def header (block : Block) (type code : UInt8) : Block := setByte (setByte block 0 type) 1 code

/-- A packet has the old bytes of its allocation where no field is stored. -/
def pmpDiscoveryReqPkt (host : ByteOrder) (malloc : Option Block) (port : UInt16)
    (sourceId targetId : CharArray 21) (buf : Block) : Int × Block :=
  match malloc with
  | none => (error, buf)
  | some dreq =>
      let dreq := store16 host (header dreq disc req) 2 (htons host port)
      let dreq := memcpy dreq 24 sourceId.memory (strlen sourceId.toList)
      let dreq := memcpy dreq 4 targetId.memory (strlen targetId.toList)
      (44, memcpy buf 0 dreq 44)

/-- One scratch option is filled and copied for each item. -/
def discoveryOptions (host : ByteOrder) : Block → Block → Nat → List BucketItem → Block × Nat
  | _, buf, len, [] => (buf, len)
  | opt, buf, len, item :: rest =>
      let opt := store16 host opt 0 (htons host item.port)
      let opt := storeAddr opt 4 (inetAddr (cstr item.ipv4.toList))
      let opt := memcpy opt 8 item.nodeId.memory 20
      discoveryOptions host opt (memcpy buf len opt 28) (len + 28) rest

def pmpDiscoveryRspPkt (host : ByteOrder) (malloc mallocOption : Option Block) (targetId : CharArray 21)
    (items : Nat → BucketItem) (size : Int) (buf : Block) : Int × Block :=
  match malloc, mallocOption with
  | some drsp, some opt =>
      let drsp := store16 host (header drsp disc rsp) 2 (htons host (UInt16.ofInt size))
      let drsp := memcpy drsp 4 targetId.memory (strlen targetId.toList)
      let result := discoveryOptions host opt (memcpy buf 0 drsp 24) 24 ((List.range size.toNat).map items)
      (result.2, result.1)
  | _, _ => (error, buf)

def pmpPingReqPkt (host : ByteOrder) (malloc : Option Block) (sourceId targetId : CharArray 21)
    (buf : Block) : Int × Block :=
  match malloc with
  | none => (error, buf)
  | some preq =>
      let preq := store16 host (header preq ping req) 2 0
      let preq := memcpy preq 24 sourceId.memory 20
      let preq := memcpy preq 4 targetId.memory 20
      (44, memcpy buf 0 preq 44)

/-- The ping and the registry response differ only in their type. -/
def idsRspPkt (type : UInt8) (malloc : Option Block) (sourceId targetId : CharArray 21) (buf : Block) :
    Int × Block :=
  match malloc with
  | none => (error, buf)
  | some prsp =>
      let prsp := memcpy (header prsp type rsp) 24 sourceId.memory 20
      let prsp := memcpy prsp 4 targetId.memory 20
      (44, memcpy buf 0 prsp 44)

def pmpPingRspPkt := idsRspPkt ping

def pmpGetPeersReqPkt (host : ByteOrder) (malloc : Option Block) (sourceId targetId : CharArray 21)
    (buf : Block) : Int × Block :=
  match malloc with
  | none => (error, buf)
  | some gpReq =>
      let gpReq := store16 host (header gpReq gPs req) 2 0
      let gpReq := memcpy gpReq 24 sourceId.memory (strlen sourceId.toList)
      let gpReq := memcpy gpReq 4 targetId.memory (strlen targetId.toList)
      (44, memcpy buf 0 gpReq 44)

def getPeersOptions (host : ByteOrder) : Block → Block → Nat → List BucketItem → Block × Nat
  | _, buf, bufSize, [] => (buf, bufSize)
  | opt, buf, bufSize, item :: rest =>
      let opt := memcpy opt 12 item.nodeId.memory 20
      let opt := storeAddr opt 4 (inetAddr (cstr item.ipv4.toList))
      let opt := storeAddr opt 8 (inetAddr (cstr item.vlanIpv4.toList))
      let opt := setByte opt 0 (UInt8.ofInt item.natType)
      let opt := store16 host opt 2 (htons host item.port)
      getPeersOptions host opt (memcpy buf bufSize opt 32) (bufSize + 32) rest

/-- When the second allocation fails the header has already been copied. -/
def pmpGetPeersRspPkt (host : ByteOrder) (malloc mallocOption : Option Block) (targetId : CharArray 21)
    (items : Nat → BucketItem) (size : Int) (buf : Block) : Int × Block :=
  if size ≤ 0 then (error, buf)
  else
    match malloc with
    | none => (error, buf)
    | some gpRsp =>
        let gpRsp := store16 host (header gpRsp gPs rsp) 2 (htons host (UInt16.ofInt size))
        let gpRsp := memcpy gpRsp 4 targetId.memory (strlen targetId.toList)
        let buf := memcpy buf 0 gpRsp 24
        match mallocOption with
        | none => (error, buf)
        | some opt =>
            let result := getPeersOptions host opt buf 24 ((List.range size.toNat).map items)
            (result.2, result.1)

/-- The registry request and the find response share one layout. -/
def peerPkt (host : ByteOrder) (type code : UInt8) (natType port : UInt16) (ipv4 vlanIpv4 : List UInt8)
    (mstpId peerId : CharArray 21) (pr : Block) : Block :=
  let pr := store16 host (header pr type code) 2 (htons host natType)
  let pr := store16 host pr 6 (htons host port)
  let pr := storeAddr pr 8 (inetAddr ipv4)
  let pr := storeAddr pr 12 (inetAddr vlanIpv4)
  let pr := memcpy pr 16 mstpId.memory 20
  memcpy pr 36 peerId.memory 20

def pmpPeerRegistryReqPkt (host : ByteOrder) (malloc : Option Block) (mstpId peerId : CharArray 21)
    (vlanIpv4 : CharArray 16) (type : NatType) (buf : Block) : Int × Block :=
  match malloc with
  | none => (error, buf)
  | some pr =>
      (56, memcpy buf 0 (peerPkt host rP req (UInt16.ofInt type.natType) (UInt16.ofInt type.port)
        (cstr type.ipv4.toList) (cstr vlanIpv4.toList) mstpId peerId pr) 56)

def pmpPeerRegistryRspPkt := idsRspPkt rP

def pmpFindPeerReqPkt (malloc : Option Block) (peerId mstpId : CharArray 21) (vlanIpv4 : CharArray 16)
    (buf : Block) : Int × Block :=
  match malloc with
  | none => (error, buf)
  | some fpreq =>
      let fpreq := storeAddr (header fpreq fP req) 4 (inetAddr (cstr vlanIpv4.toList))
      let fpreq := memcpy fpreq 8 mstpId.memory 20
      let fpreq := memcpy fpreq 28 peerId.memory 20
      (48, memcpy buf 0 fpreq 48)

def pmpFindPeerRspPkt (host : ByteOrder) (malloc : Option Block) (mstpId peerId : CharArray 21)
    (item : BucketItem) (buf : Block) : Int × Block :=
  match malloc with
  | none => (error, buf)
  | some fprsp =>
      (56, memcpy buf 0 (peerPkt host fP rsp (UInt16.ofInt item.natType) item.port
        (cstr item.ipv4.toList) (cstr item.vlanIpv4.toList) mstpId peerId fprsp) 56)

/-- An id is copied up to its terminator and is always terminated afterwards. -/
def copyId (target : CharArray 21) (src : Block) : CharArray 21 := terminateId (target.strncpy src 20)

/-- The port is taken from the packet without a conversion. -/
def pmpDiscoveryReqUnpack (host : ByteOrder) (port : UInt16) (sourceId targetId : CharArray 21)
    (buf : Block) (size : Int) : Int × UInt16 × CharArray 21 × CharArray 21 :=
  if sizeT size < 44 then (error, port, sourceId, targetId)
  else (ok, load16 host buf 2, copyId sourceId (pointer buf 24), copyId targetId (pointer buf 4))

/-- The local item keeps its old bytes where the packet gives none, after the id in particular. -/
def discoveryItem (host : ByteOrder) (item : BucketItem) (opt : Block) : BucketItem :=
  { item with
    port := load16 host opt 0
    nodeId := item.nodeId.copy (pointer opt 8) 20
    ipv4 := item.ipv4.setString (inetNtoa (loadAddr opt 4)) }

def discoveryOptionsUnpack (host : ByteOrder) (ctx : Nat → PushContext) (buf : Block) :
    Nat → Nat → BucketItem → Bucket → Bucket
  | 0, _, _, b => b
  | n + 1, offset, item, b =>
      let item := discoveryItem host item (pointer buf offset)
      discoveryOptionsUnpack host ctx buf n (offset + 28) item (pushFrontBucket (ctx n) b item)

def pmpDiscoveryRspUnpack (host : ByteOrder) (ctx : Nat → PushContext) (item : BucketItem) (b : Bucket)
    (buf : Block) (size : Int) : Int × Bucket :=
  if sizeT size < 44 then (error, b)
  else
    let count := (load16 host buf 2).toNat
    if sizeT size < count * 28 + 24 then (error, b)
    else (ok, discoveryOptionsUnpack host ctx buf count 24 item b)

def pmpPingReqUnpack (sourceId targetId : CharArray 21) (buf : Block) (size : Int) :
    Int × CharArray 21 × CharArray 21 :=
  if sizeT size < 44 then (error, sourceId, targetId)
  else (ok, copyId sourceId (pointer buf 24), copyId targetId (pointer buf 4))

def pmpGetPeersReqUnpack := pmpPingReqUnpack

def getPeersItem (host : ByteOrder) (item : BucketItem) (opt : Block) : BucketItem :=
  { item with
    port := htons host (load16 host opt 2)
    natType := (opt 0).toNat
    nodeId := item.nodeId.copy (pointer opt 12) 20
    ipv4 := item.ipv4.setString (inetNtoa (loadAddr opt 4))
    vlanIpv4 := item.vlanIpv4.setString (inetNtoa (loadAddr opt 8)) }

def getPeersOptionsUnpack (host : ByteOrder) (ctx : Nat → PushContext) (buf : Block) :
    Nat → Nat → BucketItem → Bucket → Bucket
  | 0, _, _, b => b
  | n + 1, offset, item, b =>
      let item := getPeersItem host item (pointer buf offset)
      getPeersOptionsUnpack host ctx buf n (offset + 32) item (pushFrontBucket (ctx n) b item)

def pmpGetPeersRspUnpack (host : ByteOrder) (ctx : Nat → PushContext) (item : BucketItem) (b : Bucket)
    (buf : Block) (size : Int) : Int × Bucket :=
  if sizeT size < 24 then (error, b)
  else
    let count := (htons host (load16 host buf 2)).toNat
    if sizeT size < 24 + 32 * count then (error, b)
    else (ok, getPeersOptionsUnpack host ctx buf count 24 item b)

def registryItem (host : ByteOrder) (item : BucketItem) (pr : Block) : BucketItem :=
  { item with
    natType := (htons host (load16 host pr 2)).toNat
    port := htons host (load16 host pr 6)
    ipv4 := item.ipv4.setString (inetNtoa (loadAddr pr 8))
    vlanIpv4 := item.vlanIpv4.setString (inetNtoa (loadAddr pr 12))
    nodeId := terminateId (item.nodeId.copy (pointer pr 36) 20) }

def pmpPeerRegistryReqUnpack (host : ByteOrder) (ctx : PushContext) (item : BucketItem)
    (peerId : CharArray 21) (b : Bucket) (buf : Block) (size : Int) : Int × CharArray 21 × Bucket :=
  if sizeT size < 56 then (error, peerId, b)
  else
    let item := registryItem host item buf
    (ok, terminateId (peerId.copy item.nodeId.memory 20), pushFrontBucket ctx b item)

def pmpFindPeerRspUnpack := pmpPeerRegistryReqUnpack

def pmpFindPeerReqUnpack (past : Nat → Bool) (peerId mstpId : CharArray 21) (b : Bucket) (item : BucketItem)
    (buf : Block) (size : Int) : Int × CharArray 21 × CharArray 21 × BucketItem :=
  if sizeT size < 48 then (error, peerId, mstpId, item)
  else
    let ipv4 := CharArray.setString (Vector.replicate 16 0) (inetNtoa (loadAddr buf 4))
    let result := getItemByVlanIpv4 past b ipv4.toList item
    (result.1, terminateId (peerId.copy (pointer buf 28) 20), terminateId (mstpId.copy (pointer buf 8) 20), result.2)

end Nose
