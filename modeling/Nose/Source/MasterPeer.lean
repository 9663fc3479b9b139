import Nose.Source.Pmp

/-
This file gives the master peer from `master_peer.c`. Printed messages are left out.
-/

namespace Nose

open CMemory

/-- This is `struct master_peer`. -/
structure MasterPeer where
  masterPeerBkt : Bucket
  peerBkt : Bucket
  ipv4 : CharArray 16
  port : Int
  nodeId : CharArray 21

/-- A callback finds the results of `malloc`, its local variables and the context of each push. -/
structure Surroundings where
  malloc : Option Block
  mallocOption : Option Block
  sourceId : CharArray 21
  targetId : CharArray 21
  port : UInt16
  item : BucketItem
  items : Nat → BucketItem
  push : Nat → PushContext

/-- The last part of the callback sends the buffer when a response was built. -/
def respond (mstp : MasterPeer) (wlen : Int) (b : Block) : MasterPeer × Option (List UInt8) :=
  if wlen > 0 then (mstp, some (bytesOf b wlen.toNat)) else (mstp, none)

/-- The buffer `b` holds the received datagram over older bytes, and `rlen` is the result of
`recvfrom`, which the callback uses even when it is negative. -/
def udpRecvCb (host : ByteOrder) (around : Surroundings) (mstp : MasterPeer) (b : Block) (rlen : Int) :
    MasterPeer × Option (List UInt8) :=
  if sizeT rlen > 2 then
    if b 1 = req then
      if b 0 = ping then
        let result := pmpPingReqUnpack around.sourceId around.targetId b rlen
        if result.1 = error then (mstp, none)
        else
          let built := pmpPingRspPkt around.malloc result.2.2 result.2.1 b
          respond mstp built.1 built.2
      else if b 0 = disc then
        let result := pmpDiscoveryReqUnpack host around.port around.sourceId around.targetId b rlen
        if result.1 = error then (mstp, none)
        else
          let top := getTopBucketItems mstp.masterPeerBkt around.items 10
          let built := pmpDiscoveryRspPkt host around.malloc around.mallocOption mstp.nodeId top.2 top.1 b
          respond mstp built.1 built.2
      else if b 0 = gPs then
        let result := pmpGetPeersReqUnpack around.sourceId around.targetId b rlen
        if result.1 = error then (mstp, none)
        else
          let top := getTopBucketItems mstp.peerBkt around.items 10
          let built := pmpGetPeersRspPkt host around.malloc around.mallocOption result.2.1 top.2 top.1 b
          respond mstp built.1 built.2
      else if b 0 = rP then
        let result := pmpPeerRegistryReqUnpack host (around.push 0) around.item around.sourceId mstp.peerBkt b rlen
        if result.1 = error then (mstp, none)
        else
          let built := pmpPeerRegistryRspPkt around.malloc mstp.nodeId result.2.1 b
          respond { mstp with peerBkt := result.2.2 } built.1 built.2
      else if b 0 = fP then
        let result := pmpFindPeerReqUnpack (around.push 0).past around.sourceId around.targetId mstp.peerBkt
          around.item b rlen
        if result.1 = error ∨ result.1 = failed then (mstp, none)
        else
          let built := pmpFindPeerRspPkt host around.malloc mstp.nodeId result.2.1 result.2.2.2 b
          respond mstp built.1 built.2
      else respond mstp 0 b
    else respond mstp 0 b
  else (mstp, none)

def bufsiz : Nat := 8192

/-- The callback runs on a datagram that the network delivers over the old bytes of its buffer. -/
def receive (host : ByteOrder) (around : Surroundings) (stale : Block) (mstp : MasterPeer)
    (datagram : List UInt8) : MasterPeer × Option (List UInt8) :=
  let received := datagram.take bufsiz
  udpRecvCb host around mstp (block received stale) received.length

/-- This is the part of `discovery_proc` after its receive. -/
def discoveryProc (host : ByteOrder) (around : Surroundings) (mstp : MasterPeer) (buf : Block) (len : Int) :
    MasterPeer :=
  if len > 0 then
    { mstp with masterPeerBkt := (pmpDiscoveryRspUnpack host around.push around.item mstp.masterPeerBkt buf len).2 }
  else mstp

/-- This is the part of `get_peers` after its receive. -/
def getPeers (host : ByteOrder) (around : Surroundings) (mstp : MasterPeer) (buf : Block) (len : Int) :
    MasterPeer :=
  if len > 0 then
    { mstp with peerBkt := (pmpGetPeersRspUnpack host around.push around.item mstp.peerBkt buf len).2 }
  else mstp

def pushItems (ctx : Nat → PushContext) : Bucket → List BucketItem → Bucket
  | b, [] => b
  | b, item :: rest => pushItems ctx (pushFrontBucket (ctx rest.length) b item) rest

/-- The items are copied into the bucket and then pushed once more. -/
def initMasterPeer (ctx : Nat → PushContext) (mstp : MasterPeer) (ipv4 : CharArray 16) (port : Int)
    (items : List BucketItem) : MasterPeer :=
  let masterPeerBkt := pushItems ctx (initBucket mstp.masterPeerBkt (some items)) items
  { mstp with
    masterPeerBkt := masterPeerBkt
    peerBkt := initBucket mstp.peerBkt none
    ipv4 := mstp.ipv4.strncpy ipv4.memory (strlen ipv4.toList)
    port := port }

end Nose
