import Nose.Source.Udp

/-
This file gives the timer callbacks from `master_peer.c` with their sockets. The callbacks are armed again when they
return. A callback has no master peer as its result when it stops the program or overruns its local buffer, after which
nothing is known about the memory.
-/

namespace Nose

open CMemory DottedQuad

/-- These are the messages that `ping_peer` prints about the answer. -/
inductive Report where
  | alive (nodeId : List UInt8)
  | invalid
  | malformed
  | dead (nodeId : List UInt8)
  deriving DecidableEq, Repr

def pmpPingRspUnpack := pmpPingReqUnpack

/-- The callbacks send their request to an entry and receive with the same handler, whatever the send returned. The
results are those of the receive, with the buffer after it. -/
def exchange (host : ByteOrder) (net : UdpOutcomes) (item : BucketItem) (built : Int × Block) :
    Int × Block × List UdpCall :=
  let sent := sendUdpPkt host net net.handler item.ipv4 item.port.toNat built.2 built.1
  let received := recvUdpPkt net sent.2.1 built.2
  (received.1, received.2.2.1, sent.2.2 ++ received.2.2.2)

def MasterPeer.pingPeer (host : ByteOrder) (around : Surroundings) (net : UdpOutcomes) (mstp : MasterPeer) :
    Option (MasterPeer × Report) × List UdpCall :=
  match getNextBucketItem mstp.masterPeerBkt with
  | none => (none, [])
  | some (slot, bkt) =>
      let mstp := { mstp with masterPeerBkt := bkt }
      let item := bkt.b slot.toNat
      let answer := exchange host net item (pmpPingReqPkt host around.malloc mstp.nodeId item.nodeId net.buf)
      let report :=
        if answer.1 > 0 then
          let unpacked := pmpPingRspUnpack around.sourceId around.targetId answer.2.1 answer.1
          if unpacked.1 = ok then
            if strcmp ((around.push 0).past 0) unpacked.2.1.toList item.nodeId.toList ∧
                strcmp ((around.push 0).past 1) unpacked.2.2.toList mstp.nodeId.toList then
              .alive (cstr unpacked.2.1.toList)
            else .invalid
          else .malformed
        else .dead (cstr item.nodeId.toList)
      (some (mstp, report), answer.2.2)

/-- The buffer of this callback has 1024 bytes, and it reads the front entry of an empty bucket. -/
def MasterPeer.discoveryProc (host : ByteOrder) (around : Surroundings) (net : UdpOutcomes) (mstp : MasterPeer) :
    Option MasterPeer × List UdpCall :=
  match getFrontBucket mstp.masterPeerBkt with
  | none => (none, [])
  | some slot =>
      let item := mstp.masterPeerBkt.b slot.toNat
      let answer := exchange host net item
        (pmpDiscoveryReqPkt host around.malloc item.port mstp.nodeId item.nodeId net.buf)
      (if answer.1 > 1024 then none else some (Nose.discoveryProc host around mstp answer.2.1 answer.1), answer.2.2)

def MasterPeer.getPeers (host : ByteOrder) (around : Surroundings) (net : UdpOutcomes) (mstp : MasterPeer) :
    Option MasterPeer × List UdpCall :=
  match getFrontBucket mstp.masterPeerBkt with
  | none => (some mstp, [])
  | some slot =>
      let item := mstp.masterPeerBkt.b slot.toNat
      let answer := exchange host net item (pmpGetPeersReqPkt host around.malloc mstp.nodeId item.nodeId net.buf)
      (some (Nose.getPeers host around mstp answer.2.1 answer.1), answer.2.2)

/-- These are the timers of the master. -/
inductive MasterTimer where
  | pingEvent
  | discoveryEvent
  | getPeersEvent
  deriving DecidableEq, Repr

/-- A timer expires and its callback finds what it does not determine itself. -/
structure Expiry where
  timer : MasterTimer
  around : Surroundings
  net : UdpOutcomes

def MasterPeer.expire (host : ByteOrder) (mstp : MasterPeer) (expiry : Expiry) : Option MasterPeer × List UdpCall :=
  match expiry.timer with
  | .pingEvent =>
      let result := mstp.pingPeer host expiry.around expiry.net
      (result.1.map Prod.fst, result.2)
  | .discoveryEvent => mstp.discoveryProc host expiry.around expiry.net
  | .getPeersEvent => mstp.getPeers host expiry.around expiry.net

/-- The program goes on as long as its memory is known. -/
def expireStep (host : ByteOrder) (state : Option MasterPeer) (expiry : Expiry) :
    Option (Option MasterPeer × List UdpCall) :=
  state.map fun mstp => mstp.expire host expiry

end Nose
