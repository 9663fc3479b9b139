import Nose.Library.LoggedRun
import Nose.Source.Peer

/-
This file gives the process of a peer: its event loop, which runs one callback after the other, and its
tun readers, which run beside the loop.
-/

namespace Nose

open CMemory DottedQuad

/-- A process has the state of the peer and the number of live threads in `recvTunDeviceThread`. -/
structure Process where
  pr : Peer
  readers : Nat

def Peer.pending (pr : Peer) : Timer → Bool
  | .fpEvent => pr.fpEvent
  | .helloEvent => pr.helloEvent
  | .hbEvent => pr.hbEvent

/-- An expired timer is not pending when its callback runs. -/
def Peer.expired (pr : Peer) : Timer → Peer
  | .fpEvent => { pr with fpEvent := false }
  | .helloEvent => { pr with helloEvent := false }
  | .hbEvent => { pr with hbEvent := false }

def Timer.callback (host : ByteOrder) (outcomes : Outcomes) (pr : Peer) : Timer → Peer × List Call
  | .fpEvent => findRemotePeer host outcomes pr
  | .helloEvent => udpHolingHello host outcomes pr
  | .hbEvent => peerHeartbeat host outcomes pr

/-- A timer expires, a datagram arrives, or a reader gets a packet. -/
inductive PeerInput where
  | expire (timer : Timer) (outcomes : Outcomes)
  | arrive (srcAddr : SockAddr) (datagram : List UInt8) (outcomes : Outcomes)
  | read (packet : List UInt8) (outcomes : Outcomes)

/-- This is the address `0.0.0.0:0`. -/
def noAddress : SockAddr := ⟨⟨0, 0, 0, 0⟩, 0⟩

/-- A thread becomes live by a successful `pthread_create`. -/
def started (calls : List Call) : Nat := calls.count (.pthreadCreate 0)

/-- Only pending timers expire, no datagram comes from the address `0.0.0.0:0`, and only live readers read. -/
def peerStep (host : ByteOrder) (lib : Libraries) (process : Process) : PeerInput → Option (Process × List Call)
  | .expire timer outcomes =>
      if process.pr.pending timer then
        let result := timer.callback host outcomes (process.pr.expired timer)
        some (⟨result.1, process.readers + started result.2⟩, result.2)
      else none
  | .arrive srcAddr datagram outcomes =>
      if srcAddr = noAddress then none
      else
        let result := process.pr.udpRecvCb host lib outcomes srcAddr datagram
        some (⟨result.1, process.readers + started result.2⟩, result.2)
  | .read packet outcomes =>
      if process.readers = 0 then none
      else
        let result := recvTunDeviceThread host lib outcomes process.pr packet
        some ({ process with readers := if result.1 then process.readers else process.readers - 1 }, result.2)

/-- The process has cleared its memory and its static variables before it fills in its configuration. -/
structure Peer.Cleared (pr : Peer) : Prop where
  remotePeerAddr : pr.remotePeerAddr = noAddress
  tunFd : pr.tunFd = 0
  fpEvent : pr.fpEvent = false
  helloEvent : pr.helloEvent = false
  hbEvent : pr.hbEvent = false

/-- The process enters its event loop. -/
def startProcess (handler : Peer) : Process := ⟨peerLoop (initPeer handler), 0⟩

end Nose
