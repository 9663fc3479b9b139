import Nose.Source.Crypt
import Nose.Source.MasterPeer
import Nose.Source.Pcp

/-
This file gives the callbacks and the tun reader of a peer from `peer.c`. Printed messages are left out.
-/

namespace Nose

open CMemory DottedQuad

/-- This is the part of `struct sockaddr_in` that the callbacks use. -/
structure SockAddr where
  sinAddr : InAddr
  sinPort : UInt16
  deriving DecidableEq, Repr

/-- These are the timers of the event loop. -/
inductive Timer where
  | fpEvent
  | helloEvent
  | hbEvent
  deriving DecidableEq, Repr

/-- This is `struct peer` with the static variables of its file. A timer is true while it is pending. -/
structure Peer where
  peerId : CharArray 21
  mstpId : CharArray 21
  vlanRemoteIpv4 : CharArray 16
  remotePeerAddr : SockAddr
  peer : Bucket
  helloed : Int
  key : CharArray 34
  synCounts : Int
  tunFd : Int
  fpEvent : Bool
  helloEvent : Bool
  hbEvent : Bool

/-- A callback finds the results of the calls that it makes and the old contents of its local variables. -/
structure Outcomes where
  malloc : Option Block
  sendUdpPkt : Int
  recvUdpPkt : Int
  answer : Block
  item : BucketItem
  push : PushContext
  recvfrom : Int
  sendto : Int
  utunOpen : Int
  pthreadCreate : Int
  stack : Block
  plaintext : Block
  buf : Block
  bbuf : Block

/-- These are the effects of a callback: the address that a find sets, its calls, and its uses of the
received bytes and of the local buffers. -/
inductive Call where
  | found (address : SockAddr)
  | eventAssign (timer : Timer) (pending : Bool)
  | sendUdpPkt (datagram : List UInt8)
  | sendto (datagram : List UInt8)
  | utunOpen (fd : Int)
  | utunClose (fd : Int)
  | utunWrite (fd : Int) (bytes : List UInt8)
  | pthreadCreate (result : Int)
  | content (offset count : Nat)
  | copied (count : Nat)
  | uncompress (capacity : Nat)
  | decrypted (count : Nat)
  deriving DecidableEq, Repr

/-- The timer is armed again after a failure. -/
def findRemotePeer (host : ByteOrder) (outcomes : Outcomes) (pr : Peer) : Peer × List Call :=
  let next (pr : Peer) : Peer := { pr with fpEvent := true }
  let built := pmpFindPeerReqPkt outcomes.malloc pr.peerId pr.mstpId pr.vlanRemoteIpv4 outcomes.stack
  if built.1 < 0 then (next pr, [])
  else
    let sent := [Call.sendUdpPkt (bytesOf built.2 built.1.toNat)]
    if outcomes.sendUdpPkt < 0 then (next pr, sent)
    else if outcomes.recvUdpPkt < 0 then (next pr, sent)
    else
      let unpacked := pmpFindPeerRspUnpack host outcomes.push outcomes.item (Vector.replicate 21 0) pr.peer
        outcomes.answer outcomes.recvUdpPkt
      let pr := { pr with peer := unpacked.2.2 }
      if unpacked.1 ≠ ok then (next pr, sent)
      else
        match getFrontBucket pr.peer with
        | none => (next pr, sent)
        | some slot =>
            let remoteItem := pr.peer.b slot.toNat
            let address : SockAddr := ⟨inetAddr (cstr remoteItem.ipv4.toList), htons host remoteItem.port⟩
            ({ pr with remotePeerAddr := address, helloEvent := true },
              sent ++ [.found address, .eventAssign .helloEvent pr.helloEvent])

def sendtoRemotePeer (outcomes : Outcomes) (buf : Block) (size : Int) : Int × List Call :=
  if size ≤ 0 then (error, [])
  else if outcomes.sendto < 0 then (error, [])
  else (ok, [.sendto (bytesOf buf size.toNat)])

def udpHolingHello (host : ByteOrder) (outcomes : Outcomes) (pr : Peer) : Peer × List Call :=
  if pr.helloed ≠ 0 then (pr, [])
  else
    let next : Peer := { pr with helloEvent := true }
    let built := pcpHelloSyn host outcomes.malloc outcomes.stack
    if built.1 = error then (next, [])
    else if outcomes.sendto < 0 then (next, [])
    else (next, [.sendto (bytesOf built.2 built.1.toNat)])

/-- Without acknowledgements the peer closes its tun device and starts over. -/
def peerHeartbeat (host : ByteOrder) (outcomes : Outcomes) (pr : Peer) : Peer × List Call :=
  if pr.synCounts = 0 then
    ({ pr with helloed := 0, synCounts := 3, helloEvent := true }, [.utunClose pr.tunFd])
  else
    let built := pcpHbSyn host outcomes.malloc outcomes.stack
    if built.1 = error then ({ pr with hbEvent := true }, [])
    else
      ({ pr with synCounts := pr.synCounts - 1, hbEvent := true }, (sendtoRemotePeer outcomes built.2 built.1).2)

def initTunDevice (outcomes : Outcomes) (pr : Peer) : Int × Peer :=
  let pr := { pr with tunFd := outcomes.utunOpen }
  if pr.tunFd ≤ 0 then (failed, pr) else (ok, pr)

/-- The first heartbeat is armed when the tun device is open and its reader was started. -/
def recvedHelloAck (outcomes : Outcomes) (pr : Peer) : Peer × List Call :=
  if pr.helloed ≠ 0 then (pr, [])
  else
    let opened := initTunDevice outcomes pr
    if opened.1 ≠ ok then (opened.2, [.utunOpen outcomes.utunOpen])
    else if outcomes.pthreadCreate < 0 then
      (opened.2, [.utunOpen outcomes.utunOpen, .pthreadCreate outcomes.pthreadCreate])
    else
      ({ opened.2 with helloed := 1, hbEvent := true },
        [.utunOpen outcomes.utunOpen, .pthreadCreate outcomes.pthreadCreate, .eventAssign .hbEvent opened.2.hbEvent])

/-- The size of the receive buffer and of the local buffers of the payload. -/
def bufferSize : Nat := 8192 * 11

/-- A difference of two unsigned sizes wraps around. -/
def sizeSub (first second : Nat) : Nat := (first + 2 ^ 64 - second) % 2 ^ 64

/-- Nothing is known about the rest of the call after bytes were written outside of a buffer. -/
def recvedPayload (host : ByteOrder) (lib : Libraries) (outcomes : Outcomes) (pr : Peer) (buf : Block) (size : Int) :
    List Call :=
  let len := (htons host (load16 host buf 2)).toNat
  if sizeT size < len + 4 then []
  else
    let count := sizeSub len 2
    let copied := [Call.content 6 count, .copied count]
    if bufferSize < count then copied
    else
      let packed := memcpy outcomes.stack 0 (pointer buf 6) count
      let textLen := htons host (load16 host buf 4)
      let capacity := sizeSub len 2 * 4 % 2 ^ 64
      let unpacked := copied ++ [.content 4 2, .uncompress capacity]
      match uncompress lib capacity (bytesOf packed (sizeSub len 2)) with
      | none => unpacked
      | some text =>
          if bufferSize < text.length then unpacked
          else
            let decrypted := decryptByAes256 lib (block text buf) text.length outcomes.plaintext pr.key
            if decrypted.1 = error then unpacked
            else
              unpacked ++ [.decrypted text.length, .utunWrite pr.tunFd (bytesOf decrypted.2 textLen.toNat)]

/-- The packet starts with its version, its flags and its length. -/
def recvedPktUnpack (host : ByteOrder) (lib : Libraries) (outcomes : Outcomes) (pr : Peer) (buf : Block) (size : Int) :
    Peer × List Call :=
  if sizeT size < 4 then (pr, [])
  else
    let header := Call.content 0 4
    let answer (built : Int × Block) : Peer × List Call :=
      if built.1 = error then (pr, [header])
      else (pr, header :: (sendtoRemotePeer outcomes built.2 built.1).2)
    if buf 1 = fHelloSyn then answer (pcpHelloAck host outcomes.malloc outcomes.stack)
    else if buf 1 = fHelloAck then
      let result := recvedHelloAck outcomes pr
      (result.1, header :: result.2)
    else if buf 1 = fHbSyn then answer (pcpHbAck host outcomes.malloc outcomes.stack)
    else if buf 1 = fHbAck then ({ pr with synCounts := pr.synCounts + 1 }, [header])
    else if buf 1 = fPayload then (pr, header :: recvedPayload host lib outcomes pr buf size)
    else (pr, [header])

/-- The receive buffer is cleared before a datagram arrives in it. -/
def Peer.udpRecvCb (host : ByteOrder) (lib : Libraries) (outcomes : Outcomes) (pr : Peer) (srcAddr : SockAddr)
    (datagram : List UInt8) : Peer × List Call :=
  let received := datagram.take bufferSize
  let buf := block received (memset outcomes.stack 0 bufferSize)
  let len : Int := if outcomes.recvfrom < 0 then outcomes.recvfrom else received.length
  if len > 0 then
    if srcAddr = pr.remotePeerAddr then recvedPktUnpack host lib outcomes pr buf len else (pr, [])
  else (pr, [])

/-- The Linux device hands out at most 1518 bytes of a packet. -/
def utunRead (packet : List UInt8) : List UInt8 := packet.take 1518

/-- One turn of the reader handles the packet of one read. A failed read gives no bytes. The first result is
false when the reader returns. -/
def recvTunDeviceThread (host : ByteOrder) (lib : Libraries) (outcomes : Outcomes) (pr : Peer) (packet : List UInt8) :
    Bool × List Call :=
  let read := utunRead packet
  if read.length = 0 then (true, [])
  else
    let buf := block read outcomes.buf
    let crypted := encryptByAes256 lib outcomes.stack buf read.length outcomes.bbuf pr.key
    if crypted.1 = error then (true, [])
    else
      match compress lib (crypted.1 * 4).toNat (bytesOf crypted.2 crypted.1.toNat) with
      | none => (false, [])
      | some packed =>
          let built := pcpPayloadPkt host outcomes.malloc (block packed buf) crypted.2 packed.length
            (UInt16.ofNat read.length)
          (true, (sendtoRemotePeer outcomes built.2 built.1).2)

/-- A peer starts without a connection. -/
def initPeer (handler : Peer) : Peer :=
  { handler with peer := initBucket handler.peer none, helloed := 0, synCounts := 3 }

/-- The loop starts with the search for the remote peer. -/
def peerLoop (handler : Peer) : Peer := { handler with fpEvent := true }

end Nose
