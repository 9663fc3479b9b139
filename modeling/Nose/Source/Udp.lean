import Nose.Source.Peer

/-
This file gives the sockets of a request and its answer from `udp.c`.
-/

namespace Nose

open CMemory DottedQuad

/-- This is `struct udp_handler`, whose field `in` is the address of the other side. -/
structure UdpHandler where
  sockfd : Int
  inAddr : SockAddr

/-- A request finds the results of its system calls and the old contents of the local handler and buffer. A failed
`recvfrom` gives no datagram. -/
structure UdpOutcomes where
  socket : Int
  setsockopt : Int
  sendto : Int
  recvfrom : Option (SockAddr × List UInt8)
  handler : UdpHandler
  buf : Block

/-- These are the system calls on sockets. -/
inductive UdpCall where
  | socket (sockfd : Int)
  | setsockopt (sockfd : Int)
  | sendto (sockfd : Int) (addr : SockAddr) (datagram : List UInt8)
  | recvfrom (sockfd : Int)
  | close (sockfd : Int)
  deriving DecidableEq, Repr

/-- The handler is set on the last way out only. -/
def sendUdpPkt (host : ByteOrder) (net : UdpOutcomes) (handler : UdpHandler) (dstHost : CharArray 16) (port : Int)
    (buf : Block) (size : Int) : Int × UdpHandler × List UdpCall :=
  let addr : SockAddr := ⟨inetAddr (cstr dstHost.toList), htons host (UInt16.ofInt port)⟩
  let sockfd := net.socket
  if sockfd < 0 then (sockfd, handler, [.socket sockfd])
  else if net.setsockopt < 0 then (net.setsockopt, handler, [.socket sockfd, .setsockopt sockfd])
  else
    let calls := [.socket sockfd, .setsockopt sockfd, .sendto sockfd addr (bytesOf buf size.toNat)]
    if net.sendto < 0 then (net.sendto, handler, calls) else (net.sendto, ⟨sockfd, addr⟩, calls)

/-- The third result is the buffer of the caller afterwards. -/
def recvUdpPkt (net : UdpOutcomes) (handler : UdpHandler) (buf : Block) : Int × UdpHandler × Block × List UdpCall :=
  match net.recvfrom with
  | none => (-1, handler, buf, [.recvfrom handler.sockfd])
  | some (source, datagram) =>
      let received := datagram.take bufsiz
      (received.length, { handler with inAddr := source }, block received buf, [.recvfrom handler.sockfd])

end Nose
