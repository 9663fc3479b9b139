import Nose.Source.PeerLoop

/-
This file gives two peers and the network between them. A datagram that was sent once can be delivered at any
later time, any number of times or never.
-/

namespace Nose

open CMemory

inductive Side where
  | first
  | second
  deriving DecidableEq, Repr

def Side.other : Side → Side
  | .first => .second
  | .second => .first

/-- The network keeps all datagrams that each side has sent. -/
structure Network where
  peers : Side → Process
  sent : Side → List (List UInt8)

/-- A delivery names the datagram by its place among those that the other side has sent. -/
inductive NetworkInput where
  | expire (side : Side) (timer : Timer) (outcomes : Outcomes)
  | deliver (side : Side) (index : Nat) (outcomes : Outcomes)
  | read (side : Side) (packet : List UInt8) (outcomes : Outcomes)

/-- This is what the input is for the peer that it concerns. -/
def Network.peerInput (net : Network) (addr : Side → SockAddr) : NetworkInput → Option (Side × PeerInput)
  | .expire side timer outcomes => some (side, .expire timer outcomes)
  | .deliver side index outcomes =>
      (net.sent side.other)[index]?.map fun datagram => (side, .arrive (addr side.other) datagram outcomes)
  | .read side packet outcomes => some (side, .read packet outcomes)

def sentDatagrams (calls : List Call) : List (List UInt8) := calls.filterMap fun call =>
  match call with
  | .sendto datagram => some datagram
  | _ => none

def networkStep (host : Side → ByteOrder) (lib : Libraries) (addr : Side → SockAddr) (net : Network)
    (input : NetworkInput) : Option (Network × List (Side × Call)) :=
  (net.peerInput addr input).bind fun (side, peerInput) =>
    (peerStep (host side) lib (net.peers side) peerInput).map fun (process, calls) =>
      (⟨Function.update net.peers side process,
        Function.update net.sent side (net.sent side ++ sentDatagrams calls)⟩, calls.map (Prod.mk side))

def startNetwork (handlers : Side → Peer) : Network := ⟨fun side => startProcess (handlers side), fun _ => []⟩

end Nose
