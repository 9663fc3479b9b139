import Nose.Library.CMemory
import Nose.Library.DottedQuad

/-
This file gives the addresses of `socketaddress.cpp`. An address is one of IPv4 or of IPv6, as the constructors check.
-/

namespace Nose

open CMemory DottedQuad

/-- This is `StunTransactionId`. -/
abbrev StunTransactionId := Vector UInt8 16

/-- This is `CSocketAddress` as far as it is read. The port is the value that `GetPort` gives, and the bytes of the IP
address are in memory order. -/
inductive CSocketAddress where
  | addr4 (port : UInt16) (ip : InAddr)
  | addr6 (port : UInt16) (ip : Vector UInt8 16)
  deriving DecidableEq

namespace CSocketAddress

/-- The default constructor gives a cleared IPv4 address. -/
def zero : CSocketAddress := .addr4 0 ⟨0, 0, 0, 0⟩

/-- This is the constructor from an IPv4 address and a port in the order of the host. -/
def ofIPv4 (ip : UInt32) (port : UInt16) : CSocketAddress :=
  .addr4 port ⟨high (upper ip), low (upper ip), high (lower ip), low (lower ip)⟩

def getPort : CSocketAddress → UInt16
  | .addr4 port _ => port
  | .addr6 port _ => port

def setPort (port : UInt16) : CSocketAddress → CSocketAddress
  | .addr4 _ ip => .addr4 port ip
  | .addr6 _ ip => .addr6 port ip

/-- Whether `GetFamily` gives `AF_INET`. -/
def isIPv4 : CSocketAddress → Bool
  | .addr4 .. => true
  | .addr6 .. => false

/-- This is `GetIP_NBO`. -/
def getIPNbo : CSocketAddress → List UInt8
  | .addr4 _ ip => [ip.first, ip.second, ip.third, ip.fourth]
  | .addr6 _ ip => ip.toList

/-- This is `GetIP`. The word of an IPv4 address is in the order of the host, and IPv6 addresses have one order only. -/
def getIP (host : ByteOrder) : CSocketAddress → List UInt8
  | .addr4 _ ip =>
      match host with
      | .little => [ip.fourth, ip.third, ip.second, ip.first]
      | .big => [ip.first, ip.second, ip.third, ip.fourth]
  | .addr6 _ ip => ip.toList

def isIPAddressZero : CSocketAddress → Bool
  | .addr4 _ ip => ip = ⟨0, 0, 0, 0⟩
  | .addr6 _ ip => ip = Vector.replicate 16 0

/-- The bytes of the port and of the IP address are combined with the first bytes of the transaction id. -/
def applyStunXorMap (transid : StunTransactionId) : CSocketAddress → CSocketAddress
  | .addr4 port ip =>
      .addr4 (word (high port ^^^ transid.getD 0 0) (low port ^^^ transid.getD 1 0))
        ⟨ip.first ^^^ transid.getD 0 0, ip.second ^^^ transid.getD 1 0, ip.third ^^^ transid.getD 2 0,
          ip.fourth ^^^ transid.getD 3 0⟩
  | .addr6 port ip =>
      .addr6 (word (high port ^^^ transid.getD 0 0) (low port ^^^ transid.getD 1 0))
        (Vector.zipWith (· ^^^ ·) ip transid)

theorem xor_twice (byte mask : UInt8) : byte ^^^ mask ^^^ mask = byte := by
  rw [UInt8.xor_assoc, UInt8.xor_self, UInt8.xor_zero]

/-- The map is its own inverse. -/
@[simp] theorem applyStunXorMap_twice (transid : StunTransactionId) (address : CSocketAddress) :
    (address.applyStunXorMap transid).applyStunXorMap transid = address := by
  cases address with
  | addr4 port ip => simp only [applyStunXorMap, high_word, low_word, xor_twice, word_high_low]
  | addr6 port ip =>
      simp only [applyStunXorMap, high_word, low_word, xor_twice, word_high_low]
      congr 1
      apply Vector.ext
      intro i inside
      simp only [Vector.getElem_zipWith, xor_twice]

theorem length_getIPNbo (address : CSocketAddress) :
    address.getIPNbo.length = if address.isIPv4 then 4 else 16 := by
  cases address <;> simp [getIPNbo, isIPv4]

end CSocketAddress

end Nose
