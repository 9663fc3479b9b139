import Nose.Library.BoundedAccess
import Nose.Source.NatTest

/-
This file gives the decoder of `nat_test.c` once more, with a check of each read of the datagram. The buffer is a list
of exactly `size` bytes, and the decoder fails when it reads a byte past the list.
-/

namespace Nose.Checked

open CMemory DottedQuad

/-- The address of an attribute is converted also when it is printed only, and a server name is copied up to its
terminator. -/
def stunAttribute (host : ByteOrder) (buf : List UInt8) (index : Nat) (external : CharArray 16 × Int) :
    Option (CharArray 16 × Int) := do
  let type := htons host (load16 host (← BoundedAccess.access buf index 2) 0)
  if type = mappedAddr then
    let ipv4 := inetNtoa (loadAddr (← BoundedAccess.access buf (index + 8) 4) 0)
    let externalIp ← BoundedAccess.setString external.1 ipv4
    let externalPort := htons host (load16 host (← BoundedAccess.access buf (index + 6) 2) 0)
    return (externalIp, (externalPort.toNat : Int))
  else if type = srcAddr ∨ type = changeAddr ∨ type = xorMappedAddr then
    let _ ← BoundedAccess.access buf (index + 8) 4
    return external
  else if type = serverName then
    let length := htons host (load16 host (← BoundedAccess.access buf (index + 2) 2) 0)
    let _ ← BoundedAccess.accessString buf (index + 4) length.toNat
    return external
  else return external

def stunAttributes (host : ByteOrder) (buf : List UInt8) (stop : Nat) :
    Nat → Nat → CharArray 16 × Int → Option (CharArray 16 × Int)
  | 0, _, external => some external
  | attributes + 1, index, external =>
      if index < stop then do
        let external ← stunAttribute host buf index external
        let length := htons host (load16 host (← BoundedAccess.access buf (index + 2) 2) 0)
        stunAttributes host buf stop attributes (index + 4 + length.toNat) external
      else some external

def stunRspUnpack (host : ByteOrder) (buf : List UInt8) (external : CharArray 16 × Int) :
    Option (Int × CharArray 16 × Int) :=
  if sizeT buf.length < 20 then some (error, external)
  else do
    let stop := 20 + (htons host (load16 host (← BoundedAccess.access buf 2 2) 0)).toNat
    if sizeT buf.length < stop then return (error, external)
    else
      let external ← stunAttributes host buf stop stop 20 external
      return (ok, external)

end Nose.Checked
