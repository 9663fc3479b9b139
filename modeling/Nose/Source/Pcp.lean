import Nose.Source.Pmp

/-
This file gives the packets of the peer control protocol from `pcp.c` and `pcp.h`.
-/

namespace Nose

open CMemory

/-- These are the flags of the protocol. -/
def fHelloAck : UInt8 := 1

def fHelloSyn : UInt8 := 2

def fHbAck : UInt8 := 3

def fHbSyn : UInt8 := 4

def fPayload : UInt8 := 5

/-- This fills `struct PCP`. -/
def pcpHeader (host : ByteOrder) (pcp : Block) (flags : UInt8) (len : UInt16) : Block :=
  store16 host (setByte (setByte pcp 0 0) 1 flags) 2 len

/-- The packets without payload differ only in their flags. -/
def controlPkt (flags : UInt8) (host : ByteOrder) (malloc : Option Block) (buf : Block) : Int × Block :=
  match malloc with
  | none => (error, buf)
  | some pcp => (4, memcpy buf 0 (pcpHeader host pcp flags 0) 4)

def pcpHelloSyn := controlPkt fHelloSyn

def pcpHelloAck := controlPkt fHelloAck

def pcpHbSyn := controlPkt fHbSyn

def pcpHbAck := controlPkt fHbAck

/-- The length of the plain text is copied as it lies in the memory of the host. -/
def pcpPayloadPkt (host : ByteOrder) (malloc : Option Block) (buf bbuf : Block) (allSize : Int)
    (textSize : UInt16) : Int × Block :=
  match malloc with
  | none => (error, bbuf)
  | some pcp =>
      let bbuf := memcpy bbuf 0 (pcpHeader host pcp fPayload (htons host (UInt16.ofInt (allSize + 2)))) 4
      let bbuf := store16 host bbuf 4 (htons host textSize)
      (6 + allSize, memcpy bbuf 6 buf (sizeT allSize))

end Nose
