import Nose.Source.Pmp

/-
This file gives the tests of `nat_test.c` that find the type of a network address translator. The allocations succeed,
and the random transaction id is given.
-/

namespace Nose

open CMemory DottedQuad

/-- These are the types of `nat_types.h`. -/
def udpBlocked : Int := 0

def symUdpFirewall : Int := 1

def openInternet : Int := 2

def fullCone : Int := 3

def restricted : Int := 4

def portRestricted : Int := 5

def symNat : Int := 6

def unexpectedNatType : Int := 7

def bindReq : UInt16 := 0x0001

def bindRsp : UInt16 := 0x0101

def mappedAddr : UInt16 := 0x0001

def changeReq : UInt16 := 0x0003

def srcAddr : UInt16 := 0x0004

def changeAddr : UInt16 := 0x0005

def xorMappedAddr : UInt16 := 0x8020

def serverName : UInt16 := 0x8022

def flagChangeIp : UInt32 := 0x0004

def flagChangePort : UInt32 := 0x0002

/-- The value of an attribute starts behind its type and its length. The attributes of the other types are printed
only. -/
def stunAttributes (host : ByteOrder) (buf : Block) (stop : Nat) :
    Nat → Nat → CharArray 16 × Int → CharArray 16 × Int
  | 0, _, external => external
  | attributes + 1, index, external =>
      if index < stop then
        let type := htons host (load16 host buf index)
        let length := (htons host (load16 host buf (index + 2))).toNat
        let external :=
          if type = mappedAddr then
            (external.1.setString (inetNtoa (loadAddr buf (index + 8))),
              ((htons host (load16 host buf (index + 6))).toNat : Int))
          else external
        stunAttributes host buf stop attributes (index + 4 + length) external
      else external

/-- Every attribute takes at least four bytes, so the number of bytes bounds the number of attributes. -/
def stunRspUnpack (host : ByteOrder) (buf : Block) (size : Int) (external : CharArray 16 × Int) :
    Int × CharArray 16 × Int :=
  if sizeT size < 20 then (error, external)
  else
    let stop := 20 + (htons host (load16 host buf 2)).toNat
    if sizeT size < stop then (error, external)
    else (ok, stunAttributes host buf stop stop 20 external)

/-- This stores `struct _STUN_message_header`. The last four bytes of the transaction id are not stored. -/
def stunMessageHeader (host : ByteOrder) (malloc : Block) (messageLength : UInt16) (transId : CharArray 16) : Block :=
  memcpy (store16 host (store16 host malloc 0 (htons host bindReq)) 2 (htons host messageLength)) 4 transId.memory 12

/-- This is a request with one attribute that asks the server to answer from elsewhere. -/
def changeRequest (host : ByteOrder) (malloc stack : Block) (transId : CharArray 16) (flags : UInt32) : List UInt8 :=
  let buf := memcpy stack 0 (stunMessageHeader host malloc 8 transId) 20
  let buf := store16 host (store16 host buf 20 (htons host changeReq)) 22 (htons host 4)
  bytesOf (store32 host buf 24 (htonl host flags)) 28

def test1Request (host : ByteOrder) (malloc stack : Block) (transId : CharArray 16) : List UInt8 :=
  bytesOf (memcpy stack 0 (stunMessageHeader host malloc 0 transId) 20) 20

def test2Request (host : ByteOrder) (malloc stack : Block) (transId : CharArray 16) : List UInt8 :=
  changeRequest host malloc stack transId (flagChangeIp ||| flagChangePort)

def test3Request (host : ByteOrder) (malloc stack : Block) (transId : CharArray 16) : List UInt8 :=
  changeRequest host malloc stack transId flagChangePort

/-- This is what a test meets: the old bytes of its allocation and of its buffer, and the bytes that are received in
answer to a request. There are none when a call of the socket fails or takes too long. The length of a datagram is not
bounded here, while `recvfrom` gives at most `BUFSIZ` bytes. -/
structure Meeting where
  malloc : Block
  stack : Block
  answer : List UInt8 → Option (List UInt8)

/-- Every test sends its request, waits for one datagram and unpacks it. -/
def runTest (host : ByteOrder) (request : Block → Block → CharArray 16 → List UInt8) (transId : CharArray 16)
    (meeting : Meeting) (type : NatType) : Int × NatType :=
  let sent := request meeting.malloc meeting.stack transId
  match meeting.answer sent with
  | none => (error, type)
  | some datagram =>
      let buf := block datagram (block sent meeting.stack)
      let result := stunRspUnpack host buf datagram.length (type.ipv4, type.port)
      (result.1, { type with ipv4 := result.2.1, port := result.2.2 })

def test1 (host : ByteOrder) (transId : CharArray 16) (meeting : Meeting) (type : NatType) : Int × NatType :=
  runTest host (test1Request host) transId meeting type

def test2 (host : ByteOrder) (transId : CharArray 16) (meeting : Meeting) (type : NatType) : Int × NatType :=
  runTest host (test2Request host) transId meeting type

def test3 (host : ByteOrder) (transId : CharArray 16) (meeting : Meeting) (type : NatType) : Int × NatType :=
  runTest host (test3Request host) transId meeting type

/-- The address of the source is compared with the last external address. -/
def sameAddr (sourceAddr : List UInt8) (type : NatType) : Prop :=
  inetAddr sourceAddr = inetAddr (cstr type.ipv4.toList)

instance (sourceAddr : List UInt8) (type : NatType) : Decidable (sameAddr sourceAddr type) :=
  inferInstanceAs (Decidable (_ = _))

/-- The tests are numbered in the order in which they run. -/
def doTest (host : ByteOrder) (sockfd : Int) (sourceAddr : List UInt8) (transId : CharArray 16)
    (meetings : Nat → Meeting) (type : NatType) : Int × NatType :=
  if sockfd < 0 then (sockfd, type)
  else
    let testI := test1 host transId (meetings 0) type
    if testI.1 = ok then
      let testII := test2 host transId (meetings 1) testI.2
      if sameAddr sourceAddr testI.2 then
        if testII.1 = ok then (sockfd, { testII.2 with natType := openInternet })
        else (sockfd, { testII.2 with natType := symUdpFirewall })
      else if testII.1 = ok then (sockfd, { testII.2 with natType := fullCone })
      else
        let again := test1 host transId (meetings 2) testII.2
        if again.1 = ok then
          if sameAddr sourceAddr again.2 then
            let testIII := test1 host transId (meetings 3) again.2
            if testIII.1 = ok then (sockfd, { testIII.2 with natType := restricted })
            else (sockfd, { testIII.2 with natType := portRestricted })
          else (sockfd, { again.2 with natType := symNat })
        else (sockfd, { again.2 with natType := unexpectedNatType })
    else (sockfd, { testI.2 with natType := udpBlocked })

end Nose
