import Nose.Source.Pmp

/-
This file gives the authentication packets of the virtual network from `auth.c`, with the hash and the combination of
its input from `utils.c`. The tests for null pointers are left out, except for the results of `malloc`.
-/

namespace Nose

open CMemory

/-- This is the host with the hash of mbedtls on whole byte strings, and with the bytes at the mapped addresses of the
process. -/
structure AuthHost where
  order : ByteOrder
  sha256 : List UInt8 → Vector UInt8 32
  memory : Nat → Option UInt8

/-- This is the packet type of an authentication. -/
def auth : UInt8 := 0

def authReq : UInt8 := 0

def authRsp : UInt8 := 1

def hash256 : UInt8 := 0

/-- This is the size of `struct vpn_proto_header`. -/
def vpnProtoHeaderLen : Nat := 8

/-- The request is a header and a `struct auth_req_pkt`. -/
def authReqLen : Nat := vpnProtoHeaderLen + 68

/-- Two bytes at an address can be read when both are mapped. -/
def AuthHost.twoBytes (host : AuthHost) (address : UInt16) : Option Block :=
  (host.memory address.toNat).bind fun first =>
    (host.memory (address.toNat + 1)).map fun second => block [first, second] fun _ => 0

def hexDigit (value : Nat) : UInt8 := if value < 10 then UInt8.ofNat (48 + value) else UInt8.ofNat (87 + value)

/-- Every byte of the hash is printed with two digits. -/
def genSha256 (host : AuthHost) (input : Block) (len : Nat) : List UInt8 :=
  let hash := (host.sha256 (bytesOf input len)).toList
  hash.flatMap (fun byte => [hexDigit (byte.toNat / 16), hexDigit (byte.toNat % 16)]) ++ [0]

/-- The converted numbers are taken for addresses. A read at an address that is not mapped has no result. -/
def combineSerChallId (host : AuthHost) (sKey : List UInt8) (challenge id : Int) (output : Block) :
    Option (Int × Block) :=
  let output := memcpy output 0 (block sKey fun _ => 0) sKey.length
  (host.twoBytes (htons host.order (UInt16.ofInt challenge))).bind fun chall =>
    let output := memcpy output sKey.length chall 2
    (host.twoBytes (htons host.order (UInt16.ofInt id))).map fun i =>
      ((sKey.length : Int) + 2 + 2, memcpy output (sKey.length + 2) i 2)

/-- The header is copied into the buffer. The packet with the hash is built and freed. -/
def authRequestPkt (host : AuthHost) (mallocHeader mallocPkt : Option Block) (id challenge : Int) (sKey : List UInt8)
    (buffer : Block) : Option (Int × Block) :=
  match mallocHeader with
  | none => some (error, buffer)
  | some header =>
      let header := setByte (setByte header 1 authReq) 0 auth
      let header := store16 host.order header 2 (lower (htonl host.order (UInt32.ofInt id)))
      let header := store16 host.order header 4 (htons host.order (UInt16.ofNat authReqLen))
      let header := store16 host.order header 6 0
      let buffer := memcpy buffer 0 header vpnProtoHeaderLen
      match mallocPkt with
      | none => some (error, buffer)
      | some pkt =>
          (combineSerChallId host sKey challenge id fun _ => 0).map fun (ret, serChallId) =>
            if ret ≤ 0 then (error, buffer)
            else
              let hash := genSha256 host serChallId ret.toNat
              let pkt := store16 host.order pkt 0 (htons host.order (UInt16.ofInt challenge))
              let pkt := setByte (setByte pkt 2 hash256) 3 0
              let _pkt := memcpy pkt 4 (block hash fun _ => 0) 64
              (authReqLen, buffer)

/-- The length of a response is defined with the size of `struct auth_req_pkt`. -/
def authRspLen : Nat := vpnProtoHeaderLen + 68

/-- The response copies the four bytes of `struct auth_rsp_pkt` behind the header. -/
def authResposePkt (order : ByteOrder) (mallocHeader mallocPkt : Option Block) (id challenge messageCode : Int)
    (buffer : Block) : Int × Block :=
  match mallocHeader with
  | none => (error, buffer)
  | some header =>
      let header := setByte (setByte header 1 authRsp) 0 auth
      let header := store16 order header 2 (lower (htonl order (UInt32.ofInt id)))
      let header := store16 order header 4 (htons order (UInt16.ofNat authReqLen))
      let header := store16 order header 6 0
      let buffer := memcpy buffer 0 header vpnProtoHeaderLen
      match mallocPkt with
      | none => (error, buffer)
      | some pkt =>
          let pkt := store16 order pkt 0 (htons order (UInt16.ofInt challenge))
          let pkt := setByte (setByte pkt 2 (UInt8.ofInt messageCode)) 3 0
          (authRspLen, memcpy buffer vpnProtoHeaderLen pkt 4)

/-- The buffer goes on behind the packet, where the comparison of the hash may end. The configuration is passed by
value, so only its key matters. -/
def authRequestValidate (host : AuthHost) (buffer : Block) (size : Nat) (key : List UInt8) : Option Int :=
  if size < authReqLen then some failed
  else if buffer 0 ≠ auth ∨ buffer 1 ≠ authReq then some failed
  else
    let pkt := pointer buffer vpnProtoHeaderLen
    let challenge := (load16 host.order pkt 0).toNat
    let id := (load16 host.order buffer 2).toNat
    (combineSerChallId host key challenge id fun _ => 0).map fun (ret, serChallId) =>
      if ret ≤ 0 then error
      else if strcmp false (genSha256 host serChallId ret.toNat) (bytesOf (pointer pkt 4) 65) then ok
      else error

end Nose
