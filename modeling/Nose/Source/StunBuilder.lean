import Nose.Source.StunReader

/-
This file gives the class `CStunMessageBuilder` of `stunbuilder.cpp`. Its strings have no zero byte.
-/

namespace Nose

open CMemory

structure CStunMessageBuilder where
  stream : CDataStream
  transactionid : StunTransactionId
  fLegacyMode : Bool

namespace CStunMessageBuilder

/-- This is the constructor with the stream that the user attaches. -/
def create (stream : CDataStream) (fLegacyMode : Bool) : CStunMessageBuilder :=
  ⟨stream, Vector.replicate 16 0, fLegacyMode⟩

/-- A call on the stream of the builder. -/
def onStream (call : CDataStream → HRESULT × CDataStream) (builder : CStunMessageBuilder) :
    HRESULT × CStunMessageBuilder :=
  let result := call builder.stream
  (result.1, { builder with stream := result.2 })

def write (bytes : List UInt8) : CStunMessageBuilder → HRESULT × CStunMessageBuilder :=
  onStream fun stream => stream.write bytes

def writeUint16 (host : ByteOrder) (val : UInt16) : CStunMessageBuilder → HRESULT × CStunMessageBuilder :=
  onStream fun stream => stream.writeUint16 host val

/-- The type of the message and its class share one word. -/
def typeField (msgType : UInt16) (msgClass : StunMessageClass) : UInt16 :=
  let msgClass := UInt16.ofNat msgClass.value
  (msgType &&& (0x0f80 : UInt16)) <<< (2 : UInt16) ||| (msgType &&& (0x0070 : UInt16)) <<< (1 : UInt16) |||
    (msgType &&& (0x000f : UInt16)) ||| (msgClass &&& (0x02 : UInt16)) <<< (7 : UInt16) |||
    (msgClass &&& (0x01 : UInt16)) <<< (4 : UInt16)

def addHeader (host : ByteOrder) (msgType : UInt16) (msgClass : StunMessageClass) (builder : CStunMessageBuilder) :
    HRESULT × CStunMessageBuilder :=
  chk (onStream (fun stream => stream.grow 200) builder) fun builder =>
    chk (builder.writeUint16 host (htons host (typeField msgType msgClass))) fun builder =>
      builder.writeUint16 host 0

def addTransactionId (transid : StunTransactionId) (builder : CStunMessageBuilder) : HRESULT × CStunMessageBuilder :=
  { builder with transactionid := transid }.write transid.toList

def addAttributeHeader (host : ByteOrder) (attribType size : UInt16) (builder : CStunMessageBuilder) :
    HRESULT × CStunMessageBuilder :=
  chk (builder.writeUint16 host (htons host attribType)) fun builder =>
    builder.writeUint16 host (htons host size)

/-- Nothing is written for an empty list, and the result stays. -/
def writeSome (bytes : List UInt8) (result : HRESULT × CStunMessageBuilder) : HRESULT × CStunMessageBuilder :=
  if bytes.length = 0 then result else chk result fun builder => builder.write bytes

/-- The data are `size` bytes, and `size` is an `uint16_t`. In the legacy mode the length counts the padding. -/
def addAttribute (host : ByteOrder) (attribType : UInt16) (data : List UInt8) (builder : CStunMessageBuilder) :
    HRESULT × CStunMessageBuilder :=
  let padding := paddingLength data.length
  let sizeheader := if builder.fLegacyMode then data.length + padding else data.length
  writeSome (List.replicate padding 0)
    (writeSome data (builder.addAttributeHeader host attribType (UInt16.ofNat sizeheader)))

/-- This is `AddAttribute` when `data` is `NULL`. The length stays without the bytes. -/
def addAttributeNull (host : ByteOrder) (attribType size : UInt16) (builder : CStunMessageBuilder) :
    HRESULT × CStunMessageBuilder := builder.addAttributeHeader host attribType size

/-- The length of the string is cut to an `uint16_t`. -/
def addStringAttribute (host : ByteOrder) (attribType : UInt16) (pstr : List UInt8) (builder : CStunMessageBuilder) :
    HRESULT × CStunMessageBuilder :=
  if pstr = [] then (.eInvalidarg, builder)
  else builder.addAttribute host attribType (pstr.take (pstr.length % 2 ^ 16))

/-- The result of the write of the reason is not read. -/
def addErrorCode (host : ByteOrder) (errorNumber : UInt16) (pszReason : List UInt8) (builder : CStunMessageBuilder) :
    HRESULT × CStunMessageBuilder :=
  let size := pszReason.length + 4
  let padding := paddingLength size
  if 128 ≤ pszReason.length then (.eInvalidarg, builder)
  else if errorNumber < 300 then (.eInvalidarg, builder)
  else if 600 < errorNumber then (.eInvalidarg, builder)
  else
    let sizeheader := if builder.fLegacyMode then size + padding else size
    chk (builder.addAttributeHeader host stunAttributeErrorcode (UInt16.ofNat sizeheader)) fun builder =>
      chk (builder.writeUint16 host 0) fun builder =>
        chk (builder.write [UInt8.ofNat (errorNumber.toNat / 100)]) fun builder =>
          let number := builder.write [UInt8.ofNat (errorNumber.toNat % 100)]
          if number.1.failed then number
          else writeSome (List.replicate padding 0) (number.1, (writeSome pszReason number).2)

/-- The bytes of an array of words in memory. -/
def arrayBytes (arr : List (UInt8 × UInt8)) : List UInt8 := arr.flatMap fun val => [val.1, val.2]

/-- In the legacy mode the last word of an odd number is written twice. The result of this write is not read. -/
def addUnknownAttributes (host : ByteOrder) (arr : List (UInt8 × UInt8)) (builder : CStunMessageBuilder) :
    HRESULT × CStunMessageBuilder :=
  let unpaddedsize := UInt16.ofNat (2 * arr.length)
  if arr = [] then (.eInvalidarg, builder)
  else
    let fPad := builder.fLegacyMode ∧ arr.length % 2 ≠ 0
    let size := if fPad then unpaddedsize + 2 else unpaddedsize
    chk (builder.addAttributeHeader host stunAttributeUnknownattributes size) fun builder =>
      let written := builder.write ((arrayBytes arr).take unpaddedsize.toNat)
      if written.1.failed then written
      else if fPad then (written.1, (written.2.write (arrayBytes (arr.drop (arr.length - 1)))).2)
      else written

/-- This is the loop of `AddPaddingAttribute`. It writes blocks of 128 zeros at most. -/
def writeZeros (paddingSize : Nat) (result : HRESULT × CStunMessageBuilder) : HRESULT × CStunMessageBuilder :=
  if result.1.failed then result
  else if 0 < paddingSize then
    writeZeros (paddingSize - min paddingSize 128) (result.2.write (List.replicate (min paddingSize 128) 0))
  else result
termination_by paddingSize

/-- The size is rounded up to a multiple of four. -/
def addPaddingAttribute (host : ByteOrder) (paddingSize : UInt16) (builder : CStunMessageBuilder) :
    HRESULT × CStunMessageBuilder :=
  let paddingSize := if paddingSize % 4 = 0 then paddingSize else paddingSize + 4 - paddingSize % 4
  writeZeros paddingSize.toNat (builder.addAttributeHeader host stunAttributePadding paddingSize)

def addMappedAddressImpl (host : ByteOrder) (attribType : UInt16) (addr : CSocketAddress)
    (builder : CStunMessageBuilder) : HRESULT × CStunMessageBuilder :=
  let family := if addr.isIPv4 then stunAttributeFieldIpv4 else stunAttributeFieldIpv6
  let attributeSize := if addr.isIPv4 then 8 else 20
  chk (builder.addAttributeHeader host attribType attributeSize) fun builder =>
    chk (builder.write [0]) fun builder =>
      chk (builder.write [family]) fun builder =>
        chk (builder.writeUint16 host (htons host addr.getPort)) fun builder => builder.write addr.getIPNbo

def addXorMappedAddress (host : ByteOrder) (addr : CSocketAddress) (builder : CStunMessageBuilder) :
    HRESULT × CStunMessageBuilder :=
  builder.addMappedAddressImpl host
    (if builder.fLegacyMode then stunAttributeXormappedaddressOptional else stunAttributeXormappedaddress)
    (addr.applyStunXorMap builder.transactionid)

def addMappedAddress (host : ByteOrder) (addr : CSocketAddress) (builder : CStunMessageBuilder) :
    HRESULT × CStunMessageBuilder := builder.addMappedAddressImpl host stunAttributeMappedaddress addr

def addResponseOriginAddress (host : ByteOrder) (addr : CSocketAddress) (builder : CStunMessageBuilder) :
    HRESULT × CStunMessageBuilder :=
  builder.addMappedAddressImpl host
    (if builder.fLegacyMode then stunAttributeSourceaddress else stunAttributeResponseOrigin) addr

def addOtherAddress (host : ByteOrder) (addr : CSocketAddress) (builder : CStunMessageBuilder) :
    HRESULT × CStunMessageBuilder :=
  builder.addMappedAddressImpl host
    (if builder.fLegacyMode then stunAttributeChangedaddress else stunAttributeOtherAddress) addr

def addResponsePort (host : ByteOrder) (port : UInt16) (builder : CStunMessageBuilder) :
    HRESULT × CStunMessageBuilder :=
  builder.addAttribute host stunAttributeResponsePort (bytesOf (store16 host (fun _ => 0) 0 (htons host port)) 2)

def addChangeRequest (host : ByteOrder) (changeAttrib : StunChangeRequestAttribute) (builder : CStunMessageBuilder) :
    HRESULT × CStunMessageBuilder :=
  let changeData : UInt32 :=
    (if changeAttrib.fChangeIP then 0x04 else 0) ||| (if changeAttrib.fChangePort then 0x02 else 0)
  builder.addAttribute host stunAttributeChangerequest
    (bytesOf (store32 host (fun _ => 0) 0 (htonl host changeData)) 4)

def fixLengthField (host : ByteOrder) (builder : CStunMessageBuilder) : HRESULT × CStunMessageBuilder :=
  let size := builder.stream.data.length
  let currentPos := builder.stream.pos
  if size < stunHeaderSize then (.eUnexpected, builder)
  else
    chk (onStream (fun stream => stream.seekDirect 2) builder) fun builder =>
      chk (builder.writeUint16 host (htons host (UInt16.ofNat (size - stunHeaderSize)))) fun builder =>
        onStream (fun stream => stream.seekDirect currentPos) builder

/-- The checksum leaves out the attribute itself. -/
def addFingerprintAttribute (host : ByteOrder) (digests : Digests) (builder : CStunMessageBuilder) :
    HRESULT × CStunMessageBuilder :=
  chk (builder.writeUint16 host (htons host stunAttributeFingerprint)) fun builder =>
    chk (builder.writeUint16 host (htons host 4)) fun builder =>
      chk (onStream (fun stream => stream.writeUint32 host 0) builder) fun builder =>
        chk (builder.fixLengthField host) fun builder =>
          let value := digests.crc (builder.stream.data.take (builder.stream.data.length - 8)) ^^^ stunFingerprintXor
          chk (onStream (fun stream => stream.seekRelative (-4)) builder) fun builder =>
            onStream (fun stream => stream.writeUint32 host (htonl host value)) builder

/-- The digest is written into the buffer of the stream. -/
def patch (builder : CStunMessageBuilder) (offset : Nat) (bytes : List UInt8) : CStunMessageBuilder :=
  { builder with
    stream :=
      { builder.stream with
        spBuffer := builder.stream.spBuffer.map fun buf =>
          { buf with data := buf.data.take offset ++ bytes ++ buf.data.drop (offset + bytes.length) } } }

def addMessageIntegrityImpl (host : ByteOrder) (digests : Digests) (key : List UInt8) (builder : CStunMessageBuilder) :
    HRESULT × CStunMessageBuilder :=
  if key = [] then (.eInvalidarg, builder)
  else
    chk (builder.addAttribute host stunAttributeMessageintegrity (List.replicate 20 0)) fun builder =>
      chk (builder.fixLengthField host) fun builder =>
        let length := builder.stream.data.length - 24
        (.sOk, builder.patch (length + 4) (digests.hmac key (builder.stream.data.take length)).toList)

def addMessageIntegrityShortTerm (host : ByteOrder) (digests : Digests) (pszPassword : List UInt8)
    (builder : CStunMessageBuilder) : HRESULT × CStunMessageBuilder :=
  builder.addMessageIntegrityImpl host digests pszPassword

def addMessageIntegrityLongTerm (host : ByteOrder) (digests : Digests) (pszUserName pszRealm pszPassword : List UInt8)
    (builder : CStunMessageBuilder) : HRESULT × CStunMessageBuilder :=
  let key := longTermKey pszUserName pszRealm pszPassword
  if 64 * 3 + 2 < key.length then (.eInvalidarg, builder)
  else builder.addMessageIntegrityImpl host digests (digests.md5 key).toList

def getResult (host : ByteOrder) (builder : CStunMessageBuilder) :
    HRESULT × Option CBuffer × CStunMessageBuilder :=
  let fixed := builder.fixLengthField host
  (fixed.1, if fixed.1.succeeded then fixed.2.stream.spBuffer else none, fixed.2)

end CStunMessageBuilder

end Nose
