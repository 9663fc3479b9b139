import Nose.Source.DataStream
import Nose.Source.FastHash

/-
This file gives the class `CStunMessageReader` of `stunreader.cpp` with `GetMappedAddress` of `stunutils.cpp`. The host
has a byte order, and the digests of the libraries are given.
-/

namespace Nose

open CMemory

/-- These are the functions of OpenSSL and of Boost: `HMAC` with SHA-1, `MD5` and CRC-32. -/
structure Digests where
  hmac : List UInt8 → List UInt8 → Vector UInt8 20
  md5 : List UInt8 → Vector UInt8 16
  crc : List UInt8 → UInt32

inductive ReaderParseState where
  | headerNotRead
  | headerValidated
  | bodyValidated
  | parseError
  deriving DecidableEq, Repr

/-- The indexes of the two last attributes are -1 until they are found. -/
structure CStunMessageReader where
  stream : CDataStream
  fAllowLegacyFormat : Bool
  fMessageIsLegacyFormat : Bool
  state : ReaderParseState
  mapAttributes : FastHashBase UInt16 CStunMessageReader.StunAttribute
  indexFingerprint : Int
  indexMessageIntegrity : Int
  countAttributes : Int
  transactionid : StunTransactionId
  msgTypeNormalized : UInt16
  msgClass : StunMessageClass
  msgLength : UInt16

/-- This is `FastHash_Hash` of an attribute type. -/
def attributeHash (attributeType : UInt16) : Nat := attributeType.toNat

def maxNumAttributes : Nat := 30

def attributeTableWidth : Nat := 53

/-- The padding of an attribute of the length. -/
def paddingLength (attributeLength : Nat) : Nat := if attributeLength % 4 = 0 then 0 else 4 - attributeLength % 4

/-- A colon stands between the user, the realm and the password. -/
def longTermKey (pszUser pszRealm pszPassword : List UInt8) : List UInt8 :=
  pszUser ++ [0x3a] ++ pszRealm ++ [0x3a] ++ pszPassword

/-- This is `GetMappedAddress` of `stunutils.cpp` with the bytes of the attribute. -/
def mappedAddress (host : ByteOrder) (bytes : List UInt8) (addr : CSocketAddress) : HRESULT × CSocketAddress :=
  let skipped := (CDataStream.attach ⟨bytes, bytes.length⟩ false).seekDirect 1
  if skipped.1.failed then (skipped.1, addr)
  else
    let family := skipped.2.readUint8
    if family.1.failed then (family.1, addr)
    else
      let port := family.2.2.readUint16 host
      if port.1.failed then (port.1, addr)
      else if family.2.1 = stunAttributeFieldIpv4 then
        let ip4 := port.2.2.readUint32 host
        if ip4.1.failed then (ip4.1, addr)
        else (.sOk, .ofIPv4 (htonl host ip4.2.1) (htons host port.2.1))
      else
        let ip6 := port.2.2.read 16
        if ip6.1.failed then (ip6.1, addr)
        else (.sOk, .addr6 (htons host port.2.1) (Vector.ofFn fun i => ip6.2.1.getD i 0))

namespace CStunMessageReader

/-- This is `Reset`. The arrays of the table keep their old contents. -/
def reset (table : FastHashBase UInt16 StunAttribute) : CStunMessageReader where
  stream := .empty
  fAllowLegacyFormat := true
  fMessageIsLegacyFormat := false
  state := .headerNotRead
  mapAttributes := table.reset
  indexFingerprint := -1
  indexMessageIntegrity := -1
  countAttributes := 0
  transactionid := Vector.replicate 16 0
  msgTypeNormalized := 0xffff
  msgClass := .invalidMessageClass
  msgLength := 0

/-- This is the constructor. The arrays of the table hold what their memory holds. -/
def create (nodelist : Nat → UInt16 × StunAttribute) (itemnodelist : Nat → ItemNode) (lookuptable : Nat → Option Nat)
    (indexlist : Nat → Nat) : CStunMessageReader :=
  reset (.init maxNumAttributes attributeTableWidth nodelist itemnodelist lookuptable indexlist)

def howManyBytesNeeded (reader : CStunMessageReader) : UInt16 :=
  match reader.state with
  | .headerNotRead => UInt16.ofNat (stunHeaderSize - reader.stream.data.length)
  | .headerValidated => UInt16.ofNat (reader.msgLength.toNat + stunHeaderSize - reader.stream.data.length)
  | _ => 0

/-- The masks leave two bits, so one of the four classes is found. -/
def classOf (msgType : UInt16) : StunMessageClass :=
  if msgType &&& 0x0110 = 0x0000 then .request
  else if msgType &&& 0x0110 = 0x0010 then .indication
  else if msgType &&& 0x0110 = 0x0100 then .successResponse
  else if msgType &&& 0x0110 = 0x0110 then .failureResponse
  else .invalidMessageClass

def normalizedType (msgType : UInt16) : UInt16 :=
  (msgType &&& (0x000f : UInt16)) ||| (msgType &&& (0x00e0 : UInt16)) >>> (1 : UInt16) |||
    (msgType &&& (0x3E00 : UInt16)) >>> (2 : UInt16)

def readHeader (host : ByteOrder) (reader : CStunMessageReader) : HRESULT × CStunMessageReader :=
  let start := reader.stream.seekDirect 0
  if start.1.failed then (start.1, { reader with stream := start.2 })
  else
    let type := start.2.readUint16 host
    if type.1.failed then (type.1, { reader with stream := type.2.2 })
    else
      let length := type.2.2.readUint16 host
      if length.1.failed then (length.1, { reader with stream := length.2.2 })
      else
        let transID := length.2.2.read 16
        if transID.1.failed then (transID.1, { reader with stream := transID.2.2 })
        else
          let msgType := htons host type.2.1
          let msgLength := htons host length.2.1
          let cookie := htonl host (load32 host (block transID.2.1 fun _ => 0) 0)
          let legacy : Bool := cookie ≠ stunCookie
          let reader := { reader with stream := transID.2.2, fMessageIsLegacyFormat := legacy }
          if ¬(msgType &&& 0xc000 = 0 ∧ msgLength % 4 = 0 ∧ (reader.fAllowLegacyFormat ∨ legacy = false)) then
            (.eFail, reader)
          else
            let reader :=
              { reader with
                msgTypeNormalized := normalizedType msgType
                msgLength
                transactionid := Vector.ofFn fun i => transID.2.1.getD i 0 }
            if maxStunMessageSize < msgLength.toNat then (.eUnexpected, reader)
            else
              (if classOf msgType = .invalidMessageClass then .eFail else .sOk,
                { reader with msgClass := classOf msgType })

/-- The insertion fails when there are too many attributes. -/
def insertAttribute (reader : CStunMessageReader) (attrib : StunAttribute) : HRESULT × CStunMessageReader :=
  let inserted := reader.mapAttributes.insert attributeHash attrib.attributeType attrib
  if inserted.1 < 0 then (.eFail, { reader with mapAttributes := inserted.2 })
  else
    (.sOk,
      { reader with
        mapAttributes := inserted.2
        indexFingerprint :=
          if attrib.attributeType = stunAttributeFingerprint then reader.countAttributes else reader.indexFingerprint
        indexMessageIntegrity :=
          if attrib.attributeType = stunAttributeMessageintegrity then reader.countAttributes
          else reader.indexMessageIntegrity
        countAttributes := reader.countAttributes + 1 })

/-- This is one turn of the loop of `ReadBody`. It gives the number of the bytes that the attribute takes. -/
def readAttribute (host : ByteOrder) (reader : CStunMessageReader) : HRESULT × CStunMessageReader × Nat :=
  let type := reader.stream.readUint16 host
  if type.1.failed then (type.1, { reader with stream := type.2.2 }, 0)
  else
    let length := type.2.2.readUint16 host
    if length.1.failed then (length.1, { reader with stream := length.2.2 }, 0)
    else
      let attributeLength := htons host length.2.1
      let reader := { reader with stream := length.2.2 }
      if maxStunAttributeSize < attributeLength.toNat then (.eFail, reader, 0)
      else
        let inserted :=
          reader.insertAttribute ⟨htons host type.2.1, attributeLength, UInt16.ofNat length.2.2.pos⟩
        if inserted.1.failed then (inserted.1, inserted.2, 0)
        else
          let skipped := inserted.2.stream.seekRelative attributeLength.toNat
          if skipped.1.failed then (skipped.1, { inserted.2 with stream := skipped.2 }, 0)
          else
            let padding := paddingLength attributeLength.toNat
            let padded := if 0 < padding then skipped.2.seekRelative padding else skipped
            if padded.1.failed then (padded.1, { inserted.2 with stream := padded.2 }, 0)
            else (.sOk, { inserted.2 with stream := padded.2 }, 4 + attributeLength.toNat + padding)

/-- This is the loop of `ReadBody` with the number of the bytes that it has consumed. -/
def readAttributes (host : ByteOrder) (currentSize : Nat) :
    Nat → CStunMessageReader → Nat → CStunMessageReader × Nat
  | 0, reader, bytesConsumed => (reader, bytesConsumed)
  | turns + 1, reader, bytesConsumed =>
      if bytesConsumed < currentSize then
        let result := reader.readAttribute host
        if result.1.failed then (result.2.1, bytesConsumed)
        else readAttributes host currentSize turns result.2.1 (bytesConsumed + result.2.2)
      else (reader, bytesConsumed)

/-- Every turn consumes a byte at least, so the size bounds the number of the turns. -/
def readBody (host : ByteOrder) (reader : CStunMessageReader) : HRESULT × CStunMessageReader :=
  let currentSize := reader.stream.data.length
  let start := reader.stream.seekDirect stunHeaderSize
  if start.1.failed then (start.1, { reader with stream := start.2 })
  else
    let result := readAttributes host currentSize currentSize { reader with stream := start.2 } stunHeaderSize
    (if result.2 = currentSize then .sOk else .eFail, result.1)

/-- This is the first part of `AddBytes` after the write. -/
def checkHeader (host : ByteOrder) (reader : CStunMessageReader) : CStunMessageReader :=
  if reader.state = .headerNotRead ∧ stunHeaderSize ≤ reader.stream.data.length then
    let header := reader.readHeader host
    if header.1.failed then { header.2 with state := .parseError }
    else if header.2.msgLength = 0 then { header.2 with state := .bodyValidated }
    else { header.2 with state := .headerValidated }
  else reader

def checkBody (host : ByteOrder) (reader : CStunMessageReader) : CStunMessageReader :=
  if reader.state = .headerValidated ∧ reader.msgLength.toNat + stunHeaderSize ≤ reader.stream.data.length then
    if reader.stream.data.length = reader.msgLength.toNat + stunHeaderSize then
      let body := reader.readBody host
      { body.2 with state := if body.1.failed then .parseError else .bodyValidated }
    else { reader with state := .parseError }
  else reader

/-- The caller can still pass bytes when the body is there. -/
def checkExcess (reader : CStunMessageReader) : CStunMessageReader :=
  if reader.state = .bodyValidated ∧ reader.msgLength.toNat + stunHeaderSize < reader.stream.data.length then
    { reader with state := .parseError }
  else reader

def addBytes (host : ByteOrder) (reader : CStunMessageReader) (bytes : List UInt8) :
    ReaderParseState × CStunMessageReader :=
  if reader.state = .parseError then (.parseError, reader)
  else if bytes = [] then (reader.state, reader)
  else
    let written := (reader.stream.seekDirect reader.stream.data.length).2.write bytes
    if written.1.failed then (.parseError, { reader with stream := written.2 })
    else
      let reader := checkExcess (checkBody host (checkHeader host { reader with stream := written.2 }))
      (reader.state, reader)

/-- A lookup in the table gives `NULL` or an attribute. -/
def lookup (reader : CStunMessageReader) (attributeType : UInt16) : Option StunAttribute :=
  (reader.mapAttributes.lookup attributeHash attributeType).join.map reader.mapAttributes.load

/-- The bytes from the data pointer on. -/
def bytesAt (reader : CStunMessageReader) (offset size : Nat) : List UInt8 := (reader.stream.data.drop offset).take size

def valueOf (reader : CStunMessageReader) (attrib : StunAttribute) : List UInt8 :=
  reader.bytesAt attrib.offset.toNat attrib.size.toNat

def isFingerprintAttributeValid (host : ByteOrder) (digests : Digests) (reader : CStunMessageReader) : Bool :=
  match reader.lookup stunAttributeFingerprint with
  | none => false
  | some attrib =>
      let size := reader.stream.data.length
      attrib.attributeType = stunAttributeFingerprint ∧ attrib.size = 4 ∧ reader.state = .bodyValidated ∧
        stunHeaderSize ≤ size ∧
        htonl host (load32 host (block (reader.bytesAt attrib.offset.toNat 4) fun _ => 0) 0) =
          digests.crc (reader.bytesAt 0 (size - 8)) ^^^ stunFingerprintXor

def hasMessageIntegrityAttribute (reader : CStunMessageReader) : Bool :=
  (reader.lookup stunAttributeMessageintegrity).isSome

/-- The rest of the hashed bytes is read in parts of four bytes. -/
def readChunks : Nat → CDataStream → Option (List UInt8)
  | 0, _ => some []
  | nChunks + 1, stream =>
      let chunk := stream.read 4
      if chunk.1.failed then none else (readChunks nChunks chunk.2.2).map (chunk.2.1 ++ ·)

/-- The length of the header leaves out a fingerprint that follows. -/
def validateMessageIntegrity (host : ByteOrder) (digests : Digests) (reader : CStunMessageReader)
    (key : List UInt8) : HRESULT :=
  let lastAttributeIndex := reader.countAttributes - 1
  if reader.state ≠ .bodyValidated then .eFail
  else if reader.countAttributes = 0 then .eFail
  else if reader.indexMessageIntegrity = -1 then .eFail
  else if key = [] then .eInvalidarg
  else
    match reader.lookup stunAttributeMessageintegrity with
    | none => .eFail
    | some attrib =>
        if attrib.size ≠ 20 then .eFail
        else if ¬(reader.indexMessageIntegrity = lastAttributeIndex ∨
            (reader.indexMessageIntegrity = lastAttributeIndex - 1 ∧
              reader.indexFingerprint = lastAttributeIndex)) then .eFail
        else
          let fFingerprintAdjustment : Bool := reader.indexMessageIntegrity = lastAttributeIndex - 1
          let stream := { reader.stream with pos := 0 }
          let type := stream.read 2
          if type.1.failed then type.1
          else
            let length := type.2.2.readUint16 host
            if length.1.failed then length.1
            else
              let chunk16 :=
                if fFingerprintAdjustment then htons host (htons host length.2.1 - 8) else length.2.1
              match readChunks ((attrib.offset.toNat - 4 - 4) / 4) length.2.2 with
              | none => .eInvalidarg
              | some rest =>
                  let hmaccomputed :=
                    digests.hmac key (type.2.1 ++ bytesOf (store16 host (fun _ => 0) 0 chunk16) 2 ++ rest)
                  if hmaccomputed.toList = reader.bytesAt attrib.offset.toNat 20 then .sOk else .eFail

/-- The arguments are strings. -/
def validateMessageIntegrityShort (host : ByteOrder) (digests : Digests) (reader : CStunMessageReader)
    (pszPassword : List UInt8) : HRESULT :=
  reader.validateMessageIntegrity host digests pszPassword

/-- The key and a byte behind it are written into a buffer of 195 bytes without a test. There is no result when they
overrun it. -/
def validateMessageIntegrityLong (host : ByteOrder) (digests : Digests) (reader : CStunMessageReader)
    (pszUser pszRealm pszPassword : List UInt8) : Option HRESULT :=
  let key := longTermKey pszUser pszRealm pszPassword
  if reader.state ≠ .bodyValidated then some .eFail
  else if 64 * 3 + 2 < key.length then none
  else some (reader.validateMessageIntegrity host digests (digests.md5 key).toList)

def getResponsePort (host : ByteOrder) (reader : CStunMessageReader) (port : UInt16) : HRESULT × UInt16 :=
  match reader.lookup stunAttributeResponsePort with
  | none => (.eFail, port)
  | some attrib =>
      if attrib.size ≠ 2 then (.eUnexpected, port)
      else (.sOk, htons host (load16 host (block (reader.bytesAt attrib.offset.toNat 2) fun _ => 0) 0))

/-- A failure clears both flags. -/
def getChangeRequest (host : ByteOrder) (reader : CStunMessageReader) : HRESULT × StunChangeRequestAttribute :=
  match reader.lookup stunAttributeChangerequest with
  | none => (.eFail, ⟨false, false⟩)
  | some attrib =>
      if attrib.size ≠ 4 then (.eUnexpected, ⟨false, false⟩)
      else
        let value := htonl host (load32 host (block (reader.bytesAt attrib.offset.toNat 4) fun _ => 0) 0)
        (.sOk, ⟨value &&& 0x0004 ≠ 0, value &&& 0x0002 ≠ 0⟩)

def getPaddingAttributeSize (reader : CStunMessageReader) : HRESULT × UInt16 :=
  match reader.lookup stunAttributePadding with
  | none => (.eFail, 0)
  | some attrib => (.sOk, attrib.size)

def getAddressHelper (host : ByteOrder) (reader : CStunMessageReader) (attribType : UInt16) (addr : CSocketAddress) :
    HRESULT × CSocketAddress :=
  match reader.lookup attribType with
  | none => (.eFail, addr)
  | some attrib => Nose.mappedAddress host (reader.valueOf attrib) addr

def getMappedAddress (host : ByteOrder) (reader : CStunMessageReader) (addr : CSocketAddress) :
    HRESULT × CSocketAddress := reader.getAddressHelper host stunAttributeMappedaddress addr

/-- A second attribute is looked for when the first one fails. -/
def getAddressOr (host : ByteOrder) (reader : CStunMessageReader) (attribType legacyType : UInt16)
    (addr : CSocketAddress) : HRESULT × CSocketAddress :=
  let found := reader.getAddressHelper host attribType addr
  if found.1.failed then reader.getAddressHelper host legacyType found.2 else found

def getOtherAddress (host : ByteOrder) (reader : CStunMessageReader) (addr : CSocketAddress) :
    HRESULT × CSocketAddress := reader.getAddressOr host stunAttributeOtherAddress stunAttributeChangedaddress addr

def getXorMappedAddress (host : ByteOrder) (reader : CStunMessageReader) (addr : CSocketAddress) :
    HRESULT × CSocketAddress :=
  let found :=
    reader.getAddressOr host stunAttributeXormappedaddress stunAttributeXormappedaddressOptional addr
  if found.1.succeeded then (found.1, found.2.applyStunXorMap reader.transactionid) else found

def getResponseOriginAddress (host : ByteOrder) (reader : CStunMessageReader) (addr : CSocketAddress) :
    HRESULT × CSocketAddress := reader.getAddressOr host stunAttributeResponseOrigin stunAttributeSourceaddress addr

/-- The value has room for a terminator. -/
def getStringAttributeByType {size : Nat} (reader : CStunMessageReader) (attributeType : UInt16)
    (pszValue : CharArray size) : HRESULT × CharArray size :=
  match reader.lookup attributeType with
  | none => (.eInvalidarg, pszValue)
  | some attrib =>
      if size ≤ attrib.size.toNat then (.eInvalidarg, pszValue)
      else (.sOk, pszValue.setString (reader.valueOf attrib))

end CStunMessageReader

end Nose
