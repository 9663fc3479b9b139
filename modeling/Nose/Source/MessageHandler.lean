import Nose.Source.StunBuilder

/-
This file gives the class `CStunRequestHandler` of `messagehandler.cpp`. The pointers to the reader, to the buffer and
to the addresses are not `NULL`. The provider of the authentication is given.
-/

namespace Nose

open CMemory

/-- These are the strings of `stunauth.h`. -/
abbrev AuthString := CharArray 65

def AuthString.zero : AuthString := Vector.replicate 65 0

/-- A zero byte is enforced at the end. -/
def AuthString.terminate (array : AuthString) : AuthString := array.set 64 0

structure AuthAttributes where
  szUser : AuthString
  szRealm : AuthString
  szNonce : AuthString
  szLegacyPassword : AuthString
  fMessageIntegrityPresent : Bool

inductive AuthCredentialMechanism where
  | authCredShortTerm
  | authCredLongTerm
  deriving DecidableEq

inductive AuthResponseType where
  | allow
  | allowConditional
  | staleNonce
  | reject
  | unauthorized
  deriving DecidableEq

structure AuthResponse where
  responseType : AuthResponseType
  authCredMech : AuthCredentialMechanism
  szPassword : AuthString
  szRealm : AuthString
  szNonce : AuthString

structure StunMessageIn where
  socketrole : SocketRole
  addrLocal : CSocketAddress
  addrRemote : CSocketAddress
  reader : CStunMessageReader
  fConnectionOriented : Bool

structure StunMessageOut where
  socketrole : SocketRole
  addrDest : CSocketAddress
  spBufferOut : CBuffer

structure StunMessageIntegrity where
  fSendWithIntegrity : Bool
  fUseLongTerm : Bool
  szUser : AuthString
  szRealm : AuthString
  szPassword : AuthString

structure TransportAddress where
  addr : CSocketAddress
  fValid : Bool

/-- This is `TransportAddressSet`. -/
abbrev TransportAddressSet := SocketRole → TransportAddress

/-- No function writes `attribUnknown`, so it is left out. -/
structure StunErrorCode where
  errorcode : UInt16
  msgclass : StunMessageClass
  msgtype : UInt16
  szNonce : AuthString
  szRealm : AuthString

structure CStunRequestHandler where
  pAuth : Option (AuthAttributes → HRESULT × AuthResponse)
  pAddrSet : TransportAddressSet
  msgIn : StunMessageIn
  msgOut : StunMessageOut
  integrity : StunMessageIntegrity
  error : StunErrorCode
  fRequestHasResponsePort : Bool
  transid : StunTransactionId
  fLegacyMode : Bool

/-- The text of every error. -/
def reasonFailed : List UInt8 := [0x46, 0x41, 0x49, 0x4c, 0x45, 0x44]

namespace CStunRequestHandler

/-- This is the constructor with the pointers that `ProcessRequest` sets. -/
def create (pAuth : Option (AuthAttributes → HRESULT × AuthResponse)) (pAddrSet : TransportAddressSet)
    (msgIn : StunMessageIn) (msgOut : StunMessageOut) : CStunRequestHandler where
  pAuth := pAuth
  pAddrSet := pAddrSet
  msgIn := msgIn
  msgOut := msgOut
  integrity := ⟨false, false, .zero, .zero, .zero⟩
  error := ⟨0, .request, 0, .zero, .zero⟩
  fRequestHasResponsePort := false
  transid := Vector.replicate 16 0
  fLegacyMode := false

def setError (handler : CStunRequestHandler) (errorcode : UInt16) : CStunRequestHandler :=
  { handler with error := { handler.error with errorcode } }

/-- A builder starts over in the buffer of the caller. -/
def builder (handler : CStunRequestHandler) : CStunMessageBuilder :=
  .create (.attach handler.msgOut.spBufferOut true) handler.fLegacyMode

/-- The caller reads its own buffer, also when the stream of the builder has left it. -/
def answer (handler : CStunRequestHandler) (builder : CStunMessageBuilder) : CStunRequestHandler :=
  { handler with
    msgOut := { handler.msgOut with spBufferOut := builder.stream.attached.getD handler.msgOut.spBufferOut } }

def hasAddress (handler : CStunRequestHandler) (role : SocketRole) : Bool := (handler.pAddrSet role).fValid

def isIPAddressZeroOrInvalid (handler : CStunRequestHandler) (role : SocketRole) : Bool :=
  !(handler.hasAddress role && !(handler.pAddrSet role).addr.isIPAddressZero)

def buildErrorResponse (host : ByteOrder) (handler : CStunRequestHandler) : CStunRequestHandler :=
  let error := handler.error
  let builder := (handler.builder.addHeader host error.msgtype error.msgclass).2
  let builder := (builder.addTransactionId handler.transid).2
  let builder := (builder.addErrorCode host error.errorcode reasonFailed).2
  let builder :=
    if error.errorcode = UInt16.ofNat stunErrorStalenonce ∨ error.errorcode = UInt16.ofNat stunErrorUnauthorized then
      let builder :=
        if cstr error.szNonce.toList = [] then builder
        else (builder.addStringAttribute host stunAttributeNonce (cstr error.szNonce.toList)).2
      if cstr error.szRealm.toList = [] then builder
      else (builder.addStringAttribute host stunAttributeRealm (cstr error.szRealm.toList)).2
    else builder
  handler.answer ((builder.fixLengthField host).2.getResult host).2.2

/-- The attributes of a success come in the order that old clients know. -/
def successResponse (host : ByteOrder) (digests : Digests) (handler : CStunRequestHandler)
    (addrOrigin addrOther : Option CSocketAddress) : CStunMessageBuilder :=
  let builder := (handler.builder.addHeader host stunMsgTypeBinding .successResponse).2
  let builder := (builder.addTransactionId handler.transid).2
  let builder := (builder.addMappedAddress host handler.msgIn.addrRemote).2
  let builder :=
    match addrOrigin with
    | some addr => (builder.addResponseOriginAddress host addr).2
    | none => builder
  let builder :=
    match addrOther with
    | some addr => (builder.addOtherAddress host addr).2
    | none => builder
  let builder := (builder.addXorMappedAddress host handler.msgIn.addrRemote).2
  let integrity := handler.integrity
  let builder :=
    if integrity.fSendWithIntegrity then
      if integrity.fUseLongTerm then
        (builder.addMessageIntegrityLongTerm host digests (cstr integrity.szUser.toList)
          (cstr integrity.szRealm.toList) (cstr integrity.szPassword.toList)).2
      else (builder.addMessageIntegrityShortTerm host digests (cstr integrity.szPassword.toList)).2
    else builder
  (builder.fixLengthField host).2

/-- The socket that the request asks for. A request that changes nothing is answered from its own socket. -/
def outputSocket (handler : CStunRequestHandler) (changerequest : StunChangeRequestAttribute) : SocketRole :=
  let role := handler.msgIn.socketrole
  let role := if changerequest.fChangeIP then socketRoleSwapIP role else role
  if changerequest.fChangePort then socketRoleSwapPort role else role

/-- The other address needs all four sockets and an address that is known. -/
def otherAddress (handler : CStunRequestHandler) : Option CSocketAddress :=
  let socketOther := socketRoleSwapIP (socketRoleSwapPort handler.msgIn.socketrole)
  if handler.hasAddress .pp ∧ handler.hasAddress .pa ∧ handler.hasAddress .ap ∧ handler.hasAddress .aa ∧
      handler.isIPAddressZeroOrInvalid socketOther = false then
    some (handler.pAddrSet socketOther).addr
  else none

/-- A socket without a known address has the address that the message came in on. -/
def originAddress (handler : CStunRequestHandler) (socketOutput : SocketRole) : Option CSocketAddress :=
  let addrOrigin := (handler.pAddrSet socketOutput).addr
  let addrOrigin :=
    if addrOrigin.isIPAddressZero ∧ socketOutput = handler.msgIn.socketrole then handler.msgIn.addrLocal
    else addrOrigin
  if addrOrigin.isIPAddressZero then none else some addrOrigin

def processBindingRequest (host : ByteOrder) (digests : Digests) (handler : CStunRequestHandler) :
    HRESULT × CStunRequestHandler :=
  let reader := handler.msgIn.reader
  let fRequestHasPaddingAttribute := reader.getPaddingAttributeSize.1.succeeded
  let changerequest := reader.getChangeRequest host
  let changes := changerequest.1.succeeded && (changerequest.2.fChangeIP || changerequest.2.fChangePort)
  let socketOutput := if changes then handler.outputSocket changerequest.2 else handler.msgIn.socketrole
  if handler.fRequestHasResponsePort && fRequestHasPaddingAttribute then
    (.eFail, handler.setError (UInt16.ofNat stunErrorBadrequest))
  else if changes && (!handler.hasAddress socketOutput || handler.msgIn.fConnectionOriented) then
    (.eFail, handler.setError (UInt16.ofNat stunErrorBadrequest))
  else
    let builder :=
      handler.successResponse host digests (handler.originAddress socketOutput) handler.otherAddress
    let handler := { handler with msgOut := { handler.msgOut with socketrole := socketOutput } }
    (.sOk, handler.answer builder)

/-- The strings of the request that are missing or too long stay empty. -/
def authAttributes (handler : CStunRequestHandler) : AuthAttributes :=
  let reader := handler.msgIn.reader
  { szUser := (reader.getStringAttributeByType stunAttributeUsername AuthString.zero).2
    szRealm := (reader.getStringAttributeByType stunAttributeRealm AuthString.zero).2
    szNonce := (reader.getStringAttributeByType stunAttributeNonce AuthString.zero).2
    szLegacyPassword := (reader.getStringAttributeByType stunAttributeLegacyPassword AuthString.zero).2
    fMessageIntegrityPresent := reader.hasMessageIntegrityAttribute }

/-- A wrong password becomes a 401. The strings have 64 bytes at most, so they do not overrun the buffer for the key. -/
def checkCredentials (host : ByteOrder) (digests : Digests) (handler : CStunRequestHandler)
    (attributes : AuthAttributes) (response : AuthResponse) : CStunRequestHandler :=
  let reader := handler.msgIn.reader
  let fUseLongTerm : Bool := response.authCredMech = .authCredLongTerm
  let hrRet :=
    if fUseLongTerm then
      reader.validateMessageIntegrityLong host digests (cstr attributes.szUser.toList)
        (cstr attributes.szRealm.toList) (cstr response.szPassword.toList)
    else some (reader.validateMessageIntegrityShort host digests (cstr response.szPassword.toList))
  if hrRet.any HRESULT.succeeded then
    { handler with
      integrity := ⟨true, fUseLongTerm, attributes.szUser, attributes.szRealm, response.szPassword⟩ }
  else handler.setError (UInt16.ofNat stunErrorUnauthorized)

def validateAuth (host : ByteOrder) (digests : Digests) (handler : CStunRequestHandler) :
    HRESULT × CStunRequestHandler :=
  match handler.pAuth with
  | none => (.sOk, handler)
  | some doAuthCheck =>
      let attributes := handler.authAttributes
      let checked := doAuthCheck attributes
      if checked.1.failed then (checked.1, handler)
      else
        let response :=
          { checked.2 with
            szNonce := checked.2.szNonce.terminate
            szRealm := checked.2.szRealm.terminate
            szPassword := checked.2.szPassword.terminate }
        let handler :=
          match response.responseType with
          | .staleNonce => handler.setError (UInt16.ofNat stunErrorStalenonce)
          | .unauthorized => handler.setError (UInt16.ofNat stunErrorUnauthorized)
          | .reject => handler.setError (UInt16.ofNat stunErrorBadrequest)
          | .allow => handler
          | .allowConditional => handler.checkCredentials host digests attributes response
        let challenged :=
          handler.error.errorcode = UInt16.ofNat stunErrorUnauthorized ∨
            handler.error.errorcode = UInt16.ofNat stunErrorStalenonce
        (checked.1,
          if challenged then
            { handler with
              error := { handler.error with szRealm := response.szRealm, szNonce := response.szNonce } }
          else handler)

/-- A failure without an error code becomes a 400. -/
def orBadRequest (result : HRESULT × CStunRequestHandler) : CStunRequestHandler :=
  if result.1.failed ∧ result.2.error.errorcode = 0 then result.2.setError (UInt16.ofNat stunErrorBadrequest)
  else result.2

/-- A later part runs only when there is no error yet. -/
def unlessError (part : CStunRequestHandler → CStunRequestHandler) (handler : CStunRequestHandler) :
    CStunRequestHandler :=
  if handler.error.errorcode = 0 then part handler else handler

/-- A connection cannot be answered at another port. -/
def honorResponsePort (host : ByteOrder) (handler : CStunRequestHandler) : CStunRequestHandler :=
  let responseport := (handler.msgIn.reader.getResponsePort host 0).2
  if responseport = 0 then handler
  else
    let handler := { handler with fRequestHasResponsePort := true }
    if handler.msgIn.fConnectionOriented then handler.setError (UInt16.ofNat stunErrorBadrequest)
    else
      { handler with
        msgOut := { handler.msgOut with addrDest := handler.msgOut.addrDest.setPort responseport } }

def processRequestImpl (host : ByteOrder) (digests : Digests) (handler : CStunRequestHandler) :
    HRESULT × CStunRequestHandler :=
  let reader := handler.msgIn.reader
  if reader.msgClass ≠ .request then (.eFail, handler)
  else
    let handler :=
      { handler with
        error := { handler.error with msgtype := reader.msgTypeNormalized, msgclass := .failureResponse }
        transid := reader.transactionid
        fLegacyMode := reader.fMessageIsLegacyFormat }
    let handler := handler.honorResponsePort host
    let handler :=
      unlessError (fun handler =>
        if reader.msgTypeNormalized ≠ stunMsgTypeBinding then handler.setError (UInt16.ofNat stunErrorBadrequest)
        else handler) handler
    let handler := unlessError (fun handler => orBadRequest (handler.validateAuth host digests)) handler
    let handler := unlessError (fun handler => orBadRequest (handler.processBindingRequest host digests)) handler
    (.sOk, if handler.error.errorcode = 0 then handler else handler.buildErrorResponse host)

/-- This is `ProcessRequest`. The answer goes out where the message came in, unless the request asks otherwise. -/
def processRequest (host : ByteOrder) (digests : Digests) (msgIn : StunMessageIn) (msgOut : StunMessageOut)
    (pAddressSet : TransportAddressSet) (pAuth : Option (AuthAttributes → HRESULT × AuthResponse)) :
    HRESULT × StunMessageOut :=
  if msgOut.spBufferOut.allocatedSize < maxStunMessageSize then (.eInvalidarg, msgOut)
  else if msgIn.reader.state ≠ .bodyValidated then (.eUnexpected, msgOut)
  else
    let msgOut :=
      { socketrole := msgIn.socketrole, addrDest := msgIn.addrRemote,
        spBufferOut := { msgOut.spBufferOut with data := [] } }
    let result := processRequestImpl host digests (create pAuth pAddressSet msgIn msgOut)
    (result.1, result.2.msgOut)

end CStunRequestHandler

end Nose
