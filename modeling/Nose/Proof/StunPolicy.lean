import Nose.Proof.StunAttributes

/-
This file says what the server answers to a request, and it shows that the request handler writes this answer into the
buffer of its caller.
-/

namespace Nose

open CMemory PaddedRecords CStunMessageBuilder CStunMessageReader

/-- A string of at most 64 bytes. -/
abbrev ShortText := { text : List UInt8 // text.length ≤ 64 }

/-- The string of an array that ends with a zero. -/
def AuthString.text (array : AuthString) : ShortText where
  val := cstr array.terminate.toList
  property := by
    have terminated : (0 : UInt8) ∈ array.terminate.toList := by
      rw [Vector.mem_toList_iff]
      exact Vector.mem_set (by decide)
    have short := length_cstr_lt terminated
    rw [Vector.length_toList] at short
    omega

/-- A request is refused with an error, or it is answered with the address that it came from. -/
inductive StunAnswer where
  | refused (errorcode : Nat) (nonce realm : ShortText)
  | mapped (socketrole : SocketRole) (origin other : Option CSocketAddress) (credential : Option Credential)

namespace StunAnswer

/-- A request is refused without a challenge. -/
def bad : StunAnswer := .refused stunErrorBadrequest ⟨[], by decide⟩ ⟨[], by decide⟩

def msgClass : StunAnswer → StunMessageClass
  | refused .. => .failureResponse
  | mapped .. => .successResponse

/-- A refusal goes out where the request came in. -/
def socketrole (incoming : SocketRole) : StunAnswer → SocketRole
  | refused .. => incoming
  | mapped socketrole .. => socketrole

def stringCall (attribType : UInt16) (text : ShortText) : BuilderCall :=
  .addStringAttribute attribType text.val (by
    have few := padding_lt text.val.length
    have short := text.property
    omega)

/-- The attributes of the answer. -/
def calls (addrRemote : CSocketAddress) : StunAnswer → List BuilderCall
  | refused errorcode nonce realm =>
      [.addErrorCode (UInt16.ofNat errorcode) reasonFailed, stringCall stunAttributeNonce nonce,
        stringCall stunAttributeRealm realm]
  | mapped _ origin other credential =>
      [.addMappedAddress addrRemote] ++ origin.toList.map .addResponseOriginAddress ++
        other.toList.map .addOtherAddress ++ [.addXorMappedAddress addrRemote] ++ credential.toList.map Credential.call

end StunAnswer

namespace StunMessage

variable (digests : Digests) (pAddrSet : TransportAddressSet)
  (pAuth : Option (AuthAttributes → HRESULT × AuthResponse)) (message : StunMessage)

/-- The user and the realm of the request with the password that the provider knows. -/
def credential (response : AuthResponse) : Credential :=
  if response.authCredMech = .authCredLongTerm then
    .longTerm (cstr message.authAttributes.szUser.toList) (cstr message.authAttributes.szRealm.toList)
      response.szPassword.text
  else .shortTerm response.szPassword.text

/-- The strings of a request and of a provider fit into the buffer for the key. -/
theorem fits_credential (response : AuthResponse) : (message.credential response).Fits := by
  have short (type : UInt16) : (cstr (message.authString type).toList).length ≤ 64 := by
    rw [authString]
    split
    · decide
    · split
      · decide
      · rename_i fits
        have terminated := AuthString.zero.zero_mem_setString _ (Nat.lt_of_not_le fits)
        have inside := length_cstr_lt terminated
        rw [Vector.length_toList] at inside
        omega
  rw [credential]
  split
  · have user := short stunAttributeUsername
    have realm := short stunAttributeRealm
    have password := response.szPassword.text.property
    simp only [Credential.Fits, longTermKey, List.length_append, List.length_cons, List.length_nil, authAttributes]
    omega
  · trivial

open Classical in
/-- The provider lets the request pass, asks for credentials or refuses it. -/
noncomputable def authorize : Except StunAnswer (Option Credential) :=
  match pAuth with
  | none => .ok none
  | some doAuthCheck =>
      let checked := doAuthCheck message.authAttributes
      if checked.1.failed then .error .bad
      else
        match checked.2.responseType with
        | .staleNonce => .error (.refused stunErrorStalenonce checked.2.szNonce.text checked.2.szRealm.text)
        | .unauthorized => .error (.refused stunErrorUnauthorized checked.2.szNonce.text checked.2.szRealm.text)
        | .reject => .error .bad
        | .allow => .ok none
        | .allowConditional =>
            if Signed digests ((message.credential checked.2).signer digests) message then
              .ok (some (message.credential checked.2))
            else .error (.refused stunErrorUnauthorized checked.2.szNonce.text checked.2.szRealm.text)

/-- The socket that the request asks for. -/
def outputSocket (socketrole : SocketRole) : SocketRole :=
  let role := if message.changeRequest.fChangeIP then socketRoleSwapIP socketrole else socketrole
  if message.changeRequest.fChangePort then socketRoleSwapPort role else role

/-- The request asks for another socket than its own. -/
def changes : Bool := message.changeRequest.fChangeIP || message.changeRequest.fChangePort

/-- The other address of a server with four sockets is known. -/
def otherAddress (socketrole : SocketRole) : Option CSocketAddress :=
  let other := pAddrSet (socketRoleSwapIP (socketRoleSwapPort socketrole))
  if (∀ role ∈ [SocketRole.pp, .pa, .ap, .aa], (pAddrSet role).fValid = true) ∧
      other.addr.isIPAddressZero = false then some other.addr
  else none

/-- The address of the socket that answers. -/
def originAddress (addrLocal : CSocketAddress) (socketrole output : SocketRole) : Option CSocketAddress :=
  if (pAddrSet output).addr.isIPAddressZero = false then some (pAddrSet output).addr
  else if output = socketrole ∧ addrLocal.isIPAddressZero = false then some addrLocal
  else none

/-- The answer to a binding request that the provider has let pass. -/
def bound (msgIn : StunMessageIn) (credential : Option Credential) : StunAnswer :=
  if message.responsePort ≠ 0 ∧ message.has stunAttributePadding = true then .bad
  else if message.changes = true ∧ ((pAddrSet (message.outputSocket msgIn.socketrole)).fValid = false ∨
      msgIn.fConnectionOriented = true) then .bad
  else
    .mapped (message.outputSocket msgIn.socketrole)
      (originAddress pAddrSet msgIn.addrLocal msgIn.socketrole (message.outputSocket msgIn.socketrole))
      (otherAddress pAddrSet msgIn.socketrole) credential

/-- This is the answer of the server to a request that comes in on a socket. -/
noncomputable def answer (msgIn : StunMessageIn) : StunAnswer :=
  if message.responsePort ≠ 0 ∧ msgIn.fConnectionOriented = true then .bad
  else if normalizedType message.msgType ≠ stunMsgTypeBinding then .bad
  else
    match message.authorize digests pAuth with
    | .error refusal => refusal
    | .ok credential => message.bound pAddrSet msgIn credential

/-- The port of the destination can be another one than that of the client. -/
def destination (msgIn : StunMessageIn) : CSocketAddress :=
  if message.responsePort ≠ 0 ∧ msgIn.fConnectionOriented = false then msgIn.addrRemote.setPort message.responsePort
  else msgIn.addrRemote

end StunMessage

namespace StunAnswer

/-- A call that adds an address is short, whatever the type of the attribute. -/
theorem short_address {call : BuilderCall}
    (adds : ∀ digests legacy header records, ∃ type addr,
      call.record digests legacy header records = some (addressAttribute legacy type addr)) : call.Short := by
  intro digests legacy header records record known
  obtain ⟨type, addr, added⟩ := adds digests legacy header records
  obtain rfl := Option.some.inj (added.symm.trans known)
  exact (length_addressAttribute legacy type addr).trans (by decide)

theorem short_credential (credential : Credential) : credential.call.Short := by
  intro digests legacy header records record known
  obtain ⟨digest, rfl⟩ := Credential.record_call_signature known
  rw [encode_integrityAttribute]
  simp

theorem short_stringCall (attribType : UInt16) (text : ShortText) : (stringCall attribType text).Short := by
  intro digests legacy header records record known
  rw [stringCall, BuilderCall.record] at known
  split at known
  · cases known
  · obtain rfl := Option.some.inj known
    have few := padding_lt text.val.length
    have short := text.property
    rw [length_attributeOf]
    omega

theorem short_addErrorCode (errorNumber : UInt16) : (BuilderCall.addErrorCode errorNumber reasonFailed).Short := by
  intro digests legacy header records record known
  rw [BuilderCall.record, dif_pos (by decide)] at known
  split at known
  · cases known
  · obtain rfl := Option.some.inj known
    rw [length_attributeOf, length_errorValue]
    decide

/-- Every answer is within the limits of the reader, and the buffer of the caller has room for it. -/
theorem limits_calls (answer : StunAnswer) (addrRemote : CSocketAddress) (digests : Digests) (legacy : Bool)
    (header : StunHeader) :
    Limits (recordsAfter digests legacy header [] (answer.calls addrRemote)) ∧
      (encodeAll (recordsAfter digests legacy header [] (answer.calls addrRemote))).length ≤ 500 := by
  cases answer with
  | refused errorcode nonce realm =>
      refine limits_recordsAfter digests legacy header (fun call member => ?_) (by simp [calls])
      simp only [calls, List.mem_cons, List.not_mem_nil, or_false] at member
      rcases member with rfl | rfl | rfl
      · exact short_addErrorCode _
      · exact short_stringCall _ _
      · exact short_stringCall _ _
  | mapped role origin other credential =>
      refine limits_recordsAfter digests legacy header (fun call member => ?_) ?_
      · simp only [calls, List.mem_append, List.mem_cons, List.not_mem_nil, or_false, List.mem_map] at member
        rcases member with (((rfl | ⟨addr, -, rfl⟩) | ⟨addr, -, rfl⟩) | rfl) | ⟨credential, -, rfl⟩
        · exact short_address fun _ _ _ _ => ⟨_, _, rfl⟩
        · exact short_address fun _ _ _ _ => ⟨_, _, rfl⟩
        · exact short_address fun _ _ _ _ => ⟨_, _, rfl⟩
        · exact short_address fun _ _ _ _ => ⟨_, _, rfl⟩
        · exact short_credential _
      · cases origin <;> cases other <;> cases credential <;> simp [calls]

end StunAnswer

namespace CStunRequestHandler

variable {digests : Digests} {pAddrSet : TransportAddressSet}
  {pAuth : Option (AuthAttributes → HRESULT × AuthResponse)} {message : StunMessage} {msgIn : StunMessageIn}
  {allocatedSize : Nat} {handler : CStunRequestHandler} {host : ByteOrder}

/-- The handler works on the request with the addresses and the provider. -/
structure Handles (pAddrSet : TransportAddressSet) (pAuth : Option (AuthAttributes → HRESULT × AuthResponse))
    (message : StunMessage) (msgIn : StunMessageIn) (allocatedSize : Nat) (handler : CStunRequestHandler) : Prop where
  addresses : handler.pAddrSet = pAddrSet
  provider : handler.pAuth = pAuth
  incoming : handler.msgIn = msgIn
  transid : handler.transid = message.transid
  legacy : handler.fLegacyMode = message.header.legacy
  msgtype : handler.error.msgtype = normalizedType message.msgType
  msgclass : handler.error.msgclass = .failureResponse
  responsePort : handler.fRequestHasResponsePort = decide (message.responsePort ≠ 0)
  outgoing : handler.msgOut = ⟨msgIn.socketrole, message.destination msgIn, ⟨[], allocatedSize⟩⟩

/-- The answer will be signed with the credentials. -/
def Sends (integrity : StunMessageIntegrity) : Option Credential → Prop
  | none => integrity.fSendWithIntegrity = false
  | some credential =>
      integrity.fSendWithIntegrity = true ∧
        credential =
          if integrity.fUseLongTerm then
            .longTerm (cstr integrity.szUser.toList) (cstr integrity.szRealm.toList)
              (cstr integrity.szPassword.toList)
          else .shortTerm (cstr integrity.szPassword.toList)

/-- The handler has let the request pass so far, or it has an error for the refusal. -/
def Stands (handler : CStunRequestHandler) : Except StunAnswer (Option Credential) → Prop
  | .ok credential => handler.error.errorcode = 0 ∧ Sends handler.integrity credential
  | .error (.refused errorcode nonce realm) =>
      handler.error.errorcode = UInt16.ofNat errorcode ∧
        ((errorcode = stunErrorBadrequest ∧ nonce.val = [] ∧ realm.val = []) ∨
          ((errorcode = stunErrorUnauthorized ∨ errorcode = stunErrorStalenonce) ∧
            cstr handler.error.szNonce.toList = nonce.val ∧ cstr handler.error.szRealm.toList = realm.val))
  | .error (.mapped ..) => False

theorem Handles.setError (handles : Handles pAddrSet pAuth message msgIn allocatedSize handler) (errorcode : UInt16) :
    Handles pAddrSet pAuth message msgIn allocatedSize (handler.setError errorcode) :=
  ⟨handles.addresses, handles.provider, handles.incoming, handles.transid, handles.legacy, handles.msgtype,
    handles.msgclass, handles.responsePort, handles.outgoing⟩

theorem stands_bad (handler : CStunRequestHandler) :
    Stands (handler.setError (UInt16.ofNat stunErrorBadrequest)) (.error .bad) := ⟨rfl, .inl ⟨rfl, rfl, rfl⟩⟩

/-- A refusal has a code. -/
theorem Stands.code {refusal : StunAnswer} (stands : Stands handler (.error refusal)) : handler.error.errorcode ≠ 0 := by
  match refusal, stands with
  | .refused errorcode nonce realm, stands =>
      rw [stands.1]
      rcases stands.2 with ⟨rfl, -⟩ | ⟨rfl | rfl, -⟩ <;> decide

/-- The later parts do not run after a refusal. -/
theorem Stands.stops {refusal : StunAnswer} (stands : Stands handler (.error refusal))
    (part : CStunRequestHandler → CStunRequestHandler) : unlessError part handler = handler := if_neg stands.code

theorem Stands.goes_on {credential : Option Credential} (stands : Stands handler (.ok credential))
    (part : CStunRequestHandler → CStunRequestHandler) : unlessError part handler = part handler := if_pos stands.1

/-- The handler at the start of a request. -/
def begun (pAddrSet : TransportAddressSet) (pAuth : Option (AuthAttributes → HRESULT × AuthResponse))
    (message : StunMessage) (msgIn : StunMessageIn) (allocatedSize : Nat) : CStunRequestHandler :=
  { create pAuth pAddrSet msgIn ⟨msgIn.socketrole, msgIn.addrRemote, ⟨[], allocatedSize⟩⟩ with
    error := ⟨0, .failureResponse, normalizedType message.msgType, .zero, .zero⟩
    transid := message.transid
    fLegacyMode := message.header.legacy }

/-- An unusable port of a connection is refused, and a usable one is the destination. -/
theorem honorResponsePort_stands (reads : Reads message msgIn.reader) (host : ByteOrder) :
    Handles pAddrSet pAuth message msgIn allocatedSize
        ((begun pAddrSet pAuth message msgIn allocatedSize).honorResponsePort host) ∧
      Stands ((begun pAddrSet pAuth message msgIn allocatedSize).honorResponsePort host)
        (if message.responsePort ≠ 0 ∧ msgIn.fConnectionOriented = true then .error .bad else .ok none) := by
  have port : (getResponsePort host (begun pAddrSet pAuth message msgIn allocatedSize).msgIn.reader 0).2 =
      message.responsePort := reads.getResponsePort host
  have connection : (begun pAddrSet pAuth message msgIn allocatedSize).msgIn.fConnectionOriented =
      msgIn.fConnectionOriented := rfl
  rw [honorResponsePort, port]
  dsimp only
  rw [connection]
  by_cases zero : message.responsePort = 0
  · rw [if_pos zero, if_neg (by simp [zero])]
    refine ⟨⟨rfl, rfl, rfl, rfl, rfl, rfl, rfl, ?_, ?_⟩, rfl, rfl⟩
    · rw [zero]
      rfl
    · rw [StunMessage.destination, if_neg (by simp [zero])]
      rfl
  · rw [if_neg zero]
    cases connected : msgIn.fConnectionOriented with
    | true =>
        rw [if_pos rfl, if_pos ⟨zero, rfl⟩]
        refine ⟨⟨rfl, rfl, rfl, rfl, rfl, rfl, rfl, (decide_eq_true zero).symm, ?_⟩, stands_bad _⟩
        rw [StunMessage.destination, connected, if_neg (by simp)]
        rfl
    | false =>
        rw [if_neg (by decide), if_neg (by simp)]
        refine ⟨⟨rfl, rfl, rfl, rfl, rfl, rfl, rfl, (decide_eq_true zero).symm, ?_⟩, rfl, rfl⟩
        rw [StunMessage.destination, connected, if_pos ⟨zero, rfl⟩]
        rfl

/-- The response with its enforced terminators. -/
def terminated (response : AuthResponse) : AuthResponse :=
  { response with
    szNonce := response.szNonce.terminate
    szRealm := response.szRealm.terminate
    szPassword := response.szPassword.terminate }

/-- The error of a challenge carries the strings of the provider. -/
def challenged (handler : CStunRequestHandler) (response : AuthResponse) : CStunRequestHandler :=
  { handler with
    error := { handler.error with szRealm := response.szRealm.terminate, szNonce := response.szNonce.terminate } }

theorem Handles.challenged (handles : Handles pAddrSet pAuth message msgIn allocatedSize handler)
    (response : AuthResponse) :
    Handles pAddrSet pAuth message msgIn allocatedSize (handler.challenged response) :=
  ⟨handles.addresses, handles.provider, handles.incoming, handles.transid, handles.legacy, handles.msgtype,
    handles.msgclass, handles.responsePort, handles.outgoing⟩

/-- A challenge has one of two codes. -/
def challengedIf (handler : CStunRequestHandler) (response : AuthResponse) : CStunRequestHandler :=
  if handler.error.errorcode = UInt16.ofNat stunErrorUnauthorized ∨
      handler.error.errorcode = UInt16.ofNat stunErrorStalenonce then handler.challenged response
  else handler

/-- What the handler does about the response of the provider. -/
def decided (host : ByteOrder) (digests : Digests) (handler : CStunRequestHandler) (attributes : AuthAttributes)
    (response : AuthResponse) : CStunRequestHandler :=
  match response.responseType with
  | .staleNonce => handler.setError (UInt16.ofNat stunErrorStalenonce)
  | .unauthorized => handler.setError (UInt16.ofNat stunErrorUnauthorized)
  | .reject => handler.setError (UInt16.ofNat stunErrorBadrequest)
  | .allow => handler
  | .allowConditional => handler.checkCredentials host digests attributes (terminated response)

theorem validateAuth_eq {doAuthCheck : AuthAttributes → HRESULT × AuthResponse}
    (provider : handler.pAuth = some doAuthCheck)
    (success : (doAuthCheck handler.authAttributes).1.failed = false) :
    handler.validateAuth host digests =
      ((doAuthCheck handler.authAttributes).1,
        (handler.decided host digests handler.authAttributes
          (doAuthCheck handler.authAttributes).2).challengedIf (doAuthCheck handler.authAttributes).2) := by
  rw [validateAuth, provider]
  dsimp only
  rw [success, if_neg (by decide)]
  rfl

theorem stands_challenged {errorcode : Nat} (code : errorcode = stunErrorUnauthorized ∨ errorcode = stunErrorStalenonce)
    (handler : CStunRequestHandler) (response : AuthResponse) :
    (handler.setError (UInt16.ofNat errorcode)).challengedIf response =
        (handler.setError (UInt16.ofNat errorcode)).challenged response ∧
      Stands ((handler.setError (UInt16.ofNat errorcode)).challenged response)
        (.error (.refused errorcode response.szNonce.text response.szRealm.text)) := by
  refine ⟨if_pos ?_, rfl, .inr ⟨code, rfl, rfl⟩⟩
  rcases code with rfl | rfl
  · exact .inl rfl
  · exact .inr rfl

/-- The credentials are right exactly when the request is signed with them. -/
theorem checkCredentials_eq (reads : Reads message handler.msgIn.reader) (host : ByteOrder) (digests : Digests)
    (response : AuthResponse) :
    (Signed digests ((message.credential response).signer digests) message ∧
      ∃ integrity, Sends integrity (some (message.credential response)) ∧
        handler.checkCredentials host digests message.authAttributes (terminated response) =
          { handler with integrity := integrity }) ∨
    (¬Signed digests ((message.credential response).signer digests) message ∧
      handler.checkCredentials host digests message.authAttributes (terminated response) =
        handler.setError (UInt16.ofNat stunErrorUnauthorized)) := by
  have fits := message.fits_credential response
  have validates := reads.validate_iff host digests ((message.credential response).signer digests)
  have checks : handler.checkCredentials host digests message.authAttributes (terminated response) =
      if (handler.msgIn.reader.validateMessageIntegrity host digests
          ((message.credential response).signer digests)).succeeded then
        { handler with
          integrity := ⟨true, response.authCredMech = .authCredLongTerm, message.authAttributes.szUser,
            message.authAttributes.szRealm, response.szPassword.terminate⟩ }
      else handler.setError (UInt16.ofNat stunErrorUnauthorized) := by
    have whole := Credential.validate_fits reads.state host digests fits
    rw [checkCredentials]
    rw [StunMessage.credential] at whole ⊢
    cases kind : response.authCredMech with
    | authCredShortTerm => simp [terminated, kind, Credential.signer, validateMessageIntegrityShort, AuthString.text]
    | authCredLongTerm =>
        simp only [kind, if_true, Credential.validate, AuthString.text] at whole
        simp [terminated, kind, whole, AuthString.text]
  rw [checks]
  by_cases signed : Signed digests ((message.credential response).signer digests) message
  · rw [if_pos (validates.mpr signed)]
    refine .inl ⟨signed, _, ⟨rfl, ?_⟩, rfl⟩
    rw [StunMessage.credential]
    simp [AuthString.text]
  · rw [if_neg fun valid => signed (validates.mp valid)]
    exact .inr ⟨signed, rfl⟩

/-- The provider decides, and credentials are checked against the signature of the request. -/
theorem validateAuth_stands (reads : Reads message msgIn.reader) (host : ByteOrder) (digests : Digests)
    (handles : Handles pAddrSet pAuth message msgIn allocatedSize handler) (stands : Stands handler (.ok none)) :
    Handles pAddrSet pAuth message msgIn allocatedSize (orBadRequest (handler.validateAuth host digests)) ∧
      Stands (orBadRequest (handler.validateAuth host digests)) (message.authorize digests pAuth) := by
  obtain ⟨noError, unsigned⟩ := stands
  have reads' : Reads message handler.msgIn.reader := by rw [handles.incoming]; exact reads
  have attributes : handler.authAttributes = message.authAttributes := reads'.authAttributes
  have passes (response : AuthResponse) : handler.challengedIf response = handler := by
    rw [challengedIf, noError, if_neg (by decide)]
  unfold StunMessage.authorize
  cases pAuth with
  | none =>
      rw [validateAuth, handles.provider, orBadRequest, if_neg (by simp)]
      exact ⟨handles, noError, unsigned⟩
  | some doAuthCheck =>
      have validates := @validateAuth_eq digests handler host _ handles.provider
      rw [attributes] at validates
      cases failed : (doAuthCheck message.authAttributes).1.failed with
      | true =>
          rw [validateAuth, handles.provider]
          dsimp only
          rw [attributes, failed, if_pos rfl, if_pos rfl, orBadRequest, if_pos ⟨failed, noError⟩]
          exact ⟨handles.setError _, stands_bad handler⟩
      | false =>
          rw [validates failed, orBadRequest, if_neg (by simp [failed])]
          dsimp only
          rw [failed, if_neg (by decide), decided]
          generalize (doAuthCheck message.authAttributes).2 = response
          cases kind : response.responseType with
          | allow =>
              dsimp only
              rw [passes]
              exact ⟨handles, noError, unsigned⟩
          | allowConditional =>
              dsimp only
              rcases checkCredentials_eq reads' host digests response with ⟨signed, integrity, sends, same⟩ |
                ⟨unsigned', same⟩
              · rw [same, if_pos signed, challengedIf, if_neg (by rw [noError]; decide)]
                exact ⟨⟨handles.addresses, handles.provider, handles.incoming, handles.transid, handles.legacy,
                  handles.msgtype, handles.msgclass, handles.responsePort, handles.outgoing⟩, noError, sends⟩
              · obtain ⟨challenge, stands⟩ := stands_challenged (.inl rfl) handler response
                rw [same, if_neg unsigned', challenge]
                exact ⟨(handles.setError _).challenged _, stands⟩
          | staleNonce =>
              obtain ⟨challenge, stands⟩ := stands_challenged (.inr rfl) handler response
              dsimp only
              rw [challenge]
              exact ⟨(handles.setError _).challenged _, stands⟩
          | reject =>
              have refused : (handler.setError (UInt16.ofNat stunErrorBadrequest)).challengedIf response =
                  handler.setError (UInt16.ofNat stunErrorBadrequest) :=
                if_neg (show ¬(UInt16.ofNat stunErrorBadrequest = UInt16.ofNat stunErrorUnauthorized ∨
                  UInt16.ofNat stunErrorBadrequest = UInt16.ofNat stunErrorStalenonce) by decide)
              dsimp only
              rw [refused]
              exact ⟨handles.setError _, stands_bad handler⟩
          | unauthorized =>
              obtain ⟨challenge, stands⟩ := stands_challenged (.inl rfl) handler response
              dsimp only
              rw [challenge]
              exact ⟨(handles.setError _).challenged _, stands⟩

/-- The bytes of an answer in the buffer of the caller. -/
def encoded (digests : Digests) (message : StunMessage) (msgIn : StunMessageIn) (answer : StunAnswer)
    (msgType : UInt16) : List UInt8 :=
  (messageOf msgType answer.msgClass message.transid
    (answer.limits_calls msgIn.addrRemote digests message.header.legacy
      (headerOf msgType answer.msgClass message.transid)).1).encode

/-- The calls of an answer leave its bytes in the buffer, also when the length field is fixed again. -/
theorem answer_fixed (host : ByteOrder) (handler : CStunRequestHandler) (room : maxStunMessageSize ≤ allocatedSize)
    (digests : Digests) (message : StunMessage) (msgIn : StunMessageIn) (answer : StunAnswer) (msgType : UInt16) :
    let built := performAll host digests (answer.calls msgIn.addrRemote)
      (start host msgType answer.msgClass message.transid message.header.legacy ⟨[], allocatedSize⟩)
    (handler.answer (built.fixLengthField host).2).msgOut =
        { handler.msgOut with spBufferOut := ⟨encoded digests message msgIn answer msgType, allocatedSize⟩ } ∧
      (handler.answer ((built.fixLengthField host).2.fixLengthField host).2).msgOut =
        { handler.msgOut with spBufferOut := ⟨encoded digests message msgIn answer msgType, allocatedSize⟩ } := by
  obtain ⟨limits, short⟩ := answer.limits_calls msgIn.addrRemote digests message.header.legacy
    (headerOf msgType answer.msgClass message.transid)
  have large : 800 ≤ allocatedSize := room
  have bounded : (encodeAll (recordsAfter digests message.header.legacy
      (headerOf msgType answer.msgClass message.transid) [] (answer.calls msgIn.addrRemote))).length < 2 ^ 63 := by omega
  obtain ⟨-, contains, stays⟩ := build_finished host digests msgType answer.msgClass message.transid
    message.header.legacy ⟨[], allocatedSize⟩ bounded
  obtain ⟨-, again, becomes⟩ := contains.fixLengthField host
  rw [counted_counted] at again
  have length : (encoded digests message msgIn answer msgType).length ≤ allocatedSize := by
    rw [encoded, encode_messageOf, List.length_append, StunHeader.length_encode]
    omega
  have writes {builder : CStunMessageBuilder} {header : StunHeader} {records : List PaddedRecord}
      (contains : builder.Contains header records) (stays : Stays ⟨[], allocatedSize⟩ builder)
      (same : header.encode ++ encodeAll records = encoded digests message msgIn answer msgType) :
      (handler.answer builder).msgOut =
        { handler.msgOut with spBufferOut := ⟨encoded digests message msgIn answer msgType, allocatedSize⟩ } := by
    obtain ⟨result, -, data, placed⟩ := contains.buffer stays
    rw [same] at data
    obtain ⟨attached, size⟩ := placed (show 200 ≤ allocatedSize by omega) (by rw [data]; exact length)
    have whole : result = ⟨encoded digests message msgIn answer msgType, allocatedSize⟩ := by
      rw [← data]
      cases result
      exact congrArg _ size
    rw [CStunRequestHandler.answer, attached, whole]
    rfl
  exact ⟨writes contains stays rfl, writes again (stays.becomes becomes) rfl⟩

/-- An empty string is left out. -/
theorem perform_stringCall (host : ByteOrder) (digests : Digests) (attribType : UInt16) (text : ShortText)
    (builder : CStunMessageBuilder) :
    ((StunAnswer.stringCall attribType text).perform host digests builder).2 =
      if text.val = [] then builder else (builder.addStringAttribute host attribType text.val).2 := by
  rw [StunAnswer.stringCall, BuilderCall.perform]
  split
  · rename_i empty
    rw [addStringAttribute, if_pos empty]
  · rfl

/-- A refusal is written as an error with a challenge. -/
theorem buildErrorResponse_eq (host : ByteOrder) (digests : Digests)
    (handles : Handles pAddrSet pAuth message msgIn allocatedSize handler) {answer : StunAnswer}
    (stands : Stands handler (.error answer)) (room : maxStunMessageSize ≤ allocatedSize) :
    (handler.buildErrorResponse host).msgOut =
      ⟨answer.socketrole msgIn.socketrole, message.destination msgIn,
        ⟨encoded digests message msgIn answer (normalizedType message.msgType), allocatedSize⟩⟩ := by
  cases answer with
  | mapped => exact stands.elim
  | refused errorcode nonce realm =>
      obtain ⟨code, strings⟩ := stands
      have built : handler.buildErrorResponse host =
          handler.answer ((CStunMessageBuilder.fixLengthField host (performAll host digests
            ((StunAnswer.refused errorcode nonce realm).calls msgIn.addrRemote)
            (start host (normalizedType message.msgType) (StunAnswer.refused errorcode nonce realm).msgClass
              message.transid message.header.legacy ⟨[], allocatedSize⟩))).2.fixLengthField host).2 := by
        rw [buildErrorResponse, builder, handles.outgoing, handles.legacy, handles.transid, handles.msgtype,
          handles.msgclass, code, StunAnswer.calls, performAll, List.foldl_cons, List.foldl_cons, List.foldl_cons,
          List.foldl_nil, perform_stringCall, perform_stringCall]
        dsimp only
        rcases strings with ⟨rfl, nonceIs, realmIs⟩ | ⟨challenge, nonceIs, realmIs⟩
        · rw [if_neg (by decide), if_pos nonceIs, if_pos realmIs]
          rfl
        · have asked : UInt16.ofNat errorcode = UInt16.ofNat stunErrorStalenonce ∨
              UInt16.ofNat errorcode = UInt16.ofNat stunErrorUnauthorized := by
            rcases challenge with rfl | rfl
            · exact .inr rfl
            · exact .inl rfl
          rw [if_pos asked, nonceIs, realmIs]
          rfl
      rw [built, (answer_fixed host handler room digests message msgIn (.refused errorcode nonce realm) _).2,
        handles.outgoing]
      rfl

/-- A success is written with its addresses and its signature. -/
theorem successResponse_eq (host : ByteOrder) (digests : Digests)
    (handles : Handles pAddrSet pAuth message msgIn allocatedSize handler) {credential : Option Credential}
    (sends : Sends handler.integrity credential) (socketrole : SocketRole) (origin other : Option CSocketAddress) :
    handler.successResponse host digests origin other =
      (CStunMessageBuilder.fixLengthField host (performAll host digests
        ((StunAnswer.mapped socketrole origin other credential).calls msgIn.addrRemote)
        (start host stunMsgTypeBinding (StunAnswer.mapped socketrole origin other credential).msgClass message.transid
          message.header.legacy ⟨[], allocatedSize⟩))).2 := by
  unfold successResponse
  rw [builder, handles.outgoing, handles.legacy, handles.transid, handles.incoming]
  dsimp only
  cases credential with
  | none =>
      have unsigned : handler.integrity.fSendWithIntegrity = false := sends
      rw [unsigned, if_neg (by decide)]
      cases origin <;> cases other <;> rfl
  | some credential =>
      obtain ⟨signs, rfl⟩ := sends
      rw [signs, if_pos rfl]
      cases handler.integrity.fUseLongTerm <;> cases origin <;> cases other <;> rfl

theorem otherAddress_eq (handles : Handles pAddrSet pAuth message msgIn allocatedSize handler) :
    handler.otherAddress = StunMessage.otherAddress pAddrSet msgIn.socketrole := by
  have all (role : SocketRole) : role ∈ [SocketRole.pp, .pa, .ap, .aa] := by cases role <;> decide
  rw [otherAddress, StunMessage.otherAddress, handles.incoming, handles.addresses]
  refine if_congr ?_ rfl rfl
  simp only [hasAddress, isIPAddressZeroOrInvalid, handles.addresses]
  constructor
  · rintro ⟨pp, pa, ap, aa, known⟩
    refine ⟨fun role _ => by cases role <;> assumption, ?_⟩
    simp at known
    exact known.2
  · rintro ⟨valid, known⟩
    refine ⟨valid _ (all _), valid _ (all _), valid _ (all _), valid _ (all _), ?_⟩
    simp [known, valid _ (all _)]

theorem originAddress_eq (handles : Handles pAddrSet pAuth message msgIn allocatedSize handler) (output : SocketRole) :
    handler.originAddress output = StunMessage.originAddress pAddrSet msgIn.addrLocal msgIn.socketrole output := by
  rw [originAddress, StunMessage.originAddress, handles.incoming, handles.addresses]
  cases known : (pAddrSet output).addr.isIPAddressZero with
  | false => simp [known]
  | true =>
      by_cases same : output = msgIn.socketrole
      · cases unknown : msgIn.addrLocal.isIPAddressZero <;> simp [same, unknown]
      · simp [same, known]

/-- The socket of the answer. -/
theorem outputSocket_eq (reads : Reads message msgIn.reader) (host : ByteOrder)
    (handles : Handles pAddrSet pAuth message msgIn allocatedSize handler) :
    ((handler.msgIn.reader.getChangeRequest host).1.succeeded &&
        ((handler.msgIn.reader.getChangeRequest host).2.fChangeIP ||
          (handler.msgIn.reader.getChangeRequest host).2.fChangePort)) = message.changes ∧
      (if message.changes then handler.outputSocket (handler.msgIn.reader.getChangeRequest host).2
        else handler.msgIn.socketrole) = message.outputSocket msgIn.socketrole := by
  obtain ⟨flags, absent⟩ := reads.getChangeRequest host
  rw [handles.incoming, flags]
  have changes : ((msgIn.reader.getChangeRequest host).1.succeeded &&
      (message.changeRequest.fChangeIP || message.changeRequest.fChangePort)) = message.changes := by
    cases success : (msgIn.reader.getChangeRequest host).1.succeeded with
    | true => rfl
    | false =>
        rw [StunMessage.changes, absent success]
        rfl
  refine ⟨changes, ?_⟩
  rw [StunMessage.changes, StunMessage.outputSocket, outputSocket, handles.incoming]
  cases ip : message.changeRequest.fChangeIP <;> cases port : message.changeRequest.fChangePort <;> rfl

theorem processBindingRequest_stands (reads : Reads message msgIn.reader) (host : ByteOrder) (digests : Digests)
    (handles : Handles pAddrSet pAuth message msgIn allocatedSize handler) {credential : Option Credential}
    (stands : Stands handler (.ok credential)) (room : maxStunMessageSize ≤ allocatedSize) :
    let result := orBadRequest (handler.processBindingRequest host digests)
    (message.bound pAddrSet msgIn credential = .bad ∧
      result = handler.setError (UInt16.ofNat stunErrorBadrequest)) ∨
    (∃ role origin other, message.bound pAddrSet msgIn credential = .mapped role origin other credential ∧
      result.error.errorcode = 0 ∧
      result.msgOut = ⟨role, message.destination msgIn, ⟨encoded digests message msgIn
        (.mapped role origin other credential) stunMsgTypeBinding, allocatedSize⟩⟩) := by
  obtain ⟨changes, output⟩ := outputSocket_eq reads host handles
  have padding : handler.msgIn.reader.getPaddingAttributeSize.1.succeeded = message.has stunAttributePadding := by
    rw [handles.incoming]
    exact reads.getPaddingAttributeSize
  rw [processBindingRequest, StunMessage.bound]
  dsimp only
  have conflict : (handler.fRequestHasResponsePort && message.has stunAttributePadding) = true ↔
      message.responsePort ≠ 0 ∧ message.has stunAttributePadding = true := by
    rw [handles.responsePort]
    simp
  have usable : (message.changes && (!handler.hasAddress (message.outputSocket msgIn.socketrole) ||
      handler.msgIn.fConnectionOriented)) = true ↔
        message.changes = true ∧ ((pAddrSet (message.outputSocket msgIn.socketrole)).fValid = false ∨
          msgIn.fConnectionOriented = true) := by
    rw [hasAddress, handles.addresses, handles.incoming]
    simp
  rw [padding, changes, output]
  by_cases both : message.responsePort ≠ 0 ∧ message.has stunAttributePadding = true
  · rw [if_pos (conflict.mpr both), if_pos both, orBadRequest, if_neg]
    · exact .inl ⟨rfl, rfl⟩
    · exact fun refused => absurd refused.2 (show ¬UInt16.ofNat stunErrorBadrequest = 0 by decide)
  rw [if_neg fun refused => both (conflict.mp refused), if_neg both]
  by_cases unusable : message.changes = true ∧ ((pAddrSet (message.outputSocket msgIn.socketrole)).fValid = false ∨
      msgIn.fConnectionOriented = true)
  · rw [if_pos (usable.mpr unusable), if_pos unusable, orBadRequest, if_neg]
    · exact .inl ⟨rfl, rfl⟩
    · exact fun refused => absurd refused.2 (show ¬UInt16.ofNat stunErrorBadrequest = 0 by decide)
  rw [if_neg fun refused => unusable (usable.mp refused), if_neg unusable, orBadRequest, if_neg (by simp),
    originAddress_eq handles, otherAddress_eq handles, successResponse_eq host digests handles stands.2
      (message.outputSocket msgIn.socketrole)]
  refine .inr ⟨_, _, _, rfl, stands.1, ?_⟩
  dsimp only
  rw [(answer_fixed host _ room digests message msgIn _ stunMsgTypeBinding).1]
  dsimp only
  rw [handles.outgoing]

/-- Only a binding request goes on. -/
def typeChecked (message : StunMessage) : Except StunAnswer (Option Credential) →
    Except StunAnswer (Option Credential)
  | .error refusal => .error refusal
  | .ok credential => if normalizedType message.msgType ≠ stunMsgTypeBinding then .error .bad else .ok credential

/-- A type that is not known is refused. -/
theorem checkType_stands (handles : Handles pAddrSet pAuth message msgIn allocatedSize handler)
    {outcome : Except StunAnswer (Option Credential)} (stands : Stands handler outcome) :
    let checked := unlessError (fun handler =>
      if normalizedType message.msgType ≠ stunMsgTypeBinding then handler.setError (UInt16.ofNat stunErrorBadrequest)
      else handler) handler
    Handles pAddrSet pAuth message msgIn allocatedSize checked ∧
      Stands checked (typeChecked message outcome) := by
  dsimp only
  cases outcome with
  | error refusal =>
      rw [stands.stops]
      exact ⟨handles, stands⟩
  | ok credential =>
      rw [stands.goes_on, typeChecked]
      split
      · exact ⟨handles.setError _, stands_bad handler⟩
      · exact ⟨handles, stands⟩

/-- The error of the handler, if there is one, is answered. -/
theorem finish_eq (host : ByteOrder) (digests : Digests)
    (handles : Handles pAddrSet pAuth message msgIn allocatedSize handler) {refusal : StunAnswer}
    (stands : Stands handler (.error refusal)) (room : maxStunMessageSize ≤ allocatedSize) :
    (if handler.error.errorcode = 0 then handler else handler.buildErrorResponse host).msgOut =
      ⟨refusal.socketrole msgIn.socketrole, message.destination msgIn,
        ⟨encoded digests message msgIn refusal (normalizedType message.msgType), allocatedSize⟩⟩ := by
  rw [if_neg stands.code]
  exact buildErrorResponse_eq host digests handles stands room

/-- The handler at the end of a request. -/
def answered (host : ByteOrder) (digests : Digests) (pAddrSet : TransportAddressSet)
    (pAuth : Option (AuthAttributes → HRESULT × AuthResponse)) (message : StunMessage) (msgIn : StunMessageIn)
    (allocatedSize : Nat) : CStunRequestHandler :=
  let handler := (begun pAddrSet pAuth message msgIn allocatedSize).honorResponsePort host
  let handler :=
    unlessError (fun handler =>
      if normalizedType message.msgType ≠ stunMsgTypeBinding then handler.setError (UInt16.ofNat stunErrorBadrequest)
      else handler) handler
  let handler := unlessError (fun handler => orBadRequest (handler.validateAuth host digests)) handler
  let handler := unlessError (fun handler => orBadRequest (handler.processBindingRequest host digests)) handler
  if handler.error.errorcode = 0 then handler else handler.buildErrorResponse host

/-- The parts run one after another until one refuses the request. -/
theorem answered_eq (reads : Reads message msgIn.reader) (host : ByteOrder) (digests : Digests)
    (room : maxStunMessageSize ≤ allocatedSize) :
    (answered host digests pAddrSet pAuth message msgIn allocatedSize).msgOut =
      ⟨(message.answer digests pAddrSet pAuth msgIn).socketrole msgIn.socketrole, message.destination msgIn,
        ⟨encoded digests message msgIn (message.answer digests pAddrSet pAuth msgIn)
          (normalizedType message.msgType), allocatedSize⟩⟩ := by
  obtain ⟨handles, stands⟩ := @honorResponsePort_stands pAddrSet pAuth message msgIn allocatedSize reads host
  obtain ⟨handles, stands⟩ := checkType_stands handles stands
  rw [answered, StunMessage.answer]
  generalize unlessError (fun handler => if normalizedType message.msgType ≠ stunMsgTypeBinding then
    handler.setError (UInt16.ofNat stunErrorBadrequest) else handler)
      ((begun pAddrSet pAuth message msgIn allocatedSize).honorResponsePort host) = typed at handles stands ⊢
  by_cases connected : message.responsePort ≠ 0 ∧ msgIn.fConnectionOriented = true
  · rw [if_pos connected] at stands ⊢
    rw [typeChecked] at stands
    rw [stands.stops, stands.stops]
    exact finish_eq host digests handles stands room
  rw [if_neg connected] at stands ⊢
  rw [typeChecked] at stands
  by_cases other : normalizedType message.msgType ≠ stunMsgTypeBinding
  · rw [if_pos other] at stands ⊢
    rw [stands.stops, stands.stops]
    exact finish_eq host digests handles stands room
  rw [if_neg other] at stands ⊢
  rw [stands.goes_on]
  obtain ⟨handles, stands⟩ := validateAuth_stands reads host digests handles stands
  generalize orBadRequest (typed.validateAuth host digests) = checked at handles stands ⊢
  cases outcome : message.authorize digests pAuth with
  | error refusal =>
      rw [outcome] at stands
      rw [stands.stops]
      exact finish_eq host digests handles stands room
  | ok credential =>
      rw [outcome] at stands
      rw [stands.goes_on]
      dsimp only
      rcases processBindingRequest_stands reads host digests handles stands room with
        ⟨bad, same⟩ | ⟨role, origin, address, bound, code, out⟩
      · rw [bad, same]
        exact finish_eq host digests (handles.setError _) (stands_bad _) room
      · rw [if_pos code, bound, out, not_not.mp other]
        rfl

/-- The handler writes the answer to a request into the buffer of its caller. -/
theorem processRequest_eq (host : ByteOrder) (digests : Digests) (pAddrSet : TransportAddressSet)
    (pAuth : Option (AuthAttributes → HRESULT × AuthResponse)) {message : StunMessage} {msgIn : StunMessageIn}
    {msgOut : StunMessageOut} (reads : Reads message msgIn.reader)
    (room : maxStunMessageSize ≤ msgOut.spBufferOut.allocatedSize) (request : classOf message.msgType = .request) :
    let answer := message.answer digests pAddrSet pAuth msgIn
    processRequest host digests msgIn msgOut pAddrSet pAuth =
      (.sOk, ⟨answer.socketrole msgIn.socketrole, message.destination msgIn,
        ⟨encoded digests message msgIn answer (normalizedType message.msgType),
          msgOut.spBufferOut.allocatedSize⟩⟩) := by
  have known : (create pAuth pAddrSet msgIn ⟨msgIn.socketrole, msgIn.addrRemote,
      ⟨[], msgOut.spBufferOut.allocatedSize⟩⟩).msgIn = msgIn := rfl
  have started : processRequestImpl host digests (create pAuth pAddrSet msgIn ⟨msgIn.socketrole, msgIn.addrRemote,
      ⟨[], msgOut.spBufferOut.allocatedSize⟩⟩) = (.sOk, answered host digests pAddrSet pAuth message msgIn
        msgOut.spBufferOut.allocatedSize) := by
    rw [processRequestImpl, known, reads.msgClass, if_neg (not_not.mpr request)]
    have begins : begun pAddrSet pAuth message msgIn msgOut.spBufferOut.allocatedSize =
        { create pAuth pAddrSet msgIn ⟨msgIn.socketrole, msgIn.addrRemote, ⟨[], msgOut.spBufferOut.allocatedSize⟩⟩ with
          error := ⟨0, .failureResponse, msgIn.reader.msgTypeNormalized, .zero, .zero⟩
          transid := msgIn.reader.transactionid
          fLegacyMode := msgIn.reader.fMessageIsLegacyFormat } := by
      rw [reads.msgType, reads.transactionid, reads.legacy]
      rfl
    rw [answered, begins, ← reads.msgType]
    rfl
  rw [processRequest, if_neg (Nat.not_lt.mpr room), if_neg (by rw [reads.state]; decide)]
  dsimp only
  rw [started, answered_eq reads host digests room]

/-- The handler answers a request as the server should, in the buffer of its caller. It does not answer anything
else. -/
theorem processRequest_refines (host : ByteOrder) (digests : Digests) (pAddrSet : TransportAddressSet)
    (pAuth : Option (AuthAttributes → HRESULT × AuthResponse)) {message : StunMessage} {msgIn : StunMessageIn}
    {msgOut : StunMessageOut} (reads : Reads message msgIn.reader)
    (room : maxStunMessageSize ≤ msgOut.spBufferOut.allocatedSize) :
    (classOf message.msgType ≠ .request →
      processRequest host digests msgIn msgOut pAddrSet pAuth =
        (.eFail, ⟨msgIn.socketrole, msgIn.addrRemote, ⟨[], msgOut.spBufferOut.allocatedSize⟩⟩)) ∧
    (classOf message.msgType = .request →
      let answer := message.answer digests pAddrSet pAuth msgIn
      processRequest host digests msgIn msgOut pAddrSet pAuth =
        (.sOk, ⟨answer.socketrole msgIn.socketrole, message.destination msgIn,
          ⟨encoded digests message msgIn answer (normalizedType message.msgType),
            msgOut.spBufferOut.allocatedSize⟩⟩)) := by
  refine ⟨fun other => ?_, processRequest_eq host digests pAddrSet pAuth reads room⟩
  have known : (create pAuth pAddrSet msgIn ⟨msgIn.socketrole, msgIn.addrRemote,
      ⟨[], msgOut.spBufferOut.allocatedSize⟩⟩).msgIn = msgIn := rfl
  rw [processRequest, if_neg (Nat.not_lt.mpr room), if_neg (by rw [reads.state]; decide)]
  dsimp only
  rw [processRequestImpl, known, reads.msgClass, if_pos other]
  rfl

theorem reads_sampleRequest (host : ByteOrder) {start : CStunMessageReader} (fresh : start.Fresh)
    (allowed : sampleRequest.Allowed start.fAllowLegacyFormat) :
    Reads sampleRequest (start.feed host [sampleRequest.encode]) :=
  CStunMessageReader.feed_reads host fresh (by simp) allowed

/-- The request of the sample comes in at the first of four sockets. -/
def sampleIn : StunMessageIn :=
  ⟨.pp, .addr4 3478 ⟨10, 0, 0, 1⟩, .addr4 5555 ⟨9, 8, 7, 6⟩,
    (CStunMessageReader.create (fun _ => (0, ⟨0, 0, 0⟩)) (fun _ => ⟨0, none⟩) (fun _ => none) fun _ => 0).feed .little
      [sampleRequest.encode], false⟩

def sampleSockets : TransportAddressSet
  | .pp => ⟨.addr4 3478 ⟨10, 0, 0, 1⟩, true⟩
  | .pa => ⟨.addr4 3479 ⟨10, 0, 0, 1⟩, true⟩
  | .ap => ⟨.addr4 3478 ⟨10, 0, 0, 2⟩, true⟩
  | .aa => ⟨.addr4 3479 ⟨10, 0, 0, 2⟩, true⟩

/-- This provider lets one user pass and challenges the others. -/
def sampleProvider (attributes : AuthAttributes) : HRESULT × AuthResponse :=
  (.sOk,
    { responseType := if cstr attributes.szUser.toList = [0x75] then .allow else .unauthorized
      authCredMech := .authCredShortTerm
      szPassword := .zero
      szRealm := .zero
      szNonce := .zero })

/-- The user is answered at the port that it asks for, with the addresses of the first and the last socket. -/
theorem processRequest_refines_sample :
    let answer : StunAnswer :=
      .mapped .pp (some (.addr4 3478 ⟨10, 0, 0, 1⟩)) (some (.addr4 3479 ⟨10, 0, 0, 2⟩)) none
    processRequest .little sampleDigests sampleIn ⟨.pp, .zero, ⟨[], 1500⟩⟩ sampleSockets (some sampleProvider) =
      (.sOk, ⟨.pp, .addr4 4444 ⟨9, 8, 7, 6⟩,
        ⟨encoded sampleDigests sampleRequest sampleIn answer stunMsgTypeBinding, 1500⟩⟩) := by
  have reads : Reads sampleRequest sampleIn.reader :=
    reads_sampleRequest .little (CStunMessageReader.fresh_create (fun _ => (0, ⟨0, 0, 0⟩)) (fun _ => ⟨0, none⟩)
      (fun _ => none) fun _ => 0) (.inl rfl)
  have user : cstr sampleRequest.authAttributes.szUser.toList = [0x75] := by decide +kernel
  have answered : sampleRequest.answer sampleDigests sampleSockets (some sampleProvider) sampleIn =
      .mapped .pp (some (.addr4 3478 ⟨10, 0, 0, 1⟩)) (some (.addr4 3479 ⟨10, 0, 0, 2⟩)) none := by
    have allowed : sampleRequest.authorize sampleDigests (some sampleProvider) = .ok none := by
      rw [StunMessage.authorize]
      simp only [sampleProvider, user, if_true]
      rfl
    rw [StunMessage.answer, allowed, if_neg (by decide), if_neg (by decide +kernel)]
    rfl
  have refines := (@processRequest_refines .little sampleDigests sampleSockets (some sampleProvider) sampleRequest
    sampleIn ⟨.pp, .zero, ⟨[], 1500⟩⟩ reads (by decide)).2 (by decide)
  rw [answered] at refines
  exact refines

end CStunRequestHandler

end Nose
