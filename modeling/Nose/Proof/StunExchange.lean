import Nose.Proof.StunPolicy

/-
This file shows what a client reads in the answer of the server.
-/

namespace Nose

open CMemory PaddedRecords CStunMessageBuilder CStunMessageReader

/-- An address that is missing leaves the one of the caller. -/
def addressOr (before : CSocketAddress) : Option CSocketAddress → HRESULT × CSocketAddress
  | none => (.eFail, before)
  | some addr => (.sOk, addr)

namespace CStunMessageReader

variable {reader : CStunMessageReader} {message : StunMessage} {first second : UInt16}
  {addr other : Option CSocketAddress}

theorem Reads.readAddress (reads : Reads message reader) (host : ByteOrder) (before : CSocketAddress)
    (value : (message.lookup first).map (fun record => record.value) = addr.map addressValue) :
    reader.getAddressHelper host first before = addressOr before addr := by
  rw [reads.getAddressHelper]
  generalize message.lookup first = found at value ⊢
  cases found with
  | none =>
      rw [Option.map_none, eq_comm, Option.map_eq_none_iff] at value
      rw [value]
      rfl
  | some record =>
      rw [Option.map_some, eq_comm, Option.map_eq_some_iff] at value
      obtain ⟨addr, rfl, same⟩ := value
      dsimp only
      rw [← same, mappedAddress_addressValue]
      rfl

theorem Reads.readAddressOr (reads : Reads message reader) (host : ByteOrder) (before : CSocketAddress)
    (value : (message.lookup first).map (fun record => record.value) = addr.map addressValue)
    (second_value : (message.lookup second).map (fun record => record.value) = other.map addressValue) :
    reader.getAddressOr host first second before = addressOr before (addr.or other) := by
  rw [getAddressOr, reads.readAddress host before value]
  cases addr with
  | none => exact reads.readAddress host before second_value
  | some addr => rfl

end CStunMessageReader

namespace StunAnswer

variable {digests : Digests} {legacy : Bool} {header : StunHeader} {addrRemote : CSocketAddress}
  {origin other : Option CSocketAddress}

/-- The addresses of a success. Old clients know them by other types. -/
def addressRecords (legacy : Bool) (transid : StunTransactionId) (addrRemote : CSocketAddress)
    (origin other : Option CSocketAddress) : List PaddedRecord :=
  [addressAttribute legacy stunAttributeMappedaddress addrRemote] ++
    origin.toList.map
      (addressAttribute legacy (if legacy then stunAttributeSourceaddress else stunAttributeResponseOrigin)) ++
    other.toList.map
      (addressAttribute legacy (if legacy then stunAttributeChangedaddress else stunAttributeOtherAddress)) ++
    [addressAttribute legacy
      (if legacy then stunAttributeXormappedaddressOptional else stunAttributeXormappedaddress)
      (addrRemote.applyStunXorMap transid)]

/-- The records of a success are its addresses and a signature. -/
theorem recordsAfter_mapped (digests : Digests) (legacy : Bool) (header : StunHeader) (addrRemote : CSocketAddress)
    (role : SocketRole) (origin other : Option CSocketAddress) (credential : Option Credential) :
    recordsAfter digests legacy header [] ((mapped role origin other credential).calls addrRemote) =
      addressRecords legacy header.transid addrRemote origin other ++
        credential.toList.flatMap fun used => (used.call.record digests legacy header
          (addressRecords legacy header.transid addrRemote origin other)).toList := by
  have addresses : recordsAfter digests legacy header [] ([.addMappedAddress addrRemote] ++
      origin.toList.map .addResponseOriginAddress ++ other.toList.map .addOtherAddress ++
      [.addXorMappedAddress addrRemote]) = addressRecords legacy header.transid addrRemote origin other := by
    cases origin <;> cases other <;> rfl
  rw [calls, recordsAfter_append, addresses]
  cases credential with
  | none => exact (List.append_nil _).symm
  | some used => simp [recordsAfter]

@[simp] theorem type_addressAttribute (legacy : Bool) (type : UInt16) (addr : CSocketAddress) :
    (addressAttribute legacy type addr).type = type := type_attributeOf _

@[simp] theorem value_addressAttribute (legacy : Bool) (type : UInt16) (addr : CSocketAddress) :
    (addressAttribute legacy type addr).value = addressValue addr :=
  value_attributeOf_whole _ (by rw [length_addressValue]; split <;> rfl)

/-- The signature does not hide an address. -/
theorem lastOf_mapped (digests : Digests) (legacy : Bool) (header : StunHeader) (addrRemote : CSocketAddress)
    (role : SocketRole) (origin other : Option CSocketAddress) (credential : Option Credential) {type : UInt16}
    (address : type ≠ stunAttributeMessageintegrity) :
    lastOf (recordsAfter digests legacy header [] ((mapped role origin other credential).calls addrRemote)) type =
      lastOf (addressRecords legacy header.transid addrRemote origin other) type := by
  have unsigned : lastOf (credential.toList.flatMap fun used => (used.call.record digests legacy header
      (addressRecords legacy header.transid addrRemote origin other)).toList) type = none := by
    rw [lastOf, List.getLast?_eq_none_iff, List.filter_eq_nil_iff]
    intro record member
    obtain ⟨used, -, signs⟩ := List.mem_flatMap.mp member
    obtain ⟨digest, rfl⟩ := Credential.record_call_signature (Option.mem_toList.mp signs)
    rw [decide_eq_true_iff, type_integrityAttribute]
    exact address.symm
  rw [recordsAfter_mapped, lastOf_append, unsigned, Option.none_or]

theorem lastOf_cons (record : PaddedRecord) (rest : List PaddedRecord) (type : UInt16) :
    lastOf (record :: rest) type = (lastOf rest type).or (if record.type = type then some record else none) := by
  rw [← List.singleton_append, lastOf_append, lastOf_singleton]

/-- Each address stands under its own type in one of the two formats. -/
theorem lastOf_addressRecords (legacy : Bool) (transid : StunTransactionId) (addrRemote : CSocketAddress)
    (origin other : Option CSocketAddress) :
    let value := fun type => (lastOf (addressRecords legacy transid addrRemote origin other) type).map
      fun record => record.value
    value stunAttributeMappedaddress = some (addressValue addrRemote) ∧
      value stunAttributeXormappedaddress =
        (if legacy then none else some (addrRemote.applyStunXorMap transid)).map addressValue ∧
      value stunAttributeXormappedaddressOptional =
        (if legacy then some (addrRemote.applyStunXorMap transid) else none).map addressValue ∧
      value stunAttributeResponseOrigin = (if legacy then none else origin).map addressValue ∧
      value stunAttributeSourceaddress = (if legacy then origin else none).map addressValue ∧
      value stunAttributeOtherAddress = (if legacy then none else other).map addressValue ∧
      value stunAttributeChangedaddress = (if legacy then other else none).map addressValue := by
  cases legacy <;> cases origin <;> cases other <;>
    simp +decide [addressRecords, lastOf_cons, show lastOf [] = fun _ => none from rfl]

variable {reader : CStunMessageReader} {msgType : UInt16} {msgClass : StunMessageClass} {transid : StunTransactionId}
  (role : SocketRole) {credential : Option Credential}
  {limits : Limits (recordsAfter digests legacy (headerOf msgType msgClass transid) []
    ((mapped role origin other credential).calls addrRemote))}

/-- A reader of a success gets the addresses from it. -/
theorem reads_mapped (got : Reads (messageOf msgType msgClass transid limits) reader) (host : ByteOrder)
    (before : CSocketAddress) :
    reader.getMappedAddress host before = (.sOk, addrRemote) ∧
      reader.getXorMappedAddress host before = (.sOk, addrRemote) ∧
      reader.getResponseOriginAddress host before = addressOr before origin ∧
      reader.getOtherAddress host before = addressOr before other := by
  have found {type : UInt16} (address : type ≠ stunAttributeMessageintegrity) :
      ((messageOf msgType msgClass transid limits).lookup type).map (fun record => record.value) =
        (lastOf (addressRecords legacy transid addrRemote origin other) type).map fun record => record.value := by
    rw [lookup_eq_lastOf]
    exact congrArg _ (lastOf_mapped digests legacy (headerOf msgType msgClass transid) addrRemote role origin other
      credential address)
  obtain ⟨own, xor, xorOptional, responseOrigin, source, otherAddress, changed⟩ :=
    lastOf_addressRecords legacy transid addrRemote origin other
  have either (addr : Option CSocketAddress) :
      (if legacy then none else addr).or (if legacy then addr else none) = addr := by
    cases legacy
    · exact Option.or_none
    · exact Option.none_or
  refine ⟨@Reads.readAddress _ _ _ (some addrRemote) got host before ((found (by decide)).trans own), ?_, ?_, ?_⟩
  · rw [getXorMappedAddress, got.readAddressOr host before ((found (by decide)).trans xor)
      ((found (by decide)).trans xorOptional), either, addressOr]
    dsimp only
    rw [if_pos (show HRESULT.sOk.succeeded = true from rfl), got.transactionid]
    exact congrArg _ (CSocketAddress.applyStunXorMap_twice _ _)
  · rw [getResponseOriginAddress, got.readAddressOr host before ((found (by decide)).trans responseOrigin)
      ((found (by decide)).trans source), either]
  · rw [getOtherAddress, got.readAddressOr host before ((found (by decide)).trans otherAddress)
      ((found (by decide)).trans changed), either]

theorem signer_ne_nil {used : Credential} (usable : used.Usable) (digests : Digests) : used.signer digests ≠ [] := by
  cases used with
  | shortTerm pszPassword => exact usable
  | longTerm pszUserName pszRealm pszPassword =>
      intro nothing
      have length := congrArg List.length nothing
      rw [Credential.signer, Vector.length_toList] at length
      cases length

/-- A reader with the same credentials takes the signature of a success. -/
theorem validates_mapped (got : Reads (messageOf msgType msgClass transid limits) reader) (host : ByteOrder)
    {used : Credential} (signs : credential = some used) (usable : used.Usable) :
    used.Validates host digests reader := by
  subst signs
  have records := recordsAfter_mapped digests legacy (headerOf msgType msgClass transid) addrRemote role origin other
    (some used)
  rw [Option.toList_some, List.flatMap_singleton, used.record_call usable, Option.toList_some] at records
  generalize recordsAfter digests legacy (headerOf msgType msgClass transid) []
    ((mapped role origin other (some used)).calls addrRemote) = all at limits got records
  subst records
  rw [Credential.validates_iff got host digests usable.fits, signed_messageOf digests _ (.inl rfl) limits]
  exact ⟨signer_ne_nil usable digests, rfl⟩

end StunAnswer

namespace CStunRequestHandler

theorem normalizedType_and (msgType : UInt16) : normalizedType msgType &&& 0x0fff = normalizedType msgType := by
  rw [normalizedType]
  apply UInt16.toBitVec_inj.mp
  apply BitVec.eq_of_getLsbD_eq
  intro i inside
  interval_cases i <;> simp

/-- A client takes the answer to its request in whatever parts it comes, when it takes the format of the request. It
reads its own address in it, in both forms, and the addresses that the server tells. A signature of the server is
valid for the client with the same credentials. -/
theorem client_reads_answer (host hostOfClient : ByteOrder) (digests : Digests) (pAddrSet : TransportAddressSet)
    (pAuth : Option (AuthAttributes → HRESULT × AuthResponse)) {message : StunMessage} {msgIn : StunMessageIn}
    {msgOut : StunMessageOut} (reads : Reads message msgIn.reader)
    (room : maxStunMessageSize ≤ msgOut.spBufferOut.allocatedSize) (request : classOf message.msgType = .request)
    {client : CStunMessageReader} (fresh : client.Fresh) {parts : List (List UInt8)}
    (same : parts.flatten = (processRequest host digests msgIn msgOut pAddrSet pAuth).2.spBufferOut.data) :
    let answer := message.answer digests pAddrSet pAuth msgIn
    let got := client.feed hostOfClient parts
    (got.state = .bodyValidated ↔ message.Allowed client.fAllowLegacyFormat) ∧
    (got.state = .bodyValidated →
      got.transactionid = message.transid ∧ got.msgClass = answer.msgClass ∧
        got.msgTypeNormalized = normalizedType message.msgType ∧
        ∀ socketrole origin other credential, answer = .mapped socketrole origin other credential →
          (∀ before, got.getMappedAddress hostOfClient before = (.sOk, msgIn.addrRemote) ∧
            got.getXorMappedAddress hostOfClient before = (.sOk, msgIn.addrRemote) ∧
            got.getResponseOriginAddress hostOfClient before = addressOr before origin ∧
            got.getOtherAddress hostOfClient before = addressOr before other) ∧
          ∀ used ∈ credential, used.Usable → used.Validates hostOfClient digests got) := by
  dsimp only
  rw [processRequest_eq host digests pAddrSet pAuth reads room request] at same
  generalize message.answer digests pAddrSet pAuth msgIn = answer at same ⊢
  obtain ⟨limits, -⟩ := answer.limits_calls msgIn.addrRemote digests message.header.legacy
    (headerOf (normalizedType message.msgType) answer.msgClass message.transid)
  obtain ⟨iff, taken⟩ := feed_limits hostOfClient fresh same
  refine ⟨iff.trans ⟨fun both => both.2, fun allowed => ⟨limits, allowed⟩⟩, fun state => ?_⟩
  obtain ⟨limits, got⟩ := taken state
  obtain ⟨-, type⟩ := typeField_bits (normalizedType message.msgType) answer.msgClass
  have valid : answer.msgClass ≠ .invalidMessageClass := by cases answer <;> exact StunMessageClass.noConfusion
  refine ⟨got.transactionid, got.msgClass.trans (classOf_typeField _ valid),
    got.msgType.trans (type.trans (normalizedType_and _)), ?_⟩
  rintro socketrole origin other credential rfl
  exact ⟨StunAnswer.reads_mapped socketrole got hostOfClient, fun used signs usable =>
    StunAnswer.validates_mapped socketrole got hostOfClient signs usable⟩

/-- The client reads its address and the two addresses of the server. -/
theorem client_reads_answer_sample :
    let start := CStunMessageReader.create (fun _ => (0, ⟨0, 0, 0⟩)) (fun _ => ⟨0, none⟩) (fun _ => none) fun _ => 0
    ∀ parts : List (List UInt8), parts.flatten =
        (processRequest .little sampleDigests sampleIn ⟨.pp, .zero, ⟨[], 1500⟩⟩ sampleSockets none).2.spBufferOut.data →
      (start.feed .big parts).state = .bodyValidated ∧
        (start.feed .big parts).getXorMappedAddress .big .zero = (.sOk, .addr4 5555 ⟨9, 8, 7, 6⟩) ∧
        (start.feed .big parts).getOtherAddress .big .zero = (.sOk, .addr4 3479 ⟨10, 0, 0, 2⟩) := by
  have fresh := CStunMessageReader.fresh_create (fun _ => (0, ⟨0, 0, 0⟩)) (fun _ => ⟨0, none⟩) (fun _ => none) fun _ => 0
  have reads : Reads sampleRequest sampleIn.reader := reads_sampleRequest .little fresh (.inl rfl)
  dsimp only
  intro parts same
  obtain ⟨takes, fields⟩ := client_reads_answer .little .big sampleDigests sampleSockets none reads (by decide)
    (by decide) fresh same
  have state := takes.mpr (.inl rfl)
  obtain ⟨-, mapped, -, other⟩ := ((fields state).2.2.2 .pp (some (.addr4 3478 ⟨10, 0, 0, 1⟩))
    (some (.addr4 3479 ⟨10, 0, 0, 2⟩)) none rfl).1 .zero
  exact ⟨state, mapped, other⟩

end CStunRequestHandler

end Nose
