import Nose.Proof.StunBuilding

/-
This file shows that the reader reads back whatever the builder makes. The calls of the user come in any order.
-/

namespace Nose

open CMemory PaddedRecords

namespace CStunMessageBuilder

/-- These are the calls that add a whole attribute. The length of a value fits in its field, and the unknown attributes
are an even number. -/
inductive BuilderCall where
  | addAttribute (attribType : UInt16) (data : List UInt8) (short : data.length + padding data.length < 65536)
  | addStringAttribute (attribType : UInt16) (pstr : List UInt8) (short : pstr.length + padding pstr.length < 65536)
  | addErrorCode (errorNumber : UInt16) (pszReason : List UInt8)
  | addPaddingAttribute (paddingSize : UInt16) (short : paddingSize.toNat + padding paddingSize.toNat < 65536)
  | addUnknownAttributes (arr : List (UInt8 × UInt8)) (even : arr.length % 2 = 0) (short : 2 * arr.length + 2 < 65536)
  | addMappedAddress (addr : CSocketAddress)
  | addXorMappedAddress (addr : CSocketAddress)
  | addResponseOriginAddress (addr : CSocketAddress)
  | addOtherAddress (addr : CSocketAddress)
  | addResponsePort (port : UInt16)
  | addChangeRequest (changeAttrib : StunChangeRequestAttribute)
  | addMessageIntegrityShortTerm (pszPassword : List UInt8)
  | addMessageIntegrityLongTerm (pszUserName pszRealm pszPassword : List UInt8)
  | addFingerprintAttribute

/-- The bits of a change request. -/
def changeData (changeAttrib : StunChangeRequestAttribute) : UInt32 :=
  (if changeAttrib.fChangeIP then 0x04 else 0) ||| (if changeAttrib.fChangePort then 0x02 else 0)

/-- An even number of words fills its last four bytes. -/
theorem arrayBytes_short {arr : List (UInt8 × UInt8)} (even : arr.length % 2 = 0) (short : 2 * arr.length + 2 < 65536) :
    (arrayBytes arr).length + padding (arrayBytes arr).length < 65536 := by
  have few := padding_lt (arrayBytes arr).length
  rw [length_arrayBytes, padding] at *
  omega

namespace BuilderCall

def perform (host : ByteOrder) (digests : Digests) : BuilderCall → CStunMessageBuilder → HRESULT × CStunMessageBuilder
  | addAttribute attribType data _ => CStunMessageBuilder.addAttribute host attribType data
  | addStringAttribute attribType pstr _ => CStunMessageBuilder.addStringAttribute host attribType pstr
  | addErrorCode errorNumber pszReason => CStunMessageBuilder.addErrorCode host errorNumber pszReason
  | addPaddingAttribute paddingSize _ => CStunMessageBuilder.addPaddingAttribute host paddingSize
  | addUnknownAttributes arr _ _ => CStunMessageBuilder.addUnknownAttributes host arr
  | addMappedAddress addr => CStunMessageBuilder.addMappedAddress host addr
  | addXorMappedAddress addr => CStunMessageBuilder.addXorMappedAddress host addr
  | addResponseOriginAddress addr => CStunMessageBuilder.addResponseOriginAddress host addr
  | addOtherAddress addr => CStunMessageBuilder.addOtherAddress host addr
  | addResponsePort port => CStunMessageBuilder.addResponsePort host port
  | addChangeRequest changeAttrib => CStunMessageBuilder.addChangeRequest host changeAttrib
  | addMessageIntegrityShortTerm pszPassword =>
      CStunMessageBuilder.addMessageIntegrityShortTerm host digests pszPassword
  | addMessageIntegrityLongTerm pszUserName pszRealm pszPassword =>
      CStunMessageBuilder.addMessageIntegrityLongTerm host digests pszUserName pszRealm pszPassword
  | addFingerprintAttribute => CStunMessageBuilder.addFingerprintAttribute host digests

/-- The record that a call adds to the ones before it. A call that fails adds nothing. -/
def record (digests : Digests) (legacy : Bool) (header : StunHeader) (records : List PaddedRecord) :
    BuilderCall → Option PaddedRecord
  | addAttribute attribType data short => some (attributeOf legacy attribType data short)
  | addStringAttribute attribType pstr short =>
      if pstr = [] then none else some (attributeOf legacy attribType pstr short)
  | addErrorCode errorNumber pszReason =>
      if short : pszReason.length < 128 then
        if errorNumber < 300 ∨ 600 < errorNumber then none
        else
          some (attributeOf legacy stunAttributeErrorcode (errorValue errorNumber pszReason) (errorValue_short short))
      else none
  -- The length counts the padding in both modes.
  | addPaddingAttribute paddingSize short =>
      some (attributeOf true stunAttributePadding (List.replicate paddingSize.toNat 0) (by simpa using short))
  | addUnknownAttributes arr even short =>
      if arr = [] then none
      else some (attributeOf legacy stunAttributeUnknownattributes (arrayBytes arr) (arrayBytes_short even short))
  | addMappedAddress addr => some (addressAttribute legacy stunAttributeMappedaddress addr)
  | addXorMappedAddress addr =>
      some (addressAttribute legacy
        (if legacy then stunAttributeXormappedaddressOptional else stunAttributeXormappedaddress)
        (addr.applyStunXorMap header.transid))
  | addResponseOriginAddress addr =>
      some (addressAttribute legacy (if legacy then stunAttributeSourceaddress else stunAttributeResponseOrigin) addr)
  | addOtherAddress addr =>
      some (addressAttribute legacy (if legacy then stunAttributeChangedaddress else stunAttributeOtherAddress) addr)
  | addResponsePort port => some (attributeOf legacy stunAttributeResponsePort [high port, low port]
        (show 2 + padding 2 < 65536 by decide))
  | addChangeRequest changeAttrib =>
      some (attributeOf legacy stunAttributeChangerequest (dwordBytes (changeData changeAttrib))
        (show 4 + padding 4 < 65536 by decide))
  | addMessageIntegrityShortTerm pszPassword =>
      if pszPassword = [] then none
      else some (integrityAttribute legacy (digests.hmac pszPassword (signedBytes header records legacy)))
  | addMessageIntegrityLongTerm pszUserName pszRealm pszPassword =>
      if 64 * 3 + 2 < (longTermKey pszUserName pszRealm pszPassword).length then none
      else
        some (integrityAttribute legacy (digests.hmac (digests.md5 (longTermKey pszUserName pszRealm pszPassword)).toList
          (signedBytes header records legacy)))
  | addFingerprintAttribute =>
      some (fingerprintAttribute (digests.crc (checkedBytes header records) ^^^ stunFingerprintXor))

end BuilderCall

/-- The builder has the header, up to its length field, and the records. -/
structure Built (builder : CStunMessageBuilder) (legacy : Bool) (header : StunHeader) (records : List PaddedRecord) :
    Prop where
  contains : ∃ msgLength, builder.Contains { header with msgLength } records
  transactionid : builder.transactionid = header.transid
  legacy : builder.fLegacyMode = legacy

variable {builder : CStunMessageBuilder} {host : ByteOrder} {digests : Digests} {legacy : Bool} {header : StunHeader}
  {records : List PaddedRecord}

/-- The call adds the record, or it fails and changes nothing. -/
def Adds (builder : CStunMessageBuilder) (legacy : Bool) (header : StunHeader) (records : List PaddedRecord)
    (result : HRESULT × CStunMessageBuilder) : Option PaddedRecord → Prop
  | some record =>
      result.1.failed = false ∧ result.2.Built legacy header (records ++ [record]) ∧ Becomes builder result.2
  | none => result.1.failed = true ∧ result.2 = builder

theorem Built.adds_written (built : builder.Built legacy header records) {record : PaddedRecord}
    {result : HRESULT × CStunMessageBuilder} (writes : Writes builder record.encode result) :
    Adds builder legacy header records result (some record) := by
  obtain ⟨msgLength, contains⟩ := built.contains
  exact ⟨writes.success, ⟨⟨msgLength, contains.add writes⟩, writes.transactionid.trans built.transactionid,
    writes.legacy.trans built.legacy⟩, writes.becomes⟩

theorem Built.adds_integrity (built : builder.Built legacy header records) (host : ByteOrder) (digests : Digests)
    {key : List UInt8} (some_key : key ≠ []) :
    Adds builder legacy header records (builder.addMessageIntegrityImpl host digests key)
      (some (integrityAttribute legacy (digests.hmac key (signedBytes header records legacy)))) := by
  obtain ⟨msgLength, contains⟩ := built.contains
  obtain ⟨success, fixed, becomes⟩ := contains.addMessageIntegrityImpl host digests some_key
  rw [built.legacy] at fixed
  exact ⟨success, ⟨⟨_, fixed⟩, becomes.transactionid.trans built.transactionid, becomes.legacy.trans built.legacy⟩,
    becomes⟩

/-- Every call adds its record. The cases are the calls. -/
theorem BuilderCall.perform_adds (built : builder.Built legacy header records) (host : ByteOrder) (digests : Digests)
    (short : (encodeAll records).length < 2 ^ 63) (call : BuilderCall) :
    Adds builder legacy header records (call.perform host digests builder)
      (call.record digests legacy header records) := by
  obtain ⟨msgLength, contains⟩ := built.contains
  have atEnd := contains.atEnd
  obtain rfl := built.legacy
  cases call with
  | addAttribute attribType data short => exact built.adds_written (writes_addAttribute atEnd host attribType data short)
  | addStringAttribute attribType pstr short =>
      rw [record]
      split
      · rename_i empty
        rw [perform, CStunMessageBuilder.addStringAttribute, if_pos empty]
        exact ⟨rfl, rfl⟩
      · rename_i some_bytes
        exact built.adds_written (writes_addStringAttribute atEnd host attribType some_bytes short)
  | addErrorCode errorNumber pszReason =>
      rw [record]
      split
      swap
      · rename_i long
        rw [perform, CStunMessageBuilder.addErrorCode, if_pos (Nat.not_lt.mp long)]
        exact ⟨rfl, rfl⟩
      rename_i short
      split
      · rename_i outside
        rw [perform, CStunMessageBuilder.addErrorCode, if_neg (by omega : ¬128 ≤ pszReason.length)]
        by_cases least : errorNumber < 300
        · rw [if_pos least]
          exact ⟨rfl, rfl⟩
        · rw [if_neg least, if_pos (outside.resolve_left least)]
          exact ⟨rfl, rfl⟩
      · rename_i inside
        exact built.adds_written
          (writes_addErrorCode atEnd host short (fun least => inside (.inl least)) fun most => inside (.inr most))
  | addPaddingAttribute paddingSize short => exact built.adds_written (writes_addPaddingAttribute atEnd host short)
  | addUnknownAttributes arr even short =>
      rw [record]
      split
      · rename_i empty
        rw [perform, CStunMessageBuilder.addUnknownAttributes, if_pos empty]
        exact ⟨rfl, rfl⟩
      · rename_i some_words
        have written := writes_addUnknownAttributes atEnd host some_words short
        have filled : filledArray builder.fLegacyMode arr = arrayBytes arr := by simp [filledArray, even]
        rw [filled] at written
        refine built.adds_written (written.of_eq ?_)
        rw [encode_attributeOf_whole _ _ _ (by rw [length_arrayBytes]; omega)]
  | addMappedAddress addr => exact built.adds_written (writes_addMappedAddressImpl atEnd host _ addr)
  | addXorMappedAddress addr =>
      have added := writes_addMappedAddressImpl atEnd host
        (if builder.fLegacyMode then stunAttributeXormappedaddressOptional else stunAttributeXormappedaddress)
        (addr.applyStunXorMap builder.transactionid)
      rw [record, ← built.transactionid]
      exact built.adds_written added
  | addResponseOriginAddress addr => exact built.adds_written (writes_addMappedAddressImpl atEnd host _ addr)
  | addOtherAddress addr => exact built.adds_written (writes_addMappedAddressImpl atEnd host _ addr)
  | addResponsePort port =>
      have added := writes_addAttribute atEnd host stunAttributeResponsePort [high port, low port]
        (show 2 + padding 2 < 65536 by decide)
      rw [perform, CStunMessageBuilder.addResponsePort, bytesOf_store16_htons]
      exact built.adds_written added
  | addChangeRequest changeAttrib =>
      have added := writes_addAttribute atEnd host stunAttributeChangerequest (dwordBytes (changeData changeAttrib))
        (show 4 + padding 4 < 65536 by decide)
      rw [perform, CStunMessageBuilder.addChangeRequest, bytesOf_store32_htonl]
      exact built.adds_written added
  | addMessageIntegrityShortTerm pszPassword =>
      rw [record, perform, CStunMessageBuilder.addMessageIntegrityShortTerm]
      split
      · rename_i empty
        rw [CStunMessageBuilder.addMessageIntegrityImpl, if_pos empty]
        exact ⟨rfl, rfl⟩
      · rename_i some_key
        exact built.adds_integrity host digests some_key
  | addMessageIntegrityLongTerm pszUserName pszRealm pszPassword =>
      rw [record, perform, CStunMessageBuilder.addMessageIntegrityLongTerm]
      split
      · exact ⟨rfl, rfl⟩
      · refine built.adds_integrity host digests fun empty => ?_
        have length := congrArg List.length empty
        simp at length
  | addFingerprintAttribute =>
      obtain ⟨success, fixed, becomes⟩ := contains.addFingerprintAttribute host digests short
      exact ⟨success, ⟨⟨_, fixed⟩, becomes.transactionid.trans built.transactionid, becomes.legacy⟩, becomes⟩

/-- The records after some calls. -/
def recordsAfter (digests : Digests) (legacy : Bool) (header : StunHeader) (records : List PaddedRecord)
    (calls : List BuilderCall) : List PaddedRecord :=
  calls.foldl (fun records call => records ++ (call.record digests legacy header records).toList) records

/-- The user does not look at the results of the calls. -/
def performAll (host : ByteOrder) (digests : Digests) (calls : List BuilderCall) (builder : CStunMessageBuilder) :
    CStunMessageBuilder :=
  calls.foldl (fun builder call => (call.perform host digests builder).2) builder

/-- No call removes a record. -/
theorem length_le_recordsAfter (calls : List BuilderCall) :
    (encodeAll records).length ≤ (encodeAll (recordsAfter digests legacy header records calls)).length := by
  induction calls generalizing records with
  | nil => exact le_rfl
  | cons call rest ih =>
      refine le_trans ?_ (@ih (records ++ (call.record digests legacy header records).toList))
      rw [encodeAll_append, List.length_append]
      omega

/-- All calls together add their records. The induction is on the calls. -/
theorem Built.performAll (built : builder.Built legacy header records) (host : ByteOrder) {calls : List BuilderCall}
    (short : (encodeAll (recordsAfter digests legacy header records calls)).length < 2 ^ 63) :
    (performAll host digests calls builder).Built legacy header
        (recordsAfter digests legacy header records calls) ∧
      Becomes builder (performAll host digests calls builder) := by
  induction calls generalizing builder records with
  | nil => exact ⟨built, le_rfl, rfl, rfl, fun _ _ => ⟨rfl, rfl⟩⟩
  | cons call rest ih =>
      have before := (length_le_recordsAfter (call :: rest)).trans_lt short
      have added := call.perform_adds built host digests before
      rw [CStunMessageBuilder.performAll, List.foldl_cons, ← CStunMessageBuilder.performAll]
      rw [recordsAfter, List.foldl_cons, ← recordsAfter] at short ⊢
      cases record : call.record digests legacy header records with
      | none =>
          rw [record] at added short
          obtain ⟨-, same⟩ := added
          rw [same, Option.toList_none, List.append_nil] at *
          exact ih built short
      | some record' =>
          rw [record] at added short
          obtain ⟨-, next, becomes⟩ := added
          obtain ⟨last, becomes'⟩ := ih next short
          exact ⟨last, becomes.trans becomes'⟩

/-- The builder of a message after its header. -/
def start (host : ByteOrder) (msgType : UInt16) (msgClass : StunMessageClass) (transid : StunTransactionId)
    (fLegacyMode : Bool) (buf : CBuffer) : CStunMessageBuilder :=
  (((create (.attach buf true) fLegacyMode).addHeader host msgType msgClass).2.addTransactionId transid).2

/-- The header of a message before its length is known. -/
def headerOf (msgType : UInt16) (msgClass : StunMessageClass) (transid : StunTransactionId) : StunHeader :=
  ⟨typeField msgType msgClass, 0, transid⟩

/-- The builder stays in the buffer of the user when there is room. -/
def Stays (buf : CBuffer) (builder : CStunMessageBuilder) : Prop :=
  200 ≤ buf.allocatedSize → builder.stream.data.length ≤ buf.allocatedSize →
    builder.stream.allocated = buf.allocatedSize ∧ builder.stream.replaced = none

theorem Stays.becomes {buf : CBuffer} {next : CStunMessageBuilder} (stays : Stays buf builder)
    (becomes : Becomes builder next) : Stays buf next := by
  intro hint room
  obtain ⟨allocated, replaced⟩ := stays hint (becomes.longer.trans room)
  obtain ⟨allocated', replaced'⟩ := becomes.kept (hint.trans allocated.ge) (room.trans allocated.ge)
  exact ⟨allocated'.trans allocated, replaced'.trans replaced⟩

theorem built_start (host : ByteOrder) (msgType : UInt16) (msgClass : StunMessageClass) (transid : StunTransactionId)
    (fLegacyMode : Bool) (buf : CBuffer) :
    (start host msgType msgClass transid fLegacyMode buf).Built fLegacyMode (headerOf msgType msgClass transid) [] ∧
      Stays buf (start host msgType msgClass transid fLegacyMode buf) := by
  have fresh : (create (.attach buf true) fLegacyMode).AtEnd := ⟨rfl, rfl⟩
  have header := writes_addHeader fresh host msgType msgClass
  obtain ⟨next, result⟩ : ∃ next, (create (.attach buf true) fLegacyMode).addHeader host msgType msgClass = next :=
    ⟨_, rfl⟩
  rw [result] at header
  have some_bytes : transid.toList ≠ [] := by
    intro empty
    have length := congrArg List.length empty
    simp at length
  have id := @writes_write { next.2 with transactionid := transid } ⟨header.atEnd.pos, header.atEnd.grows⟩ _ some_bytes
  have last : start host msgType msgClass transid fLegacyMode buf =
      (({ next.2 with transactionid := transid } : CStunMessageBuilder).write transid.toList).2 := by
    rw [start, result]
    rfl
  have empty : (create (.attach buf true) fLegacyMode).stream.data = [] := rfl
  rw [last]
  refine ⟨⟨⟨0, ?_, id.atEnd⟩, id.transactionid, id.legacy.trans header.legacy⟩, fun hint room => ?_⟩
  · rw [id.data, header.data, empty, encodeAll_nil, List.append_nil, StunHeader.encode, show high 0 = 0 from rfl,
      show low 0 = 0 from rfl]
    rfl
  · have longer := congrArg List.length id.data
    rw [List.length_append] at longer
    have part : next.2.stream.data.length ≤ buf.allocatedSize := by
      change _ = next.2.stream.data.length + _ at longer
      omega
    obtain ⟨allocated, replaced⟩ := header.kept hint part
    have same : next.2.stream.allocated = buf.allocatedSize := allocated
    obtain ⟨allocated', replaced'⟩ := id.kept (hint.trans same.ge) (room.trans same.ge)
    exact ⟨allocated'.trans same, replaced'.trans replaced⟩

/-- This is a whole message in a buffer of the user. -/
def build (host : ByteOrder) (digests : Digests) (msgType : UInt16) (msgClass : StunMessageClass)
    (transid : StunTransactionId) (fLegacyMode : Bool) (buf : CBuffer) (calls : List BuilderCall) :
    HRESULT × Option CBuffer × CStunMessageBuilder :=
  (performAll host digests calls (start host msgType msgClass transid fLegacyMode buf)).getResult host

/-- The bytes are in the buffer of the stream, which is the one of the user when there is room. -/
theorem Contains.buffer (contains : builder.Contains header records) {buf : CBuffer} (stays : Stays buf builder) :
    ∃ result : CBuffer, builder.stream.spBuffer = some result ∧
      result.data = header.encode ++ encodeAll records ∧
      (200 ≤ buf.allocatedSize → result.data.length ≤ buf.allocatedSize →
        builder.stream.attached = some result ∧ result.allocatedSize = buf.allocatedSize) := by
  have data := contains.data
  cases buffer : builder.stream.spBuffer with
  | none =>
      have length := contains.length
      rw [CDataStream.data, buffer, Option.map_none, Option.getD_none, List.length_nil] at length
      omega
  | some result =>
      have same : builder.stream.data = result.data := by rw [CDataStream.data, buffer]; rfl
      refine ⟨result, rfl, same.symm.trans data, fun hint room => ?_⟩
      obtain ⟨allocated, replaced⟩ := stays hint (by rw [same]; exact room)
      refine ⟨?_, ?_⟩
      · rw [CDataStream.attached, replaced, buffer]
        rfl
      · rw [← allocated, CDataStream.allocated, buffer]
        rfl

/-- The builder ends with the header that counts the records, and it stays in the buffer of the user when there is
room. -/
theorem build_finished (host : ByteOrder) (digests : Digests) (msgType : UInt16) (msgClass : StunMessageClass)
    (transid : StunTransactionId) (fLegacyMode : Bool) (buf : CBuffer) {calls : List BuilderCall}
    (short : (encodeAll (recordsAfter digests fLegacyMode (headerOf msgType msgClass transid) [] calls)).length <
      2 ^ 63) :
    let last := (performAll host digests calls
      (start host msgType msgClass transid fLegacyMode buf)).fixLengthField host
    last.1.failed = false ∧
      last.2.Contains
        (counted (headerOf msgType msgClass transid)
          (recordsAfter digests fLegacyMode (headerOf msgType msgClass transid) [] calls))
        (recordsAfter digests fLegacyMode (headerOf msgType msgClass transid) [] calls) ∧
      Stays buf last.2 := by
  obtain ⟨started, stays⟩ := built_start host msgType msgClass transid fLegacyMode buf
  obtain ⟨built, becomes⟩ := started.performAll host short
  obtain ⟨msgLength, contains⟩ := built.contains
  obtain ⟨success, fixed, last⟩ := contains.fixLengthField host
  exact ⟨success, fixed, (stays.becomes becomes).becomes last⟩

theorem build_eq (host : ByteOrder) (digests : Digests) (msgType : UInt16) (msgClass : StunMessageClass)
    (transid : StunTransactionId) (fLegacyMode : Bool) (buf : CBuffer) {calls : List BuilderCall}
    (short : (encodeAll (recordsAfter digests fLegacyMode (headerOf msgType msgClass transid) [] calls)).length <
      2 ^ 63) :
    ∃ result : CBuffer,
      (build host digests msgType msgClass transid fLegacyMode buf calls).1.failed = false ∧
        (build host digests msgType msgClass transid fLegacyMode buf calls).2.1 = some result ∧
        result.data =
          (counted (headerOf msgType msgClass transid)
              (recordsAfter digests fLegacyMode (headerOf msgType msgClass transid) [] calls)).encode ++
            encodeAll (recordsAfter digests fLegacyMode (headerOf msgType msgClass transid) [] calls) := by
  obtain ⟨success, contains, stays⟩ := build_finished host digests msgType msgClass transid fLegacyMode buf short
  obtain ⟨result, buffer, data, -⟩ := contains.buffer stays
  have succeeded : (fixLengthField host (performAll host digests calls
      (start host msgType msgClass transid fLegacyMode buf))).1.succeeded = true := by
    rw [HRESULT.failed] at success
    simpa using success
  rw [build, getResult]
  dsimp only
  rw [if_pos succeeded]
  exact ⟨result, success, buffer, data⟩

/-- The reader takes so many attributes of such a size. -/
structure Limits (records : List PaddedRecord) : Prop where
  short : (encodeAll records).length ≤ maxStunMessageSize
  small : ∀ record ∈ records, record.value.length ≤ maxStunAttributeSize
  few : records.length ≤ maxNumAttributes

theorem length_encodeAll_le (short : ∀ record ∈ records, record.encode.length ≤ 100) :
    (encodeAll records).length ≤ 100 * records.length := by
  induction records with
  | nil => simp
  | cons record rest ih =>
      have first := short record List.mem_cons_self
      have later := ih fun other member => short other (List.mem_cons_of_mem _ member)
      rw [encodeAll_cons, List.length_append, List.length_cons]
      omega

/-- Few short records are within the limits. -/
theorem limits_of_short (short : ∀ record ∈ records, record.encode.length ≤ 100) (few : records.length ≤ 5) :
    Limits records where
  short := by
    have total := length_encodeAll_le short
    rw [maxStunMessageSize]
    omega
  small := fun record member => by
    have length := short record member
    rw [record.length_encode] at length
    rw [maxStunAttributeSize]
    omega
  few := by
    rw [maxNumAttributes]
    omega

/-- The record of the call is short, whatever the records before it. -/
def BuilderCall.Short (call : BuilderCall) : Prop :=
  ∀ digests legacy header records record, call.record digests legacy header records = some record →
    record.encode.length ≤ 100

theorem short_recordsAfter {calls : List BuilderCall} (short : ∀ call ∈ calls, call.Short)
    (before : ∀ record ∈ records, record.encode.length ≤ 100) :
    (∀ record ∈ recordsAfter digests legacy header records calls, record.encode.length ≤ 100) ∧
      (recordsAfter digests legacy header records calls).length ≤ records.length + calls.length := by
  induction calls generalizing records with
  | nil => exact ⟨before, le_rfl⟩
  | cons call rest ih =>
      have one : (call.record digests legacy header records).toList.length ≤ 1 := by
        cases call.record digests legacy header records <;> simp
      obtain ⟨later, count⟩ := @ih (records ++ (call.record digests legacy header records).toList)
        (fun other member => short other (List.mem_cons_of_mem _ member)) (by
          intro record member
          rcases List.mem_append.mp member with old | new
          · exact before record old
          · exact short call List.mem_cons_self digests legacy header records record (Option.mem_toList.mp new))
      refine ⟨later, ?_⟩
      rw [List.length_append] at count
      rw [recordsAfter, List.foldl_cons, ← recordsAfter, List.length_cons]
      omega

/-- Few short calls make a message that is within the limits and short itself. -/
theorem limits_recordsAfter (digests : Digests) (legacy : Bool) (header : StunHeader) {calls : List BuilderCall}
    (short : ∀ call ∈ calls, call.Short) (few : calls.length ≤ 5) :
    Limits (recordsAfter digests legacy header [] calls) ∧
      (encodeAll (recordsAfter digests legacy header [] calls)).length ≤ 500 := by
  obtain ⟨small, count⟩ := @short_recordsAfter digests legacy header [] calls short (by simp)
  rw [List.length_nil, Nat.zero_add] at count
  have total := length_encodeAll_le small
  exact ⟨limits_of_short small (by omega), by omega⟩

theorem length_attributeOf (legacy : Bool) (type : UInt16) (value : List UInt8)
    (short : value.length + padding value.length < 65536) :
    (attributeOf legacy type value short).encode.length = 4 + value.length + padding value.length := by
  rw [encode_attributeOf]
  simp only [List.length_append, List.length_cons, List.length_nil, List.length_replicate]

theorem length_addressAttribute (legacy : Bool) (type : UInt16) (addr : CSocketAddress) :
    (addressAttribute legacy type addr).encode.length ≤ 24 := by
  rw [addressAttribute, length_attributeOf, length_addressValue]
  split <;> decide

/-- The last record of a type. -/
def lastOf (records : List PaddedRecord) (type : UInt16) : Option PaddedRecord :=
  (records.filter fun record => record.type = type).getLast?

@[simp] theorem lastOf_append (before after : List PaddedRecord) (type : UInt16) :
    lastOf (before ++ after) type = (lastOf after type).or (lastOf before type) := by
  rw [lastOf, List.filter_append, List.getLast?_append, lastOf, lastOf]

@[simp] theorem lastOf_singleton (record : PaddedRecord) (type : UInt16) :
    lastOf [record] type = if record.type = type then some record else none := by
  rw [lastOf]
  by_cases same : record.type = type <;> simp [same]

theorem lookup_eq_lastOf (message : StunMessage) (type : UInt16) :
    message.lookup type = lastOf message.attributes type := by
  rw [StunMessage.lookup, ShadowTable.lookup, lastOf, ← List.map_reverse, List.find?_map, Option.map_map,
    ← List.head?_filter, List.filter_reverse, List.head?_reverse]
  exact congrFun Option.map_id _

theorem type_of_lookup {message : StunMessage} {type : UInt16} {record : PaddedRecord}
    (found : message.lookup type = some record) : record.type = type := by
  rw [lookup_eq_lastOf, lastOf] at found
  simpa using (List.mem_filter.mp (List.mem_of_getLast? found)).2

/-- The leading bits of a type field are zero, and its type comes back without its upper bits. -/
theorem typeField_bits (msgType : UInt16) (msgClass : StunMessageClass) :
    typeField msgType msgClass &&& 0xc000 = 0 ∧
      CStunMessageReader.normalizedType (typeField msgType msgClass) = msgType &&& 0x0fff := by
  rw [CStunMessageReader.normalizedType, typeField]
  -- The bits of the class are masked out on both sides, whichever class it is.
  generalize UInt16.ofNat msgClass.value = value
  constructor <;>
  · apply UInt16.toBitVec_inj.mp
    apply BitVec.eq_of_getLsbD_eq
    intro i inside
    interval_cases i <;> simp

theorem classOf_typeField (msgType : UInt16) {msgClass : StunMessageClass} (valid : msgClass ≠ .invalidMessageClass) :
    CStunMessageReader.classOf (typeField msgType msgClass) = msgClass := by
  have masked : typeField msgType msgClass &&& (0x0110 : UInt16) =
      (UInt16.ofNat msgClass.value &&& (0x02 : UInt16)) <<< (7 : UInt16) |||
        (UInt16.ofNat msgClass.value &&& (0x01 : UInt16)) <<< (4 : UInt16) := by
    rw [typeField]
    generalize UInt16.ofNat msgClass.value = value
    apply UInt16.toBitVec_inj.mp
    apply BitVec.eq_of_getLsbD_eq
    intro i inside
    interval_cases i <;> simp
  rw [CStunMessageReader.classOf, masked]
  cases msgClass with
  | invalidMessageClass => exact absurd rfl valid
  | _ => decide

/-- The records within the limits make a message. -/
def messageOf (msgType : UInt16) (msgClass : StunMessageClass) (transid : StunTransactionId)
    {records : List PaddedRecord} (limits : Limits records) : StunMessage :=
  ⟨typeField msgType msgClass, transid, records, (typeField_bits msgType msgClass).1, limits.short, limits.small,
    limits.few⟩

theorem encode_messageOf (msgType : UInt16) (msgClass : StunMessageClass) (transid : StunTransactionId)
    (limits : Limits records) :
    (messageOf msgType msgClass transid limits).encode =
      (counted (headerOf msgType msgClass transid) records).encode ++ encodeAll records := rfl

/-- The reader takes the bytes of the records exactly when they are within its limits. -/
theorem feed_limits (host : ByteOrder) {start : CStunMessageReader} (fresh : start.Fresh) {msgType : UInt16}
    {msgClass : StunMessageClass} {transid : StunTransactionId} {parts : List (List UInt8)}
    (same : parts.flatten =
      (counted (headerOf msgType msgClass transid) records).encode ++ encodeAll records) :
    ((start.feed host parts).state = .bodyValidated ↔
      Limits records ∧ (start.fAllowLegacyFormat = true ∨ (headerOf msgType msgClass transid).legacy = false)) ∧
    ((start.feed host parts).state = .bodyValidated →
      ∃ limits : Limits records,
        CStunMessageReader.Reads (messageOf msgType msgClass transid limits) (start.feed host parts)) := by
  have iff : (start.feed host parts).state = .bodyValidated ↔
      Limits records ∧ (start.fAllowLegacyFormat = true ∨ (headerOf msgType msgClass transid).legacy = false) := by
    rw [CStunMessageReader.feed_bodyValidated_iff host fresh parts, same]
    constructor
    · rintro ⟨message, encoded, allowed⟩
      have header := congrArg StunHeader.read encoded
      have body := congrArg (List.drop 20) encoded
      rw [StunMessage.read_encode, StunHeader.read_encode] at header
      rw [StunMessage.drop_encode, ← (counted (headerOf msgType msgClass transid) records).length_encode,
        List.drop_left] at body
      obtain rfl := encodeAll_injective body
      rw [StunMessage.Allowed, header] at allowed
      exact ⟨⟨message.short, message.small, message.few⟩, allowed⟩
    · rintro ⟨limits, allowed⟩
      exact ⟨messageOf msgType msgClass transid limits, rfl, allowed⟩
  refine ⟨iff, fun state => ?_⟩
  obtain ⟨limits, allowed⟩ := iff.mp state
  exact ⟨limits, CStunMessageReader.feed_reads host fresh (by rw [same]; rfl) allowed⟩

/-- The reader takes a message of the builder, in whatever parts it comes, exactly when it is within the limits. Then
the reader has the class, the type, the transaction id and for each attribute the value of the last call that gave
it. -/
theorem build_feed (host hostOfReader : ByteOrder) (digests : Digests) (msgType : UInt16) {msgClass : StunMessageClass}
    (valid : msgClass ≠ .invalidMessageClass) (transid : StunTransactionId) (fLegacyMode : Bool) (buf : CBuffer)
    {calls : List BuilderCall}
    (short : (encodeAll (recordsAfter digests fLegacyMode (headerOf msgType msgClass transid) [] calls)).length <
      2 ^ 63) {start : CStunMessageReader} (fresh : start.Fresh) :
    ∃ result, (build host digests msgType msgClass transid fLegacyMode buf calls).1.failed = false ∧
      (build host digests msgType msgClass transid fLegacyMode buf calls).2.1 = some result ∧
      ∀ parts : List (List UInt8), parts.flatten = result.data →
        let records := recordsAfter digests fLegacyMode (headerOf msgType msgClass transid) [] calls
        let reader := start.feed hostOfReader parts
        (reader.state = .bodyValidated ↔
          Limits records ∧
            (start.fAllowLegacyFormat = true ∨ (headerOf msgType msgClass transid).legacy = false)) ∧
        (reader.state = .bodyValidated →
          reader.transactionid = transid ∧ reader.msgClass = msgClass ∧
            reader.msgTypeNormalized = msgType &&& 0x0fff ∧
            reader.fMessageIsLegacyFormat = (headerOf msgType msgClass transid).legacy ∧
            ∀ type, (reader.lookup type).map reader.valueOf =
              (lastOf records type).map fun record => record.value) := by
  obtain ⟨result, success, buffer, data⟩ := build_eq host digests msgType msgClass transid fLegacyMode buf short
  refine ⟨result, success, buffer, fun parts same => ?_⟩
  obtain ⟨iff, reads⟩ := feed_limits hostOfReader fresh (same.trans data)
  refine ⟨iff, fun state => ?_⟩
  obtain ⟨limits, reads⟩ := reads state
  obtain ⟨-, type⟩ := typeField_bits msgType msgClass
  refine ⟨reads.transactionid, reads.msgClass.trans (classOf_typeField msgType valid), reads.msgType.trans type,
    reads.legacy, fun kind => ?_⟩
  rw [reads.value, lookup_eq_lastOf]
  rfl

/-- The call leaves bytes that are no attribute: a length without the bytes, or an odd number of words that is not filled
up. -/
inductive Unfilled (host : ByteOrder) : (CStunMessageBuilder → HRESULT × CStunMessageBuilder) → Prop where
  | null (attribType size : UInt16) (some_bytes : size ≠ 0) : Unfilled host (addAttributeNull host attribType size)
  | odd (arr : List (UInt8 × UInt8)) (odd : arr.length % 2 = 1) (short : 2 * arr.length + 2 < 65536) :
      Unfilled host (addUnknownAttributes host arr)

/-- The bytes that such a call leaves are no records, unless the builder is in the legacy mode. -/
theorem Unfilled.writes {call : CStunMessageBuilder → HRESULT × CStunMessageBuilder} (unfilled : Unfilled host call)
    (atEnd : builder.AtEnd) (modern : builder.fLegacyMode = false) :
    ∃ tail, Writes builder tail (call builder) ∧ ∀ records, encodeAll records ≠ tail := by
  cases unfilled with
  | null attribType size some_bytes =>
      refine ⟨_, writes_addAttributeHeader atEnd host attribType size, fun records same => ?_⟩
      have total := congrArg List.length same
      cases records with
      | nil => simp at total
      | cons record rest =>
          have field := congrArg lengthAt same
          rw [encodeAll_cons, lengthAt_encode] at field
          have value : record.value.length = size.toNat := by simpa [lengthAt] using field
          have positive : size.toNat ≠ 0 := fun zero => some_bytes (UInt16.toNat_inj.mp zero)
          rw [encodeAll_cons, List.length_append, record.length_encode] at total
          simp only [List.length_cons, List.length_nil] at total
          omega
  | odd arr odd short =>
      have some_words : arr ≠ [] := by
        rintro rfl
        simp at odd
      refine ⟨_, writes_addUnknownAttributes atEnd host some_words short, fun records same => ?_⟩
      have total := congrArg List.length same
      have whole := length_encodeAll_mod records
      rw [List.length_append, length_filledArray some_words, modern] at total
      simp only [List.length_cons, List.length_nil, Bool.false_eq_true, false_and, if_false] at total
      omega

/-- Records that start with other records go on with records. -/
theorem encodeAll_eq_append {all first : List PaddedRecord} {tail : List UInt8}
    (same : encodeAll all = encodeAll first ++ tail) : ∃ rest, encodeAll rest = tail := by
  induction first generalizing all with
  | nil => exact ⟨all, same⟩
  | cons record rest ih =>
      cases all with
      | nil =>
          have empty := congrArg List.length same
          rw [encodeAll_nil, encodeAll_cons, List.length_nil, List.length_append, List.length_append,
            record.length_encode] at empty
          omega
      | cons other later =>
          rw [encodeAll_cons, encodeAll_cons, List.append_assoc] at same
          exact ih (encode_append_inj same).2

/-- The reader refuses a message of the builder that ends with bytes that are no attribute. -/
theorem build_unfilled_refused (host hostOfReader : ByteOrder) (digests : Digests) (msgType : UInt16)
    (msgClass : StunMessageClass) (transid : StunTransactionId) (buf : CBuffer) {calls : List BuilderCall}
    (short : (encodeAll (recordsAfter digests false (headerOf msgType msgClass transid) [] calls)).length < 2 ^ 63)
    {last : CStunMessageBuilder → HRESULT × CStunMessageBuilder} (unfilled : Unfilled host last)
    {begin : CStunMessageReader} (fresh : begin.Fresh) {parts : List (List UInt8)}
    (same : parts.flatten =
      ((last (performAll host digests calls (start host msgType msgClass transid false buf))).2.getResult
        host).2.2.stream.data) :
    (begin.feed hostOfReader parts).state ≠ .bodyValidated := by
  obtain ⟨started, -⟩ := built_start host msgType msgClass transid false buf
  obtain ⟨built, -⟩ := started.performAll host short
  obtain ⟨msgLength, contains⟩ := built.contains
  obtain ⟨tail, writes, unfit⟩ := unfilled.writes contains.atEnd built.legacy
  have long : 20 ≤ (last (performAll host digests calls
      (start host msgType msgClass transid false buf))).2.stream.data.length := by
    rw [writes.data, List.length_append, contains.length]
    omega
  obtain ⟨-, fixed, -, -⟩ := fixLengthField_eq writes.atEnd host long
  intro state
  obtain ⟨message, encoded, -⟩ := (CStunMessageReader.feed_bodyValidated_iff hostOfReader fresh parts).mp state
  have body := congrArg (List.drop 20) (encoded.trans (same.trans fixed))
  have front (stream field : List UInt8) (header : 20 ≤ stream.length) (two : field.length = 2) :
      (stream.take 2 ++ field ++ stream.drop 4).drop 20 = stream.drop 20 := by
    rw [List.drop_append, List.drop_eq_nil_of_le (by simp; omega), List.nil_append, List.drop_drop]
    congr 1
    simp
    omega
  rw [StunMessage.drop_encode, front _ _ long rfl, writes.data, contains.data, List.append_assoc,
    ← StunHeader.length_encode, List.drop_left] at body
  obtain ⟨rest, tail_eq⟩ := encodeAll_eq_append body
  exact unfit rest tail_eq

/-- These digests mix all bytes. -/
def sampleDigests : Digests :=
  ⟨fun key bytes => Vector.replicate 20 ((key ++ bytes).foldl (fun sum byte => 3 * sum + byte) 7),
    fun bytes => Vector.replicate 16 (bytes.foldl (fun sum byte => 3 * sum + byte) 5),
    fun bytes => bytes.foldl (fun sum byte => 3 * sum + byte.toUInt32) 3⟩

theorem build_feed_port :
    let start := CStunMessageReader.create (fun _ => (0, ⟨0, 0, 0⟩)) (fun _ => ⟨0, none⟩) (fun _ => none) fun _ => 0
    let calls : List BuilderCall := [.addResponsePort 5555, .addFingerprintAttribute]
    ∃ result, (build .little sampleDigests stunMsgTypeBinding .request (Vector.replicate 16 7) false ⟨[], 800⟩
        calls).2.1 = some result ∧
      ∀ parts : List (List UInt8), parts.flatten = result.data →
        (start.feed .big parts).state = .bodyValidated ∧ (start.feed .big parts).msgClass = .request := by
  have short : (encodeAll (recordsAfter sampleDigests false
      (headerOf stunMsgTypeBinding .request (Vector.replicate 16 7)) []
      [.addResponsePort 5555, .addFingerprintAttribute])).length = 16 := by decide +kernel
  obtain ⟨result, -, buffer, takes⟩ := build_feed .little .big sampleDigests stunMsgTypeBinding
    (show StunMessageClass.request ≠ .invalidMessageClass by decide) (Vector.replicate 16 7) false ⟨[], 800⟩
    (by rw [short]; decide) (CStunMessageReader.fresh_create _ _ _ _)
  refine ⟨result, buffer, fun parts same => ?_⟩
  obtain ⟨iff, fields⟩ := takes parts same
  have state := iff.mpr ⟨⟨by rw [short]; decide, by decide +kernel, by decide +kernel⟩, .inl rfl⟩
  exact ⟨state, (fields state).2.1⟩

end CStunMessageBuilder

end Nose
