import Nose.Proof.BuiltMessages

/-
This file shows which messages the reader takes as signed by a key and which as having a right checksum. The builder
makes such messages.
-/

namespace Nose

open CMemory PaddedRecords

namespace CStunMessageReader

variable {reader : CStunMessageReader} {message : StunMessage} {before after : List PaddedRecord} {record : PaddedRecord}

theorem attributesFrom_append (offset : Nat) (before after : List PaddedRecord) :
    attributesFrom offset (before ++ after) =
      attributesFrom offset before ++ attributesFrom (offset + (encodeAll before).length) after := by
  induction before generalizing offset with
  | nil => rfl
  | cons record rest ih =>
      rw [List.cons_append, attributesFrom, attributesFrom, ih, encodeAll_cons, List.length_append, Nat.add_assoc,
        List.cons_append]

/-- The reader finds the last attribute of a type behind the attributes before it. -/
theorem Reads.lookup_last (reads : Reads message reader) (split : message.attributes = before ++ record :: after)
    (last : ∀ other ∈ after, other.type ≠ record.type) :
    reader.lookup record.type =
      some ⟨record.type, UInt16.ofNat record.value.length, UInt16.ofNat (20 + (encodeAll before).length + 4)⟩ := by
  rw [reads.entries, attributeEntries, split, attributesFrom_append, attributesFrom, List.map_append, List.map_cons,
    List.reverse_append, List.reverse_cons, List.append_assoc]
  apply ShadowTable.lookup_split
  intro entry member
  rw [List.mem_reverse, List.mem_map] at member
  obtain ⟨attrib, member, rfl⟩ := member
  have type : attrib.attributeType ∈ after.map fun record => record.type := by
    rw [← types_attributesFrom (20 + (encodeAll before).length + record.encode.length)]
    exact List.mem_map_of_mem member
  obtain ⟨other, member, same⟩ := List.mem_map.mp type
  rw [← same]
  exact last other member

/-- The chunks are the bytes from the position on. The induction is on their number. -/
theorem readChunks_eq {stream : CDataStream} {nChunks : Nat}
    (inside : stream.pos + 4 * nChunks ≤ stream.data.length) :
    readChunks nChunks stream = some ((stream.data.drop stream.pos).take (4 * nChunks)) := by
  induction nChunks generalizing stream with
  | zero => rw [readChunks, Nat.mul_zero, List.take_zero]
  | succ nChunks ih =>
      have rest := @ih (stream.atPos (stream.pos + 4))
        (by rw [CDataStream.data_atPos, CDataStream.pos_atPos]; omega)
      rw [CDataStream.data_atPos, CDataStream.pos_atPos] at rest
      have more : 4 * (nChunks + 1) = 4 + 4 * nChunks := by omega
      rw [readChunks, CDataStream.read_ok (by omega)]
      dsimp only
      rw [failed_sOk, if_neg (by decide), rest, more, List.take_add, List.drop_drop]
      rfl

/-- A list is split in one way at the last of its elements with a property. -/
theorem split_unique {Element : Type} {property : Element → Prop} {before before' after after' : List Element}
    {here here' : Element} (same : before ++ here :: after = before' ++ here' :: after') (holds : property here)
    (holds' : property here') (last : ∀ other ∈ after, ¬property other) (last' : ∀ other ∈ after', ¬property other) :
    before = before' ∧ here = here' ∧ after = after' := by
  rcases List.append_eq_append_iff.mp same with ⟨middle, front, back⟩ | ⟨middle, front, back⟩
  · cases middle with
    | nil =>
        obtain ⟨rfl, rfl⟩ := List.cons.inj back
        exact ⟨by rw [front, List.append_nil], rfl, rfl⟩
    | cons first rest =>
        obtain ⟨-, rfl⟩ := List.cons.inj back
        exact absurd holds' (last here' (by simp))
  · cases middle with
    | nil =>
        obtain ⟨rfl, rfl⟩ := List.cons.inj back
        exact ⟨by rw [front, List.append_nil], rfl, rfl⟩
    | cons first rest =>
        obtain ⟨-, rfl⟩ := List.cons.inj back
        exact absurd holds (last' here (by simp))

theorem LastAt.index_eq {before after : List UInt16} {type : UInt16} {index : Int}
    (at_index : LastAt (before ++ type :: after) type index) (last : type ∉ after) : index = before.length := by
  rcases at_index with ⟨-, absent⟩ | ⟨before', after', split, last', place⟩
  · exact absurd (by simp) absent
  · obtain ⟨rfl, -, -⟩ := @split_unique UInt16 (· = type) _ _ _ _ _ _ split rfl rfl
      (fun other member same => last (same ▸ member)) (fun other member same => last' (same ▸ member))
    exact place

/-- The last type of all has the last index. -/
theorem LastAt.index_last {types : List UInt16} {type other : UInt16} {index : Int}
    (at_index : LastAt (types ++ [other]) type index) : index = types.length ↔ other = type := by
  constructor
  · intro place
    rcases at_index with ⟨none, -⟩ | ⟨before, after, split, -, place'⟩
    · omega
    · obtain ⟨-, tail⟩ := List.append_inj split (by omega)
      exact (List.cons.inj tail).1
  · rintro rfl
    exact at_index.index_eq (by simp)

/-- The signature is the last attribute, or a fingerprint follows it. -/
def Closing (after : List PaddedRecord) : Prop :=
  after = [] ∨ ∃ last, after = [last] ∧ last.type = stunAttributeFingerprint

/-- The length field does not count a fingerprint. -/
def signedHeader (message : StunMessage) (after : List PaddedRecord) : StunHeader :=
  { message.header with
    msgLength := if after = [] then message.header.msgLength else message.header.msgLength - 8 }

/-- The message is signed by a key. The signature covers the bytes before it. -/
def Signed (digests : Digests) (signer : List UInt8) (message : StunMessage) : Prop :=
  signer ≠ [] ∧ ∃ before signature after, message.attributes = before ++ signature :: after ∧
    signature.type = stunAttributeMessageintegrity ∧ Closing after ∧
    signature.value = (digests.hmac signer ((signedHeader message after).encode ++ encodeAll before)).toList

/-- The indexes of the reader show where the signature stands. -/
theorem Counts.closing_iff (counts : reader.Counts (message.attributes.map fun record => record.type))
    (split : message.attributes = before ++ record :: after) (type : record.type = stunAttributeMessageintegrity)
    (last : ∀ other ∈ after, other.type ≠ record.type) :
    reader.countAttributes = before.length + after.length + 1 ∧ reader.indexMessageIntegrity = before.length ∧
      (Closing after ↔ (reader.indexMessageIntegrity = reader.countAttributes - 1 ∨
        (reader.indexMessageIntegrity = reader.countAttributes - 1 - 1 ∧
          reader.indexFingerprint = reader.countAttributes - 1))) := by
  obtain ⟨count, fingerprint, integrity⟩ := counts
  rw [split, List.map_append, List.map_cons] at count fingerprint integrity
  rw [type] at integrity last
  have index := integrity.index_eq fun member => by
    obtain ⟨other, member, same⟩ := List.mem_map.mp member
    exact last other member same
  rw [List.length_map] at index
  rw [List.length_append, List.length_cons, List.length_map, List.length_map] at count
  refine ⟨by omega, index, ?_⟩
  match after with
  | [] => exact iff_of_true (.inl rfl) (.inl (by simp at count; omega))
  | [only] =>
      have whole : before.map (fun record => record.type) ++ record.type :: [only].map (fun record => record.type) =
          (before.map (fun record => record.type) ++ [record.type]) ++ [only.type] := by simp
      rw [whole] at fingerprint
      have last_index := fingerprint.index_last
      rw [List.length_append, List.length_map, List.length_singleton] at last_index
      rw [List.length_singleton] at count
      constructor
      · rintro (none | ⟨other, same, kind⟩)
        · simp at none
        · obtain rfl := List.singleton_injective same
          exact .inr ⟨by omega, by rw [last_index.mpr kind]; omega⟩
      · rintro (place | ⟨-, place⟩)
        · omega
        · exact .inr ⟨only, rfl, last_index.mp (by omega)⟩
  | first :: second :: rest =>
      rw [List.length_cons, List.length_cons] at count
      refine iff_of_false ?_ (by omega)
      rintro (none | ⟨other, same, -⟩) <;> simp at *

/-- The bytes from a record on. -/
theorem drop_encode_split (split : message.attributes = before ++ record :: after) :
    message.encode.drop (20 + (encodeAll before).length + 4) = record.value ++ (record.fill ++ encodeAll after) := by
  have start : message.encode.drop (20 + (encodeAll before).length) = record.encode ++ encodeAll after := by
    rw [← List.drop_drop, message.drop_encode, split, encodeAll_append, encodeAll_cons, List.drop_left]
  rw [← List.drop_drop, start, PaddedRecords.drop_encode]

/-- The bytes of the transaction id and of the records before a signature. -/
theorem take_encode_split (split : message.attributes = before ++ record :: after) :
    (message.encode.drop 4).take (16 + (encodeAll before).length) = message.transid.toList ++ encodeAll before := by
  have start : message.encode.drop 4 =
      message.transid.toList ++ encodeAll before ++ (record.encode ++ encodeAll after) := by
    rw [StunMessage.encode, StunHeader.encode, split, encodeAll_append, encodeAll_cons]
    simp [StunMessage.header]
  rw [start, List.take_left' (by simp)]

/-- The offset of a value in a message. -/
theorem toNat_offset (split : message.attributes = before ++ record :: after) :
    (UInt16.ofNat (20 + (encodeAll before).length + 4)).toNat = 20 + (encodeAll before).length + 4 := by
  have short : _ ≤ 800 := message.short
  rw [split, encodeAll_append, List.length_append] at short
  rw [UInt16.toNat_ofNat']
  exact Nat.mod_eq_of_lt (by omega)

/-- The type and the length of the header, as they are read for the signature. -/
theorem Reads.header_words (reads : Reads message reader) (host : ByteOrder) :
    ∃ raw, (reader.stream.atPos 0).read 2 =
        (.sOk, [high message.msgType, low message.msgType], reader.stream.atPos 2) ∧
      (reader.stream.atPos 2).readUint16 host = (.sOk, raw, reader.stream.atPos 4) ∧
      htons host raw = message.header.msgLength := by
  have enough := message.length_encode
  have first : message.encode.take 2 = [high message.msgType, low message.msgType] := rfl
  obtain ⟨raw, read, word⟩ := @CDataStream.readUint16_ok (reader.stream.atPos 2) host
    (by rw [CDataStream.data_atPos, CDataStream.pos_atPos, reads.data]; omega)
  refine ⟨raw, ?_, read, ?_⟩
  · rw [CDataStream.read_ok (by rw [CDataStream.data_atPos, CDataStream.pos_atPos, reads.data]; omega),
      CDataStream.data_atPos, CDataStream.pos_atPos, reads.data, List.drop_zero, first]
    rfl
  · rw [word, CDataStream.data_atPos, CDataStream.pos_atPos, reads.data, StunMessage.encode, StunHeader.encode]
    simp

/-- The header bytes and the chunks are what the signature covers. -/
theorem Reads.validate_split (reads : Reads message reader) (host : ByteOrder) (digests : Digests)
    (signer : List UInt8) (split : message.attributes = before ++ record :: after)
    (type : record.type = stunAttributeMessageintegrity) (last : ∀ other ∈ after, other.type ≠ record.type) :
    (reader.validateMessageIntegrity host digests signer).succeeded = true ↔
      signer ≠ [] ∧ Closing after ∧
        record.value = (digests.hmac signer ((signedHeader message after).encode ++ encodeAll before)).toList := by
  obtain ⟨count, index, place⟩ := reads.counts.closing_iff split type last
  have found := reads.lookup_last split last
  have size : (UInt16.ofNat record.value.length).toNat = record.value.length := by
    rw [UInt16.toNat_ofNat']
    exact Nat.mod_eq_of_lt record.short
  rw [type] at found
  rw [validateMessageIntegrity]
  dsimp only
  rw [if_neg (by rw [reads.state]; decide), if_neg (by omega), if_neg (by omega)]
  by_cases empty : signer = []
  · rw [if_pos empty]
    exact iff_of_false (by decide) fun signed => signed.1 empty
  rw [if_neg empty, found]
  dsimp only
  by_cases twenty : UInt16.ofNat record.value.length = 20
  swap
  · rw [if_pos twenty]
    refine iff_of_false (by decide) fun signed => twenty ?_
    rw [signed.2.2, Vector.length_toList]
    rfl
  have length : record.value.length = 20 := by rw [← size, twenty]; rfl
  rw [if_neg (not_not.mpr twenty)]
  by_cases stands : Closing after
  swap
  · rw [if_pos (fun holds => stands (place.mpr holds))]
    exact iff_of_false (by decide) fun signed => stands signed.2.1
  rw [if_neg (not_not.mpr (place.mp stands))]
  obtain ⟨raw, readType, readLength, lengthIs⟩ := reads.header_words host
  have at_zero : ({ reader.stream with pos := 0 } : CDataStream) = reader.stream.atPos 0 := rfl
  rw [at_zero, readType, failed_sOk, if_neg (by decide)]
  dsimp only
  rw [readLength, failed_sOk, if_neg (by decide)]
  dsimp only
  have whole := length_encodeAll_mod before
  have inside : 20 + (encodeAll before).length ≤ message.encode.length := by
    rw [message.length_encode, split, encodeAll_append, List.length_append]
    omega
  have chunks := @readChunks_eq (reader.stream.atPos 4) ((16 + (encodeAll before).length) / 4)
    (by rw [CDataStream.data_atPos, CDataStream.pos_atPos, reads.data]; omega)
  have number : 4 * ((16 + (encodeAll before).length) / 4) = 16 + (encodeAll before).length := by omega
  rw [number, CDataStream.data_atPos, CDataStream.pos_atPos, reads.data, take_encode_split split] at chunks
  rw [toNat_offset split, show 20 + (encodeAll before).length + 4 - 4 - 4 = 16 + (encodeAll before).length by omega,
    chunks]
  dsimp only
  have value : reader.bytesAt (20 + (encodeAll before).length + 4) 20 = record.value := by
    rw [bytesAt, reads.data, drop_encode_split split, ← length, List.take_left]
  have field : bytesOf (store16 host (fun _ => 0) 0
      (if decide (reader.indexMessageIntegrity = reader.countAttributes - 1 - 1) = true then
        htons host (htons host raw - 8) else raw)) 2 =
      [high (signedHeader message after).msgLength, low (signedHeader message after).msgLength] := by
    have rawIs : raw = htons host message.header.msgLength := by rw [← lengthIs, htons_htons]
    have adjusts : reader.indexMessageIntegrity = reader.countAttributes - 1 - 1 ↔ after ≠ [] := by
      rcases stands with rfl | ⟨only, rfl, -⟩ <;> simp at count ⊢ <;> omega
    rw [signedHeader, lengthIs, rawIs]
    by_cases alone : after = []
    · rw [if_neg (by simpa [adjusts] using alone), if_pos alone, bytesOf_store16_htons]
    · rw [if_pos (by simpa [adjusts] using alone), if_neg alone, bytesOf_store16_htons]
  have covered : [high message.msgType, low message.msgType] ++
      [high (signedHeader message after).msgLength, low (signedHeader message after).msgLength] ++
        (message.transid.toList ++ encodeAll before) = (signedHeader message after).encode ++ encodeAll before := by
    rw [← List.append_assoc]
    rfl
  rw [value, field, covered]
  split
  · rename_i same
    exact iff_of_true rfl ⟨empty, stands, same.symm⟩
  · rename_i other
    exact iff_of_false (by decide) fun signed => other signed.2.2.symm

/-- The reader takes a message as signed exactly when it is. -/
theorem Reads.validate_iff (reads : Reads message reader) (host : ByteOrder) (digests : Digests)
    (signer : List UInt8) :
    (reader.validateMessageIntegrity host digests signer).succeeded = true ↔ Signed digests signer message := by
  rcases reads.counts.integrity with ⟨index, absent⟩ | ⟨types, later_types, split, absent, -⟩
  · refine iff_of_false ?_ ?_
    · rw [validateMessageIntegrity]
      dsimp only
      rw [if_neg (by rw [reads.state]; decide), if_pos index, ite_self]
      decide
    · rintro ⟨-, before, signature, after, split, type, -⟩
      refine absent ?_
      rw [split, ← type]
      exact List.mem_map_of_mem (by simp)
  · obtain ⟨before, rest, attributes, -, rest_types⟩ := List.map_eq_append_iff.mp split
    obtain ⟨signature, after, rfl, type, after_types⟩ := List.map_eq_cons_iff.mp rest_types
    have last : ∀ other ∈ after, other.type ≠ stunAttributeMessageintegrity := by
      intro other member same
      refine absent ?_
      rw [← after_types, ← same]
      exact List.mem_map_of_mem member
    rw [reads.validate_split host digests signer attributes type (by rw [type]; exact last)]
    constructor
    · rintro ⟨some_key, stands, value⟩
      exact ⟨some_key, before, signature, after, attributes, type, stands, value⟩
    · rintro ⟨some_key, before', signature', after', attributes', type', stands, value⟩
      have last' : ∀ other ∈ after', other.type ≠ stunAttributeMessageintegrity := by
        rcases stands with rfl | ⟨only, rfl, kind⟩
        · simp
        · rintro other member
          rw [List.mem_singleton.mp member, kind]
          decide
      obtain ⟨rfl, rfl, rfl⟩ := @split_unique PaddedRecord
        (fun record => record.type = stunAttributeMessageintegrity) _ _ _ _ _ _ (attributes.symm.trans attributes')
        type type' last last'
      exact ⟨some_key, stands, value⟩

/-- The checksum of the message covers all but its last eight bytes. -/
def Checked (digests : Digests) (message : StunMessage) : Prop :=
  ∃ record, message.lookup stunAttributeFingerprint = some record ∧
    record.value = CStunMessageBuilder.dwordBytes
      (digests.crc (message.encode.take (message.encode.length - 8)) ^^^ stunFingerprintXor)

/-- Four bytes are a double word in network order. -/
theorem dword_eq_iff (bytes : List UInt8) (length : bytes.length = 4) (value : UInt32) :
    dword (word (bytes.getD 0 0) (bytes.getD 1 0)) (word (bytes.getD 2 0) (bytes.getD 3 0)) = value ↔
      bytes = CStunMessageBuilder.dwordBytes value := by
  match bytes, length with
  | [first, second, third, fourth], _ =>
      constructor
      · rintro rfl
        simp [CStunMessageBuilder.dwordBytes]
      · intro same
        rw [same]
        simp [CStunMessageBuilder.dwordBytes]

/-- The reader takes the fingerprint of a message as valid exactly when it is. -/
theorem Reads.fingerprint_iff (reads : Reads message reader) (host : ByteOrder) (digests : Digests) :
    reader.isFingerprintAttributeValid host digests = true ↔ Checked digests message := by
  have found := reads.lookup stunAttributeFingerprint
  have types (record : PaddedRecord) : message.lookup stunAttributeFingerprint = some record →
      record.type = stunAttributeFingerprint := CStunMessageBuilder.type_of_lookup
  rw [isFingerprintAttributeValid, Checked]
  generalize reader.lookup stunAttributeFingerprint = attrib at found ⊢
  generalize message.lookup stunAttributeFingerprint = record at found types ⊢
  cases found with
  | none => simp
  | some located =>
      rename_i attrib record
      have type := types record rfl
      have size : attrib.size = 4 ↔ record.value.length = 4 := by
        rw [← UInt16.toNat_inj, located.size]
        rfl
      have value := valueOf_located located
      have enough : stunHeaderSize ≤ message.encode.length := by
        rw [message.length_encode, stunHeaderSize]
        omega
      simp only [Option.some.injEq, exists_eq_left', decide_eq_true_eq]
      rw [located.type, type, reads.state, reads.data, size, htonl_load32]
      constructor
      · rintro ⟨-, four, -, -, checksum⟩
        rw [valueOf, located.size, four] at value
        rw [value] at checksum
        rw [bytesAt, List.drop_zero, reads.data] at checksum
        exact (dword_eq_iff record.value four _).mp checksum
      · intro checksum
        have four : record.value.length = 4 := by
          rw [checksum]
          rfl
        rw [valueOf, located.size, four] at value
        refine ⟨rfl, four, rfl, enough, ?_⟩
        rw [value, bytesAt, List.drop_zero, reads.data]
        exact (dword_eq_iff record.value four _).mpr checksum

end CStunMessageReader

namespace CStunMessageBuilder

open CStunMessageReader

variable {msgType : UInt16} {msgClass : StunMessageClass} {transid : StunTransactionId} {records : List PaddedRecord}
  {legacy : Bool}

@[simp] theorem type_integrityAttribute (legacy : Bool) (digest : Vector UInt8 20) :
    (integrityAttribute legacy digest).type = stunAttributeMessageintegrity := type_attributeOf _

@[simp] theorem value_integrityAttribute (legacy : Bool) (digest : Vector UInt8 20) :
    (integrityAttribute legacy digest).value = digest.toList :=
  value_attributeOf_whole _ (by rw [Vector.length_toList])

/-- The signature of the builder is at the end. -/
theorem signed_messageOf (digests : Digests) (signer : List UInt8) {digest : Vector UInt8 20} {after : List PaddedRecord}
    (fingerprint : after = [] ∨ ∃ value, after = [fingerprintAttribute value])
    (limits : Limits (records ++ integrityAttribute legacy digest :: after)) :
    Signed digests signer (messageOf msgType msgClass transid limits) ↔
      signer ≠ [] ∧
        digests.hmac signer (signedBytes (headerOf msgType msgClass transid) records legacy) = digest := by
  have stands : Closing after := by
    rcases fingerprint with rfl | ⟨value, rfl⟩
    · exact .inl rfl
    · exact .inr ⟨_, rfl, rfl⟩
  have last : ∀ other ∈ after, other.type ≠ stunAttributeMessageintegrity := by
    rcases fingerprint with rfl | ⟨value, rfl⟩
    · simp
    · intro other member
      rw [List.mem_singleton.mp member]
      exact show stunAttributeFingerprint ≠ stunAttributeMessageintegrity by decide
  have header : signedHeader (messageOf msgType msgClass transid limits) after =
      counted (headerOf msgType msgClass transid) (records ++ [integrityAttribute legacy (Vector.replicate 20 0)]) := by
    have same : (encodeAll (records ++ [integrityAttribute legacy (Vector.replicate 20 0)])).length =
        (encodeAll records).length + 24 := by
      simp [encode_integrityAttribute]
    rw [signedHeader, counted, same]
    rcases fingerprint with rfl | ⟨value, rfl⟩
    · rw [if_pos rfl]
      have length : (encodeAll (records ++ [integrityAttribute legacy digest])).length =
          (encodeAll records).length + 24 := by
        simp [encode_integrityAttribute]
      rw [← length]
      rfl
    · rw [if_neg (by simp)]
      have length : (encodeAll (records ++ [integrityAttribute legacy digest, fingerprintAttribute value])).length =
          (encodeAll records).length + 24 + 8 := by
        simp [encode_integrityAttribute, encode_fingerprintAttribute, dwordBytes]
      have field : (messageOf msgType msgClass transid limits).header.msgLength =
          UInt16.ofNat ((encodeAll records).length + 24 + 8) := by
        rw [← length]
        rfl
      rw [field, UInt16.ofNat_add, show UInt16.ofNat 8 = 8 from rfl, UInt16.add_sub_cancel]
      rfl
  have covers : (signedHeader (messageOf msgType msgClass transid limits) after).encode ++ encodeAll records =
      signedBytes (headerOf msgType msgClass transid) records legacy := by
    rw [header, signedBytes]
  have kind : (integrityAttribute legacy digest).type = stunAttributeMessageintegrity := type_integrityAttribute _ _
  constructor
  · rintro ⟨some_key, before, signature, after', split, type, stands', value⟩
    have last' : ∀ other ∈ after', other.type ≠ stunAttributeMessageintegrity := by
      rcases stands' with rfl | ⟨only, rfl, kind⟩
      · simp
      · intro other member
        rw [List.mem_singleton.mp member, kind]
        decide
    obtain ⟨rfl, rfl, rfl⟩ := @split_unique PaddedRecord
      (fun record => record.type = stunAttributeMessageintegrity) _ _ _ _ _ _ split kind type last last'
    rw [covers, value_integrityAttribute] at value
    exact ⟨some_key, (Vector.toList_inj.mp value).symm⟩
  · rintro ⟨some_key, same⟩
    refine ⟨some_key, records, _, after, rfl, kind, stands, ?_⟩
    rw [covers, same, value_integrityAttribute]

/-- The checksum of the builder is right. -/
theorem checked_messageOf (digests : Digests)
    (limits : Limits (records ++ [fingerprintAttribute
      (digests.crc (checkedBytes (headerOf msgType msgClass transid) records) ^^^ stunFingerprintXor)])) :
    Checked digests (messageOf msgType msgClass transid limits) := by
  have checked : (messageOf msgType msgClass transid limits).encode.take
      ((messageOf msgType msgClass transid limits).encode.length - 8) =
        checkedBytes (headerOf msgType msgClass transid) records := by
    have same_count (value : UInt32) :
        counted (headerOf msgType msgClass transid) (records ++ [fingerprintAttribute value]) =
        counted (headerOf msgType msgClass transid) (records ++ [fingerprintAttribute 0]) :=
      counted_congr (by simp [encode_fingerprintAttribute, dwordBytes])
    rw [encode_messageOf, same_count, encodeAll_append, ← List.append_assoc, ← checkedBytes, encodeAll_cons,
      encodeAll_nil, List.append_nil, List.length_append]
    exact List.take_left' (by simp [encode_fingerprintAttribute, dwordBytes])
  rw [Checked, checked]
  refine ⟨fingerprintAttribute
    (digests.crc (checkedBytes (headerOf msgType msgClass transid) records) ^^^ stunFingerprintXor), ?_, rfl⟩
  rw [lookup_eq_lastOf]
  change lastOf (records ++ [fingerprintAttribute _]) _ = _
  have kind (value : UInt32) : (fingerprintAttribute value).type = stunAttributeFingerprint := rfl
  rw [lastOf_append, lastOf_singleton, if_pos (kind _)]
  rfl

/-- A user signs with a password of its own or with one for a realm. -/
inductive Credential where
  | shortTerm (pszPassword : List UInt8)
  | longTerm (pszUserName pszRealm pszPassword : List UInt8)

namespace Credential

def signer (digests : Digests) : Credential → List UInt8
  | shortTerm pszPassword => pszPassword
  | longTerm pszUserName pszRealm pszPassword => (digests.md5 (longTermKey pszUserName pszRealm pszPassword)).toList

/-- The buffers for the key have room for the strings. -/
def Fits : Credential → Prop
  | shortTerm _ => True
  | longTerm pszUserName pszRealm pszPassword => (longTermKey pszUserName pszRealm pszPassword).length ≤ 64 * 3 + 2

/-- The builder takes the strings. -/
def Usable : Credential → Prop
  | shortTerm pszPassword => pszPassword ≠ []
  | longTerm pszUserName pszRealm pszPassword => (longTermKey pszUserName pszRealm pszPassword).length ≤ 64 * 3 + 2

def call : Credential → BuilderCall
  | shortTerm pszPassword => .addMessageIntegrityShortTerm pszPassword
  | longTerm pszUserName pszRealm pszPassword => .addMessageIntegrityLongTerm pszUserName pszRealm pszPassword

def validate (host : ByteOrder) (digests : Digests) (reader : CStunMessageReader) : Credential → Option HRESULT
  | shortTerm pszPassword => some (reader.validateMessageIntegrityShort host digests pszPassword)
  | longTerm pszUserName pszRealm pszPassword =>
      reader.validateMessageIntegrityLong host digests pszUserName pszRealm pszPassword

/-- The validation stays within its buffer and succeeds. -/
def Validates (host : ByteOrder) (digests : Digests) (reader : CStunMessageReader) (credential : Credential) : Prop :=
  ∃ hr, credential.validate host digests reader = some hr ∧ hr.succeeded = true

theorem Usable.fits {credential : Credential} (usable : credential.Usable) : credential.Fits := by
  cases credential with
  | shortTerm pszPassword => trivial
  | longTerm pszUserName pszRealm pszPassword => exact usable

theorem record_call {credential : Credential} (usable : credential.Usable) (digests : Digests) (legacy : Bool)
    (header : StunHeader) (records : List PaddedRecord) :
    credential.call.record digests legacy header records =
      some (integrityAttribute legacy
        (digests.hmac (credential.signer digests) (signedBytes header records legacy))) := by
  cases credential with
  | shortTerm pszPassword => exact if_neg usable
  | longTerm pszUserName pszRealm pszPassword => exact if_neg (Nat.not_lt.mpr usable)

/-- The only record of the call is a signature. -/
theorem record_call_signature {credential : Credential} {digests : Digests} {legacy : Bool} {header : StunHeader}
    {records : List PaddedRecord} {record : PaddedRecord}
    (signs : credential.call.record digests legacy header records = some record) :
    ∃ digest, record = integrityAttribute legacy digest := by
  cases credential with
  | shortTerm pszPassword =>
      rw [call, BuilderCall.record] at signs
      split at signs
      · cases signs
      · exact ⟨_, (Option.some.inj signs).symm⟩
  | longTerm pszUserName pszRealm pszPassword =>
      rw [call, BuilderCall.record] at signs
      split at signs
      · cases signs
      · exact ⟨_, (Option.some.inj signs).symm⟩

theorem validate_fits {reader : CStunMessageReader} (validated : reader.state = .bodyValidated) (host : ByteOrder)
    (digests : Digests) {credential : Credential} (fits : credential.Fits) :
    credential.validate host digests reader =
      some (reader.validateMessageIntegrity host digests (credential.signer digests)) := by
  cases credential with
  | shortTerm pszPassword => rfl
  | longTerm pszUserName pszRealm pszPassword =>
      rw [validate, validateMessageIntegrityLong, if_neg (by rw [validated]; decide), if_neg (Nat.not_lt.mpr fits)]
      rfl

/-- The validation overruns its buffer exactly when the strings are too long. -/
theorem validate_eq_none_iff {reader : CStunMessageReader} (validated : reader.state = .bodyValidated)
    (host : ByteOrder) (digests : Digests) (credential : Credential) :
    credential.validate host digests reader = none ↔ ¬credential.Fits := by
  constructor
  · intro overrun fits
    rw [validate_fits validated host digests fits] at overrun
    cases overrun
  · intro long
    cases credential with
    | shortTerm pszPassword => exact absurd trivial long
    | longTerm pszUserName pszRealm pszPassword =>
        rw [validate, validateMessageIntegrityLong, if_neg (by rw [validated]; decide), if_pos (Nat.lt_of_not_le long)]

theorem validates_iff {reader : CStunMessageReader} {message : StunMessage} (reads : Reads message reader)
    (host : ByteOrder) (digests : Digests) {credential : Credential} (fits : credential.Fits) :
    credential.Validates host digests reader ↔ Signed digests (credential.signer digests) message := by
  rw [Validates, validate_fits reads.state host digests fits, ← reads.validate_iff host digests]
  simp

end Credential

theorem recordsAfter_append (digests : Digests) (legacy : Bool) (header : StunHeader) (records : List PaddedRecord)
    (calls more : List BuilderCall) :
    recordsAfter digests legacy header records (calls ++ more) =
      recordsAfter digests legacy header (recordsAfter digests legacy header records calls) more := List.foldl_append

/-- The calls that sign the message of the calls before them. A fingerprint can follow. -/
def signing (credential : Credential) (fingerprint : Bool) : List BuilderCall :=
  if fingerprint then [credential.call, .addFingerprintAttribute] else [credential.call]

theorem recordsAfter_signing {credential : Credential} (usable : credential.Usable) (digests : Digests) (legacy : Bool)
    (header : StunHeader) (records : List PaddedRecord) (fingerprint : Bool) :
    ∃ after : List PaddedRecord, (after = [] ∨ ∃ value, after = [fingerprintAttribute value]) ∧
      recordsAfter digests legacy header records (signing credential fingerprint) =
        records ++ integrityAttribute legacy
          (digests.hmac (credential.signer digests) (signedBytes header records legacy)) :: after ∧
      (fingerprint = true → ∃ before, recordsAfter digests legacy header records (signing credential fingerprint) =
        before ++ [fingerprintAttribute (digests.crc (checkedBytes header before) ^^^ stunFingerprintXor)]) := by
  have record := credential.record_call usable digests legacy header records
  cases fingerprint with
  | false =>
      refine ⟨[], .inl rfl, ?_, fun other => absurd other (by decide)⟩
      rw [signing, if_neg (by decide), recordsAfter, List.foldl_cons, List.foldl_nil, record]
      rfl
  | true =>
      obtain ⟨signed, known⟩ : ∃ signed, records ++ [integrityAttribute legacy
        (digests.hmac (credential.signer digests) (signedBytes header records legacy))] = signed := ⟨_, rfl⟩
      refine ⟨[fingerprintAttribute (digests.crc (checkedBytes header signed) ^^^ stunFingerprintXor)],
        .inr ⟨_, rfl⟩, ?_, fun _ => ⟨signed, ?_⟩⟩
      · rw [signing, if_pos rfl, recordsAfter, List.foldl_cons, List.foldl_cons, List.foldl_nil, record,
          Option.toList_some, known, List.append_cons, known]
        rfl
      · rw [signing, if_pos rfl, recordsAfter, List.foldl_cons, List.foldl_cons, List.foldl_nil, record,
          Option.toList_some, known]
        rfl

/-- The reader takes a signed message within its limits. It validates the signature with the same credentials, and with
others only when the digests are the same. Its buffer is overrun only by credentials that the builder refuses. The
fingerprint is valid in any case. -/
theorem build_validates (host hostOfReader : ByteOrder) (digests : Digests) (msgType : UInt16)
    (msgClass : StunMessageClass) (transid : StunTransactionId) (fLegacyMode : Bool) (buf : CBuffer)
    {calls : List BuilderCall} {credential : Credential} (usable : credential.Usable) (fingerprint : Bool)
    (short : (encodeAll (recordsAfter digests fLegacyMode (headerOf msgType msgClass transid) []
      (calls ++ signing credential fingerprint))).length < 2 ^ 63) {start : CStunMessageReader} (fresh : start.Fresh) :
    ∃ result, (build host digests msgType msgClass transid fLegacyMode buf
        (calls ++ signing credential fingerprint)).2.1 = some result ∧
      ∀ parts : List (List UInt8), parts.flatten = result.data →
        let reader := start.feed hostOfReader parts
        (reader.state = .bodyValidated ↔
          Limits (recordsAfter digests fLegacyMode (headerOf msgType msgClass transid) []
            (calls ++ signing credential fingerprint)) ∧
          (start.fAllowLegacyFormat = true ∨ (headerOf msgType msgClass transid).legacy = false)) ∧
        (reader.state = .bodyValidated →
          let signed := signedBytes (headerOf msgType msgClass transid)
            (recordsAfter digests fLegacyMode (headerOf msgType msgClass transid) [] calls) fLegacyMode
          (∀ other : Credential,
            (other.validate hostOfReader digests reader = none ↔ ¬other.Fits) ∧
            (other.Fits → (other.Validates hostOfReader digests reader ↔
              other.signer digests ≠ [] ∧
                digests.hmac (other.signer digests) signed = digests.hmac (credential.signer digests) signed))) ∧
          (fingerprint = true → reader.isFingerprintAttributeValid hostOfReader digests = true)) := by
  obtain ⟨result, -, buffer, data⟩ := build_eq host digests msgType msgClass transid fLegacyMode buf short
  refine ⟨result, buffer, fun parts same => ?_⟩
  obtain ⟨iff, taken⟩ := feed_limits hostOfReader fresh (same.trans data)
  refine ⟨iff, fun state => ?_⟩
  obtain ⟨limits, reads⟩ := taken state
  dsimp only
  obtain ⟨after, shape, records, checked⟩ := recordsAfter_signing usable digests fLegacyMode
    (headerOf msgType msgClass transid)
    (recordsAfter digests fLegacyMode (headerOf msgType msgClass transid) [] calls) fingerprint
  rw [← recordsAfter_append] at records checked
  generalize recordsAfter digests fLegacyMode (headerOf msgType msgClass transid) []
    (calls ++ signing credential fingerprint) = all at limits reads records checked
  refine ⟨fun other => ⟨other.validate_eq_none_iff state hostOfReader digests, fun fits => ?_⟩, fun some_fingerprint => ?_⟩
  · subst records
    rw [Credential.validates_iff reads hostOfReader digests fits, signed_messageOf digests _ shape limits]
  · obtain ⟨before, rfl⟩ := checked some_fingerprint
    exact (reads.fingerprint_iff hostOfReader digests).mpr (checked_messageOf digests limits)

/-- A user `u` of the realm `r` signs with the password `p`. The password `q` gives another signature. -/
theorem build_validates_password :
    let start := CStunMessageReader.create (fun _ => (0, ⟨0, 0, 0⟩)) (fun _ => ⟨0, none⟩) (fun _ => none) fun _ => 0
    ∃ result, (build .little sampleDigests stunMsgTypeBinding .request (Vector.replicate 16 7) false ⟨[], 800⟩
        ([.addResponsePort 5555] ++ signing (.longTerm [0x75] [0x72] [0x70]) true)).2.1 = some result ∧
      ∀ parts : List (List UInt8), parts.flatten = result.data →
        let reader := start.feed .big parts
        reader.state = .bodyValidated ∧
          (Credential.longTerm [0x75] [0x72] [0x70]).Validates .big sampleDigests reader ∧
          ¬(Credential.longTerm [0x75] [0x72] [0x71]).Validates .big sampleDigests reader ∧
          (Credential.longTerm (List.replicate 200 0x75) [0x72] [0x70]).validate .big sampleDigests reader = none ∧
          reader.isFingerprintAttributeValid .big sampleDigests = true := by
  have usable : (Credential.longTerm [0x75] [0x72] [0x70]).Usable :=
    show (longTermKey [0x75] [0x72] [0x70]).length ≤ 194 by decide
  have length : (encodeAll (recordsAfter sampleDigests false
      (headerOf stunMsgTypeBinding .request (Vector.replicate 16 7)) []
      ([.addResponsePort 5555] ++ signing (.longTerm [0x75] [0x72] [0x70]) true))).length = 40 := by decide +kernel
  obtain ⟨result, buffer, takes⟩ := build_validates .little .big sampleDigests stunMsgTypeBinding .request
    (Vector.replicate 16 7) false ⟨[], 800⟩ usable true (by rw [length]; decide)
    (CStunMessageReader.fresh_create _ _ _ _)
  refine ⟨result, buffer, fun parts same => ?_⟩
  obtain ⟨iff, validates⟩ := takes parts same
  have state := iff.mpr ⟨⟨by rw [length]; decide, by decide +kernel, by decide +kernel⟩, .inl rfl⟩
  obtain ⟨signature, fingerprint⟩ := validates state
  refine ⟨state, ((signature _).2 usable.fits).mpr ⟨by decide +kernel, rfl⟩, fun wrong => ?_, ?_, fingerprint rfl⟩
  · have equal := (((signature (.longTerm [0x75] [0x72] [0x71])).2
      (show (longTermKey [0x75] [0x72] [0x71]).length ≤ 194 by decide)).mp wrong).2
    exact absurd equal (by decide +kernel)
  · exact (signature _).1.mpr (show ¬(longTermKey (List.replicate 200 0x75) [0x72] [0x70]).length ≤ 194 by decide +kernel)

end CStunMessageBuilder

end Nose
