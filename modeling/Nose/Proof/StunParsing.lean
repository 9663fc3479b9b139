import Nose.Library.PaddedRecords
import Nose.Proof.HashTableRuns
import Nose.Source.StunReader

/-
This file shows what the parts of the reader do with the bytes of a message. A message is a header and attributes that
fill it.
-/

namespace Nose

open CMemory PaddedRecords

@[simp] theorem failed_sOk : HRESULT.sOk.failed = false := rfl

namespace CDataStream

/-- The stream at another position. -/
def atPos (stream : CDataStream) (pos : Nat) : CDataStream := { stream with pos }

variable {stream : CDataStream}

@[simp] theorem data_atPos (pos : Nat) : (stream.atPos pos).data = stream.data := rfl

@[simp] theorem pos_atPos (pos : Nat) : (stream.atPos pos).pos = pos := rfl

@[simp] theorem atPos_atPos (first second : Nat) : (stream.atPos first).atPos second = stream.atPos second := rfl

theorem read_ok {size : Nat} (inside : stream.pos + size ≤ stream.data.length) :
    stream.read size =
      (.sOk, (stream.data.drop stream.pos).take size, stream.atPos (stream.pos + size)) := by
  rw [read, if_neg (by omega), Nat.add_comm]
  rfl

theorem read_short {size : Nat} (short : stream.data.length < stream.pos + size) :
    stream.read size = (.eInvalidarg, [], stream) := by
  rw [read, if_pos (by omega)]

theorem getD_take_drop {bytes : List UInt8} {start count i : Nat} (inside : i < count) :
    ((bytes.drop start).take count).getD i 0 = bytes.getD (start + i) 0 := by
  rw [List.getD_eq_getElem?_getD, List.getElem?_take_of_lt inside, List.getElem?_drop, List.getD_eq_getElem?_getD]

/-- A read word has its bytes in memory order after the conversion. -/
theorem readUint16_ok (host : ByteOrder) (inside : stream.pos + 2 ≤ stream.data.length) :
    ∃ value, stream.readUint16 host = (.sOk, value, stream.atPos (stream.pos + 2)) ∧
      htons host value = word (stream.data.getD stream.pos 0) (stream.data.getD (stream.pos + 1) 0) := by
  refine ⟨load16 host (block ((stream.data.drop stream.pos).take 2) fun _ => 0) 0, ?_, ?_⟩
  · rw [readUint16, read_ok inside]
  · rw [htons_load16, block, block, getD_take_drop (by decide), getD_take_drop (by decide)]
    rfl

theorem readUint32_ok (host : ByteOrder) (inside : stream.pos + 4 ≤ stream.data.length) :
    ∃ value, stream.readUint32 host = (.sOk, value, stream.atPos (stream.pos + 4)) ∧
      htonl host value =
        dword (word (stream.data.getD stream.pos 0) (stream.data.getD (stream.pos + 1) 0))
          (word (stream.data.getD (stream.pos + 2) 0) (stream.data.getD (stream.pos + 3) 0)) := by
  refine ⟨load32 host (block ((stream.data.drop stream.pos).take 4) fun _ => 0) 0, ?_, ?_⟩
  · rw [readUint32, read_ok inside]
  · rw [htonl_load32]
    simp only [block]
    rw [getD_take_drop (by decide), getD_take_drop (by decide), getD_take_drop (by decide), getD_take_drop (by decide)]
    rfl

/-- A short stream has no word left. -/
theorem readUint16_short (host : ByteOrder) (short : stream.data.length < stream.pos + 2) :
    (stream.readUint16 host).1.failed = true := by
  rw [readUint16, read_short short]
  rfl

theorem seekDirect_ok {pos : Nat} (inside : pos ≤ stream.data.length) :
    stream.seekDirect pos = (.sOk, stream.atPos pos) := if_pos inside

/-- A short step forward does not wrap. -/
theorem seekRelative_ok {offset : Nat} (inside : stream.pos + offset ≤ stream.data.length)
    (bound : stream.data.length < 2 ^ 16) :
    stream.seekRelative offset = (.sOk, stream.atPos (stream.pos + offset)) := by
  have same : ((offset + stream.pos : Int) % 2 ^ 64).toNat = stream.pos + offset := by omega
  rw [seekRelative, same, seekDirect_ok inside]

/-- A step past the end fails. -/
theorem seekRelative_short {offset : Nat} (short : stream.data.length < stream.pos + offset)
    (bound : stream.pos + offset < 2 ^ 64) : (stream.seekRelative offset).1.failed = true := by
  have same : ((offset + stream.pos : Int) % 2 ^ 64).toNat = stream.pos + offset := by omega
  rw [seekRelative, same, seekDirect, if_neg (by omega)]
  rfl

end CDataStream

/-- These are the fields of a message header. -/
structure StunHeader where
  msgType : UInt16
  msgLength : UInt16
  transid : StunTransactionId

namespace StunHeader

def encode (header : StunHeader) : List UInt8 :=
  [high header.msgType, low header.msgType, high header.msgLength, low header.msgLength] ++ header.transid.toList

/-- The header at the start of the bytes. -/
def read (bytes : List UInt8) : StunHeader where
  msgType := word (bytes.getD 0 0) (bytes.getD 1 0)
  msgLength := word (bytes.getD 2 0) (bytes.getD 3 0)
  transid := Vector.ofFn fun i => bytes.getD (4 + i) 0

theorem getD_transid_read (bytes : List UInt8) {i : Nat} (inside : i < 16) :
    (read bytes).transid.getD i 0 = bytes.getD (4 + i) 0 := by
  rw [read, Vector.getD, Array.getD_eq_getD_getElem?, Vector.getElem?_toArray, Vector.getElem?_ofFn, dif_pos inside]
  rfl

/-- Old clients do not send the cookie. -/
def legacy (header : StunHeader) : Bool :=
  dword (word (header.transid.getD 0 0) (header.transid.getD 1 0))
    (word (header.transid.getD 2 0) (header.transid.getD 3 0)) ≠ stunCookie

/-- The reader goes on after such a header. -/
structure Valid (allowLegacy : Bool) (header : StunHeader) : Prop where
  leading : header.msgType &&& 0xc000 = 0
  aligned : header.msgLength % 4 = 0
  format : allowLegacy = true ∨ header.legacy = false
  short : header.msgLength.toNat ≤ maxStunMessageSize

@[simp] theorem length_encode (header : StunHeader) : header.encode.length = 20 := by simp [encode]

theorem read_encode (header : StunHeader) (rest : List UInt8) : read (header.encode ++ rest) = header := by
  have transid : (Vector.ofFn fun i : Fin 16 => (header.encode ++ rest).getD (4 + i) 0) = header.transid := by
    apply Vector.ext
    intro i inside
    have there : 4 + i < header.encode.length := by
      rw [length_encode]
      omega
    rw [Vector.getElem_ofFn, List.getD_eq_getElem?_getD, List.getElem?_append_left there, encode,
      List.getElem?_append_right (by simp)]
    simp [inside]
  rw [read, transid]
  simp [encode]

/-- The bytes of a header are the ones that it was read from. -/
theorem encode_read {bytes : List UInt8} (enough : 20 ≤ bytes.length) : (read bytes).encode = bytes.take 20 := by
  match bytes, enough with
  | first :: second :: third :: fourth :: rest, enough =>
      have tail : (Vector.ofFn fun i : Fin 16 => (first :: second :: third :: fourth :: rest).getD (4 + i) 0).toList =
          rest.take 16 := by
        rw [Vector.toList_ofFn]
        apply List.ext_getElem
        · simp at enough ⊢
          omega
        · intro i left right
          have inside : i < rest.length := by
            simp at right
            omega
          rw [List.getElem_ofFn, List.getElem_take, Nat.add_comm]
          simp [inside]
      rw [encode, read, tail]
      simp

/-- The header does not depend on the bytes behind it. -/
theorem read_append {bytes : List UInt8} (enough : 20 ≤ bytes.length) (more : List UInt8) :
    read (bytes ++ more) = read bytes := by
  have split : bytes ++ more = (read bytes).encode ++ (bytes.drop 20 ++ more) := by
    rw [encode_read enough, ← List.append_assoc, List.take_append_drop]
  rw [split, read_encode]

end StunHeader

namespace CStunMessageReader

/-- The masks of the classes cover every type. -/
theorem classOf_ne_invalid (msgType : UInt16) : classOf msgType ≠ .invalidMessageClass := by
  have masked : msgType &&& (0x0110 : UInt16) =
      (if msgType.toBitVec[4] then (0x0010 : UInt16) else 0) |||
        (if msgType.toBitVec[8] then (0x0100 : UInt16) else 0) := by
    apply UInt16.toBitVec_inj.mp
    apply BitVec.eq_of_getLsbD_eq
    intro i inside
    interval_cases i <;> cases first : msgType.toBitVec[4] <;> cases second : msgType.toBitVec[8] <;>
      simp [first, second]
  rw [classOf, masked]
  cases msgType.toBitVec[4] <;> cases msgType.toBitVec[8] <;> decide

def withHeader (reader : CStunMessageReader) (header : StunHeader) : CStunMessageReader :=
  { reader with
    fMessageIsLegacyFormat := header.legacy
    msgTypeNormalized := normalizedType header.msgType
    msgLength := header.msgLength
    transactionid := header.transid
    msgClass := classOf header.msgType }

variable {reader : CStunMessageReader} {host : ByteOrder}

/-- A header is read as it stands at the start of the stream. -/
theorem readHeader_eq (host : ByteOrder) (enough : 20 ≤ reader.stream.data.length) :
    (StunHeader.Valid reader.fAllowLegacyFormat (.read reader.stream.data) ∧
      reader.readHeader host =
        (.sOk, { reader.withHeader (.read reader.stream.data) with stream := reader.stream.atPos 20 })) ∨
    (¬StunHeader.Valid reader.fAllowLegacyFormat (.read reader.stream.data) ∧
      (reader.readHeader host).1.failed = true) := by
  generalize known : reader.stream.data = data at enough ⊢
  have transid : (Vector.ofFn fun i : Fin 16 => ((data.drop 4).take 16).getD i 0) =
      (StunHeader.read data).transid := by
    apply Vector.ext
    intro i inside
    rw [Vector.getElem_ofFn, CDataStream.getD_take_drop inside, StunHeader.read, Vector.getElem_ofFn]
  have cookie : htonl host (load32 host (block ((data.drop 4).take 16) fun _ => 0) 0) =
      dword (word ((StunHeader.read data).transid.getD 0 0) ((StunHeader.read data).transid.getD 1 0))
        (word ((StunHeader.read data).transid.getD 2 0) ((StunHeader.read data).transid.getD 3 0)) := by
    rw [htonl_load32]
    simp only [block]
    rw [CDataStream.getD_take_drop (by decide), CDataStream.getD_take_drop (by decide),
      CDataStream.getD_take_drop (by decide), CDataStream.getD_take_drop (by decide),
      StunHeader.getD_transid_read data (by decide), StunHeader.getD_transid_read data (by decide),
      StunHeader.getD_transid_read data (by decide), StunHeader.getD_transid_read data (by decide)]
  have legacy : decide (htonl host (load32 host (block ((data.drop 4).take 16) fun _ => 0) 0) ≠ stunCookie) =
      (StunHeader.read data).legacy := by
    rw [cookie]
    rfl
  obtain ⟨type, readType, typeWord⟩ := @CDataStream.readUint16_ok (reader.stream.atPos 0) host
    (by rw [CDataStream.data_atPos, CDataStream.pos_atPos, known]; omega)
  obtain ⟨length, readLength, lengthWord⟩ := @CDataStream.readUint16_ok (reader.stream.atPos 2) host
    (by rw [CDataStream.data_atPos, CDataStream.pos_atPos, known]; omega)
  have readId := @CDataStream.read_ok (reader.stream.atPos 4) 16
    (by rw [CDataStream.data_atPos, CDataStream.pos_atPos, known]; omega)
  rw [CDataStream.data_atPos, CDataStream.pos_atPos, known] at typeWord lengthWord readId
  rw [CDataStream.pos_atPos, CDataStream.atPos_atPos] at readType readLength
  rw [readHeader, CDataStream.seekDirect_ok (by rw [known]; omega)]
  dsimp only
  rw [readType, if_neg (by simp)]
  dsimp only
  rw [readLength, if_neg (by simp)]
  dsimp only
  rw [readId, if_neg (by simp)]
  dsimp only
  have typeWord : htons host type = (StunHeader.read data).msgType := typeWord
  have lengthWord : htons host length = (StunHeader.read data).msgLength := lengthWord
  rw [legacy, transid, typeWord, lengthWord, if_neg (by simp)]
  by_cases shape : (StunHeader.read data).msgType &&& 0xc000 = 0 ∧ (StunHeader.read data).msgLength % 4 = 0 ∧
      (reader.fAllowLegacyFormat = true ∨ (StunHeader.read data).legacy = false)
  · rw [if_neg (not_not.mpr shape)]
    by_cases long : maxStunMessageSize < (StunHeader.read data).msgLength.toNat
    · right
      rw [if_pos long]
      exact ⟨fun valid => absurd valid.short (by omega), rfl⟩
    · left
      rw [if_neg long, if_neg (classOf_ne_invalid _)]
      refine ⟨⟨shape.1, shape.2.1, shape.2.2, by omega⟩, ?_⟩
      rw [withHeader, CDataStream.atPos_atPos]
  · right
    rw [if_pos shape]
    exact ⟨fun valid => shape ⟨valid.leading, valid.aligned, valid.format⟩, rfl⟩

-- The bytes of a header are compared through the lemmas above only.
attribute [irreducible] StunHeader.read

section Attributes

open ShadowTable

variable {entries : Entries UInt16 StunAttribute}

/-- The attributes of the records that start at an offset. -/
def attributesFrom : Nat → List PaddedRecord → List StunAttribute
  | _, [] => []
  | offset, record :: rest =>
      ⟨record.type, UInt16.ofNat record.value.length, UInt16.ofNat (offset + 4)⟩ ::
        attributesFrom (offset + record.encode.length) rest

@[simp] theorem length_attributesFrom (offset : Nat) (records : List PaddedRecord) :
    (attributesFrom offset records).length = records.length := by
  induction records generalizing offset with
  | nil => rfl
  | cons record rest ih => rw [attributesFrom, List.length_cons, ih, List.length_cons]

theorem types_attributesFrom (offset : Nat) (records : List PaddedRecord) :
    (attributesFrom offset records).map StunAttribute.attributeType = records.map fun record => record.type := by
  induction records generalizing offset with
  | nil => rfl
  | cons record rest ih => rw [attributesFrom, List.map_cons, ih, List.map_cons]

/-- The attributes are inserted in order. -/
def withAttributes (reader : CStunMessageReader) (attribs : List StunAttribute) : CStunMessageReader :=
  attribs.foldl (fun reader attrib => (reader.insertAttribute attrib).2) reader

/-- The table of the reader holds the entries. -/
def Holds (reader : CStunMessageReader) (entries : Entries UInt16 StunAttribute) : Prop :=
  Refines attributeHash maxNumAttributes entries reader.mapAttributes

theorem insertAttribute_ok (holds : reader.Holds entries) (room : entries.length < maxNumAttributes)
    (attrib : StunAttribute) :
    (reader.insertAttribute attrib).1 = .sOk ∧
      (reader.insertAttribute attrib).2.Holds ((attrib.attributeType, attrib) :: entries) := by
  rcases holds.insert attrib.attributeType attrib with ⟨-, code, refines⟩ | ⟨full, -⟩
  · rw [insertAttribute]
    rw [if_neg (by rw [code]; decide)]
    exact ⟨rfl, refines⟩
  · omega

theorem insertAttribute_full (holds : reader.Holds entries) (full : ¬entries.length < maxNumAttributes)
    (attrib : StunAttribute) : (reader.insertAttribute attrib).1.failed = true := by
  rcases holds.insert attrib.attributeType attrib with ⟨room, -, -⟩ | ⟨-, same⟩
  · exact absurd room full
  · rw [insertAttribute, same]
    rfl

/-- An insertion does not look at the stream. -/
theorem insertAttribute_stream (reader : CStunMessageReader) (stream : CDataStream) (attrib : StunAttribute) :
    ({ reader with stream := stream } : CStunMessageReader).insertAttribute attrib =
      ((reader.insertAttribute attrib).1, { (reader.insertAttribute attrib).2 with stream := stream }) := by
  rw [insertAttribute, insertAttribute]
  dsimp only
  split <;> rfl

@[simp] theorem stream_insertAttribute (attrib : StunAttribute) :
    (reader.insertAttribute attrib).2.stream = reader.stream := by
  rw [insertAttribute]
  split <;> rfl

theorem paddingLength_eq (length : Nat) : paddingLength length = padding length := by
  rw [paddingLength, padding]
  split <;> omega

theorem getD_drop (bytes : List UInt8) (start i : Nat) : (bytes.drop start).getD i 0 = bytes.getD (start + i) 0 := by
  rw [List.getD_eq_getElem?_getD, List.getElem?_drop, List.getD_eq_getElem?_getD]

/-- One turn of the loop takes the record that the stream stands at. -/
theorem readAttribute_record (host : ByteOrder) (holds : reader.Holds entries)
    (room : entries.length < maxNumAttributes) {record : PaddedRecord} {rest : List UInt8}
    (here : reader.stream.data.drop reader.stream.pos = record.encode ++ rest)
    (small : record.value.length ≤ maxStunAttributeSize) (bound : reader.stream.data.length < 2 ^ 16) :
    reader.readAttribute host =
      (.sOk,
        { (reader.insertAttribute ⟨record.type, UInt16.ofNat record.value.length,
            UInt16.ofNat (reader.stream.pos + 4)⟩).2 with
          stream := reader.stream.atPos (reader.stream.pos + record.encode.length) },
        record.encode.length) := by
  have total := congrArg List.length here
  rw [List.length_drop, List.length_append, record.length_encode] at total
  obtain ⟨type, readType, typeWord⟩ := @CDataStream.readUint16_ok reader.stream host (by omega)
  obtain ⟨length, readLength, lengthWord⟩ :=
    @CDataStream.readUint16_ok (reader.stream.atPos (reader.stream.pos + 2)) host
      (by rw [CDataStream.data_atPos, CDataStream.pos_atPos]; omega)
  rw [CDataStream.data_atPos, CDataStream.pos_atPos] at lengthWord
  rw [CDataStream.pos_atPos, CDataStream.atPos_atPos] at readLength
  have typeIs : htons host type = record.type := by
    rw [typeWord, ← typeAt_encode record rest, ← here, typeAt, getD_drop, getD_drop]
    rfl
  have lengthIs : (htons host length).toNat = record.value.length := by
    rw [lengthWord, ← lengthAt_encode record rest, ← here, lengthAt, getD_drop, getD_drop]
  have lengthWordIs : htons host length = UInt16.ofNat record.value.length := by rw [← lengthIs, UInt16.ofNat_toNat]
  obtain ⟨next, inserted⟩ : ∃ next, reader.insertAttribute
      ⟨record.type, UInt16.ofNat record.value.length, UInt16.ofNat (reader.stream.pos + 4)⟩ = (.sOk, next) :=
    ⟨_, Prod.ext (insertAttribute_ok holds room _).1 rfl⟩
  have skipped := @CDataStream.seekRelative_ok (reader.stream.atPos (reader.stream.pos + 4)) record.value.length
    (by rw [CDataStream.data_atPos, CDataStream.pos_atPos]; omega) bound
  have padded := @CDataStream.seekRelative_ok
    (reader.stream.atPos (reader.stream.pos + 4 + record.value.length)) (padding record.value.length)
    (by rw [CDataStream.data_atPos, CDataStream.pos_atPos]; omega) bound
  rw [CDataStream.pos_atPos, CDataStream.atPos_atPos] at skipped padded
  have filled : (if 0 < padding record.value.length then
      (reader.stream.atPos (reader.stream.pos + 4 + record.value.length)).seekRelative (padding record.value.length)
      else (.sOk, reader.stream.atPos (reader.stream.pos + 4 + record.value.length))) =
        (HRESULT.sOk, reader.stream.atPos (reader.stream.pos + record.encode.length)) := by
    rw [padded, record.length_encode]
    split
    · rw [Nat.add_assoc, Nat.add_assoc, ← Nat.add_assoc 4]
    · have place : reader.stream.pos + 4 + record.value.length =
          reader.stream.pos + (4 + record.value.length + padding record.value.length) := by omega
      rw [place]
  rw [readAttribute, readType]
  dsimp only
  rw [readLength, if_neg (by simp)]
  dsimp only
  rw [if_neg (by simp), lengthIs, if_neg (by omega), typeIs, lengthWordIs, CDataStream.pos_atPos, insertAttribute_stream,
    show reader.stream.pos + 2 + 2 = reader.stream.pos + 4 from rfl, inserted]
  dsimp only
  rw [skipped, if_neg (by simp)]
  dsimp only
  rw [if_neg (by simp), paddingLength_eq, filled]
  dsimp only
  rw [if_neg (by simp), record.length_encode]

/-- A turn that succeeds has found a record, and there was room for it. -/
theorem readAttribute_sound (host : ByteOrder) (holds : reader.Holds entries) (bound : reader.stream.data.length < 2 ^ 16)
    (success : (reader.readAttribute host).1.failed = false) :
    ∃ (record : PaddedRecord) (rest : List UInt8), reader.stream.data.drop reader.stream.pos = record.encode ++ rest ∧
      record.value.length ≤ maxStunAttributeSize ∧ entries.length < maxNumAttributes := by
  rw [readAttribute] at success
  by_cases typed : reader.stream.data.length < reader.stream.pos + 2
  · dsimp only at success
    rw [if_pos (CDataStream.readUint16_short host typed), CDataStream.readUint16_short host typed] at success
    simp at success
  obtain ⟨type, readType, typeWord⟩ := @CDataStream.readUint16_ok reader.stream host (by omega)
  rw [readType] at success
  dsimp only at success
  rw [if_neg (by simp)] at success
  by_cases measured : reader.stream.data.length < reader.stream.pos + 2 + 2
  · have short := @CDataStream.readUint16_short (reader.stream.atPos (reader.stream.pos + 2)) host measured
    rw [if_pos short, short] at success
    simp at success
  obtain ⟨length, readLength, lengthWord⟩ :=
    @CDataStream.readUint16_ok (reader.stream.atPos (reader.stream.pos + 2)) host
      (by rw [CDataStream.data_atPos, CDataStream.pos_atPos]; omega)
  rw [CDataStream.data_atPos, CDataStream.pos_atPos] at lengthWord
  rw [CDataStream.pos_atPos, CDataStream.atPos_atPos] at readLength
  rw [readLength] at success
  dsimp only at success
  rw [if_neg (by simp)] at success
  have lengthIs : (htons host length).toNat = lengthAt (reader.stream.data.drop reader.stream.pos) := by
    rw [lengthWord, lengthAt, getD_drop, getD_drop]
  by_cases large : maxStunAttributeSize < (htons host length).toNat
  · rw [if_pos large] at success
    simp [HRESULT.failed, HRESULT.succeeded] at success
  rw [if_neg large, insertAttribute_stream] at success
  by_cases room : entries.length < maxNumAttributes
  swap
  · have full := insertAttribute_full holds room
      ⟨htons host type, htons host length, UInt16.ofNat (reader.stream.atPos (reader.stream.pos + 2 + 2)).pos⟩
    dsimp only at success
    rw [if_pos full, full] at success
    simp at success
  obtain ⟨next, inserted⟩ : ∃ next, reader.insertAttribute
      ⟨htons host type, htons host length, UInt16.ofNat (reader.stream.atPos (reader.stream.pos + 2 + 2)).pos⟩ =
        (.sOk, next) := ⟨_, Prod.ext (insertAttribute_ok holds room _).1 rfl⟩
  have small := (htons host length).toNat_lt
  rw [inserted] at success
  dsimp only at success
  rw [if_neg (by simp)] at success
  by_cases valued : reader.stream.data.length < reader.stream.pos + 2 + 2 + (htons host length).toNat
  · have short := @CDataStream.seekRelative_short (reader.stream.atPos (reader.stream.pos + 2 + 2))
      (htons host length).toNat valued (by rw [CDataStream.pos_atPos]; omega)
    rw [if_pos short, short] at success
    simp at success
  have skipped := @CDataStream.seekRelative_ok (reader.stream.atPos (reader.stream.pos + 2 + 2))
    (htons host length).toNat (by rw [CDataStream.data_atPos, CDataStream.pos_atPos]; omega) bound
  rw [skipped] at success
  dsimp only at success
  rw [if_neg (by simp), paddingLength_eq] at success
  have few := padding_lt (htons host length).toNat
  by_cases filled : reader.stream.data.length <
      reader.stream.pos + 2 + 2 + (htons host length).toNat + padding (htons host length).toNat
  · have short := @CDataStream.seekRelative_short
      (reader.stream.atPos (reader.stream.pos + 2 + 2 + (htons host length).toNat)) (padding (htons host length).toNat)
      filled (by rw [CDataStream.pos_atPos]; omega)
    rw [CDataStream.pos_atPos, CDataStream.atPos_atPos, if_pos (by omega : 0 < padding (htons host length).toNat),
      if_pos short, short] at success
    simp at success
  obtain ⟨record, rest, here, -, value⟩ := @exists_record (reader.stream.data.drop reader.stream.pos)
    (by rw [List.length_drop]; omega) (by rw [List.length_drop, ← lengthIs]; omega)
  exact ⟨record, rest, here, by rw [value, ← lengthIs]; omega, room⟩

theorem withAttributes_stream (reader : CStunMessageReader) (stream : CDataStream) (attribs : List StunAttribute) :
    withAttributes { reader with stream := stream } attribs =
      { withAttributes reader attribs with stream := stream } := by
  induction attribs generalizing reader with
  | nil => rfl
  | cons attrib rest ih =>
      rw [withAttributes, List.foldl_cons, insertAttribute_stream]
      exact ih _

/-- The reader with another stream and in another state. -/
def placed (reader : CStunMessageReader) (stream : CDataStream) (state : ReaderParseState) : CStunMessageReader :=
  { reader with stream, state }

@[simp] theorem stream_placed (stream : CDataStream) (state : ReaderParseState) :
    (reader.placed stream state).stream = stream := rfl

@[simp] theorem state_placed (stream : CDataStream) (state : ReaderParseState) :
    (reader.placed stream state).state = state := rfl

@[simp] theorem placed_placed (stream stream' : CDataStream) (state state' : ReaderParseState) :
    (reader.placed stream state).placed stream' state' = reader.placed stream' state' := rfl

/-- The attributes depend neither on the stream nor on the state. -/
theorem withAttributes_placed (reader : CStunMessageReader) (stream : CDataStream) (state : ReaderParseState)
    (attribs : List StunAttribute) :
    withAttributes (reader.placed stream state) attribs = (withAttributes reader attribs).placed stream state := by
  induction attribs generalizing reader with
  | nil => rfl
  | cons attrib rest ih =>
      have one : (reader.placed stream state).insertAttribute attrib =
          ((reader.insertAttribute attrib).1, (reader.insertAttribute attrib).2.placed stream state) := by
        rw [placed, insertAttribute, insertAttribute]
        dsimp only
        split <;> rfl
      rw [withAttributes, List.foldl_cons, one]
      exact ih _

/-- The attributes leave the header alone. -/
theorem header_withAttributes (reader : CStunMessageReader) (attribs : List StunAttribute) :
    (withAttributes reader attribs).fAllowLegacyFormat = reader.fAllowLegacyFormat ∧
      (withAttributes reader attribs).fMessageIsLegacyFormat = reader.fMessageIsLegacyFormat ∧
      (withAttributes reader attribs).transactionid = reader.transactionid ∧
      (withAttributes reader attribs).msgTypeNormalized = reader.msgTypeNormalized ∧
      (withAttributes reader attribs).msgClass = reader.msgClass ∧
      (withAttributes reader attribs).msgLength = reader.msgLength := by
  induction attribs generalizing reader with
  | nil => exact ⟨rfl, rfl, rfl, rfl, rfl, rfl⟩
  | cons attrib rest ih =>
      obtain ⟨allow, legacy, transid, type, cls, length⟩ := ih (reader.insertAttribute attrib).2
      rw [withAttributes, List.foldl_cons, ← withAttributes, allow, legacy, transid, type, cls, length, insertAttribute]
      split <;> exact ⟨rfl, rfl, rfl, rfl, rfl, rfl⟩

/-- The table takes the attributes while there is room. -/
theorem withAttributes_holds (holds : reader.Holds entries) {attribs : List StunAttribute}
    (room : entries.length + attribs.length ≤ maxNumAttributes) :
    (withAttributes reader attribs).Holds
      ((attribs.map fun attrib => (attrib.attributeType, attrib)).reverse ++ entries) := by
  induction attribs generalizing reader entries with
  | nil => exact holds
  | cons attrib rest ih =>
      rw [List.length_cons] at room
      have next := (insertAttribute_ok holds (by omega) attrib).2
      have later := ih next (by rw [List.length_cons]; omega)
      rw [List.map_cons, List.reverse_cons, List.append_assoc]
      exact later

/-- The type stands at the index for the last time. The index of a type that does not occur is -1. -/
def LastAt (types : List UInt16) (type : UInt16) (index : Int) : Prop :=
  (index = -1 ∧ type ∉ types) ∨
    ∃ before after, types = before ++ type :: after ∧ type ∉ after ∧ index = before.length

/-- One more type can take over the index. -/
theorem LastAt.snoc {types : List UInt16} {type : UInt16} {index : Int} (last : LastAt types type index)
    (other : UInt16) : LastAt (types ++ [other]) type (if other = type then (types.length : Int) else index) := by
  by_cases same : other = type
  · rw [if_pos same, same]
    exact .inr ⟨types, [], rfl, by simp, rfl⟩
  · rw [if_neg same]
    have absent {more : List UInt16} (none : type ∉ more) : type ∉ more ++ [other] := by
      simpa [none] using fun this => same this.symm
    rcases last with ⟨index, none⟩ | ⟨before, after, split, none, index⟩
    · exact .inl ⟨index, absent none⟩
    · exact .inr ⟨before, after ++ [other], by rw [split, List.append_assoc, List.cons_append], absent none, index⟩

/-- The reader has counted the types. -/
structure Counts (reader : CStunMessageReader) (types : List UInt16) : Prop where
  count : reader.countAttributes = types.length
  fingerprint : LastAt types stunAttributeFingerprint reader.indexFingerprint
  integrity : LastAt types stunAttributeMessageintegrity reader.indexMessageIntegrity

theorem insertAttribute_counts (holds : reader.Holds entries) (room : entries.length < maxNumAttributes)
    {types : List UInt16} (counts : reader.Counts types) (attrib : StunAttribute) :
    (reader.insertAttribute attrib).2.Counts (types ++ [attrib.attributeType]) := by
  rcases holds.insert attrib.attributeType attrib with ⟨-, code, -⟩ | ⟨full, -⟩
  · rw [insertAttribute, if_neg (by rw [code]; decide)]
    refine ⟨?_, ?_, ?_⟩
    · rw [List.length_append, counts.count]
      rfl
    · rw [counts.count]
      exact counts.fingerprint.snoc attrib.attributeType
    · rw [counts.count]
      exact counts.integrity.snoc attrib.attributeType
  · omega

/-- The induction takes the last attribute off. -/
theorem withAttributes_counts (holds : reader.Holds entries) (counts : reader.Counts []) {attribs : List StunAttribute}
    (room : entries.length + attribs.length ≤ maxNumAttributes) :
    (withAttributes reader attribs).Counts (attribs.map StunAttribute.attributeType) := by
  induction attribs using List.reverseRecOn with
  | nil => exact counts
  | append_singleton attribs attrib ih =>
      rw [List.length_append, List.length_singleton] at room
      have before : (withAttributes reader attribs).Holds _ := withAttributes_holds holds (by omega)
      rw [withAttributes, List.foldl_append, List.foldl_cons, List.foldl_nil, ← withAttributes, List.map_append]
      refine insertAttribute_counts before ?_ (ih (by omega)) attrib
      simp only [List.length_append, List.length_reverse, List.length_map]
      omega

/-- The loop takes all the records up to the end. The induction is on the records. -/
theorem readAttributes_records (host : ByteOrder) {records : List PaddedRecord} {turns : Nat}
    (holds : reader.Holds entries)
    (inside : reader.stream.pos ≤ reader.stream.data.length)
    (here : reader.stream.data.drop reader.stream.pos = encodeAll records)
    (small : ∀ record ∈ records, record.value.length ≤ maxStunAttributeSize)
    (room : entries.length + records.length ≤ maxNumAttributes) (bound : reader.stream.data.length < 2 ^ 16)
    (enough : records.length ≤ turns) :
    readAttributes host reader.stream.data.length turns reader reader.stream.pos =
      ({ withAttributes reader (attributesFrom reader.stream.pos records) with
          stream := reader.stream.atPos reader.stream.data.length }, reader.stream.data.length) := by
  induction records generalizing reader entries turns with
  | nil =>
      have done : reader.stream.pos = reader.stream.data.length := by
        have total := congrArg List.length here
        rw [List.length_drop, encodeAll_nil, List.length_nil] at total
        omega
      have same : reader.stream.atPos reader.stream.data.length = reader.stream := by rw [← done]; rfl
      rw [same, attributesFrom]
      cases turns with
      | zero => rw [readAttributes, done]; rfl
      | succ turns => rw [readAttributes, if_neg (by omega), done]; rfl
  | cons record rest ih =>
      rw [encodeAll_cons] at here
      have total := congrArg List.length here
      rw [List.length_drop, List.length_append, record.length_encode] at total
      rw [List.length_cons] at room enough
      obtain ⟨turns, rfl⟩ : ∃ more, turns = more + 1 := ⟨turns - 1, by omega⟩
      have turn := readAttribute_record host holds (by omega) here (small record List.mem_cons_self) bound
      have next := (insertAttribute_ok holds (by omega)
        ⟨record.type, UInt16.ofNat record.value.length, UInt16.ofNat (reader.stream.pos + 4)⟩).2
      rw [readAttributes, if_pos (by omega), turn]
      dsimp only
      rw [if_neg (by simp)]
      have later := @ih { (reader.insertAttribute ⟨record.type, UInt16.ofNat record.value.length,
          UInt16.ofNat (reader.stream.pos + 4)⟩).2 with
        stream := reader.stream.atPos (reader.stream.pos + record.encode.length) } _ turns next
        (by
          dsimp only
          rw [CDataStream.pos_atPos, CDataStream.data_atPos, record.length_encode]
          omega)
        (by
          dsimp only
          rw [CDataStream.pos_atPos, CDataStream.data_atPos, ← List.drop_drop, here, List.drop_left])
        (fun other member => small other (List.mem_cons_of_mem _ member))
        (by
          rw [List.length_cons]
          omega)
        bound (by omega)
      rw [withAttributes_stream] at later
      exact later

/-- Nothing is left at the end of the stream. -/
theorem records_at_end (limit : entries.length ≤ maxNumAttributes)
    (done : reader.stream.pos = reader.stream.data.length) :
    ∃ records, reader.stream.data.drop reader.stream.pos = encodeAll records ∧
      (∀ record ∈ records, record.value.length ≤ maxStunAttributeSize) ∧
      entries.length + records.length ≤ maxNumAttributes :=
  ⟨[], by rw [done, List.drop_length]; rfl, by simp, by simpa using limit⟩

/-- A loop that ends at the end of the stream has found records. The induction is on the turns. -/
theorem readAttributes_sound (host : ByteOrder) {turns : Nat} (holds : reader.Holds entries)
    (inside : reader.stream.pos ≤ reader.stream.data.length) (bound : reader.stream.data.length < 2 ^ 16)
    (limit : entries.length ≤ maxNumAttributes)
    (finished : (readAttributes host reader.stream.data.length turns reader reader.stream.pos).2 =
      reader.stream.data.length) :
    ∃ records, reader.stream.data.drop reader.stream.pos = encodeAll records ∧
      (∀ record ∈ records, record.value.length ≤ maxStunAttributeSize) ∧
      entries.length + records.length ≤ maxNumAttributes := by
  induction turns generalizing reader entries with
  | zero => exact records_at_end limit finished
  | succ turns ih =>
      rw [readAttributes] at finished
      by_cases more : reader.stream.pos < reader.stream.data.length
      swap
      · exact records_at_end limit (by omega)
      rw [if_pos more] at finished
      cases success : (reader.readAttribute host).1.failed with
      | true =>
          dsimp only at finished
          rw [if_pos success] at finished
          exact records_at_end limit finished
      | false =>
          obtain ⟨record, rest, here, small, room⟩ := readAttribute_sound host holds bound success
          have turn := readAttribute_record host holds room here small bound
          have next := (insertAttribute_ok holds room
            ⟨record.type, UInt16.ofNat record.value.length, UInt16.ofNat (reader.stream.pos + 4)⟩).2
          have total := congrArg List.length here
          rw [List.length_drop, List.length_append] at total
          rw [turn] at finished
          dsimp only at finished
          rw [if_neg (by simp)] at finished
          obtain ⟨later, rest_is, rest_small, rest_room⟩ := @ih
            { (reader.insertAttribute ⟨record.type, UInt16.ofNat record.value.length,
                UInt16.ofNat (reader.stream.pos + 4)⟩).2 with
              stream := reader.stream.atPos (reader.stream.pos + record.encode.length) } _ next
            (by
              dsimp only
              rw [CDataStream.pos_atPos, CDataStream.data_atPos]
              omega)
            bound
            (by
              rw [List.length_cons]
              omega)
            finished
          dsimp only at rest_is
          rw [CDataStream.pos_atPos, CDataStream.data_atPos, ← List.drop_drop, here, List.drop_left] at rest_is
          rw [List.length_cons] at rest_room
          refine ⟨record :: later, by rw [here, rest_is, encodeAll_cons], fun other member => ?_, ?_⟩
          · rcases List.mem_cons.mp member with rfl | member
            · exact small
            · exact rest_small other member
          · rw [List.length_cons]
            omega

/-- A body of records is read. -/
theorem readBody_records (host : ByteOrder) {records : List PaddedRecord} (holds : reader.Holds [])
    (enough : 20 ≤ reader.stream.data.length) (bound : reader.stream.data.length < 2 ^ 16)
    (here : reader.stream.data.drop 20 = encodeAll records)
    (small : ∀ record ∈ records, record.value.length ≤ maxStunAttributeSize)
    (few : records.length ≤ maxNumAttributes) :
    reader.readBody host =
      (.sOk, { withAttributes reader (attributesFrom 20 records) with
        stream := reader.stream.atPos reader.stream.data.length }) := by
  have long := length_le_encodeAll records
  have total := congrArg List.length here
  rw [List.length_drop] at total
  have loop := @readAttributes_records { reader with stream := reader.stream.atPos 20 } [] host records
    reader.stream.data.length holds enough here small (by simpa using few) bound (by omega)
  dsimp only at loop
  rw [CDataStream.data_atPos, CDataStream.pos_atPos, CDataStream.atPos_atPos, withAttributes_stream] at loop
  rw [readBody, stunHeaderSize, CDataStream.seekDirect_ok enough]
  dsimp only
  rw [if_neg (by simp), loop]
  dsimp only
  rw [if_pos rfl]

/-- A body that is read consists of records. -/
theorem readBody_sound (host : ByteOrder) (holds : reader.Holds []) (enough : 20 ≤ reader.stream.data.length)
    (bound : reader.stream.data.length < 2 ^ 16) (success : (reader.readBody host).1.failed = false) :
    ∃ records, reader.stream.data.drop 20 = encodeAll records ∧
      (∀ record ∈ records, record.value.length ≤ maxStunAttributeSize) ∧ records.length ≤ maxNumAttributes := by
  rw [readBody, stunHeaderSize, CDataStream.seekDirect_ok enough] at success
  dsimp only at success
  rw [if_neg (by simp)] at success
  have finished : (readAttributes host reader.stream.data.length reader.stream.data.length
      { reader with stream := reader.stream.atPos 20 } 20).2 = reader.stream.data.length := by
    by_contra other
    dsimp only at success
    rw [if_neg other] at success
    simp [HRESULT.failed, HRESULT.succeeded] at success
  obtain ⟨records, here, small, room⟩ := @readAttributes_sound { reader with stream := reader.stream.atPos 20 } []
    host reader.stream.data.length holds enough bound (by simp) finished
  exact ⟨records, here, small, by simpa using room⟩

end Attributes

end CStunMessageReader

end Nose
