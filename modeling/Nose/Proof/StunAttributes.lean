import Nose.Proof.StunSignatures
import Nose.Source.MessageHandler

/-
This file shows what the reader gives for the attributes of a message: addresses, ports, requested changes and strings.
-/

namespace Nose

open CMemory PaddedRecords CStunMessageBuilder

/-- The address comes back from its bytes. -/
theorem mappedAddress_addressValue (host : ByteOrder) (addr before : CSocketAddress) :
    mappedAddress host (addressValue addr) before = (.sOk, addr) := by
  obtain ⟨stream, attached⟩ : ∃ stream, CDataStream.attach ⟨addressValue addr, (addressValue addr).length⟩ false =
      stream := ⟨_, rfl⟩
  have data : stream.data = addressValue addr := by rw [← attached]; rfl
  have length := length_addressValue addr
  have eight : 8 ≤ stream.data.length := by rw [data, length]; split <;> decide
  have family := @CDataStream.read_ok (stream.atPos 1) 1 (by rw [CDataStream.data_atPos, CDataStream.pos_atPos]; omega)
  obtain ⟨port, readPort, portIs⟩ := @CDataStream.readUint16_ok (stream.atPos 2) host
    (by rw [CDataStream.data_atPos, CDataStream.pos_atPos]; omega)
  rw [CDataStream.data_atPos, CDataStream.pos_atPos, data] at portIs family
  rw [mappedAddress, attached, CDataStream.seekDirect_ok (by omega)]
  dsimp only
  rw [failed_sOk, if_neg (by decide), CDataStream.readUint8, family]
  dsimp only
  rw [failed_sOk, if_neg (by decide), CDataStream.atPos_atPos, readPort]
  dsimp only
  rw [failed_sOk, if_neg (by decide)]
  cases addr with
  | addr4 p ip =>
      obtain ⟨ip4, readIp, ipIs⟩ := @CDataStream.readUint32_ok (stream.atPos 4) host
        (by rw [CDataStream.data_atPos, CDataStream.pos_atPos]; omega)
      rw [CDataStream.data_atPos, CDataStream.pos_atPos, data] at ipIs
      have first : ((addressValue (.addr4 p ip)).drop 1 |>.take 1).getD 0 0 = stunAttributeFieldIpv4 := rfl
      rw [first, if_pos rfl, CDataStream.atPos_atPos, CDataStream.pos_atPos, readIp]
      dsimp only
      rw [failed_sOk, if_neg (by decide), portIs, ipIs]
      simp [addressValue, CSocketAddress.ofIPv4, CSocketAddress.getPort, CSocketAddress.getIPNbo]
  | addr6 p ip =>
      have readIp := @CDataStream.read_ok (stream.atPos 4) 16 (by
        rw [CDataStream.data_atPos, CDataStream.pos_atPos, data, length]
        exact le_of_eq rfl)
      rw [CDataStream.data_atPos, CDataStream.pos_atPos, data] at readIp
      have first : ((addressValue (.addr6 p ip)).drop 1 |>.take 1).getD 0 0 = stunAttributeFieldIpv6 := rfl
      rw [first, if_neg (by decide), CDataStream.atPos_atPos, CDataStream.pos_atPos, readIp]
      dsimp only
      have bytes : ((addressValue (.addr6 p ip)).drop 4).take 16 = ip.toList := by
        rw [show (addressValue (.addr6 p ip)).drop 4 = ip.toList from rfl, List.take_of_length_le (by simp)]
      have whole : (Vector.ofFn fun i : Fin 16 => ip.toList.getD i 0) = ip := by
        apply Vector.ext
        intro i inside
        rw [Vector.getElem_ofFn]
        simp [inside]
      have port_bytes : word ((addressValue (.addr6 p ip)).getD 2 0) ((addressValue (.addr6 p ip)).getD (2 + 1) 0) =
          p := word_high_low p
      rw [failed_sOk, if_neg (by decide), portIs, bytes, whole, port_bytes]

namespace StunMessage

/-- The port to which the client wants the answer. No port is zero. -/
def responsePort (message : StunMessage) : UInt16 :=
  match message.lookup stunAttributeResponsePort with
  | none => 0
  | some record => if record.value.length = 2 then word (record.value.getD 0 0) (record.value.getD 1 0) else 0

/-- The flags of a change request. -/
def changeOf (value : UInt32) : StunChangeRequestAttribute := ⟨value &&& 0x0004 ≠ 0, value &&& 0x0002 ≠ 0⟩

/-- The client can ask for an answer from another address or port. -/
def changeRequest (message : StunMessage) : StunChangeRequestAttribute :=
  match message.lookup stunAttributeChangerequest with
  | none => ⟨false, false⟩
  | some record =>
      if record.value.length = 4 then
        changeOf (dword (word (record.value.getD 0 0) (record.value.getD 1 0))
          (word (record.value.getD 2 0) (record.value.getD 3 0)))
      else ⟨false, false⟩

def has (message : StunMessage) (type : UInt16) : Bool := (message.lookup type).isSome

/-- A string that is missing or too long is empty. -/
def authString (message : StunMessage) (type : UInt16) : AuthString :=
  match message.lookup type with
  | none => .zero
  | some record => if 65 ≤ record.value.length then .zero else AuthString.zero.setString record.value

def authAttributes (message : StunMessage) : AuthAttributes where
  szUser := message.authString stunAttributeUsername
  szRealm := message.authString stunAttributeRealm
  szNonce := message.authString stunAttributeNonce
  szLegacyPassword := message.authString stunAttributeLegacyPassword
  fMessageIntegrityPresent := message.has stunAttributeMessageintegrity

end StunMessage

namespace CStunMessageReader

variable {reader : CStunMessageReader} {message : StunMessage}

/-- The reader finds the last attribute of a type with its value, or it finds none. -/
theorem Reads.found (reads : Reads message reader) (type : UInt16) :
    (reader.lookup type = none ∧ message.lookup type = none) ∨
      ∃ attrib record, reader.lookup type = some attrib ∧ message.lookup type = some record ∧
        attrib.size.toNat = record.value.length ∧
        reader.bytesAt attrib.offset.toNat record.value.length = record.value := by
  have found := reads.lookup type
  generalize reader.lookup type = attrib at found ⊢
  generalize message.lookup type = record at found ⊢
  cases found with
  | none => exact .inl ⟨rfl, rfl⟩
  | some located =>
      refine .inr ⟨_, _, rfl, rfl, located.size, ?_⟩
      rw [← located.size]
      exact valueOf_located located

/-- An address is read from the value of the last attribute of the type. -/
theorem Reads.getAddressHelper (reads : Reads message reader) (host : ByteOrder) (attribType : UInt16)
    (addr : CSocketAddress) :
    reader.getAddressHelper host attribType addr =
      match message.lookup attribType with
      | none => (.eFail, addr)
      | some record => mappedAddress host record.value addr := by
  rw [CStunMessageReader.getAddressHelper]
  rcases reads.found attribType with ⟨absent, none⟩ | ⟨attrib, record, found, some, size, value⟩
  · rw [absent, none]
  · rw [found, some]
    dsimp only
    rw [valueOf, size, value]

theorem Reads.getResponsePort (reads : Reads message reader) (host : ByteOrder) :
    (reader.getResponsePort host 0).2 = message.responsePort := by
  rw [CStunMessageReader.getResponsePort, StunMessage.responsePort]
  rcases reads.found stunAttributeResponsePort with ⟨absent, none⟩ | ⟨attrib, record, found, some, size, value⟩
  · rw [absent, none]
  · have two : attrib.size = 2 ↔ record.value.length = 2 := by
      rw [← size, ← UInt16.toNat_inj]
      rfl
    rw [found, some]
    dsimp only
    by_cases length : record.value.length = 2
    · rw [if_neg (not_not.mpr (two.mpr length)), if_pos length, htons_load16, ← length, value]
      rfl
    · rw [if_pos (fun two' => length (two.mp two')), if_neg length]

/-- A request without a readable attribute has no flags. -/
theorem Reads.getChangeRequest (reads : Reads message reader) (host : ByteOrder) :
    (reader.getChangeRequest host).2 = message.changeRequest ∧
      ((reader.getChangeRequest host).1.succeeded = false → message.changeRequest = ⟨false, false⟩) := by
  rw [CStunMessageReader.getChangeRequest, StunMessage.changeRequest]
  rcases reads.found stunAttributeChangerequest with ⟨absent, none⟩ | ⟨attrib, record, found, some, size, value⟩
  · rw [absent, none]
    exact ⟨rfl, fun _ => rfl⟩
  · have four : attrib.size = 4 ↔ record.value.length = 4 := by
      rw [← size, ← UInt16.toNat_inj]
      rfl
    rw [found, some]
    dsimp only
    by_cases length : record.value.length = 4
    · rw [if_neg (not_not.mpr (four.mpr length)), if_pos length, htonl_load32, ← length, value]
      exact ⟨rfl, fun failed => absurd failed Bool.noConfusion⟩
    · rw [if_pos (fun four' => length (four.mp four')), if_neg length]
      exact ⟨rfl, fun _ => rfl⟩

theorem Reads.getPaddingAttributeSize (reads : Reads message reader) :
    reader.getPaddingAttributeSize.1.succeeded = message.has stunAttributePadding := by
  rw [CStunMessageReader.getPaddingAttributeSize, StunMessage.has]
  rcases reads.found stunAttributePadding with ⟨absent, none⟩ | ⟨attrib, record, found, some, -⟩
  · rw [absent, none]
    rfl
  · rw [found, some]
    rfl

theorem Reads.getStringAttributeByType (reads : Reads message reader) (type : UInt16) :
    (reader.getStringAttributeByType type AuthString.zero).2 = message.authString type := by
  rw [CStunMessageReader.getStringAttributeByType, StunMessage.authString]
  rcases reads.found type with ⟨absent, none⟩ | ⟨attrib, record, found, some, size, value⟩
  · rw [absent, none]
  · rw [found, some]
    dsimp only
    rw [size, valueOf, size, value]
    split <;> rfl

theorem Reads.authAttributes {handler : CStunRequestHandler} (reads : Reads message handler.msgIn.reader) :
    handler.authAttributes = message.authAttributes := by
  rw [CStunRequestHandler.authAttributes, StunMessage.authAttributes, reads.getStringAttributeByType,
    reads.getStringAttributeByType, reads.getStringAttributeByType, reads.getStringAttributeByType]
  congr 1
  rw [hasMessageIntegrityAttribute, StunMessage.has]
  rcases reads.found stunAttributeMessageintegrity with ⟨absent, none⟩ | ⟨attrib, record, found, some, -⟩
  · rw [absent, none]
    rfl
  · rw [found, some]
    rfl

end CStunMessageReader

end Nose
