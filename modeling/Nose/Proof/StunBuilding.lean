import Nose.Proof.StunMessages
import Nose.Source.StunBuilder

/-
This file shows which bytes the builder writes. Every attribute is written as a record, and the length field is the
length of the records.
-/

namespace Nose

open CMemory PaddedRecords

namespace CStunMessageBuilder

variable {builder : CStunMessageBuilder} {host : ByteOrder}

/-- The builder stands at the end of its stream. -/
structure AtEnd (builder : CStunMessageBuilder) : Prop where
  pos : builder.stream.pos = builder.stream.data.length
  grows : builder.stream.fNoGrow = false

/-- The call appends the bytes. The buffer stays when it has room for them and for the size hint. -/
structure Writes (builder : CStunMessageBuilder) (bytes : List UInt8) (result : HRESULT × CStunMessageBuilder) :
    Prop where
  success : result.1.failed = false
  data : result.2.stream.data = builder.stream.data ++ bytes
  atEnd : result.2.AtEnd
  transactionid : result.2.transactionid = builder.transactionid
  legacy : result.2.fLegacyMode = builder.fLegacyMode
  kept : 200 ≤ builder.stream.allocated → result.2.stream.data.length ≤ builder.stream.allocated →
    result.2.stream.allocated = builder.stream.allocated ∧ result.2.stream.replaced = builder.stream.replaced

theorem writes_nothing (atEnd : builder.AtEnd) : Writes builder [] (.sOk, builder) where
  success := rfl
  data := (List.append_nil _).symm
  atEnd := atEnd
  transactionid := rfl
  legacy := rfl
  kept := fun _ _ => ⟨rfl, rfl⟩

/-- One call after another appends the bytes of both. -/
theorem Writes.trans {first second : List UInt8} {result last : HRESULT × CStunMessageBuilder}
    (before : Writes builder first result) (after : Writes result.2 second last) :
    Writes builder (first ++ second) last := by
  refine ⟨after.success, ?_, after.atEnd, after.transactionid.trans before.transactionid,
    after.legacy.trans before.legacy, fun hint room => ?_⟩
  · rw [after.data, before.data, List.append_assoc]
  · have longer := congrArg List.length after.data
    rw [List.length_append] at longer
    obtain ⟨allocated, replaced⟩ := before.kept hint (by omega)
    obtain ⟨allocated', replaced'⟩ := after.kept (by omega) (by omega)
    exact ⟨allocated'.trans allocated, replaced'.trans replaced⟩

theorem Writes.of_eq {bytes bytes' : List UInt8} {result : HRESULT × CStunMessageBuilder}
    (writes : Writes builder bytes result) (same : bytes = bytes') : Writes builder bytes' result := same ▸ writes

/-- The code of another success. -/
theorem Writes.with_code {bytes : List UInt8} {result : HRESULT × CStunMessageBuilder}
    (writes : Writes builder bytes result) {hr : HRESULT} (success : hr.failed = false) :
    Writes builder bytes (hr, result.2) :=
  ⟨success, writes.data, writes.atEnd, writes.transactionid, writes.legacy, writes.kept⟩

theorem chk_success {result : HRESULT × CStunMessageBuilder}
    {next : CStunMessageBuilder → HRESULT × CStunMessageBuilder} (success : result.1.failed = false) :
    Nose.chk result next = next result.2 := by
  rw [Nose.chk, if_neg (by rw [success]; decide)]

theorem Writes.chk {first second : List UInt8} {result : HRESULT × CStunMessageBuilder}
    {next : CStunMessageBuilder → HRESULT × CStunMessageBuilder} (before : Writes builder first result)
    (after : Writes result.2 second (next result.2)) : Writes builder (first ++ second) (Nose.chk result next) := by
  rw [chk_success before.success]
  exact before.trans after

theorem writes_write (atEnd : builder.AtEnd) {bytes : List UInt8} (some_bytes : bytes ≠ []) :
    Writes builder bytes (builder.write bytes) := by
  obtain ⟨success, data, pos, grows, kept⟩ := CDataStream.write_eq atEnd.grows some_bytes
  have appended : (builder.stream.write bytes).2.data = builder.stream.data ++ bytes := by
    rw [data, atEnd.pos, List.take_length, List.drop_eq_nil_of_le (by omega), List.append_nil]
  refine ⟨success, appended, ⟨?_, grows⟩, rfl, rfl, fun _ room => kept ?_⟩
  · change (builder.stream.write bytes).2.pos = (builder.stream.write bytes).2.data.length
    rw [pos, appended, List.length_append, atEnd.pos, Nat.add_comm]
  · change (builder.stream.write bytes).2.data.length ≤ builder.stream.allocated at room
    rw [appended, List.length_append] at room
    rw [atEnd.pos]
    omega

theorem Writes.writeSome {first : List UInt8} {result : HRESULT × CStunMessageBuilder}
    (before : Writes builder first result) (bytes : List UInt8) :
    Writes builder (first ++ bytes) (CStunMessageBuilder.writeSome bytes result) := by
  rw [CStunMessageBuilder.writeSome]
  split
  · rename_i nothing
    rw [List.length_eq_zero_iff.mp nothing, List.append_nil]
    exact before
  · rename_i something
    exact before.chk (writes_write before.atEnd fun nothing => something (by rw [nothing]; rfl))

theorem writes_writeUint16 (atEnd : builder.AtEnd) (host : ByteOrder) (val : UInt16) :
    Writes builder [high val, low val] (builder.writeUint16 host (htons host val)) := by
  have written := writes_write atEnd (List.cons_ne_nil (high val) [low val])
  rw [writeUint16]
  unfold CDataStream.writeUint16
  rw [bytesOf_store16_htons]
  exact written

theorem writes_addAttributeHeader (atEnd : builder.AtEnd) (host : ByteOrder) (attribType size : UInt16) :
    Writes builder [high attribType, low attribType, high size, low size]
      (builder.addAttributeHeader host attribType size) := by
  have type := writes_writeUint16 atEnd host attribType
  exact type.chk (writes_writeUint16 type.atEnd host size)

/-- In the legacy mode the value counts its filling zeros. -/
def attributeOf (legacy : Bool) (type : UInt16) (value : List UInt8)
    (short : value.length + padding value.length < 65536) : PaddedRecord :=
  if legacy then
    .zeros ⟨type, value ++ List.replicate (padding value.length) 0, by simpa using short⟩
  else .zeros ⟨type, value, by omega⟩

@[simp] theorem type_attributeOf {legacy : Bool} {type : UInt16} {value : List UInt8}
    (short : value.length + padding value.length < 65536) : (attributeOf legacy type value short).type = type := by
  rw [attributeOf]
  split <;> rfl

theorem value_attributeOf (legacy : Bool) (type : UInt16) (value : List UInt8)
    (short : value.length + padding value.length < 65536) :
    (attributeOf legacy type value short).value =
      value ++ List.replicate (if legacy then padding value.length else 0) 0 := by
  rw [attributeOf]
  cases legacy <;> simp [PaddedRecord.zeros]

/-- A value that fills its last four bytes is the same in both modes. -/
theorem value_attributeOf_whole {legacy : Bool} {type : UInt16} {value : List UInt8}
    (short : value.length + padding value.length < 65536) (whole : value.length % 4 = 0) :
    (attributeOf legacy type value short).value = value := by
  have none : padding value.length = 0 := by rw [padding, whole]
  rw [value_attributeOf, none, ite_self, List.replicate_zero, List.append_nil]

theorem encode_attributeOf (legacy : Bool) (type : UInt16) (value : List UInt8)
    (short : value.length + padding value.length < 65536) :
    (attributeOf legacy type value short).encode =
      [high type, low type] ++
        [high (UInt16.ofNat (if legacy then value.length + padding value.length else value.length)),
          low (UInt16.ofNat (if legacy then value.length + padding value.length else value.length))] ++
        value ++ List.replicate (padding value.length) 0 := by
  have filled : padding (value.length + padding value.length) = 0 := by
    have whole := length_add_padding value.length
    rw [padding, whole]
  rw [attributeOf]
  cases legacy with
  | true =>
      simp [PaddedRecord.encode, PaddedRecord.zeros, TypeLengthValue.Record.encode,
        TypeLengthValue.Record.lengthField, filled]
  | false =>
      simp [PaddedRecord.encode, PaddedRecord.zeros, TypeLengthValue.Record.encode,
        TypeLengthValue.Record.lengthField]

theorem writes_addAttribute (atEnd : builder.AtEnd) (host : ByteOrder) (type : UInt16) (value : List UInt8)
    (short : value.length + padding value.length < 65536) :
    Writes builder (attributeOf builder.fLegacyMode type value short).encode
      (builder.addAttribute host type value) := by
  rw [encode_attributeOf, addAttribute, CStunMessageReader.paddingLength_eq]
  exact ((writes_addAttributeHeader atEnd host type _).writeSome value).writeSome _

theorem writes_addStringAttribute (atEnd : builder.AtEnd) (host : ByteOrder) (type : UInt16) {value : List UInt8}
    (some_bytes : value ≠ []) (short : value.length + padding value.length < 65536) :
    Writes builder (attributeOf builder.fLegacyMode type value short).encode
      (builder.addStringAttribute host type value) := by
  have whole : value.take (value.length % 2 ^ 16) = value := by
    rw [Nat.mod_eq_of_lt (by omega), List.take_length]
  rw [addStringAttribute, if_neg some_bytes, whole]
  exact writes_addAttribute atEnd host type value short

theorem length_arrayBytes (arr : List (UInt8 × UInt8)) : (arrayBytes arr).length = 2 * arr.length := by
  rw [arrayBytes, List.length_flatMap]
  simp [Nat.mul_comm]

theorem arrayBytes_ne_nil {arr : List (UInt8 × UInt8)} (some_words : arr ≠ []) : arrayBytes arr ≠ [] := by
  intro empty
  have length := congrArg List.length empty
  rw [length_arrayBytes, List.length_nil] at length
  exact some_words (List.length_eq_zero_iff.mp (by omega))

/-- The words, and the last of them once more when an odd number is filled up. -/
def filledArray (legacy : Bool) (arr : List (UInt8 × UInt8)) : List UInt8 :=
  arrayBytes arr ++ if legacy ∧ arr.length % 2 ≠ 0 then arrayBytes (arr.drop (arr.length - 1)) else []

theorem length_filledArray {legacy : Bool} {arr : List (UInt8 × UInt8)} (some_words : arr ≠ []) :
    (filledArray legacy arr).length = 2 * arr.length + if legacy ∧ arr.length % 2 ≠ 0 then 2 else 0 := by
  have positive := List.length_pos_iff.mpr some_words
  rw [filledArray, List.length_append, length_arrayBytes]
  split
  · rw [length_arrayBytes, List.length_drop]
    omega
  · rfl

/-- Unknown attributes are written behind a length that counts them all. -/
theorem writes_addUnknownAttributes (atEnd : builder.AtEnd) (host : ByteOrder) {arr : List (UInt8 × UInt8)}
    (some_words : arr ≠ []) (short : 2 * arr.length + 2 < 65536) :
    Writes builder
      ([high stunAttributeUnknownattributes, low stunAttributeUnknownattributes,
        high (UInt16.ofNat (filledArray builder.fLegacyMode arr).length),
        low (UInt16.ofNat (filledArray builder.fLegacyMode arr).length)] ++ filledArray builder.fLegacyMode arr)
      (builder.addUnknownAttributes host arr) := by
  have positive := List.length_pos_iff.mpr some_words
  have all : (arrayBytes arr).take (UInt16.ofNat (2 * arr.length)).toNat = arrayBytes arr := by
    rw [UInt16.toNat_ofNat', Nat.mod_eq_of_lt (by omega), ← length_arrayBytes, List.take_length]
  rw [addUnknownAttributes, if_neg some_words, length_filledArray some_words, filledArray, all]
  by_cases odd : builder.fLegacyMode ∧ arr.length % 2 ≠ 0
  · have header := writes_addAttributeHeader atEnd host stunAttributeUnknownattributes
      (UInt16.ofNat (2 * arr.length) + 2)
    have words := writes_write header.atEnd (arrayBytes_ne_nil some_words)
    have last_word : arr.drop (arr.length - 1) ≠ [] := by
      rw [Ne, List.drop_eq_nil_iff]
      omega
    have last := writes_write words.atEnd (arrayBytes_ne_nil last_word)
    simp only [if_pos odd]
    rw [chk_success header.success, if_neg (by rw [words.success]; decide), UInt16.ofNat_add]
    exact header.trans (words.trans (last.with_code words.success))
  · have header := writes_addAttributeHeader atEnd host stunAttributeUnknownattributes
      (UInt16.ofNat (2 * arr.length))
    have words := writes_write header.atEnd (arrayBytes_ne_nil some_words)
    simp only [if_neg odd, Nat.add_zero, List.append_nil]
    rw [chk_success header.success, if_neg (by rw [words.success]; decide)]
    exact header.trans words

/-- The value of an error: the number in two parts, and the reason. -/
def errorValue (errorNumber : UInt16) (pszReason : List UInt8) : List UInt8 :=
  [0, 0, UInt8.ofNat (errorNumber.toNat / 100), UInt8.ofNat (errorNumber.toNat % 100)] ++ pszReason

@[simp] theorem length_errorValue (errorNumber : UInt16) (pszReason : List UInt8) :
    (errorValue errorNumber pszReason).length = pszReason.length + 4 := by
  rw [errorValue, List.length_append, Nat.add_comm]
  rfl

theorem errorValue_short {errorNumber : UInt16} {pszReason : List UInt8} (short : pszReason.length < 128) :
    (errorValue errorNumber pszReason).length + padding (errorValue errorNumber pszReason).length < 65536 := by
  have few := padding_lt (errorValue errorNumber pszReason).length
  rw [length_errorValue] at few ⊢
  omega

theorem writes_addErrorCode (atEnd : builder.AtEnd) (host : ByteOrder) {errorNumber : UInt16} {pszReason : List UInt8}
    (short : pszReason.length < 128) (least : ¬errorNumber < 300) (most : ¬600 < errorNumber) :
    Writes builder
      (attributeOf builder.fLegacyMode stunAttributeErrorcode (errorValue errorNumber pszReason)
        (errorValue_short short)).encode
      (builder.addErrorCode host errorNumber pszReason) := by
  rw [encode_attributeOf, length_errorValue, addErrorCode, CStunMessageReader.paddingLength_eq,
    if_neg (show ¬128 ≤ pszReason.length by omega), if_neg least, if_neg most]
  have header := writes_addAttributeHeader atEnd host stunAttributeErrorcode
    (UInt16.ofNat (if builder.fLegacyMode = true then pszReason.length + 4 + padding (pszReason.length + 4)
      else pszReason.length + 4))
  have zero := writes_writeUint16 header.atEnd host 0
  rw [show htons host 0 = 0 by cases host <;> rfl] at zero
  have hundreds := writes_write zero.atEnd (List.cons_ne_nil (UInt8.ofNat (errorNumber.toNat / 100)) [])
  have tail {next : CStunMessageBuilder} (atEnd : next.AtEnd) :
      Writes next ([UInt8.ofNat (errorNumber.toNat % 100)] ++ pszReason ++
          List.replicate (padding (pszReason.length + 4)) 0)
        (let number := next.write [UInt8.ofNat (errorNumber.toNat % 100)]
        if number.1.failed then number
        else CStunMessageBuilder.writeSome (List.replicate (padding (pszReason.length + 4)) 0)
          (number.1, (CStunMessageBuilder.writeSome pszReason number).2)) := by
    have rest := writes_write atEnd (List.cons_ne_nil (UInt8.ofNat (errorNumber.toNat % 100)) [])
    have reason := rest.writeSome pszReason
    dsimp only
    rw [if_neg (by rw [rest.success]; decide)]
    exact (reason.with_code rest.success).writeSome _
  dsimp only
  rw [chk_success header.success, chk_success zero.success, chk_success hundreds.success]
  refine (header.trans (zero.trans (hundreds.trans (tail hundreds.atEnd)))).of_eq ?_
  rw [show high 0 = 0 from rfl, show low 0 = 0 from rfl]
  simp only [errorValue, List.cons_append, List.nil_append]

/-- The blocks of the loop are zeros. The induction is on their number. -/
theorem Writes.writeZeros {first : List UInt8} {result : HRESULT × CStunMessageBuilder}
    (before : Writes builder first result) (paddingSize : Nat) :
    Writes builder (first ++ List.replicate paddingSize 0) (CStunMessageBuilder.writeZeros paddingSize result) := by
  induction paddingSize using Nat.strongRecOn generalizing first result with
  | ind paddingSize ih =>
      rw [CStunMessageBuilder.writeZeros, if_neg (by rw [before.success]; decide)]
      split
      · have block := writes_write before.atEnd
          (show List.replicate (min paddingSize 128) (0 : UInt8) ≠ [] by simp; omega)
        have rest := ih (paddingSize - min paddingSize 128) (by omega) (before.trans block)
        have blocks : List.replicate (min paddingSize 128) (0 : UInt8) ++
            List.replicate (paddingSize - min paddingSize 128) 0 = List.replicate paddingSize 0 := by
          rw [List.replicate_append_replicate]
          congr 1
          omega
        rwa [List.append_assoc, blocks] at rest
      · have none : paddingSize = 0 := by omega
        rw [none, List.replicate_zero, List.append_nil]
        exact before

theorem writes_addPaddingAttribute (atEnd : builder.AtEnd) (host : ByteOrder) {paddingSize : UInt16}
    (short : paddingSize.toNat + padding paddingSize.toNat < 65536) :
    Writes builder
      (attributeOf true stunAttributePadding (List.replicate paddingSize.toNat 0) (by simpa using short)).encode
      (builder.addPaddingAttribute host paddingSize) := by
  have rounded : (if paddingSize % 4 = 0 then paddingSize else paddingSize + 4 - paddingSize % 4) =
      UInt16.ofNat (paddingSize.toNat + padding paddingSize.toNat) := by
    have bound := paddingSize.toNat_lt
    apply UInt16.toNat_inj.mp
    rw [UInt16.toNat_ofNat', Nat.mod_eq_of_lt short]
    rw [padding] at short ⊢
    have rest : (paddingSize % 4).toNat = paddingSize.toNat % 4 := by rw [UInt16.toNat_mod]; rfl
    split
    · rename_i whole
      rw [whole] at rest
      have zero : (0 : UInt16).toNat = 0 := rfl
      omega
    · rename_i some_rest
      have positive : paddingSize.toNat % 4 ≠ 0 := fun none =>
        some_rest (UInt16.toNat_inj.mp (by rw [rest, none]; rfl))
      have four : (4 : UInt16).toNat = 4 := rfl
      rw [UInt16.toNat_sub, UInt16.toNat_add, rest, four]
      omega
  rw [addPaddingAttribute, rounded, UInt16.toNat_ofNat', Nat.mod_eq_of_lt short]
  refine ((writes_addAttributeHeader atEnd host stunAttributePadding _).writeZeros _).of_eq ?_
  rw [encode_attributeOf, List.length_replicate, if_pos rfl, List.append_assoc _ _ (List.replicate _ _),
    List.replicate_append_replicate]
  rfl

/-- The value of an address: its family, its port and its bytes. -/
def addressValue (addr : CSocketAddress) : List UInt8 :=
  [0, if addr.isIPv4 then stunAttributeFieldIpv4 else stunAttributeFieldIpv6, high addr.getPort, low addr.getPort] ++
    addr.getIPNbo

theorem length_addressValue (addr : CSocketAddress) :
    (addressValue addr).length = if addr.isIPv4 then 8 else 20 := by
  rw [addressValue, List.length_append, addr.length_getIPNbo]
  split <;> rfl

theorem addressValue_short (addr : CSocketAddress) :
    (addressValue addr).length + padding (addressValue addr).length < 65536 := by
  rw [length_addressValue]
  split <;> decide

/-- An attribute for an address. -/
def addressAttribute (legacy : Bool) (type : UInt16) (addr : CSocketAddress) : PaddedRecord :=
  attributeOf legacy type (addressValue addr) (addressValue_short addr)

theorem writes_addMappedAddressImpl (atEnd : builder.AtEnd) (host : ByteOrder) (type : UInt16) (addr : CSocketAddress) :
    Writes builder (addressAttribute builder.fLegacyMode type addr).encode
      (builder.addMappedAddressImpl host type addr) := by
  have header := writes_addAttributeHeader atEnd host type (if addr.isIPv4 then 8 else 20)
  have zero := writes_write header.atEnd (List.cons_ne_nil 0 [])
  have family := writes_write zero.atEnd
    (List.cons_ne_nil (if addr.isIPv4 then stunAttributeFieldIpv4 else stunAttributeFieldIpv6) [])
  have port := writes_writeUint16 family.atEnd host addr.getPort
  have some_bytes : addr.getIPNbo ≠ [] := by
    intro nothing
    have length := addr.length_getIPNbo
    rw [nothing] at length
    split at length <;> simp at length
  have ip := writes_write port.atEnd some_bytes
  have whole : padding (addressValue addr).length = 0 := by
    rw [length_addressValue]
    split <;> rfl
  have size : UInt16.ofNat (addressValue addr).length = if addr.isIPv4 then 8 else 20 := by
    rw [length_addressValue]
    split <;> rfl
  rw [addressAttribute, encode_attributeOf, whole, Nat.add_zero, ite_self, size, List.replicate_zero, List.append_nil,
    addMappedAddressImpl]
  rw [chk_success header.success, chk_success zero.success, chk_success family.success, chk_success port.success]
  refine (header.trans (zero.trans (family.trans (port.trans ip)))).of_eq ?_
  simp only [addressValue, List.cons_append, List.nil_append]

/-- The size hint is room for a header. -/
theorem writes_grow (atEnd : builder.AtEnd) : Writes builder [] (onStream (fun stream => stream.grow 200) builder) := by
  by_cases room : 200 ≤ builder.stream.allocated
  · have same : builder.stream.grow 200 = (.sOk, builder.stream) := by rw [CDataStream.grow, if_pos room]
    rw [onStream, same]
    exact writes_nothing atEnd
  · rw [onStream, CDataStream.grow, if_neg room, if_neg (by simp [atEnd.grows])]
    exact ⟨rfl, (List.append_nil _).symm, ⟨atEnd.pos, atEnd.grows⟩, rfl, rfl, fun hint => absurd hint room⟩

theorem writes_addHeader (atEnd : builder.AtEnd) (host : ByteOrder) (msgType : UInt16) (msgClass : StunMessageClass) :
    Writes builder [high (typeField msgType msgClass), low (typeField msgType msgClass), 0, 0]
      (builder.addHeader host msgType msgClass) := by
  have hint := writes_grow atEnd
  have type := writes_writeUint16 hint.atEnd host (typeField msgType msgClass)
  have zero := writes_writeUint16 type.atEnd host 0
  rw [show htons host 0 = 0 by cases host <;> rfl] at zero
  rw [addHeader]
  exact hint.chk (type.chk zero)

/-- The builder goes on with its transaction id, its mode and, when there is room, its buffer. -/
structure Becomes (builder next : CStunMessageBuilder) : Prop where
  longer : builder.stream.data.length ≤ next.stream.data.length
  transactionid : next.transactionid = builder.transactionid
  legacy : next.fLegacyMode = builder.fLegacyMode
  kept : 200 ≤ builder.stream.allocated → next.stream.data.length ≤ builder.stream.allocated →
    next.stream.allocated = builder.stream.allocated ∧ next.stream.replaced = builder.stream.replaced

theorem Becomes.trans {middle last : CStunMessageBuilder} (before : Becomes builder middle)
    (after : Becomes middle last) : Becomes builder last where
  longer := before.longer.trans after.longer
  transactionid := after.transactionid.trans before.transactionid
  legacy := after.legacy.trans before.legacy
  kept := fun hint room => by
    have longer := after.longer
    obtain ⟨allocated, replaced⟩ := before.kept hint (by omega)
    obtain ⟨allocated', replaced'⟩ := after.kept (by omega) (by omega)
    exact ⟨allocated'.trans allocated, replaced'.trans replaced⟩

theorem Writes.becomes {bytes : List UInt8} {result : HRESULT × CStunMessageBuilder}
    (writes : Writes builder bytes result) : Becomes builder result.2 where
  longer := by rw [writes.data, List.length_append]; omega
  transactionid := writes.transactionid
  legacy := writes.legacy
  kept := writes.kept

/-- The stream has a header and the records, and the builder stands behind them. -/
structure Contains (builder : CStunMessageBuilder) (header : StunHeader) (records : List PaddedRecord) : Prop where
  data : builder.stream.data = header.encode ++ encodeAll records
  atEnd : builder.AtEnd

variable {header : StunHeader} {records : List PaddedRecord}

theorem Contains.length (contains : builder.Contains header records) :
    builder.stream.data.length = 20 + (encodeAll records).length := by
  rw [contains.data, List.length_append, StunHeader.length_encode]

/-- A written record is the last one. -/
theorem Contains.add (contains : builder.Contains header records) {record : PaddedRecord}
    {result : HRESULT × CStunMessageBuilder} (writes : Writes builder record.encode result) :
    result.2.Contains header (records ++ [record]) where
  data := by
    rw [writes.data, contains.data, List.append_assoc, encodeAll_append, encodeAll_cons, encodeAll_nil, List.append_nil]
  atEnd := writes.atEnd

/-- The length field of the records. -/
def counted (header : StunHeader) (records : List PaddedRecord) : StunHeader :=
  { header with msgLength := UInt16.ofNat (encodeAll records).length }

/-- The length field counts the bytes behind the header, and everything else stays. -/
theorem fixLengthField_eq (atEnd : builder.AtEnd) (host : ByteOrder) (header : 20 ≤ builder.stream.data.length) :
    (builder.fixLengthField host).1.failed = false ∧
      (builder.fixLengthField host).2.stream.data = builder.stream.data.take 2 ++
        [high (UInt16.ofNat (builder.stream.data.length - 20)),
          low (UInt16.ofNat (builder.stream.data.length - 20))] ++ builder.stream.data.drop 4 ∧
      (builder.fixLengthField host).2.AtEnd ∧ Becomes builder (builder.fixLengthField host).2 := by
  obtain ⟨bytes, field⟩ : ∃ bytes, [high (UInt16.ofNat (builder.stream.data.length - 20)),
      low (UInt16.ofNat (builder.stream.data.length - 20))] = bytes := ⟨_, rfl⟩
  have two : bytes.length = 2 := by rw [← field]; rfl
  obtain ⟨success, data, -, grows, kept⟩ := @CDataStream.write_eq (builder.stream.atPos 2) atEnd.grows bytes
    (List.length_pos_iff.mp (by omega))
  obtain ⟨written, result⟩ : ∃ written, (builder.stream.atPos 2).write bytes = written := ⟨_, rfl⟩
  rw [result] at success data grows kept
  rw [CDataStream.data_atPos, CDataStream.pos_atPos, two] at data
  rw [CDataStream.pos_atPos, two] at kept
  have unchanged : written.2.data.length = builder.stream.data.length := by
    rw [data, List.length_append, List.length_append, two, List.length_take, List.length_drop]
    omega
  have fixed : builder.fixLengthField host =
      (.sOk, { builder with stream := written.2.atPos builder.stream.pos }) := by
    rw [CStunMessageBuilder.fixLengthField, if_neg (by rw [stunHeaderSize]; omega), onStream,
      CDataStream.seekDirect_ok (by omega), chk_ok, writeUint16, onStream, CDataStream.writeUint16,
      bytesOf_store16_htons, stunHeaderSize, field, result, chk, if_neg (by simp [success]), onStream,
      CDataStream.seekDirect_ok (by rw [unchanged, atEnd.pos])]
  rw [fixed]
  refine ⟨rfl, ?_, ⟨?_, grows⟩, ?_, rfl, rfl, fun hint room => kept ?_⟩
  · rw [CDataStream.data_atPos, data, field]
  · rw [CDataStream.pos_atPos, CDataStream.data_atPos, unchanged, atEnd.pos]
  · rw [CDataStream.data_atPos, unchanged]
  · change _ ≤ builder.stream.allocated
    omega

/-- The length field counts the records. -/
theorem Contains.fixLengthField (contains : builder.Contains header records) (host : ByteOrder) :
    (builder.fixLengthField host).1.failed = false ∧
      (builder.fixLengthField host).2.Contains (counted header records) records ∧
      Becomes builder (builder.fixLengthField host).2 := by
  have length := contains.length
  obtain ⟨success, data, atEnd, becomes⟩ := fixLengthField_eq contains.atEnd host (by omega)
  have header' : header.encode.take 2 ++ [high (UInt16.ofNat (encodeAll records).length),
      low (UInt16.ofNat (encodeAll records).length)] ++ header.encode.drop 4 = (counted header records).encode := by
    simp [StunHeader.encode, counted]
  rw [length, Nat.add_sub_cancel_left, contains.data, List.take_append_of_le_length (by simp),
    List.drop_append_of_le_length (by simp), ← List.append_assoc, header'] at data
  exact ⟨success, ⟨data, atEnd⟩, becomes⟩

theorem encode_attributeOf_whole (legacy : Bool) (type : UInt16) {value : List UInt8}
    (short : value.length + padding value.length < 65536) (whole : value.length % 4 = 0) :
    (attributeOf legacy type value short).encode =
      [high type, low type, high (UInt16.ofNat value.length), low (UInt16.ofNat value.length)] ++ value := by
  have none : padding value.length = 0 := by rw [padding, whole]
  rw [encode_attributeOf, none, Nat.add_zero, ite_self, List.replicate_zero, List.append_nil]
  rfl

/-- The length field does not depend on the contents of the last record. -/
theorem counted_congr {first second : List PaddedRecord} (same : (encodeAll first).length = (encodeAll second).length) :
    counted header first = counted header second := by
  rw [counted, counted, same]

@[simp] theorem counted_counted (first second : List PaddedRecord) :
    counted (counted header first) second = counted header second := rfl

/-- An attribute of twenty bytes for a digest. -/
def integrityAttribute (legacy : Bool) (digest : Vector UInt8 20) : PaddedRecord :=
  attributeOf legacy stunAttributeMessageintegrity digest.toList (by rw [Vector.length_toList]; decide)

theorem encode_integrityAttribute (legacy : Bool) (digest : Vector UInt8 20) :
    (integrityAttribute legacy digest).encode =
      [high stunAttributeMessageintegrity, low stunAttributeMessageintegrity, 0, 20] ++ digest.toList := by
  rw [integrityAttribute, encode_attributeOf_whole _ _ _ (by rw [Vector.length_toList]), Vector.length_toList]
  rfl

/-- These are the bytes that are signed: the length field counts the signature. -/
def signedBytes (header : StunHeader) (records : List PaddedRecord) (legacy : Bool) : List UInt8 :=
  (counted header (records ++ [integrityAttribute legacy (Vector.replicate 20 0)])).encode ++ encodeAll records

/-- A patch inside the stream changes its bytes only. -/
theorem patch_eq {offset : Nat} {bytes : List UInt8}
    (inside : offset + bytes.length ≤ builder.stream.data.length) :
    (builder.patch offset bytes).stream.data =
        builder.stream.data.take offset ++ bytes ++ builder.stream.data.drop (offset + bytes.length) ∧
      (builder.patch offset bytes).stream.data.length = builder.stream.data.length ∧
      Becomes builder (builder.patch offset bytes) := by
  have patched : (builder.patch offset bytes).stream.data =
      builder.stream.data.take offset ++ bytes ++ builder.stream.data.drop (offset + bytes.length) := by
    cases buffer : builder.stream.spBuffer with
    | none =>
        have nothing : builder.stream.data = [] := by rw [CDataStream.data, buffer]; rfl
        rw [nothing, List.length_nil] at inside
        have empty : bytes = [] := List.length_eq_zero_iff.mp (by omega)
        rw [nothing, empty, CDataStream.data, patch, buffer]
        simp
    | some buf =>
        rw [CDataStream.data, CDataStream.data, patch, buffer]
        rfl
  have same : (builder.patch offset bytes).stream.data.length = builder.stream.data.length := by
    rw [patched, List.length_append, List.length_append, List.length_take, List.length_drop]
    omega
  refine ⟨patched, same, same.ge, rfl, rfl, fun _ _ => ⟨?_, rfl⟩⟩
  rw [CDataStream.allocated, CDataStream.allocated, patch, Option.map_map]
  rfl

/-- The signature is the last record. -/
theorem Contains.addMessageIntegrityImpl (contains : builder.Contains header records) (host : ByteOrder)
    (digests : Digests) {key : List UInt8} (some_key : key ≠ []) :
    (builder.addMessageIntegrityImpl host digests key).1.failed = false ∧
      (builder.addMessageIntegrityImpl host digests key).2.Contains
        (counted header (records ++ [integrityAttribute builder.fLegacyMode
          (digests.hmac key (signedBytes header records builder.fLegacyMode))]))
        (records ++ [integrityAttribute builder.fLegacyMode
          (digests.hmac key (signedBytes header records builder.fLegacyMode))]) ∧
      Becomes builder (builder.addMessageIntegrityImpl host digests key).2 := by
  have added : Writes builder (integrityAttribute builder.fLegacyMode (Vector.replicate 20 0)).encode
      (builder.addAttribute host stunAttributeMessageintegrity (List.replicate 20 0)) :=
    writes_addAttribute contains.atEnd host stunAttributeMessageintegrity (Vector.replicate 20 (0 : UInt8)).toList
      (by rw [Vector.length_toList]; decide)
  have dummy := contains.add added
  obtain ⟨success, fixed, becomes⟩ := dummy.fixLengthField host
  obtain ⟨next, result⟩ : ∃ next, CStunMessageBuilder.fixLengthField host
      (builder.addAttribute host stunAttributeMessageintegrity (List.replicate 20 0)).2 = next := ⟨_, rfl⟩
  rw [result] at success fixed becomes
  have data := fixed.data
  rw [encodeAll_append, encodeAll_cons, encodeAll_nil, List.append_nil, ← List.append_assoc] at data
  have length : next.2.stream.data.length - 24 = (signedBytes header records builder.fLegacyMode).length := by
    rw [data, signedBytes, List.length_append, encode_integrityAttribute]
    simp
  have split : next.2.stream.data = signedBytes header records builder.fLegacyMode ++
      ([high stunAttributeMessageintegrity, low stunAttributeMessageintegrity, 0, 20] ++ List.replicate 20 0) := by
    rw [data, encode_integrityAttribute]
    rfl
  have signed : next.2.stream.data.take (next.2.stream.data.length - 24) =
      signedBytes header records builder.fLegacyMode := by rw [length, split, List.take_left]
  obtain ⟨digest, known⟩ : ∃ digest, digests.hmac key (signedBytes header records builder.fLegacyMode) = digest :=
    ⟨_, rfl⟩
  have final : builder.addMessageIntegrityImpl host digests key =
      (.sOk, next.2.patch ((signedBytes header records builder.fLegacyMode).length + 4) digest.toList) := by
    rw [CStunMessageBuilder.addMessageIntegrityImpl, if_neg some_key, Nose.chk,
      if_neg (by rw [added.success]; decide), result, Nose.chk, if_neg (by rw [success]; decide)]
    dsimp only
    rw [signed, length, known]
  have last : next.2.stream.data.length = (signedBytes header records builder.fLegacyMode).length + 24 := by
    rw [split, List.length_append]
    rfl
  obtain ⟨patched, kept_length, goes_on⟩ := @patch_eq next.2
    ((signedBytes header records builder.fLegacyMode).length + 4) digest.toList
    (by rw [last, Vector.length_toList])
  have same_count : counted header (records ++ [integrityAttribute builder.fLegacyMode digest]) =
      counted header (records ++ [integrityAttribute builder.fLegacyMode (Vector.replicate 20 0)]) := by
    apply counted_congr
    simp [encode_integrityAttribute]
  have written : (next.2.patch ((signedBytes header records builder.fLegacyMode).length + 4) digest.toList).Contains
      (counted header (records ++ [integrityAttribute builder.fLegacyMode digest]))
      (records ++ [integrityAttribute builder.fLegacyMode digest]) := by
    refine ⟨?_, ?_, fixed.atEnd.grows⟩
    · rw [patched, split, Vector.length_toList, List.take_length_add_append, List.drop_eq_nil_of_le (by simp),
        List.append_nil, encodeAll_append, encodeAll_cons, encodeAll_nil, List.append_nil, encode_integrityAttribute,
        same_count, signedBytes]
      simp
    · rw [kept_length, ← fixed.atEnd.pos]
      rfl
  rw [final, known]
  exact ⟨rfl, written, added.becomes.trans (becomes.trans goes_on)⟩

/-- The bytes of a double word in network order. -/
def dwordBytes (value : UInt32) : List UInt8 :=
  [high (upper value), low (upper value), high (lower value), low (lower value)]

/-- An attribute of four bytes for a checksum. -/
def fingerprintAttribute (value : UInt32) : PaddedRecord :=
  .zeros ⟨stunAttributeFingerprint, dwordBytes value, by simp [dwordBytes]⟩

theorem encode_fingerprintAttribute (value : UInt32) :
    (fingerprintAttribute value).encode =
      [high stunAttributeFingerprint, low stunAttributeFingerprint, 0, 4] ++ dwordBytes value := by
  simp [fingerprintAttribute, dwordBytes, PaddedRecord.encode, PaddedRecord.zeros, TypeLengthValue.Record.encode,
    TypeLengthValue.Record.lengthField, padding]
  decide

/-- These are the bytes that the checksum covers: the length field counts the checksum. -/
def checkedBytes (header : StunHeader) (records : List PaddedRecord) : List UInt8 :=
  (counted header (records ++ [fingerprintAttribute 0])).encode ++ encodeAll records

theorem writes_writeUint32 (atEnd : builder.AtEnd) (host : ByteOrder) (val : UInt32) :
    Writes builder (dwordBytes val) (onStream (fun stream => stream.writeUint32 host (htonl host val)) builder) := by
  have written := writes_write atEnd (show dwordBytes val ≠ [] by simp [dwordBytes])
  unfold CDataStream.writeUint32
  rw [bytesOf_store32_htonl]
  exact written

/-- A step back from the end. -/
theorem seekRelative_back {stream : CDataStream} {count : Nat} (stands : stream.pos = stream.data.length)
    (enough : count ≤ stream.data.length) (bound : stream.data.length < 2 ^ 64) :
    stream.seekRelative (-count) = (.sOk, stream.atPos (stream.data.length - count)) := by
  have place : ((-count + stream.pos : Int) % 2 ^ 64).toNat = stream.data.length - count := by omega
  rw [CDataStream.seekRelative, place, CDataStream.seekDirect_ok (by omega)]

/-- The checksum is the last record. -/
theorem Contains.addFingerprintAttribute (contains : builder.Contains header records) (host : ByteOrder)
    (digests : Digests) (short : (encodeAll records).length < 2 ^ 63) :
    (builder.addFingerprintAttribute host digests).1.failed = false ∧
      (builder.addFingerprintAttribute host digests).2.Contains
        (counted header (records ++ [fingerprintAttribute
          (digests.crc (checkedBytes header records) ^^^ stunFingerprintXor)]))
        (records ++ [fingerprintAttribute (digests.crc (checkedBytes header records) ^^^ stunFingerprintXor)]) ∧
      Becomes builder (builder.addFingerprintAttribute host digests).2 := by
  have type := writes_writeUint16 contains.atEnd host stunAttributeFingerprint
  have size := writes_writeUint16 type.atEnd host 4
  have zero := writes_writeUint32 size.atEnd host 0
  rw [show htonl host 0 = 0 by cases host <;> rfl] at zero
  have added := (type.trans size).trans zero
  have dummy : Contains _ header (records ++ [fingerprintAttribute 0]) :=
    contains.add (added.of_eq (encode_fingerprintAttribute 0).symm)
  obtain ⟨fixed_ok, fixed, becomes⟩ := dummy.fixLengthField host
  rw [CStunMessageBuilder.addFingerprintAttribute, chk_success type.success, chk_success size.success,
    chk_success zero.success, chk_success fixed_ok]
  obtain ⟨next, result⟩ : ∃ next, CStunMessageBuilder.fixLengthField host (onStream (fun stream =>
      stream.writeUint32 host 0) (CStunMessageBuilder.writeUint16 host (htons host 4)
        (CStunMessageBuilder.writeUint16 host (htons host stunAttributeFingerprint) builder).2).2).2 = next := ⟨_, rfl⟩
  rw [result] at fixed becomes ⊢
  have data := fixed.data
  rw [encodeAll_append, encodeAll_cons, encodeAll_nil, List.append_nil, ← List.append_assoc, ← checkedBytes,
    encode_fingerprintAttribute] at data
  have last : next.2.stream.data.length = (checkedBytes header records).length + 8 := by
    rw [data, List.length_append]
    rfl
  have checked : next.2.stream.data.take (next.2.stream.data.length - 8) = checkedBytes header records := by
    rw [last, Nat.add_sub_cancel, data, List.take_left]
  have checked_length : (checkedBytes header records).length = 20 + (encodeAll records).length := by
    rw [checkedBytes, List.length_append, StunHeader.length_encode]
  have back : next.2.stream.seekRelative (-4) = (.sOk, next.2.stream.atPos (next.2.stream.data.length - 4)) :=
    @seekRelative_back next.2.stream 4 fixed.atEnd.pos (by omega) (by omega)
  dsimp only
  rw [checked, onStream, back, chk_ok]
  generalize digests.crc (checkedBytes header records) ^^^ stunFingerprintXor = value
  obtain ⟨written_ok, written, pos, grows, kept⟩ :=
    @CDataStream.write_eq (next.2.stream.atPos (next.2.stream.data.length - 4)) fixed.atEnd.grows (dwordBytes value)
      (by simp [dwordBytes])
  have four : (dwordBytes value).length = 4 := rfl
  rw [CDataStream.pos_atPos, four] at pos kept
  rw [CDataStream.data_atPos, CDataStream.pos_atPos, four, List.drop_eq_nil_of_le (by omega), List.append_nil] at written
  have same_count : counted header (records ++ [fingerprintAttribute value]) =
      counted header (records ++ [fingerprintAttribute 0]) := by
    apply counted_congr
    simp [encode_fingerprintAttribute, dwordBytes]
  have final : next.2.stream.data.take (next.2.stream.data.length - 4) ++ dwordBytes value =
      (counted header (records ++ [fingerprintAttribute value])).encode ++
        encodeAll (records ++ [fingerprintAttribute value]) := by
    have front : next.2.stream.data.take (next.2.stream.data.length - 4) = checkedBytes header records ++
        [high stunAttributeFingerprint, low stunAttributeFingerprint, 0, 4] := by
      rw [last, data, Nat.add_sub_assoc (by decide), List.take_length_add_append]
      rfl
    rw [front, encodeAll_append, encodeAll_cons, encodeAll_nil, List.append_nil, encode_fingerprintAttribute,
      same_count, checkedBytes]
    simp
  rw [final] at written
  have length := congrArg List.length written
  rw [List.length_append, StunHeader.length_encode, encodeAll_append, encodeAll_cons, encodeAll_nil, List.append_nil,
    List.length_append, encode_fingerprintAttribute, List.length_append, four] at length
  have unchanged : ((next.2.stream.atPos (next.2.stream.data.length - 4)).write (dwordBytes value)).2.data.length =
      next.2.stream.data.length := by
    rw [length, last, checked_length]
    simp only [List.length_cons, List.length_nil]
    omega
  rw [onStream]
  dsimp only
  unfold CDataStream.writeUint32
  rw [bytesOf_store32_htonl, ← dwordBytes]
  have goes_on : Becomes next.2 { next.2 with
      stream := ((next.2.stream.atPos (next.2.stream.data.length - 4)).write (dwordBytes value)).2 } :=
    ⟨unchanged.ge, rfl, rfl, fun _ room => kept (by rw [unchanged] at room; change _ ≤ next.2.stream.allocated; omega)⟩
  exact ⟨written_ok, ⟨written, by rw [pos, unchanged]; omega, grows⟩,
    added.becomes.trans (becomes.trans goes_on)⟩

end CStunMessageBuilder

end Nose
