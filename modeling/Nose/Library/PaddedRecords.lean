import Nose.Library.TypeLengthValue

/-
This file gives sequences of records whose values are filled up to a multiple of four bytes.
-/

namespace PaddedRecords

open CMemory TypeLengthValue

/-- The number of bytes that fill up a value. -/
def padding (length : Nat) : Nat := (4 - length % 4) % 4

/-- The filling bytes are not counted by the length field, and their values are free. -/
@[ext] structure PaddedRecord extends Record where
  fill : List UInt8
  filled : fill.length = padding value.length

namespace PaddedRecord

def encode (padded : PaddedRecord) : List UInt8 := padded.toRecord.encode ++ padded.fill

theorem length_encode (padded : PaddedRecord) :
    padded.encode.length = 4 + padded.value.length + padding padded.value.length := by
  rw [encode, List.length_append, Record.length_encode, padded.filled]

/-- A record whose value is filled with zeros. -/
def zeros (record : Record) : PaddedRecord := ⟨record, List.replicate (padding record.value.length) 0, by simp⟩

end PaddedRecord

theorem padding_lt (length : Nat) : padding length < 4 := Nat.mod_lt _ (by decide)

/-- The filled length is a multiple of four. -/
theorem length_add_padding (length : Nat) : (length + padding length) % 4 = 0 := by
  rw [padding]
  omega

def encodeAll (records : List PaddedRecord) : List UInt8 := records.flatMap PaddedRecord.encode

@[simp] theorem encodeAll_nil : encodeAll [] = [] := rfl

@[simp] theorem encodeAll_cons (record : PaddedRecord) (rest : List PaddedRecord) :
    encodeAll (record :: rest) = record.encode ++ encodeAll rest := List.flatMap_cons

@[simp] theorem encodeAll_append (first second : List PaddedRecord) :
    encodeAll (first ++ second) = encodeAll first ++ encodeAll second := List.flatMap_append

theorem length_encodeAll_mod (records : List PaddedRecord) : (encodeAll records).length % 4 = 0 := by
  induction records with
  | nil => rfl
  | cons record rest ih =>
      have filled := length_add_padding record.value.length
      rw [encodeAll_cons, List.length_append, record.length_encode]
      omega

theorem length_le_encodeAll (records : List PaddedRecord) : 4 * records.length ≤ (encodeAll records).length := by
  induction records with
  | nil => simp
  | cons record rest ih =>
      rw [encodeAll_cons, List.length_append, record.length_encode, List.length_cons]
      omega

/-- The type of the first record. -/
def typeAt (bytes : List UInt8) : UInt16 := word (bytes.getD 0 0) (bytes.getD 1 0)

/-- The length of the first value. -/
def lengthAt (bytes : List UInt8) : Nat := (word (bytes.getD 2 0) (bytes.getD 3 0)).toNat

@[simp] theorem typeAt_encode (record : PaddedRecord) (rest : List UInt8) :
    typeAt (record.encode ++ rest) = record.type := by
  simp [typeAt, PaddedRecord.encode, Record.encode]

@[simp] theorem lengthAt_encode (record : PaddedRecord) (rest : List UInt8) :
    lengthAt (record.encode ++ rest) = record.value.length := by
  have fits : (UInt16.ofNat record.value.length).toNat = record.value.length := by
    rw [UInt16.toNat_ofNat']
    exact Nat.mod_eq_of_lt record.short
  simp [lengthAt, PaddedRecord.encode, Record.encode, Record.lengthField, fits]

theorem drop_encode (record : PaddedRecord) (rest : List UInt8) :
    (record.encode ++ rest).drop 4 = record.value ++ (record.fill ++ rest) := by
  simp [PaddedRecord.encode, Record.encode]

theorem take_four {bytes : List UInt8} (enough : 4 ≤ bytes.length) :
    bytes.take 4 = [bytes.getD 0 0, bytes.getD 1 0, bytes.getD 2 0, bytes.getD 3 0] := by
  apply List.ext_getElem
  · simpa using enough
  intro i inside bound
  have short : i < 4 := bound
  interval_cases i <;> simp [show 0 < bytes.length by omega, show 1 < bytes.length by omega,
    show 2 < bytes.length by omega, show 3 < bytes.length by omega]

/-- Bytes that are long enough start with a record. -/
theorem exists_record {bytes : List UInt8} (header : 4 ≤ bytes.length)
    (inside : 4 + lengthAt bytes + padding (lengthAt bytes) ≤ bytes.length) :
    ∃ (record : PaddedRecord) (rest : List UInt8), bytes = record.encode ++ rest ∧ record.type = typeAt bytes ∧
      record.value.length = lengthAt bytes := by
  have short : ((bytes.drop 4).take (lengthAt bytes)).length = lengthAt bytes := by simp; omega
  have bound : lengthAt bytes < 65536 := UInt16.toNat_lt _
  let record : Record := ⟨typeAt bytes, (bytes.drop 4).take (lengthAt bytes), by rw [short]; exact bound⟩
  let fill := ((bytes.drop 4).drop (lengthAt bytes)).take (padding (lengthAt bytes))
  have filled : fill.length = padding record.value.length := by
    rw [show record.value.length = lengthAt bytes from short]
    simp [fill]
    omega
  refine ⟨⟨record, fill, filled⟩, ((bytes.drop 4).drop (lengthAt bytes)).drop (padding (lengthAt bytes)), ?_, rfl,
    short⟩
  have tail : bytes.drop 4 = record.value ++ (fill ++
      ((bytes.drop 4).drop (lengthAt bytes)).drop (padding (lengthAt bytes))) := by
    rw [List.take_append_drop, List.take_append_drop]
  have lengthField : record.lengthField = word (bytes.getD 2 0) (bytes.getD 3 0) := by
    rw [Record.lengthField, show record.value.length = lengthAt bytes from short, lengthAt, UInt16.ofNat_toNat]
  have front : bytes.take 4 = [high record.type, low record.type, high record.lengthField, low record.lengthField] := by
    rw [lengthField, show record.type = word (bytes.getD 0 0) (bytes.getD 1 0) from rfl, high_word, low_word, high_word,
      low_word]
    exact take_four header
  rw [PaddedRecord.encode, Record.encode, List.append_assoc, List.append_assoc, ← tail, ← front, List.take_append_drop]

/-- Two records with the same bytes at the start are the same. -/
theorem encode_append_inj {first second : PaddedRecord} {left right : List UInt8}
    (same : first.encode ++ left = second.encode ++ right) : first = second ∧ left = right := by
  have type : first.type = second.type := by rw [← typeAt_encode first left, same, typeAt_encode]
  have length : first.value.length = second.value.length := by rw [← lengthAt_encode first left, same, lengthAt_encode]
  have tail := congrArg (List.drop 4) same
  rw [drop_encode, drop_encode] at tail
  obtain ⟨value, tail⟩ := List.append_inj tail length
  obtain ⟨fill, rest⟩ := List.append_inj tail (by rw [first.filled, second.filled, length])
  exact ⟨PaddedRecord.ext type value fill, rest⟩

/-- A sequence of records is determined by its bytes. -/
theorem encodeAll_injective : Function.Injective encodeAll := by
  intro first second same
  induction first generalizing second with
  | nil =>
      cases second with
      | nil => rfl
      | cons record rest =>
          have empty := congrArg List.length same
          rw [encodeAll_nil, encodeAll_cons, List.length_nil, List.length_append, record.length_encode] at empty
          omega
  | cons record rest ih =>
      cases second with
      | nil =>
          have empty := congrArg List.length same
          rw [encodeAll_nil, encodeAll_cons, List.length_nil, List.length_append, record.length_encode] at empty
          omega
      | cons other later =>
          rw [encodeAll_cons, encodeAll_cons] at same
          obtain ⟨rfl, tails⟩ := encode_append_inj same
          rw [ih tails]

end PaddedRecords
