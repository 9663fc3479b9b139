import Nose.Library.CMemory

/-
This file gives sequences of records that start with a type and with the length of a value.
-/

namespace TypeLengthValue

open CMemory

/-- The length of the value fits into the length field. -/
structure Record where
  type : UInt16
  value : List UInt8
  short : value.length < 65536

def Record.lengthField (record : Record) : UInt16 := UInt16.ofNat record.value.length

/-- Both words have their high bytes first. -/
def Record.encode (record : Record) : List UInt8 :=
  [high record.type, low record.type, high record.lengthField, low record.lengthField] ++ record.value

def encodeAll (records : List Record) : List UInt8 := records.flatMap Record.encode

@[simp] theorem Record.length_encode (record : Record) : record.encode.length = 4 + record.value.length := by
  rw [encode, List.length_append]
  rfl

/-- This is a record with the index of its first byte. -/
structure Place where
  index : Nat
  type : UInt16
  length : Nat

def placeAt (bytes : List UInt8) (index : Nat) : Place where
  index := index
  type := word (bytes.getD index 0) (bytes.getD (index + 1) 0)
  length := (word (bytes.getD (index + 2) 0) (bytes.getD (index + 3) 0)).toNat

def Place.next (place : Place) : Nat := place.index + 4 + place.length

def Place.value (bytes : List UInt8) (place : Place) : List UInt8 := (bytes.drop (place.index + 4)).take place.length

/-- The records fill the bytes from an index to the end of the sequence. -/
inductive Tiles (bytes : List UInt8) (stop : Nat) : Nat → List Place → Prop where
  | done : Tiles bytes stop stop []
  | record {index : Nat} {rest : List Place} (inside : (placeAt bytes index).next ≤ stop)
      (tail : Tiles bytes stop (placeAt bytes index).next rest) : Tiles bytes stop index (placeAt bytes index :: rest)

section Tiles

variable {bytes : List UInt8} {stop index : Nat} {places : List Place}

/-- Every record takes four bytes at least. -/
theorem Tiles.length_le (tiles : Tiles bytes stop index places) : index + 4 * places.length ≤ stop := by
  induction tiles with
  | done => simp
  | record inside tail ih =>
      simp only [Place.next, List.length_cons] at inside ih ⊢
      have start : ∀ index, (placeAt bytes index).index = index := fun _ => rfl
      rw [start] at ih
      omega

/-- Each record ends before the end of the sequence. -/
theorem Tiles.next_le (tiles : Tiles bytes stop index places) : ∀ place ∈ places, place.next ≤ stop := by
  induction tiles with
  | done => simp
  | record inside tail ih =>
      intro place member
      rcases List.mem_cons.mp member with rfl | later
      · exact inside
      · exact ih place later

end Tiles

/-- A record is found where its bytes are. -/
theorem placeAt_encode (before : List UInt8) (record : Record) (after : List UInt8) :
    placeAt (before ++ (record.encode ++ after)) before.length =
      ⟨before.length, record.type, record.value.length⟩ := by
  have read (i : Nat) : (before ++ (record.encode ++ after)).getD (before.length + i) 0 =
      (record.encode ++ after).getD i 0 := by
    rw [List.getD_eq_getElem?_getD, List.getElem?_append_right (Nat.le_add_right _ _), Nat.add_sub_cancel_left,
      List.getD_eq_getElem?_getD]
  have fits : (UInt16.ofNat record.value.length).toNat = record.value.length := by
    rw [UInt16.toNat_ofNat']
    exact Nat.mod_eq_of_lt record.short
  have first := read 0
  rw [Nat.add_zero] at first
  rw [placeAt, first, read 1, read 2, read 3]
  simp [Record.encode, Record.lengthField, fits]

theorem value_encode (before : List UInt8) (record : Record) (after : List UInt8) :
    Place.value (before ++ (record.encode ++ after)) ⟨before.length, record.type, record.value.length⟩ =
      record.value := by
  have skipped : (before ++ (record.encode ++ after)).drop (before.length + 4) = record.value ++ after := by
    rw [List.drop_append, List.drop_eq_nil_of_le (by omega), List.nil_append, Nat.add_sub_cancel_left]
    simp [Record.encode]
  rw [Place.value, skipped, List.take_left]

/-- The place has the type, the length and the value of the record. -/
structure Holds (bytes : List UInt8) (record : Record) (place : Place) : Prop where
  type : place.type = record.type
  length : place.length = record.value.length
  value : place.value bytes = record.value

/-- The bytes of the value lie behind the header of its record. -/
theorem Holds.read {bytes : List UInt8} {record : Record} {place : Place} (holds : Holds bytes record place) {i : Nat}
    (inside : i < record.value.length) : bytes.getD (place.index + 4 + i) 0 = record.value.getD i 0 := by
  have counted : i < place.length := by rwa [holds.length]
  rw [← holds.value, Place.value, List.getD_eq_getElem?_getD, List.getD_eq_getElem?_getD,
    List.getElem?_take_of_lt counted, List.getElem?_drop]

/-- Encoded records fill the bytes that they take. -/
theorem tiles_encodeAll (before : List UInt8) (records : List Record) (after : List UInt8) :
    ∃ places, Tiles (before ++ (encodeAll records ++ after)) (before.length + (encodeAll records).length) before.length
      places ∧ List.Forall₂ (Holds (before ++ (encodeAll records ++ after))) records places := by
  induction records generalizing before with
  | nil => exact ⟨[], .done, .nil⟩
  | cons record rest ih =>
      have split : before ++ (encodeAll (record :: rest) ++ after) =
          before ++ (record.encode ++ (encodeAll rest ++ after)) := by simp [encodeAll]
      have regroup : before ++ (record.encode ++ (encodeAll rest ++ after)) =
          (before ++ record.encode) ++ (encodeAll rest ++ after) := by simp
      have total : (encodeAll (record :: rest)).length = 4 + record.value.length + (encodeAll rest).length := by
        simp [encodeAll]
      obtain ⟨places, tiles, holds⟩ := ih (before ++ record.encode)
      have place := placeAt_encode before record (encodeAll rest ++ after)
      have next : (placeAt (before ++ (record.encode ++ (encodeAll rest ++ after))) before.length).next =
          (before ++ record.encode).length := by
        rw [place, Place.next, List.length_append, Record.length_encode, Nat.add_assoc]
      rw [split, total]
      rw [← regroup, List.length_append, Record.length_encode, Nat.add_assoc] at tiles
      refine ⟨_ :: places, .record ?_ ?_, .cons ?_ (by rwa [regroup])⟩
      · rw [next, List.length_append, Record.length_encode]
        omega
      · rw [next, List.length_append, Record.length_encode]
        exact tiles
      · rw [place]
        exact ⟨rfl, rfl, value_encode before record _⟩

end TypeLengthValue
