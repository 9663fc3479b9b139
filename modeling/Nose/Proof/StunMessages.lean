import Nose.Proof.StunParsing

/-
This file shows which bytes the reader accepts, and that the parts in which the bytes come do not matter.
-/

namespace Nose

open CMemory PaddedRecords

/-- A message is a header and the attributes that its length counts. -/
structure StunMessage where
  msgType : UInt16
  transid : StunTransactionId
  attributes : List PaddedRecord
  leading : msgType &&& 0xc000 = 0
  short : (encodeAll attributes).length ≤ maxStunMessageSize
  small : ∀ record ∈ attributes, record.value.length ≤ maxStunAttributeSize
  few : attributes.length ≤ maxNumAttributes

namespace StunMessage

def header (message : StunMessage) : StunHeader :=
  ⟨message.msgType, UInt16.ofNat (encodeAll message.attributes).length, message.transid⟩

def encode (message : StunMessage) : List UInt8 := message.header.encode ++ encodeAll message.attributes

/-- The reader takes the format of the message. -/
def Allowed (allowLegacy : Bool) (message : StunMessage) : Prop :=
  allowLegacy = true ∨ message.header.legacy = false

/-- The last attribute of a type hides the ones before it. -/
def lookup (message : StunMessage) (type : UInt16) : Option PaddedRecord :=
  ShadowTable.lookup (message.attributes.map fun record => (record.type, record)).reverse type

theorem length_encode (message : StunMessage) : message.encode.length = 20 + (encodeAll message.attributes).length := by
  rw [encode, List.length_append, StunHeader.length_encode]

@[simp] theorem toNat_msgLength (message : StunMessage) :
    message.header.msgLength.toNat = (encodeAll message.attributes).length := by
  have short : _ ≤ 800 := message.short
  rw [header, UInt16.toNat_ofNat']
  exact Nat.mod_eq_of_lt (by omega)

@[simp] theorem read_encode (message : StunMessage) : StunHeader.read message.encode = message.header :=
  StunHeader.read_encode _ _

theorem drop_encode (message : StunMessage) : message.encode.drop 20 = encodeAll message.attributes := by
  rw [encode, ← message.header.length_encode, List.drop_left]

theorem valid {allowLegacy : Bool} {message : StunMessage} (allowed : message.Allowed allowLegacy) :
    message.header.Valid allowLegacy where
  leading := message.leading
  aligned := by
    apply UInt16.toNat_inj.mp
    rw [UInt16.toNat_mod, toNat_msgLength]
    exact length_encodeAll_mod _
  format := allowed
  short := by
    rw [toNat_msgLength]
    exact message.short

/-- Two messages with the same bytes are the same. -/
theorem encode_injective : Function.Injective encode := by
  intro first second same
  have headers := congrArg StunHeader.read same
  have bodies := congrArg (List.drop 20) same
  rw [read_encode, read_encode] at headers
  rw [drop_encode, drop_encode] at bodies
  have attributes := encodeAll_injective bodies
  cases first with
  | mk msgType transid records leading short small few =>
      cases second with
      | mk msgType' transid' records' leading' short' small' few' =>
          dsimp only at attributes
          subst attributes
          rw [header, header] at headers
          obtain ⟨rfl, -, rfl⟩ := StunHeader.mk.inj headers
          rfl

/-- A valid header and records that its length counts make a message. -/
theorem exists_message {allowLegacy : Bool} {data : List UInt8} {records : List PaddedRecord} (enough : 20 ≤ data.length)
    (valid : (StunHeader.read data).Valid allowLegacy)
    (counted : data.length = (StunHeader.read data).msgLength.toNat + 20) (body : data.drop 20 = encodeAll records)
    (small : ∀ record ∈ records, record.value.length ≤ maxStunAttributeSize)
    (few : records.length ≤ maxNumAttributes) :
    ∃ message : StunMessage, message.encode = data ∧ message.Allowed allowLegacy ∧ message.attributes = records ∧
      message.header = StunHeader.read data := by
  have total := congrArg List.length body
  rw [List.length_drop] at total
  have size : (encodeAll records).length = (StunHeader.read data).msgLength.toNat := by omega
  have same : (⟨(StunHeader.read data).msgType, UInt16.ofNat (encodeAll records).length,
      (StunHeader.read data).transid⟩ : StunHeader) = StunHeader.read data := by
    rw [size, UInt16.ofNat_toNat]
  refine ⟨⟨(StunHeader.read data).msgType, (StunHeader.read data).transid, records, valid.leading,
    by rw [size]; exact valid.short, small, few⟩, ?_, ?_, rfl, same⟩
  · rw [encode, header, same, StunHeader.encode_read enough, ← body, List.take_append_drop]
  · rw [Allowed, header, same]
    exact valid.format

end StunMessage

namespace CDataStream

variable {stream : CDataStream}

/-- A write replaces the bytes at the position. It stays in the allocation when there is room. -/
theorem write_eq (grows : stream.fNoGrow = false) {bytes : List UInt8} (some_bytes : bytes ≠ []) :
    (stream.write bytes).1.failed = false ∧
      (stream.write bytes).2.data =
        stream.data.take stream.pos ++ bytes ++ stream.data.drop (bytes.length + stream.pos) ∧
      (stream.write bytes).2.pos = bytes.length + stream.pos ∧ (stream.write bytes).2.fNoGrow = false ∧
      (bytes.length + stream.pos ≤ stream.allocated →
        (stream.write bytes).2.allocated = stream.allocated ∧ (stream.write bytes).2.replaced = stream.replaced) := by
  have grown : (stream.grow (bytes.length + stream.pos)).1 = .sOk ∧
      (stream.grow (bytes.length + stream.pos)).2.fNoGrow = false := by
    rw [grow]
    split
    · exact ⟨rfl, grows⟩
    · rw [if_neg (by simp [grows])]
      exact ⟨rfl, grows⟩
  rw [write, if_neg some_bytes]
  dsimp only
  rw [grown.1, if_neg (by simp)]
  refine ⟨?_, rfl, rfl, grown.2, fun room => ?_⟩
  · split <;> rfl
  · have same : stream.grow (bytes.length + stream.pos) = (.sOk, stream) := by rw [grow, if_pos room]
    rw [same]
    exact ⟨rfl, rfl⟩

/-- A stream that grows takes every write at its end. -/
theorem write_end (grows : stream.fNoGrow = false) {bytes : List UInt8} (some_bytes : bytes ≠ []) :
    ∃ next, ((stream.atPos stream.data.length).write bytes).2 = next ∧
      ((stream.atPos stream.data.length).write bytes).1.failed = false ∧ next.data = stream.data ++ bytes ∧
      next.fNoGrow = false := by
  obtain ⟨success, data, -, grows', -⟩ := @write_eq (stream.atPos stream.data.length) grows bytes some_bytes
  refine ⟨_, rfl, success, ?_, grows'⟩
  rw [data, data_atPos, pos_atPos, List.take_length, List.drop_eq_nil_of_le (by omega), List.append_nil]

end CDataStream

namespace CStunMessageReader

variable {start reader : CStunMessageReader} {host : ByteOrder} {data : List UInt8}

/-- The reader is reset, and its stream is empty and can grow. -/
structure Fresh (reader : CStunMessageReader) : Prop where
  state : reader.state = .headerNotRead
  empty : reader.stream.data = []
  grows : reader.stream.fNoGrow = false
  table : reader.Holds []
  counts : reader.Counts []

theorem fresh_reset {table : FastHashBase UInt16 StunAttribute} (capacity : table.fsize = maxNumAttributes)
    (width : 0 < table.tsize) : (reset table).Fresh where
  state := rfl
  empty := rfl
  grows := rfl
  table := ⟨capacity, [], List.range table.fsize,
    FastHashBase.represents_reset attributeHash (by rw [capacity]; decide) width, rfl⟩
  counts := ⟨rfl, .inl ⟨rfl, by simp⟩, .inl ⟨rfl, by simp⟩⟩

theorem fresh_create (nodelist : Nat → UInt16 × StunAttribute) (itemnodelist : Nat → ItemNode)
    (lookuptable : Nat → Option Nat) (indexlist : Nat → Nat) :
    (create nodelist itemnodelist lookuptable indexlist).Fresh := fresh_reset rfl (show 0 < attributeTableWidth by decide)

/-- A reset reader can be given a buffer. -/
theorem Fresh.attach (fresh : reader.Fresh) (buf : CBuffer) : (reader.placed (.attach buf true) reader.state).Fresh where
  state := fresh.state
  empty := rfl
  grows := rfl
  table := fresh.table
  counts := ⟨fresh.counts.count, fresh.counts.fingerprint, fresh.counts.integrity⟩

/-- The reader of a message. -/
def withMessage (reader : CStunMessageReader) (message : StunMessage) : CStunMessageReader :=
  withAttributes (reader.withHeader message.header) (attributesFrom 20 message.attributes)

/-- The bytes can go on to a message whose header is there. -/
def Open (start : CStunMessageReader) (data : List UInt8) : Prop :=
  (StunHeader.read data).Valid start.fAllowLegacyFormat ∧
    data.length < (StunHeader.read data).msgLength.toNat + 20

/-- The reader has got the bytes since it was fresh. What it knows depends on them only. -/
def Fed (start : CStunMessageReader) (data : List UInt8) (reader : CStunMessageReader) : Prop :=
  match reader.state with
  | .headerNotRead =>
      data.length < 20 ∧ reader.stream.data = data ∧ reader.stream.fNoGrow = false ∧
        reader = start.placed reader.stream .headerNotRead
  | .headerValidated =>
      20 ≤ data.length ∧ start.Open data ∧ reader.stream.data = data ∧ reader.stream.fNoGrow = false ∧
        reader = (start.withHeader (.read data)).placed reader.stream .headerValidated
  | .bodyValidated =>
      ∃ message : StunMessage, message.encode = data ∧ message.Allowed start.fAllowLegacyFormat ∧
        reader.stream.data = data ∧ reader.stream.fNoGrow = false ∧
        reader = (start.withMessage message).placed reader.stream .bodyValidated
  | .parseError =>
      20 ≤ data.length ∧ ¬start.Open data ∧
        ¬∃ message : StunMessage, message.encode = data ∧ message.Allowed start.fAllowLegacyFormat

theorem Fresh.fed (fresh : start.Fresh) : start.Fed [] start := by
  unfold Fed
  split
  · rename_i state
    exact ⟨by decide, fresh.empty, fresh.grows, by rw [← state]; rfl⟩
  all_goals
    rename_i state
    rw [fresh.state] at state
    cases state

theorem fed_parseError (enough : 20 ≤ data.length) (closed : ¬start.Open data)
    (none_fits : ¬∃ message : StunMessage, message.encode = data ∧ message.Allowed start.fAllowLegacyFormat)
    (error : reader.state = .parseError) : start.Fed data reader := by
  rw [Fed, error]
  exact ⟨enough, closed, none_fits⟩

/-- A message has a valid header that counts its bytes. -/
theorem message_counted {message : StunMessage} (same : message.encode = data)
    (allowed : message.Allowed start.fAllowLegacyFormat) :
    (StunHeader.read data).Valid start.fAllowLegacyFormat ∧
      data.length = (StunHeader.read data).msgLength.toNat + 20 := by
  rw [← same, StunMessage.read_encode, StunMessage.toNat_msgLength, StunMessage.length_encode, Nat.add_comm]
  exact ⟨StunMessage.valid allowed, rfl⟩

/-- The body is read when the bytes that the header counts are there. -/
theorem fed_checkBody (host : ByteOrder) (table : start.Holds []) (enough : 20 ≤ data.length)
    (valid : (StunHeader.read data).Valid start.fAllowLegacyFormat) (same : reader.stream.data = data)
    (grows : reader.stream.fNoGrow = false)
    (known : reader = (start.withHeader (.read data)).placed reader.stream .headerValidated) :
    start.Fed data (checkExcess (checkBody host reader)) := by
  have state : reader.state = .headerValidated := by rw [known]; rfl
  have counts : reader.msgLength = (StunHeader.read data).msgLength := by rw [known]; rfl
  have map : reader.mapAttributes = start.mapAttributes := by rw [known]; rfl
  have holds : reader.Holds [] := by rw [Holds, map]; exact table
  have short : (StunHeader.read data).msgLength.toNat ≤ 800 := valid.short
  by_cases early : data.length < (StunHeader.read data).msgLength.toNat + 20
  · have waits : checkBody host reader = reader := by
      rw [checkBody, counts, same, if_neg]
      exact fun late => absurd early (Nat.not_lt.mpr late.2)
    rw [waits, checkExcess, if_neg (by rw [state]; simp), Fed, state]
    exact ⟨enough, ⟨valid, early⟩, same, grows, known⟩
  have closed : ¬start.Open data := fun still => early still.2
  rw [checkBody, counts, same, stunHeaderSize, if_pos ⟨state, Nat.not_lt.mp early⟩]
  by_cases excess : data.length = (StunHeader.read data).msgLength.toNat + 20
  swap
  · rw [if_neg excess, checkExcess, if_neg (by simp)]
    refine fed_parseError enough closed (fun parsed => ?_) rfl
    obtain ⟨message, is_data, allowed⟩ := parsed
    exact excess (message_counted is_data allowed).2
  rw [if_pos excess]
  have bound : reader.stream.data.length < 2 ^ 16 := by rw [same]; omega
  cases success : (reader.readBody host).1.failed with
  | true =>
      dsimp only
      rw [if_pos success, checkExcess, if_neg (by simp)]
      refine fed_parseError enough closed (fun parsed => ?_) rfl
      obtain ⟨message, is_data, allowed⟩ := parsed
      have body := readBody_records host holds (by rw [same]; exact enough) bound
        (by rw [same, ← is_data]; exact message.drop_encode) message.small message.few
      rw [body] at success
      simp at success
  | false =>
      obtain ⟨records, body, small, few⟩ := readBody_sound host holds (by rw [same]; exact enough) bound success
      have read := readBody_records host holds (by rw [same]; exact enough) bound body small few
      rw [same] at body
      obtain ⟨message, is_data, allowed, attributes, header⟩ :=
        StunMessage.exists_message enough valid excess body small few
      have result : { (reader.readBody host).2 with
          state := if (reader.readBody host).1.failed then .parseError else .bodyValidated } =
            (start.withMessage message).placed (reader.stream.atPos data.length) .bodyValidated := by
        have known' := congrArg (fun r => withAttributes r (attributesFrom 20 records)) known
        rw [withAttributes_placed] at known'
        rw [read, known', same, withMessage, attributes, header]
        rfl
      have counted : (start.withMessage message).msgLength = message.header.msgLength :=
        (header_withAttributes _ _).2.2.2.2.2
      dsimp only
      rw [result, checkExcess, if_neg]
      · rw [Fed, state_placed]
        exact ⟨message, is_data, allowed, same, grows, rfl⟩
      · rintro ⟨-, excess'⟩
        change (start.withMessage message).msgLength.toNat + 20 < reader.stream.data.length at excess'
        rw [counted, header, same] at excess'
        omega

/-- A header without a body is a message of its own. -/
theorem fed_emptyBody (enough : 20 ≤ data.length) (valid : (StunHeader.read data).Valid start.fAllowLegacyFormat)
    (same : reader.stream.data = data) (grows : reader.stream.fNoGrow = false)
    (nothing : (StunHeader.read data).msgLength = 0)
    (known : reader = (start.withHeader (.read data)).placed reader.stream .bodyValidated) :
    start.Fed data (checkExcess reader) := by
  have state : reader.state = .bodyValidated := by rw [known]; rfl
  have counts : reader.msgLength = 0 := by rw [known, ← nothing]; rfl
  have zero : (StunHeader.read data).msgLength.toNat = 0 := by rw [nothing]; rfl
  rw [checkExcess, counts, same]
  by_cases excess : 20 < data.length
  · rw [if_pos ⟨state, by rw [stunHeaderSize]; simpa using excess⟩]
    refine fed_parseError enough (fun still => ?_) (fun parsed => ?_) rfl
    · have early := still.2
      omega
    · obtain ⟨message, is_data, allowed⟩ := parsed
      have counted := (message_counted is_data allowed).2
      omega
  · rw [if_neg fun late => excess (by simpa [stunHeaderSize] using late.2), Fed, state]
    obtain ⟨message, is_data, allowed, attributes, header⟩ := StunMessage.exists_message enough valid (by omega)
      (show data.drop 20 = PaddedRecords.encodeAll [] by rw [List.drop_eq_nil_of_le (by omega)]; rfl) (by simp)
      (by simp)
    refine ⟨message, is_data, allowed, same, grows, ?_⟩
    rw [withMessage, attributes, header]
    exact known

/-- The bytes are appended to the stream before they are looked at. -/
theorem addBytes_eq (host : ByteOrder) (going : reader.state ≠ .parseError) (grows : reader.stream.fNoGrow = false)
    {bytes : List UInt8} (some_bytes : bytes ≠ []) :
    ∃ stream : CDataStream, stream.data = reader.stream.data ++ bytes ∧ stream.fNoGrow = false ∧
      reader.addBytes host bytes =
        ((checkExcess (checkBody host (checkHeader host (reader.placed stream reader.state)))).state,
          checkExcess (checkBody host (checkHeader host (reader.placed stream reader.state)))) := by
  obtain ⟨stream, written, success, data, grows'⟩ := CDataStream.write_end grows some_bytes
  refine ⟨stream, data, grows', ?_⟩
  rw [addBytes, if_neg going, if_neg some_bytes, CDataStream.seekDirect_ok le_rfl]
  dsimp only
  rw [success, if_neg (by simp), written]
  rfl

/-- A part of the bytes takes the reader from what it knows to what it knows then. -/
theorem addBytes_fed (host : ByteOrder) (fresh : start.Fresh) (fed : start.Fed data reader) {bytes : List UInt8}
    (some_bytes : bytes ≠ []) :
    start.Fed (data ++ bytes) (reader.addBytes host bytes).2 ∧
      (reader.addBytes host bytes).1 = (reader.addBytes host bytes).2.state := by
  have longer := List.length_pos_iff.mpr some_bytes
  have total : (data ++ bytes).length = data.length + bytes.length := List.length_append
  unfold Fed at fed
  split at fed
  · rename_i state
    obtain ⟨short, same, grows, known⟩ := fed
    obtain ⟨stream, now, grows', added⟩ := addBytes_eq host (by rw [state]; decide) grows some_bytes
    rw [known, placed_placed, state_placed] at added
    rw [same] at now
    rw [known, added]
    refine ⟨?_, rfl⟩
    by_cases enough : 20 ≤ (data ++ bytes).length
    swap
    · have waits : checkHeader host (start.placed stream .headerNotRead) = start.placed stream .headerNotRead := by
        rw [checkHeader, if_neg]
        rintro ⟨-, enough'⟩
        rw [stream_placed, now] at enough'
        exact enough enough'
      rw [waits, checkBody, if_neg (by simp), checkExcess, if_neg (by simp), Fed, state_placed]
      exact ⟨by omega, now, grows', rfl⟩
    rw [checkHeader, if_pos ⟨rfl, by rw [stream_placed, now]; exact enough⟩]
    rcases @readHeader_eq (start.placed stream .headerNotRead) host (by rw [stream_placed, now]; exact enough)
      with ⟨valid, header⟩ | ⟨invalid, failed⟩
    · rw [stream_placed, now] at valid header
      rw [header]
      dsimp only
      rw [if_neg (by simp)]
      by_cases nothing : ((start.placed stream .headerNotRead).withHeader (.read (data ++ bytes))).msgLength = 0
      · rw [if_pos nothing, checkBody, if_neg (by simp)]
        exact fed_emptyBody enough valid now grows' nothing rfl
      · rw [if_neg nothing]
        exact fed_checkBody host fresh.table enough valid now grows' rfl
    · rw [stream_placed, now] at invalid
      dsimp only
      rw [if_pos failed, checkBody, if_neg (by simp), checkExcess, if_neg (by simp)]
      exact fed_parseError enough (fun still => invalid still.1)
        (fun ⟨message, is_data, allowed⟩ => invalid (message_counted is_data allowed).1) rfl
  · rename_i state
    obtain ⟨enough, still, same, grows, known⟩ := fed
    obtain ⟨stream, now, grows', added⟩ := addBytes_eq host (by rw [state]; decide) grows some_bytes
    rw [known, placed_placed, state_placed] at added
    rw [same] at now
    have header := StunHeader.read_append enough bytes
    rw [known, added, checkHeader, if_neg (by simp)]
    rw [← header]
    refine ⟨fed_checkBody host fresh.table (by omega) (by rw [header]; exact still.1) now grows' rfl, rfl⟩
  · rename_i state
    obtain ⟨message, is_data, allowed, same, grows, known⟩ := fed
    obtain ⟨stream, now, grows', added⟩ := addBytes_eq host (by rw [state]; decide) grows some_bytes
    rw [known, placed_placed, state_placed] at added
    rw [same] at now
    obtain ⟨valid, counted⟩ := message_counted is_data allowed
    have header := StunHeader.read_append (show 20 ≤ data.length by omega) bytes
    have excess : (start.withMessage message).msgLength.toNat + 20 < (data ++ bytes).length := by
      rw [show (start.withMessage message).msgLength = message.header.msgLength from
        (header_withAttributes _ _).2.2.2.2.2, ← message.read_encode, is_data]
      omega
    rw [known, added, checkHeader, if_neg (by simp), checkBody, if_neg (by simp), checkExcess,
      if_pos ⟨rfl, by rw [stream_placed, now]; exact excess⟩]
    refine ⟨fed_parseError (by omega) (fun still => ?_) (fun ⟨other, is_other, allowed'⟩ => ?_) rfl, rfl⟩
    · have early := still.2
      rw [header] at early
      omega
    · have counted' := (message_counted is_other allowed').2
      rw [header] at counted'
      omega
  · rename_i state
    obtain ⟨enough, closed, none_fits⟩ := fed
    rw [addBytes, if_pos state]
    have header := StunHeader.read_append enough bytes
    refine ⟨fed_parseError (by omega) (fun still => closed ?_) (fun ⟨message, is_data, allowed⟩ => closed ?_) state,
      state.symm⟩
    · obtain ⟨valid, early⟩ := still
      rw [header] at valid early
      exact ⟨valid, by omega⟩
    · obtain ⟨valid, counted⟩ := message_counted is_data allowed
      rw [header] at valid counted
      exact ⟨valid, by omega⟩

/-- A reader gets its bytes in parts. -/
def feed (host : ByteOrder) (reader : CStunMessageReader) (parts : List (List UInt8)) : CStunMessageReader :=
  parts.foldl (fun reader part => (reader.addBytes host part).2) reader

/-- The induction is on the parts. An empty part changes nothing. -/
theorem feed_fed (host : ByteOrder) (fresh : start.Fresh) (fed : start.Fed data reader) (parts : List (List UInt8)) :
    start.Fed (data ++ parts.flatten) (reader.feed host parts) := by
  induction parts generalizing reader data with
  | nil => simpa [feed] using fed
  | cons part rest ih =>
      rw [feed, List.foldl_cons, ← feed, List.flatten_cons, ← List.append_assoc]
      by_cases nothing : part = []
      · have same : (reader.addBytes host part).2 = reader := by
          rw [addBytes, nothing]
          split
          · rfl
          · rw [if_pos rfl]
        rw [same, nothing, List.append_nil]
        exact ih fed
      · exact ih (addBytes_fed host fresh fed nothing).1

open Classical in
/-- This is the state of a reader that has got the bytes. -/
noncomputable def stateOf (start : CStunMessageReader) (data : List UInt8) : ReaderParseState :=
  if data.length < 20 then .headerNotRead
  else if start.Open data then .headerValidated
  else if ∃ message : StunMessage, message.encode = data ∧ message.Allowed start.fAllowLegacyFormat then .bodyValidated
  else .parseError

theorem fed_state (fed : start.Fed data reader) : reader.state = start.stateOf data := by
  unfold Fed at fed
  split at fed <;> rename_i state <;> rw [state, stateOf]
  · rw [if_pos fed.1]
  · rw [if_neg (Nat.not_lt.mpr fed.1), if_pos fed.2.1]
  · obtain ⟨message, is_data, allowed, -⟩ := fed
    have counted := (message_counted is_data allowed).2
    rw [if_neg (by omega), if_neg, if_pos ⟨message, is_data, allowed⟩]
    intro still
    have early := still.2
    omega
  · rw [if_neg (Nat.not_lt.mpr fed.1), if_neg fed.2.1, if_neg fed.2.2]

/-- The bytes determine what the reader knows. -/
theorem fed_unique {other : CStunMessageReader} (fed : start.Fed data reader) (fed' : start.Fed data other) :
    reader.state = other.state ∧
      (reader.state ≠ .parseError →
        reader.stream.data = other.stream.data ∧ reader = other.placed reader.stream other.state) := by
  have same := (fed_state fed).trans (fed_state fed').symm
  refine ⟨same, fun going => ?_⟩
  unfold Fed at fed fed'
  rw [← same] at fed' ⊢
  split at fed <;> rename_i state <;> rw [state] at fed' ⊢
  · obtain ⟨-, now, -, known⟩ := fed
    obtain ⟨-, now', -, known'⟩ := fed'
    exact ⟨now.trans now'.symm, by rw [known']; exact known⟩
  · obtain ⟨-, -, now, -, known⟩ := fed
    obtain ⟨-, -, now', -, known'⟩ := fed'
    exact ⟨now.trans now'.symm, by rw [known']; exact known⟩
  · obtain ⟨message, is_data, -, now, -, known⟩ := fed
    obtain ⟨message', is_data', -, now', -, known'⟩ := fed'
    obtain rfl := StunMessage.encode_injective (is_data.trans is_data'.symm)
    exact ⟨now.trans now'.symm, by rw [known']; exact known⟩
  · exact absurd state going

/-- The reader does not see in which parts the bytes come: it is in the same state and, without an error, knows the
same. Only the room in its stream can differ. -/
theorem feed_parts (host : ByteOrder) (fresh : start.Fresh) {parts parts' : List (List UInt8)}
    (same : parts.flatten = parts'.flatten) :
    (start.feed host parts).state = (start.feed host parts').state ∧
      ((start.feed host parts).state ≠ .parseError →
        (start.feed host parts).stream.data = (start.feed host parts').stream.data ∧
          start.feed host parts =
            (start.feed host parts').placed (start.feed host parts).stream (start.feed host parts').state) := by
  have fed := feed_fed host fresh fresh.fed parts
  have fed' := feed_fed host fresh fresh.fed parts'
  rw [← same] at fed'
  exact fed_unique fed fed'

/-- This is a binding request with a user and a response port. -/
def sampleRequest : StunMessage where
  msgType := 1
  transid := Vector.ofFn fun i => [0x21, 0x12, 0xa4, 0x42].getD i (UInt8.ofNat i)
  attributes := [.zeros ⟨stunAttributeUsername, [0x75], by decide⟩,
    .zeros ⟨stunAttributeResponsePort, [0x11, 0x5c], by decide⟩]
  leading := rfl
  short := by decide
  small := by decide
  few := by decide

/-- The request comes in two parts or byte by byte. -/
theorem feed_parts_sample :
    let start := create (fun _ => (0, ⟨0, 0, 0⟩)) (fun _ => ⟨0, none⟩) (fun _ => none) fun _ => 0
    let parts := [sampleRequest.encode.take 22, sampleRequest.encode.drop 22]
    let parts' := sampleRequest.encode.map fun byte => [byte]
    (start.feed .little parts).state = .bodyValidated ∧
      (start.feed .little parts).state = (start.feed .little parts').state ∧
      (start.feed .little parts).stream.data = (start.feed .little parts').stream.data ∧
        start.feed .little parts =
          (start.feed .little parts').placed (start.feed .little parts).stream (start.feed .little parts').state := by
  intro start parts parts'
  obtain ⟨same, known⟩ := feed_parts .little (fresh_create (fun _ => (0, ⟨0, 0, 0⟩)) (fun _ => ⟨0, none⟩)
    (fun _ => none) fun _ => 0) (show parts.flatten = parts'.flatten by decide +kernel)
  have state : (start.feed .little parts).state = .bodyValidated := by decide +kernel
  exact ⟨state, same, known (by rw [state]; decide)⟩

section Lookups

open ShadowTable

/-- The attribute leads to the value of the record. -/
structure Located (data : List UInt8) (attrib : StunAttribute) (record : PaddedRecord) : Prop where
  type : attrib.attributeType = record.type
  size : attrib.size.toNat = record.value.length
  value : ∃ rest, data.drop attrib.offset.toNat = record.value ++ rest
  inside : attrib.offset.toNat + attrib.size.toNat ≤ data.length

theorem located_attributesFrom {offset : Nat} {records : List PaddedRecord}
    (here : data.drop offset = encodeAll records) (inside : offset ≤ data.length) (bound : data.length < 2 ^ 16) :
    List.Forall₂ (Located data) (attributesFrom offset records) records := by
  induction records generalizing offset with
  | nil => exact .nil
  | cons record rest ih =>
      rw [encodeAll_cons] at here
      have total := congrArg List.length here
      rw [List.length_drop, List.length_append, record.length_encode] at total
      have size : (UInt16.ofNat record.value.length).toNat = record.value.length := by
        rw [UInt16.toNat_ofNat']
        exact Nat.mod_eq_of_lt record.short
      have place : (UInt16.ofNat (offset + 4)).toNat = offset + 4 := by
        rw [UInt16.toNat_ofNat']
        exact Nat.mod_eq_of_lt (by omega)
      rw [attributesFrom]
      refine .cons ⟨rfl, size, ⟨record.fill ++ encodeAll rest, ?_⟩, ?_⟩ (ih ?_ ?_)
      · dsimp only
        rw [place, ← List.drop_drop, here, PaddedRecords.drop_encode]
      · dsimp only
        rw [place, size]
        omega
      · rw [← List.drop_drop, here, List.drop_left]
      · rw [record.length_encode]
        omega

theorem lookup_eq {entries : Entries UInt16 StunAttribute} (holds : reader.Holds entries) (type : UInt16) :
    reader.lookup type = ShadowTable.lookup entries type := by
  obtain ⟨found, looked, same⟩ := holds.lookup type
  rw [CStunMessageReader.lookup, looked, ← same]
  rfl

/-- The table of a reader that has the records. -/
def attributeEntries (records : List PaddedRecord) : Entries UInt16 StunAttribute :=
  ((attributesFrom 20 records).map fun attrib => (attrib.attributeType, attrib)).reverse

/-- The reader of a message finds the attributes of the message. -/
theorem lookup_withMessage (table : start.Holds []) (message : StunMessage) (stream : CDataStream)
    (state : ReaderParseState) (type : UInt16) :
    ((start.withMessage message).placed stream state).lookup type =
      ShadowTable.lookup (attributeEntries message.attributes) type := by
  have holds : (start.withMessage message).Holds _ :=
    withAttributes_holds (show (start.withHeader message.header).Holds [] from table) (by simpa using message.few)
  rw [List.append_nil] at holds
  exact @lookup_eq ((start.withMessage message).placed stream state) _ holds type

theorem lookup_located (message : StunMessage) (type : UInt16) :
    Option.Rel (Located message.encode) (ShadowTable.lookup (attributeEntries message.attributes) type)
      (message.lookup type) := by
  have located : List.Forall₂ (Located message.encode) (attributesFrom 20 message.attributes) message.attributes :=
    located_attributesFrom message.drop_encode (by rw [message.length_encode]; omega)
    (by
      have short : _ ≤ 800 := message.short
      rw [message.length_encode]
      omega)
  rw [StunMessage.lookup, attributeEntries, ← List.map_reverse, ← List.map_reverse]
  apply ShadowTable.lookup_rel
  rw [List.forall₂_map_left_iff, List.forall₂_map_right_iff]
  exact (List.forall₂_reverse_iff.mpr located).imp fun _ _ facts => ⟨facts.type, facts⟩

theorem valueOf_located {attrib : StunAttribute} {record : PaddedRecord}
    (located : Located reader.stream.data attrib record) :
    reader.valueOf attrib = record.value := by
  obtain ⟨rest, value⟩ := located.value
  rw [valueOf, bytesAt, value, located.size, List.take_left]

end Lookups

/-- A reader that has got a message has validated its body. -/
theorem fed_message {message : StunMessage} (fed : start.Fed message.encode reader)
    (allowed : message.Allowed start.fAllowLegacyFormat) :
    reader.state = .bodyValidated ∧ reader.stream.data = message.encode ∧
      reader = (start.withMessage message).placed reader.stream .bodyValidated := by
  have counted := (message_counted rfl allowed).2
  have state : reader.state = .bodyValidated := by
    rw [fed_state fed, stateOf, if_neg (by omega), if_neg fun still => by have early := still.2; omega,
      if_pos ⟨message, rfl, allowed⟩]
  rw [Fed, state] at fed
  obtain ⟨other, same, -, now, -, known⟩ := fed
  obtain rfl := StunMessage.encode_injective same
  exact ⟨state, now, known⟩

/-- The reader has the message. -/
structure Reads (message : StunMessage) (reader : CStunMessageReader) : Prop where
  state : reader.state = .bodyValidated
  data : reader.stream.data = message.encode
  transactionid : reader.transactionid = message.transid
  msgClass : reader.msgClass = classOf message.msgType
  msgType : reader.msgTypeNormalized = normalizedType message.msgType
  legacy : reader.fMessageIsLegacyFormat = message.header.legacy
  entries : ∀ type, reader.lookup type = ShadowTable.lookup (attributeEntries message.attributes) type
  counts : reader.Counts (message.attributes.map fun record => record.type)

theorem Fresh.reads (fresh : start.Fresh) {message : StunMessage} (fed : start.Fed message.encode reader)
    (allowed : message.Allowed start.fAllowLegacyFormat) : Reads message reader := by
  obtain ⟨state, now, known⟩ := fed_message fed allowed
  obtain ⟨-, legacy, transid, type, cls, -⟩ :=
    header_withAttributes (start.withHeader message.header) (attributesFrom 20 message.attributes)
  have counts : (start.withMessage message).Counts _ :=
    @withAttributes_counts (start.withHeader message.header) [] fresh.table
      ⟨fresh.counts.count, fresh.counts.fingerprint, fresh.counts.integrity⟩ _ (by simpa using message.few)
  rw [types_attributesFrom] at counts
  rw [known]
  exact ⟨rfl, now, transid, cls, type, legacy, lookup_withMessage fresh.table message reader.stream .bodyValidated,
    counts.count, counts.fingerprint, counts.integrity⟩

theorem Reads.lookup {message : StunMessage} (reads : Reads message reader) (type : UInt16) :
    Option.Rel (Located reader.stream.data) (reader.lookup type) (message.lookup type) := by
  rw [reads.entries, reads.data]
  exact lookup_located message type

/-- A reader that has the message finds in it the values of the attributes. -/
theorem Reads.value {message : StunMessage} (reads : Reads message reader) (type : UInt16) :
    (reader.lookup type).map reader.valueOf = (message.lookup type).map fun record => record.value := by
  have found := reads.lookup type
  generalize reader.lookup type = attrib at found ⊢
  generalize message.lookup type = record at found ⊢
  cases found with
  | none => rfl
  | some located =>
      rw [Option.map_some, Option.map_some, valueOf_located located]

/-- A reader that gets a message in parts has the message. -/
theorem feed_reads (host : ByteOrder) (fresh : start.Fresh) {message : StunMessage} {parts : List (List UInt8)}
    (same : message.encode = parts.flatten) (allowed : message.Allowed start.fAllowLegacyFormat) :
    Reads message (start.feed host parts) := by
  have fed := feed_fed host fresh fresh.fed parts
  rw [List.nil_append, ← same] at fed
  exact fresh.reads fed allowed

theorem feed_bodyValidated_iff (host : ByteOrder) (fresh : start.Fresh) (parts : List (List UInt8)) :
    (start.feed host parts).state = .bodyValidated ↔
      ∃ message : StunMessage, message.encode = parts.flatten ∧ message.Allowed start.fAllowLegacyFormat := by
  refine ⟨fun state => ?_, fun ⟨message, same, allowed⟩ => (feed_reads host fresh same allowed).state⟩
  have fed := feed_fed host fresh fresh.fed parts
  rw [List.nil_append, Fed, state] at fed
  obtain ⟨message, same, allowed, -⟩ := fed
  exact ⟨message, same, allowed⟩

/-- The reader ends with a valid body exactly when its bytes are a message, and then it gives the fields of the message
and the value of the last attribute of each type. -/
theorem feed_accepts (host : ByteOrder) (fresh : start.Fresh) (parts : List (List UInt8)) :
    ((start.feed host parts).state = .bodyValidated ↔
      ∃ message : StunMessage, message.encode = parts.flatten ∧ message.Allowed start.fAllowLegacyFormat) ∧
    ∀ message : StunMessage, message.encode = parts.flatten → message.Allowed start.fAllowLegacyFormat →
      (start.feed host parts).transactionid = message.transid ∧
        (start.feed host parts).msgClass = classOf message.msgType ∧
        (start.feed host parts).msgTypeNormalized = normalizedType message.msgType ∧
        (start.feed host parts).fMessageIsLegacyFormat = message.header.legacy ∧
        ∀ type, ((start.feed host parts).lookup type).map (start.feed host parts).valueOf =
          (message.lookup type).map fun record => record.value := by
  refine ⟨feed_bodyValidated_iff host fresh parts, fun message same allowed => ?_⟩
  have reads := feed_reads host fresh same allowed
  exact ⟨reads.transactionid, reads.msgClass, reads.msgType, reads.legacy, reads.value⟩

theorem feed_accepts_sample :
    let start := create (fun _ => (0, ⟨0, 0, 0⟩)) (fun _ => ⟨0, none⟩) (fun _ => none) fun _ => 0
    let reader := start.feed .big [sampleRequest.encode.take 22, sampleRequest.encode.drop 22]
    reader.state = .bodyValidated ∧ reader.transactionid = sampleRequest.transid ∧ reader.msgClass = .request ∧
      reader.msgTypeNormalized = stunMsgTypeBinding ∧ reader.fMessageIsLegacyFormat = false ∧
      ∀ type, (reader.lookup type).map reader.valueOf = (sampleRequest.lookup type).map fun record => record.value := by
  obtain ⟨iff, fields⟩ := feed_accepts .big (fresh_create (fun _ => (0, ⟨0, 0, 0⟩)) (fun _ => ⟨0, none⟩)
    (fun _ => none) fun _ => 0) [sampleRequest.encode.take 22, sampleRequest.encode.drop 22]
  have same : sampleRequest.encode = [sampleRequest.encode.take 22, sampleRequest.encode.drop 22].flatten := by simp
  exact ⟨iff.mpr ⟨sampleRequest, same, .inl rfl⟩, fields sampleRequest same (.inl rfl)⟩

/-- A reader that has a part of a message asks for more, and for no more than the message has. -/
theorem howManyBytesNeeded_fed {message : StunMessage} (allowed : message.Allowed start.fAllowLegacyFormat)
    (fed : start.Fed data reader) (part : data <+: message.encode) :
    (data = message.encode ∧ reader.state = .bodyValidated ∧ reader.howManyBytesNeeded = 0) ∨
      (data.length < message.encode.length ∧ (reader.state = .headerNotRead ∨ reader.state = .headerValidated) ∧
        0 < reader.howManyBytesNeeded.toNat ∧
        data.length + reader.howManyBytesNeeded.toNat ≤ message.encode.length) := by
  have counted := (message_counted rfl allowed).2
  have valid := (message_counted rfl allowed).1
  have short : (StunHeader.read message.encode).msgLength.toNat ≤ 800 := valid.short
  have fewer := part.length_le
  by_cases whole : data = message.encode
  · subst whole
    left
    have state := (fed_message fed allowed).1
    exact ⟨rfl, state, by rw [howManyBytesNeeded, state]⟩
  right
  have less : data.length < message.encode.length := by
    refine lt_of_le_of_ne fewer fun same => whole (part.eq_of_length same)
  refine ⟨less, ?_⟩
  have state := fed_state fed
  by_cases early : data.length < 20
  · rw [stateOf, if_pos early] at state
    rw [Fed, state] at fed
    refine ⟨.inl state, ?_⟩
    rw [howManyBytesNeeded, state]
    dsimp only
    rw [fed.2.1, stunHeaderSize, UInt16.toNat_ofNat', Nat.mod_eq_of_lt (by omega)]
    omega
  · obtain ⟨more, same⟩ := part
    have header : StunHeader.read message.encode = StunHeader.read data := by
      rw [← same, StunHeader.read_append (Nat.not_lt.mp early)]
    rw [header] at counted valid short
    have still : start.Open data := ⟨valid, by omega⟩
    rw [stateOf, if_neg early, if_pos still] at state
    rw [Fed, state] at fed
    obtain ⟨-, -, now, -, known⟩ := fed
    have counts : reader.msgLength = (StunHeader.read data).msgLength := by rw [known]; rfl
    refine ⟨.inr state, ?_⟩
    rw [howManyBytesNeeded, state]
    dsimp only
    rw [now, counts, stunHeaderSize, UInt16.toNat_ofNat', Nat.mod_eq_of_lt (by omega)]
    omega

/-- No part is empty or longer than the reader asks for. -/
def Paced (host : ByteOrder) : CStunMessageReader → List (List UInt8) → Prop
  | _, [] => True
  | reader, part :: rest =>
      part ≠ [] ∧ part.length ≤ reader.howManyBytesNeeded.toNat ∧ Paced host (reader.addBytes host part).2 rest

/-- The induction is on the parts. -/
theorem paced_fed (host : ByteOrder) (fresh : start.Fresh) {message : StunMessage} {parts : List (List UInt8)}
    {later : List UInt8} (allowed : message.Allowed start.fAllowLegacyFormat) (fed : start.Fed data reader)
    (part : data <+: message.encode) (paced : Paced host reader parts)
    (source : data ++ parts.flatten <+: message.encode ++ later) : data ++ parts.flatten <+: message.encode := by
  induction parts generalizing reader data with
  | nil => simpa using part
  | cons first rest ih =>
      obtain ⟨some_bytes, needed, paced⟩ := paced
      rw [List.flatten_cons, ← List.append_assoc] at source ⊢
      have longer := List.length_pos_iff.mpr some_bytes
      have inside : (data ++ first).length ≤ message.encode.length := by
        rw [List.length_append]
        rcases howManyBytesNeeded_fed allowed fed part with ⟨-, -, nothing⟩ | ⟨-, -, -, bound⟩
        · rw [nothing] at needed
          exact absurd needed (by simpa using some_bytes)
        · omega
      have next : data ++ first <+: message.encode :=
        List.prefix_of_prefix_length_le ((List.prefix_append _ _).trans source) (List.prefix_append _ _) inside
      exact ih (addBytes_fed host fresh fed some_bytes).1 next paced source

/-- A reader that never gets more than it asks for stops at the end of the message, whatever follows it. Until then it
waits for more. -/
theorem paced_boundary (host : ByteOrder) (fresh : start.Fresh) {message : StunMessage} {parts : List (List UInt8)}
    {later : List UInt8} (allowed : message.Allowed start.fAllowLegacyFormat) (paced : Paced host start parts)
    (source : parts.flatten <+: message.encode ++ later) :
    parts.flatten <+: message.encode ∧
      ((start.feed host parts).state = .bodyValidated ↔ parts.flatten = message.encode) ∧
      ((start.feed host parts).howManyBytesNeeded = 0 ↔ parts.flatten = message.encode) ∧
      (start.feed host parts).state ≠ .parseError := by
  have part := paced_fed host fresh allowed fresh.fed List.nil_prefix paced (by simpa using source)
  have fed := feed_fed host fresh fresh.fed parts
  rw [List.nil_append] at part fed
  refine ⟨part, ?_⟩
  rcases howManyBytesNeeded_fed allowed fed part with ⟨same, state, nothing⟩ | ⟨less, state, more, -⟩
  · simp [same, state, nothing]
  · have other : parts.flatten ≠ message.encode := fun same => by rw [same] at less; omega
    refine ⟨iff_of_false ?_ other, iff_of_false (fun nothing => ?_) other, ?_⟩
    · rcases state with state | state <;> rw [state] <;> decide
    · rw [nothing] at more
      simp at more
    · rcases state with state | state <;> rw [state] <;> decide

/-- The reader asks for the header, which comes in two parts, and then for the attributes. -/
theorem paced_boundary_sample :
    let start := create (fun _ => (0, ⟨0, 0, 0⟩)) (fun _ => ⟨0, none⟩) (fun _ => none) fun _ => 0
    let parts := [sampleRequest.encode.take 12, (sampleRequest.encode.drop 12).take 8, sampleRequest.encode.drop 20]
    Paced .little start parts ∧ (start.feed .little parts).state = .bodyValidated ∧
      (start.feed .little parts).howManyBytesNeeded = 0 ∧
      (start.feed .little (parts.take 2)).state ≠ .bodyValidated ∧
      (start.feed .little (parts.take 2)).state ≠ .parseError := by
  intro start parts
  have fresh : start.Fresh := fresh_create (fun _ => (0, ⟨0, 0, 0⟩)) (fun _ => ⟨0, none⟩) (fun _ => none) fun _ => 0
  have paced : Paced .little start parts :=
    ⟨by decide +kernel, by decide +kernel, by decide +kernel, by decide +kernel, by decide +kernel, by decide +kernel,
      trivial⟩
  have source : parts.flatten <+: sampleRequest.encode ++ [5, 6] := by decide +kernel
  obtain ⟨-, validated, needed, -⟩ := paced_boundary .little fresh (.inl rfl) paced source
  have whole : parts.flatten = sampleRequest.encode := by decide +kernel
  have paced' : Paced .little start (parts.take 2) := ⟨paced.1, paced.2.1, paced.2.2.1, paced.2.2.2.1, trivial⟩
  have source' : (parts.take 2).flatten <+: sampleRequest.encode ++ [5, 6] := by decide +kernel
  obtain ⟨-, early, -, clean⟩ := paced_boundary .little fresh (.inl rfl) paced' source'
  exact ⟨paced, validated.mpr whole, needed.mpr whole, fun state => absurd (early.mp state) (by decide +kernel), clean⟩

end CStunMessageReader

end Nose
