import Nose.Proof.Tunnel

namespace Nose

open CMemory DottedQuad

/-- A call stays in bounds when it uses only received bytes, copies all of the payload after its text length
and nothing else, and fills no more than a buffer. -/
def Call.InBounds (size len : Nat) : Call → Prop
  | .content offset count => offset + count ≤ size
  | .copied count => count + 2 = len ∧ count + 6 ≤ size
  | .uncompress capacity => capacity ≤ bufferSize
  | .decrypted count => count ≤ bufferSize
  | _ => True

def InBounds (size len : Nat) (calls : List Call) : Prop := ∀ call ∈ calls, call.InBounds size len

@[simp] theorem inBounds_nil (size len : Nat) : InBounds size len [] := by simp [InBounds]

@[simp] theorem inBounds_cons (size len : Nat) (call : Call) (calls : List Call) :
    InBounds size len (call :: calls) ↔ call.InBounds size len ∧ InBounds size len calls := by simp [InBounds]

/-- The length field of a datagram, from its high byte and its low byte. -/
def lenField (datagram : List UInt8) : Nat := (word (datagram.getD 2 0) (datagram.getD 3 0)).toNat

/-- A payload that is not rejected has room for its text length and unpacks into the buffers. -/
def SafeLength (datagram : List UInt8) : Prop :=
  4 ≤ datagram.length → datagram.getD 1 0 = fPayload → lenField datagram + 4 ≤ datagram.length →
    2 ≤ lenField datagram ∧ lenField datagram ≤ 22530

theorem sendtoRemotePeer_inBounds (outcomes : Outcomes) (buf : Block) (answer : Int) (size len : Nat) :
    InBounds size len (sendtoRemotePeer outcomes buf answer).2 := by
  unfold sendtoRemotePeer
  split
  · exact inBounds_nil size len
  · split <;> simp [Call.InBounds]

theorem recvedHelloAck_inBounds (outcomes : Outcomes) (pr : Peer) (size len : Nat) :
    InBounds size len (recvedHelloAck outcomes pr).2 := by
  unfold recvedHelloAck
  dsimp only
  split
  · exact inBounds_nil size len
  · split
    · simp [Call.InBounds]
    · split <;> simp [Call.InBounds]

/-- The payload path stays in bounds exactly for the lengths between the text length and the buffer size. -/
theorem recvedPayload_inBounds (host : ByteOrder) (lib : Libraries) (outcomes : Outcomes) (pr : Peer) (buf : Block)
    {size : Nat} (small : size < 2 ^ 64) :
    InBounds size (payloadLen host buf) (recvedPayload host lib outcomes pr buf size) ↔
      (payloadLen host buf + 4 ≤ size → 2 ≤ payloadLen host buf ∧ payloadLen host buf ≤ 22530) := by
  have received := sizeT_natCast small
  by_cases short : sizeT (size : Int) < payloadLen host buf + 4
  · rw [recvedPayload_short host lib outcomes pr buf size short]
    exact ⟨fun _ complete => by omega, fun _ => inBounds_nil _ _⟩
  · have complete : payloadLen host buf + 4 ≤ size := by omega
    by_cases wrapped : payloadLen host buf < 2
    · rw [recvedPayload_wrapped host lib outcomes pr buf size short wrapped]
      -- The wrapped count reaches past every datagram.
      have far : size < 6 + sizeSub (payloadLen host buf) 2 := by
        unfold sizeSub
        omega
      constructor
      · intro bounds
        have reached : 6 + sizeSub (payloadLen host buf) 2 ≤ size := bounds _ List.mem_cons_self
        omega
      · intro safe
        have := safe complete
        omega
    · have counted : 2 ≤ payloadLen host buf := by omega
      have checked (rest : List Call) (filled : InBounds size (payloadLen host buf) rest) :
          InBounds size (payloadLen host buf) ([Call.content 6 (payloadLen host buf - 2),
            .copied (payloadLen host buf - 2), .content 4 2, .uncompress ((payloadLen host buf - 2) * 4)] ++ rest) ↔
              payloadLen host buf ≤ 22530 := by
        simp only [List.cons_append, List.nil_append, inBounds_cons, Call.InBounds, filled, and_true]
        unfold bufferSize
        omega
      have safe_iff : (payloadLen host buf + 4 ≤ size → 2 ≤ payloadLen host buf ∧ payloadLen host buf ≤ 22530) ↔
          payloadLen host buf ≤ 22530 := by omega
      rw [safe_iff, recvedPayload_counted host lib outcomes pr buf size short counted]
      cases uncompress lib ((payloadLen host buf - 2) * 4) (payloadBytes host buf) with
      | none => exact checked [] (inBounds_nil _ _)
      | some text =>
          dsimp only
          by_cases rejected : bufferSize < text.length ∨ (text.length : Int) % 16 ≠ 0
          · rw [if_pos rejected]
            exact checked [] (inBounds_nil _ _)
          · rw [if_neg rejected]
            have fits : text.length ≤ bufferSize := by omega
            exact checked _ (by simp [Call.InBounds, fits])

/-- The callback sees the header of a complete datagram. -/
theorem arrived_header (host : ByteOrder) (outcomes : Outcomes) {datagram : List UInt8}
    (complete : 4 ≤ datagram.length) :
    arrived outcomes datagram 1 = datagram.getD 1 0 ∧
      payloadLen host (arrived outcomes datagram) = lenField datagram := by
  have read (i : Nat) (inside : i < 4) : arrived outcomes datagram i = datagram.getD i 0 := by
    have fits : i < bufferSize := by
      unfold bufferSize
      omega
    rw [arrived, block_of_lt (by simp only [List.length_take]; omega)]
    simp [fits]
  refine ⟨read 1 (by decide), ?_⟩
  rw [payloadLen, htons_load16, read 2 (by decide), read 3 (by decide), lenField]

/-- A complete payload datagram stays in bounds exactly when its payload does. -/
theorem payloadDatagram_inBounds (host : ByteOrder) (lib : Libraries) (outcomes : Outcomes) (pr : Peer)
    {datagram : List UInt8} (complete : 4 ≤ datagram.length) (fits : datagram.length ≤ 65507)
    (payload : datagram.getD 1 0 = fPayload) :
    InBounds datagram.length (lenField datagram)
        (recvedPktUnpack host lib outcomes pr (arrived outcomes datagram) datagram.length).2 ↔
      (lenField datagram + 4 ≤ datagram.length → 2 ≤ lenField datagram ∧ lenField datagram ≤ 22530) := by
  have small : datagram.length < 2 ^ 64 := by omega
  have size : sizeT (datagram.length : Int) = datagram.length := sizeT_natCast small
  obtain ⟨flags, len⟩ := arrived_header host outcomes complete
  have path := recvedPayload_inBounds host lib outcomes pr (arrived outcomes datagram) small
  rw [len] at path
  have header : (Call.content 0 4).InBounds datagram.length (lenField datagram) := by
    simp only [Call.InBounds]
    omega
  unfold recvedPktUnpack
  rw [if_neg (by omega), flags]
  dsimp only
  rw [payload, if_neg (by decide), if_neg (by decide), if_neg (by decide), if_neg (by decide), if_pos rfl]
  simp only [inBounds_cons, header, true_and, path]

/-- A datagram drives no call out of bounds exactly when it is no payload, is rejected, or has a safe length. -/
theorem datagram_in_bounds_iff (host : ByteOrder) (lib : Libraries) (outcomes : Outcomes) (pr : Peer)
    (datagram : List UInt8) (received : 1 ≤ datagram.length ∧ datagram.length ≤ 65507) :
    InBounds datagram.length (lenField datagram)
        (recvedPktUnpack host lib outcomes pr (arrived outcomes datagram) datagram.length).2 ↔ SafeLength datagram := by
  have size : sizeT (datagram.length : Int) = datagram.length := sizeT_natCast (by omega)
  by_cases complete : 4 ≤ datagram.length
  · by_cases payload : datagram.getD 1 0 = fPayload
    · rw [payloadDatagram_inBounds host lib outcomes pr complete received.2 payload]
      exact ⟨fun safe _ _ => safe, fun safe => safe complete payload⟩
    · have header : (Call.content 0 4).InBounds datagram.length (lenField datagram) := by
        simp only [Call.InBounds]
        omega
      have answer (built : Int × Block) : InBounds datagram.length (lenField datagram)
          (if built.1 = error then (pr, [Call.content 0 4])
            else (pr, Call.content 0 4 :: (sendtoRemotePeer outcomes built.2 built.1).2)).2 := by
        split
        · simp [header]
        · exact (inBounds_cons _ _ _ _).mpr ⟨header, sendtoRemotePeer_inBounds _ _ _ _ _⟩
      refine iff_of_true ?_ fun _ other => absurd other payload
      unfold recvedPktUnpack
      rw [if_neg (by omega), (arrived_header host outcomes complete).1]
      dsimp only
      rw [if_neg payload]
      split
      · exact answer _
      · split
        · exact (inBounds_cons _ _ _ _).mpr ⟨header, recvedHelloAck_inBounds _ _ _ _⟩
        · split
          · exact answer _
          · split <;> simp [header]
  · refine iff_of_true ?_ fun long => absurd long complete
    rw [recvedPktUnpack, if_pos (by omega)]
    exact inBounds_nil _ _

/-- The sample datagram of the tunnel stays in bounds. -/
theorem datagram_in_bounds_sample :
    InBounds sampleDatagram.length (lenField sampleDatagram) (recvedPktUnpack .little sampleLibraries blankOutcomes
      samplePr (arrived blankOutcomes sampleDatagram) sampleDatagram.length).2 ↔ SafeLength sampleDatagram :=
  datagram_in_bounds_iff .little sampleLibraries blankOutcomes samplePr sampleDatagram ⟨by decide, by decide⟩

/-- A payload with the given length field and as many zeros. -/
def zeroPayload (len : UInt16) : List UInt8 := [0, fPayload, high len, low len] ++ List.replicate len.toNat 0

theorem zeroPayload_outOfBounds (host : ByteOrder) (lib : Libraries) (outcomes : Outcomes) (pr : Peer) (len : UInt16)
    (fits : len.toNat ≤ 65503) (outside : len.toNat < 2 ∨ 22530 < len.toNat) :
    ¬ InBounds (zeroPayload len).length (lenField (zeroPayload len))
      (recvedPktUnpack host lib outcomes pr (arrived outcomes (zeroPayload len)) (zeroPayload len).length).2 := by
  have length : (zeroPayload len).length = len.toNat + 4 := by simp [zeroPayload]
  have field : lenField (zeroPayload len) = len.toNat := by simp [lenField, zeroPayload]
  rw [payloadDatagram_inBounds host lib outcomes pr (by omega) (by omega) rfl, field, length]
  omega

/-- A payload of length zero is copied from far outside, and one of length 22531 may fill more than a buffer. -/
theorem payload_out_of_bounds :
    ¬ InBounds 4 0 (recvedPktUnpack .little sampleLibraries blankOutcomes samplePr
        (arrived blankOutcomes [0, 5, 0, 0]) 4).2 ∧
      ¬ InBounds (zeroPayload 22531).length (lenField (zeroPayload 22531)) (recvedPktUnpack .little sampleLibraries
        blankOutcomes samplePr (arrived blankOutcomes (zeroPayload 22531)) (zeroPayload 22531).length).2 :=
  ⟨zeroPayload_outOfBounds .little sampleLibraries blankOutcomes samplePr 0 (by decide) (by decide),
    zeroPayload_outOfBounds .little sampleLibraries blankOutcomes samplePr 22531 (by decide) (by decide)⟩

end Nose
