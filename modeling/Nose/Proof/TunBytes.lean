import Nose.Proof.Tunnel

namespace Nose

open CMemory

/-- The length of the packet that the sender declares before the compressed bytes. -/
def textLength (host : ByteOrder) (buf : Block) : Nat := (htons host (load16 host buf 4)).toNat

/-- The compressed bytes of the packet in the buffer inflate to the cipher text. -/
def Inflates (host : ByteOrder) (lib : Libraries) (buf : Block) (text : List UInt8) : Prop :=
  uncompress lib ((payloadLen host buf - 2) * 4) (payloadBytes host buf) = some text

/-- Every write to a tun device is the start of the plain text of the received packet. -/
def WritesPlaintext (host : ByteOrder) (lib : Libraries) (outcomes : Outcomes) (pr : Peer) (buf : Block)
    (size : Int) : Prop :=
  ∀ write ∈ writes (recvedPktUnpack host lib outcomes pr buf size).2,
    ∃ text, Inflates host lib buf text ∧ write.2 <+: lib.cbcDecrypt (keyBytes pr.key) iv text

/-- The declared length of an accepted payload is at most the length of its cipher text. -/
def DeclaresPlaintext (host : ByteOrder) (lib : Libraries) (buf : Block) (size : Int) : Prop :=
  buf 1 = fPayload → AcceptedPayload host lib buf size →
    ∀ text, Inflates host lib buf text → textLength host buf ≤ text.length

theorem writes_append (first second : List Call) : writes (first ++ second) = writes first ++ writes second :=
  List.filterMap_append

/-- Quiet calls write nothing. -/
theorem Quiet.writes {calls : List Call} (quiet : Quiet calls) : Nose.writes calls = [] := by
  rw [Nose.writes, List.filterMap_eq_nil_iff]
  intro call member
  cases call with
  | utunWrite fd bytes => exact (quiet _ member).elim
  | _ => rfl

section Payload

variable (host : ByteOrder) (lib : Libraries) (outcomes : Outcomes) (pr : Peer) (buf : Block) (size : Int)

/-- A peer that connects writes nothing. -/
theorem writes_recvedHelloAck : writes (recvedHelloAck outcomes pr).2 = [] := by
  rcases recvedHelloAck_cases outcomes pr with ⟨_, same⟩ | ⟨_, _, failure⟩ | ⟨_, _, _, failure⟩ | ⟨_, _, _, success⟩
  · rw [same]
    rfl
  · rw [failure]
    rfl
  · rw [failure]
    rfl
  · rw [success]
    rfl

/-- Only the payload branch writes, with what the handler of payloads writes. -/
theorem writes_recvedPktUnpack :
    writes (recvedPktUnpack host lib outcomes pr buf size).2 =
      if buf 1 = fPayload then writes (recvedPayload host lib outcomes pr buf size) else [] := by
  have answered (built : Int × Block) :
      writes (if built.1 = error then (pr, [Call.content 0 4])
        else (pr, .content 0 4 :: (sendtoRemotePeer outcomes built.2 built.1).2)).2 = [] := by
    obtain ⟨calls, quiet, answer⟩ := answer_quiet outcomes pr built
    rw [answer]
    exact quiet.writes
  rw [recvedPktUnpack]
  by_cases short : sizeT size < 4
  · rw [if_pos short, recvedPayload_short host lib outcomes pr buf size (by omega)]
    exact (ite_self []).symm
  · rw [if_neg short]
    dsimp only
    by_cases payload : buf 1 = fPayload
    · rw [payload, if_neg (by decide), if_neg (by decide), if_neg (by decide), if_neg (by decide), if_pos rfl,
        if_pos rfl]
      rfl
    · rw [if_neg payload, if_neg payload]
      split
      · exact answered _
      · split
        · exact writes_recvedHelloAck outcomes pr
        · split
          · exact answered _
          · split <;> rfl

/-- An accepted payload is written up to its declared length, from a buffer that starts with the plain text. -/
theorem writes_recvedPayload (accepted : AcceptedPayload host lib buf size) {text : List UInt8}
    (inflates : Inflates host lib buf text) :
    writes (recvedPayload host lib outcomes pr buf size) =
      [(pr.tunFd, bytesOf (block (lib.cbcDecrypt (keyBytes pr.key) iv text) outcomes.plaintext)
        (textLength host buf))] := by
  have complete := accepted.complete
  obtain ⟨text', unpacked, fits, whole⟩ := accepted.unpacked
  obtain rfl := Option.some.inj (unpacked.symm.trans inflates)
  rw [recvedPayload_counted host lib outcomes pr buf size (by omega) accepted.counted, unpacked]
  dsimp only
  rw [if_neg (by omega), writes_append]
  rfl

theorem writes_rejected (rejected : ¬ AcceptedPayload host lib buf size) :
    writes (recvedPayload host lib outcomes pr buf size) = [] := by
  rcases recvedPayload_cases host lib outcomes pr buf size with ⟨accepted, _⟩ | ⟨_, quiet⟩
  · exact absurd accepted rejected
  · exact quiet.writes

end Payload

/-- The first bytes of a block with a text at its start belong to the text exactly when the text is long enough. -/
theorem bytesOf_start_iff (text : List UInt8) (rest : Block) (count : Nat) :
    bytesOf (block text rest) count <+: text ↔ count ≤ text.length := by
  constructor
  · intro start
    simpa using start.length_le
  · intro inside
    have taken : bytesOf (block text rest) count = text.take count := by
      apply List.ext_getElem
      · simp [inside]
      · intro i before _
        rw [length_bytesOf] at before
        rw [getElem_bytesOf, block_of_lt (by omega), List.getElem_take]
        exact (List.getElem_eq_getD 0).symm
    rw [taken]
    exact List.take_prefix count text

/-- The peer writes plain text only exactly when the declared length of an accepted payload is at most the decrypted
length. -/
theorem writes_plaintext_iff (lib : Libraries) (lawful : lib.Lawful) (host : ByteOrder) (outcomes : Outcomes)
    (pr : Peer) (buf : Block) (size : Int) :
    WritesPlaintext host lib outcomes pr buf size ↔ DeclaresPlaintext host lib buf size := by
  rw [WritesPlaintext, DeclaresPlaintext, writes_recvedPktUnpack]
  by_cases payload : buf 1 = fPayload
  · rw [if_pos payload]
    by_cases accepted : AcceptedPayload host lib buf size
    · obtain ⟨text, inflates, _, whole⟩ := accepted.unpacked
      have unique {text' : List UInt8} (inflates' : Inflates host lib buf text') : text' = text :=
        Option.some.inj (inflates'.symm.trans inflates)
      have length : (lib.cbcDecrypt (keyBytes pr.key) iv text).length = text.length :=
        lawful.length_decrypt _ _ _ (by omega)
      rw [writes_recvedPayload host lib outcomes pr buf size accepted inflates]
      constructor
      · intro plain _ _ text' inflates'
        obtain ⟨other, inflates'', start⟩ := plain _ (List.mem_singleton.mpr rfl)
        rw [unique inflates'', bytesOf_start_iff, length] at start
        rwa [unique inflates']
      · intro declared write member
        rw [List.mem_singleton.mp member]
        refine ⟨text, inflates, ?_⟩
        rw [bytesOf_start_iff, length]
        exact declared payload accepted text inflates
    · rw [writes_rejected host lib outcomes pr buf size accepted]
      exact iff_of_true (fun _ member => absurd member List.not_mem_nil) (fun _ accepted' => absurd accepted' accepted)
  · rw [if_neg payload]
    exact iff_of_true (fun _ member => absurd member List.not_mem_nil) (fun payload' => absurd payload' payload)

theorem writes_plaintext_sample :
    WritesPlaintext .big sampleLibraries blankOutcomes samplePr (block sampleDatagram blankBlock) 47 ↔
      DeclaresPlaintext .big sampleLibraries (block sampleDatagram blankBlock) 47 :=
  writes_plaintext_iff sampleLibraries sampleLibraries_lawful .big blankOutcomes samplePr
    (block sampleDatagram blankBlock) 47

/-- The sample packet with a declared length of 40, which is more than the 32 bytes of its cipher text. -/
def longDatagram : List UInt8 := [0, 5, 0, 43, 0, 40] ++ samplePacked

/-- Eight old bytes of the local buffer are written to the device behind the plain text. -/
theorem stack_is_written :
    writes (recvedPktUnpack .big sampleLibraries { blankOutcomes with plaintext := fun _ => 83 } samplePr
      (block longDatagram blankBlock) 47).2 = [(samplePr.tunFd, samplePacket ++ List.replicate 12 0 ++
        List.replicate 8 83)] ∧
    ¬ WritesPlaintext .big sampleLibraries { blankOutcomes with plaintext := fun _ => 83 } samplePr
      (block longDatagram blankBlock) 47 := by
  have written : writes (recvedPktUnpack .big sampleLibraries { blankOutcomes with plaintext := fun _ => 83 } samplePr
      (block longDatagram blankBlock) 47).2 = [(samplePr.tunFd, samplePacket ++ List.replicate 12 0 ++
        List.replicate 8 83)] := by decide +kernel
  have packed : payloadBytes .big (block longDatagram blankBlock) = samplePacked := by decide +kernel
  refine ⟨written, fun plain => ?_⟩
  obtain ⟨text, inflates, start⟩ := plain (samplePr.tunFd, samplePacket ++ List.replicate 12 0 ++
    List.replicate 8 83) (by rw [written]; exact List.mem_singleton.mpr rfl)
  rw [Inflates, uncompress, packed, show sampleLibraries.inflate samplePacked = some sampleCipher from rfl] at inflates
  obtain rfl := Option.some.inj (Option.filter_eq_some_iff.mp inflates).1
  have short := start.length_le
  rw [show (sampleLibraries.cbcDecrypt (keyBytes samplePr.key) iv sampleCipher).length = 32 from
    length_sampleCipherSwap sampleCipher] at short
  simp [samplePacket] at short

end Nose
