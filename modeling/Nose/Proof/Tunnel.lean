import Nose.Proof.PeerTransitions
import Nose.Proof.RegisteredPeer

namespace Nose

open CMemory DottedQuad

/-- These are the writes to tun devices among the calls. -/
def writes (calls : List Call) : List (Int × List UInt8) := calls.filterMap fun call =>
  match call with
  | .utunWrite fd bytes => some (fd, bytes)
  | _ => none

theorem length_paddedText (stack : Block) (read : List UInt8) : (paddedText stack read).length = blocks read.length :=
  length_bytesOf _ _

theorem sixteen_dvd_paddedText (stack : Block) (read : List UInt8) : 16 ∣ (paddedText stack read).length := by
  rw [length_paddedText]
  exact Nat.dvd_mul_left _ _

theorem le_blocks (length : Nat) : length ≤ blocks length := by
  unfold blocks
  omega

/-- A lawful cipher keeps the length of its text. -/
theorem length_cbcEncrypt {lib : Libraries} (lawful : lib.Lawful) (stack : Block) (key : CharArray 34)
    (read : List UInt8) :
    (lib.cbcEncrypt (keyBytes key) iv (paddedText stack read)).length = blocks read.length := by
  rw [lawful.length_encrypt _ _ _ (sixteen_dvd_paddedText stack read), length_paddedText]

/-- No old bytes follow the cipher text. -/
theorem cipherText_eq {lib : Libraries} (lawful : lib.Lawful) (outcomes : Outcomes) (pr : Peer) (read : List UInt8) :
    cipherText lib outcomes pr read = lib.cbcEncrypt (keyBytes pr.key) iv (paddedText outcomes.stack read) := by
  rw [cipherText, ← length_cbcEncrypt lawful outcomes.stack pr.key read, bytesOf_block]

/-- The start of the decrypted text is the packet. -/
theorem bytesOf_paddedText (stack rest : Block) (read : List UInt8) :
    bytesOf (block (paddedText stack read) rest) read.length = read := by
  apply List.ext_getElem
  · simp
  · intro i _ inside
    have within : i < (paddedText stack read).length := by
      rw [length_paddedText]
      exact inside.trans_le (le_blocks read.length)
    rw [getElem_bytesOf, block_of_lt within]
    simp [paddedText, bytesOf, block, inside, show i < blocks read.length by rwa [length_paddedText] at within]

/-- A payload packet carries its flags, its two lengths and the compressed bytes. -/
theorem payloadPkt_facts (host : ByteOrder) (pcp : Block) (packed : List UInt8) (buf bbuf : Block) (textSize : UInt16)
    (small : packed.length < 2 ^ 64) :
    let built := pcpPayloadPkt host (some pcp) (block packed buf) bbuf packed.length textSize
    built.1 = ((6 + packed.length : Nat) : Int) ∧ built.2 1 = fPayload ∧
      word (built.2 2) (built.2 3) = UInt16.ofInt (packed.length + 2) ∧ word (built.2 4) (built.2 5) = textSize ∧
        bytesOf (pointer built.2 6) packed.length = packed := by
  intro built
  have packedBytes : bytesOf (pointer built.2 6) packed.length = packed := by
    refine Eq.trans (bytesOf_congr fun i inside => ?_) (bytesOf_block packed buf)
    simp only [built, pcpPayloadPkt, pointer, sizeT_natCast small]
    rw [memcpy_inside (by omega) (by omega), Nat.add_sub_cancel_left]
  refine ⟨by simp [built, pcpPayloadPkt], ?_, ?_, ?_, packedBytes⟩
  · simp [built, pcpPayloadPkt, pcpHeader, memcpy, store16_htons, setByte]
  · simp [built, pcpPayloadPkt, pcpHeader, memcpy, store16_htons, setByte]
  · simp [built, pcpPayloadPkt, memcpy, store16_htons, setByte]

/-- The sender sends a datagram when its calls succeed and the compressed text fits. -/
theorem recvTunDeviceThread_produces (host : ByteOrder) {lib : Libraries} {outcomes : Outcomes} {pr : Peer}
    {packet : List UInt8} {pcp : Block} (nonempty : 1 ≤ packet.length) (fits : packet.length ≤ 1518)
    (compressed : CompressFits lib (cipherText lib outcomes pr packet)) (allocated : outcomes.malloc = some pcp)
    (sends : 0 ≤ outcomes.sendto) :
    ∃ datagram, (recvTunDeviceThread host lib outcomes pr packet).2 = [.sendto datagram] := by
  have whole : utunRead packet = packet := List.take_of_length_le fits
  have some_read : utunRead packet ≠ [] := by
    rw [whole]
    exact List.ne_nil_of_length_pos nonempty
  rw [CompressFits, length_cipherText] at compressed
  rw [recvTunDeviceThread_eq host lib outcomes pr packet some_read, whole]
  dsimp only
  rw [compress, if_pos compressed, allocated]
  dsimp only
  rw [sendtoRemotePeer, if_neg (by simp only [pcpPayloadPkt]; omega), if_neg (not_lt.mpr sends)]
  exact ⟨_, rfl⟩

/-- A sent payload packet holds the compressed cipher text of its packet. -/
theorem produced_datagram {host : ByteOrder} {lib : Libraries} {outcomes : Outcomes} {pr : Peer}
    {packet packed datagram : List UInt8} (nonempty : 1 ≤ packet.length) (fits : packet.length ≤ 1518)
    (packed_eq : lib.deflate (cipherText lib outcomes pr packet) = packed)
    (produced : (recvTunDeviceThread host lib outcomes pr packet).2 = [.sendto datagram]) (rest : Block) :
    packed.length ≤ 4 * blocks packet.length ∧ datagram.length = 6 + packed.length ∧
      block datagram rest 1 = fPayload ∧
        word (block datagram rest 2) (block datagram rest 3) = UInt16.ofInt (packed.length + 2) ∧
          word (block datagram rest 4) (block datagram rest 5) = UInt16.ofNat packet.length ∧
            bytesOf (pointer (block datagram rest) 6) packed.length = packed := by
  have whole : utunRead packet = packet := List.take_of_length_le fits
  have some_read : utunRead packet ≠ [] := by
    rw [whole]
    exact List.ne_nil_of_length_pos nonempty
  rw [recvTunDeviceThread_eq host lib outcomes pr packet some_read, whole] at produced
  dsimp only at produced
  unfold compress at produced
  rw [packed_eq] at produced
  by_cases room : packed.length ≤ 4 * blocks packet.length
  · rw [if_pos room] at produced
    dsimp only at produced
    have small : packed.length < 2 ^ 64 := by
      unfold blocks at room
      omega
    cases allocated : outcomes.malloc with
    | none => simp [allocated, pcpPayloadPkt, sendtoRemotePeer, error] at produced
    | some pcp =>
        rw [allocated] at produced
        have facts := payloadPkt_facts host pcp packed (block packet outcomes.buf)
          (block (lib.cbcEncrypt (keyBytes pr.key) iv (paddedText outcomes.stack packet)) outcomes.bbuf)
          (UInt16.ofNat packet.length) small
        dsimp only at facts
        generalize pcpPayloadPkt host (some pcp) _ _ _ _ = built at facts produced
        obtain ⟨size, flags, len, textLen, bytes⟩ := facts
        unfold sendtoRemotePeer at produced
        rw [size, if_neg (by omega)] at produced
        split at produced
        · cases produced
        · simp only [List.cons.injEq, Call.sendto.injEq, and_true, Int.toNat_natCast] at produced
          rw [← produced]
          have read (i : Nat) (inside : i < 6 + packed.length) :
              block (bytesOf built.2 (6 + packed.length)) rest i = built.2 i := block_bytesOf inside
          rw [read 1 (by omega), read 2 (by omega), read 3 (by omega), read 4 (by omega), read 5 (by omega)]
          exact ⟨room, length_bytesOf _ _, flags, len, textLen,
            (bytesOf_congr fun i inside => read (6 + i) (by omega)).trans bytes⟩
  · rw [if_neg room] at produced
    cases produced

/-- The receiver writes the packet when the cipher text is at most four times as long as its compressed form,
and nothing otherwise. -/
theorem delivered_writes {lib : Libraries} (lawful : lib.Lawful) {senderHost : ByteOrder} (receiverHost : ByteOrder)
    {outcomes : Outcomes} (outcomes' : Outcomes) {sender receiver : Peer}
    (sameKey : keyBytes sender.key = keyBytes receiver.key) {packet datagram : List UInt8} (rest : Block)
    (nonempty : 1 ≤ packet.length) (fits : packet.length ≤ 1518)
    (produced : (recvTunDeviceThread senderHost lib outcomes sender packet).2 = [.sendto datagram]) :
    writes (recvedPktUnpack receiverHost lib outcomes' receiver (block datagram rest) datagram.length).2 =
      if blocks packet.length ≤ 4 * (lib.deflate (cipherText lib outcomes sender packet)).length then
        [(receiver.tunFd, packet)]
      else [] := by
  obtain ⟨packed, packed_eq⟩ : ∃ packed, lib.deflate (cipherText lib outcomes sender packet) = packed := ⟨_, rfl⟩
  obtain ⟨room, length, flags, len, textLen, bytes⟩ := produced_datagram nonempty fits packed_eq produced rest
  rw [packed_eq]
  have rounded : blocks packet.length ≤ 1520 := by
    unfold blocks
    omega
  have size : sizeT (datagram.length : Int) = 6 + packed.length := by
    rw [length, sizeT_natCast (by omega)]
  have counted : payloadLen receiverHost (block datagram rest) = packed.length + 2 := by
    rw [payloadLen, htons_load16, len, UInt16.ofInt, UInt16.toNat_ofNat']
    omega
  have packedBytes : payloadBytes receiverHost (block datagram rest) = packed := by
    rw [payloadBytes, counted, Nat.add_sub_cancel, bytes]
  have textLen' : (htons receiverHost (load16 receiverHost (block datagram rest) 4)).toNat = packet.length := by
    rw [htons_load16, textLen, UInt16.toNat_ofNat']
    omega
  have unpacked : uncompress lib (packed.length * 4) packed =
      if blocks packet.length ≤ 4 * packed.length then some (cipherText lib outcomes sender packet) else none := by
    rw [uncompress, ← packed_eq, lawful.inflate_deflate, Option.filter_some, packed_eq, length_cipherText]
    simp [Nat.mul_comm]
  unfold recvedPktUnpack
  rw [if_neg (by omega)]
  dsimp only
  rw [flags, if_neg (by decide), if_neg (by decide), if_neg (by decide), if_neg (by decide), if_pos rfl,
    recvedPayload_counted receiverHost lib outcomes' receiver _ _ (by omega) (by omega), counted, Nat.add_sub_cancel,
    packedBytes, unpacked]
  by_cases large : blocks packet.length ≤ 4 * packed.length
  · have passed : ¬ (bufferSize < (cipherText lib outcomes sender packet).length ∨
        ((cipherText lib outcomes sender packet).length : Int) % 16 ≠ 0) := by
      rw [length_cipherText]
      unfold bufferSize blocks at *
      omega
    have decrypted : lib.cbcDecrypt (keyBytes receiver.key) iv (cipherText lib outcomes sender packet) =
        paddedText outcomes.stack packet := by
      rw [cipherText_eq lawful, sameKey]
      exact lawful.decrypt_encrypt _ _ _ (sixteen_dvd_paddedText _ _)
    rw [if_pos large, if_pos large]
    dsimp only
    rw [if_neg passed, decrypted, textLen', bytesOf_paddedText]
    rfl
  · rw [if_neg large, if_neg large]
    rfl

/-- The padded packet is encrypted to at most four times the length of what the compression leaves of it. -/
def Unpackable (lib : Libraries) (key : CharArray 34) (stack : Block) (packet : List UInt8) : Prop :=
  blocks packet.length ≤ 4 * (lib.deflate (lib.cbcEncrypt (keyBytes key) iv (paddedText stack packet))).length

/-- A datagram of the tunnel delivers its packet exactly when the receiver guesses a large enough text. -/
theorem tunnel_lossless_iff (lib : Libraries) (lawful : lib.Lawful) (senderHost receiverHost : ByteOrder)
    (outcomes outcomes' : Outcomes) (sender receiver : Peer) (sameKey : keyBytes sender.key = keyBytes receiver.key)
    (packet datagram : List UInt8) (rest : Block) (nonempty : 1 ≤ packet.length) (fits : packet.length ≤ 1518)
    (produced : (recvTunDeviceThread senderHost lib outcomes sender packet).2 = [.sendto datagram]) :
    writes (recvedPktUnpack receiverHost lib outcomes' receiver (block datagram rest) datagram.length).2 =
        [(receiver.tunFd, packet)] ↔ Unpackable lib sender.key outcomes.stack packet := by
  rw [delivered_writes lawful receiverHost outcomes' sameKey rest nonempty fits produced, cipherText_eq lawful,
    Unpackable]
  split <;> simp_all

/-- The claim that no packet is lost or changed in the tunnel. -/
def Lossless (lib : Libraries) : Prop :=
  ∀ (senderHost receiverHost : ByteOrder) (outcomes outcomes' : Outcomes) (sender receiver : Peer),
    keyBytes sender.key = keyBytes receiver.key →
      ∀ packet datagram : List UInt8, 1 ≤ packet.length → packet.length ≤ 1518 →
        (recvTunDeviceThread senderHost lib outcomes sender packet).2 = [.sendto datagram] →
          ∀ rest, writes (recvedPktUnpack receiverHost lib outcomes' receiver (block datagram rest) datagram.length).2 =
            [(receiver.tunFd, packet)]

def blankOutcomes : Outcomes where
  malloc := some blankBlock
  sendUdpPkt := 48
  recvUdpPkt := 56
  answer := blankBlock
  item := blankItem
  push := ⟨0, fun _ => false⟩
  recvfrom := 1
  sendto := 1
  utunOpen := 3
  pthreadCreate := 0
  stack := blankBlock
  plaintext := blankBlock
  buf := blankBlock
  bbuf := blankBlock

/-- The key of both peers repeats the letter `k`. -/
def samplePr : Peer where
  peerId := letterId 98
  mstpId := letterId 97
  vlanRemoteIpv4 := quad ⟨172, 16, 10, 2⟩
  remotePeerAddr := noAddress
  peer := blankBucket
  helloed := 0
  key := (Vector.replicate 34 107).set 32 0
  synCounts := 0
  tunFd := 0
  fpEvent := false
  helloEvent := false
  hbEvent := false

/-- An IPv4 header without content. -/
def samplePacket : List UInt8 := [69, 0, 0, 20, 0, 0, 64, 0, 64, 1, 206, 197, 172, 16, 10, 1, 172, 16, 10, 2]

/-- AES-256-CBC turns the padded packet into these bytes under the sample key. -/
def sampleCipher : List UInt8 :=
  [108, 151, 53, 86, 127, 13, 120, 96, 182, 254, 80, 34, 93, 164, 25, 100,
    73, 14, 166, 81, 197, 52, 143, 236, 47, 105, 188, 136, 182, 160, 62, 169]

/-- The compression of zlib turns the cipher text into these bytes. -/
def samplePacked : List UInt8 :=
  [120, 156, 203, 153, 110, 26, 86, 207, 91, 145, 176, 237, 95, 128, 82, 236, 18, 201, 20, 79, 190,
    101, 129, 71, 77, 250, 223, 232, 103, 238, 233, 216, 182, 192, 110, 37, 0, 223, 67, 14, 114]

def sampleCipherSwap (text : List UInt8) : List UInt8 :=
  Equiv.swap (samplePacket ++ List.replicate 12 0) sampleCipher text

def sampleDeflate (text : List UInt8) : List UInt8 :=
  if text = sampleCipher then samplePacked
  else if 512 ≤ text.length ∧ text = List.replicate text.length (text.headD 0) then
    1 :: text.headD 0 :: UInt8.ofNat (text.length % 256) :: List.replicate (text.length / 256) 0
  else 0 :: text

def sampleInflate (packed : List UInt8) : Option (List UInt8) :=
  if packed = samplePacked then some sampleCipher
  else
    match packed with
    | 0 :: text => some text
    | 1 :: byte :: low :: rest => some (List.replicate (256 * rest.length + low.toNat) byte)
    | _ => none

/-- The sample libraries agree with the real ones on the sample packet. Otherwise they only shorten long runs. -/
def sampleLibraries : Libraries where
  deflate := sampleDeflate
  inflate := sampleInflate
  cbcEncrypt _ _ text := sampleCipherSwap text
  cbcDecrypt _ _ text := sampleCipherSwap text

theorem length_sampleCipherSwap (text : List UInt8) : (sampleCipherSwap text).length = text.length := by
  rw [sampleCipherSwap, Equiv.swap_apply_def]
  split
  · rename_i same
    rw [same]
    rfl
  · split
    · rename_i same
      rw [same]
      rfl
    · rfl

theorem sampleInflate_sampleDeflate (text : List UInt8) : sampleInflate (sampleDeflate text) = some text := by
  unfold sampleDeflate sampleInflate
  by_cases sample : text = sampleCipher
  · rw [if_pos sample, if_pos rfl, sample]
  · rw [if_neg sample]
    by_cases run : 512 ≤ text.length ∧ text = List.replicate text.length (text.headD 0)
    · have low : (UInt8.ofNat (text.length % 256)).toNat = text.length % 256 := by
        rw [UInt8.toNat_ofNat']
        omega
      rw [if_pos run, if_neg (by simp [samplePacked])]
      change some (List.replicate (256 * (List.replicate (text.length / 256) (0 : UInt8)).length +
        (UInt8.ofNat (text.length % 256)).toNat) (text.headD 0)) = some text
      rw [List.length_replicate, low, Nat.div_add_mod, ← run.2]
    · rw [if_neg run, if_neg (by simp [samplePacked])]
      rfl

theorem sampleDeflate_run (n : Nat) (byte : UInt8) (long : 512 ≤ n) :
    4 * (sampleDeflate (List.replicate n byte)).length < n := by
  have other : List.replicate n byte ≠ sampleCipher := by
    intro same
    have length := congrArg List.length same
    rw [List.length_replicate] at length
    have short : sampleCipher.length = 32 := rfl
    omega
  have head : (List.replicate n byte).headD 0 = byte := by
    cases n with
    | zero => omega
    | succ n => rfl
  have run : 512 ≤ (List.replicate n byte).length ∧
      List.replicate n byte = List.replicate (List.replicate n byte).length ((List.replicate n byte).headD 0) := by
    rw [List.length_replicate, head]
    exact ⟨long, rfl⟩
  rw [sampleDeflate, if_neg other, if_pos run]
  simp only [List.length_cons, List.length_replicate]
  omega

theorem sampleLibraries_lawful : sampleLibraries.Lawful where
  inflate_deflate := sampleInflate_sampleDeflate
  decrypt_encrypt _ _ text _ := Equiv.swap_apply_self _ _ text
  encrypt_decrypt _ _ text _ := Equiv.swap_apply_self _ _ text
  length_encrypt _ _ text _ := length_sampleCipherSwap text
  length_decrypt _ _ text _ := length_sampleCipherSwap text
  deflate_run := sampleDeflate_run

def sampleDatagram : List UInt8 := [0, 5, 0, 43, 0, 20] ++ samplePacked

/-- The tunnel delivers the sample packet. -/
theorem tunnel_lossless_sample :
    (recvTunDeviceThread .little sampleLibraries blankOutcomes samplePr samplePacket).2 = [.sendto sampleDatagram] ∧
      (writes (recvedPktUnpack .big sampleLibraries blankOutcomes samplePr (block sampleDatagram blankBlock)
          sampleDatagram.length).2 = [(samplePr.tunFd, samplePacket)] ↔
        Unpackable sampleLibraries samplePr.key blankOutcomes.stack samplePacket) := by
  have produced : (recvTunDeviceThread .little sampleLibraries blankOutcomes samplePr samplePacket).2 =
      [.sendto sampleDatagram] := by decide +kernel
  exact ⟨produced, tunnel_lossless_iff sampleLibraries sampleLibraries_lawful .little .big blankOutcomes blankOutcomes
    samplePr samplePr rfl samplePacket sampleDatagram blankBlock (by decide) (by decide) produced⟩

/-- The tunnel loses the packet that is encrypted to a run of 1504 zeros, whatever lawful libraries it uses. -/
theorem run_is_lost : sampleLibraries.Lawful ∧ ¬ ∃ lib : Libraries, lib.Lawful ∧ Lossless lib := by
  refine ⟨sampleLibraries_lawful, ?_⟩
  rintro ⟨lib, lawful, lossless⟩
  have whole : 16 ∣ (List.replicate 1504 (0 : UInt8)).length := by
    rw [List.length_replicate]
    decide
  obtain ⟨packet, packet_eq⟩ : ∃ packet, lib.cbcDecrypt (keyBytes samplePr.key) iv (List.replicate 1504 0) = packet :=
    ⟨_, rfl⟩
  have length : packet.length = 1504 := by
    rw [← packet_eq, lawful.length_decrypt _ _ _ whole, List.length_replicate]
  have rounded : blocks packet.length = packet.length := by
    rw [length]
    rfl
  have unpadded : paddedText blankOutcomes.stack packet = packet := by rw [paddedText, rounded, bytesOf_block]
  have cipher : cipherText lib blankOutcomes samplePr packet = List.replicate 1504 0 := by
    rw [cipherText_eq lawful, unpadded, ← packet_eq]
    exact lawful.encrypt_decrypt _ _ _ whole
  have shrinks := lawful.deflate_run 1504 0 (by decide)
  have compressed : CompressFits lib (cipherText lib blankOutcomes samplePr packet) := by
    rw [CompressFits, cipher, List.length_replicate]
    omega
  obtain ⟨datagram, produced⟩ := recvTunDeviceThread_produces .little (by omega) (by omega) compressed
    (show blankOutcomes.malloc = some blankBlock from rfl) (by decide)
  have written := lossless .little .little blankOutcomes blankOutcomes samplePr samplePr rfl packet datagram
    (by omega) (by omega) produced blankBlock
  rw [delivered_writes lawful .little blankOutcomes rfl blankBlock (by omega) (by omega) produced, cipher, rounded,
    length, if_neg (by omega)] at written
  cases written

end Nose
