import Nose.Proof.PmpCodec
import Nose.Source.PeerLoop

namespace Nose

open CMemory DottedQuad

/-- A quiet call changes no timer, no device and no thread, and writes to no device. -/
def Call.Quiet : Call → Prop
  | .sendUdpPkt _ | .sendto _ | .content _ _ | .copied _ | .uncompress _ | .decrypted _ => True
  | _ => False

def Quiet (calls : List Call) : Prop := ∀ call ∈ calls, call.Quiet

@[simp] theorem quiet_nil : Quiet [] := by simp [Quiet]

@[simp] theorem quiet_cons (call : Call) (calls : List Call) :
    Quiet (call :: calls) ↔ call.Quiet ∧ Quiet calls := by
  simp [Quiet]

theorem Quiet.started {calls : List Call} (quiet : Quiet calls) : started calls = 0 := by
  rw [Nose.started, List.count_eq_zero]
  intro member
  exact quiet _ member

theorem sendtoRemotePeer_quiet (outcomes : Outcomes) (buf : Block) (size : Int) :
    Quiet (sendtoRemotePeer outcomes buf size).2 := by
  unfold sendtoRemotePeer
  split
  · exact quiet_nil
  · split <;> simp [Call.Quiet]

/-- The receive buffer after a datagram arrived. -/
def arrived (outcomes : Outcomes) (datagram : List UInt8) : Block :=
  block (datagram.take bufferSize) (memset outcomes.stack 0 bufferSize)

/-- The peer looks at the flags of a datagram from its remote peer. -/
structure Handles (pr : Peer) (srcAddr : SockAddr) (datagram : List UInt8) (outcomes : Outcomes) : Prop where
  source : srcAddr = pr.remotePeerAddr
  received : 0 ≤ outcomes.recvfrom
  complete : 4 ≤ datagram.length

/-- The datagram acknowledges a hello that the peer still waits for, and the tun device opens. -/
structure AcceptsHello (pr : Peer) (srcAddr : SockAddr) (datagram : List UInt8) (outcomes : Outcomes) : Prop
    extends Handles pr srcAddr datagram outcomes where
  flags : arrived outcomes datagram 1 = fHelloAck
  waiting : pr.helloed = 0
  opened : 0 < outcomes.utunOpen

/-- The length field of the packet in the buffer. -/
def payloadLen (host : ByteOrder) (buf : Block) : Nat := (htons host (load16 host buf 2)).toNat

/-- The compressed bytes after the length of the plain text. -/
def payloadBytes (host : ByteOrder) (buf : Block) : List UInt8 := bytesOf (pointer buf 6) (payloadLen host buf - 2)

/-- The payload passes the checks of its length, of zlib and of the cipher. -/
structure AcceptedPayload (host : ByteOrder) (lib : Libraries) (buf : Block) (size : Int) : Prop where
  complete : payloadLen host buf + 4 ≤ sizeT size
  counted : 2 ≤ payloadLen host buf
  unpacked : ∃ text, uncompress lib ((payloadLen host buf - 2) * 4) (payloadBytes host buf) = some text ∧
    text.length ≤ bufferSize ∧ (text.length : Int) % 16 = 0

/-- The peer writes the payload of a datagram to its device. -/
structure AcceptsPayload (host : ByteOrder) (lib : Libraries) (pr : Peer) (srcAddr : SockAddr)
    (datagram : List UInt8) (outcomes : Outcomes) : Prop extends Handles pr srcAddr datagram outcomes where
  flags : arrived outcomes datagram 1 = fPayload
  payload : AcceptedPayload host lib (arrived outcomes datagram) (datagram.take bufferSize).length

theorem payloadLen_lt (host : ByteOrder) (buf : Block) : payloadLen host buf < 65536 := UInt16.toNat_lt _

/-- The wrapped difference is exact when the length covers the text length. -/
theorem sizeSub_eq {len : Nat} (counted : 2 ≤ len) (small : len < 65536) : sizeSub len 2 = len - 2 := by
  unfold sizeSub
  omega

/-- A shorter length wraps around to more than any buffer holds. -/
theorem bufferSize_lt_sizeSub {len : Nat} (short : len < 2) : bufferSize < sizeSub len 2 := by
  unfold sizeSub bufferSize
  omega

theorem bytesOf_block (bytes : List UInt8) (rest : Block) : bytesOf (block bytes rest) bytes.length = bytes := by
  apply List.ext_getElem
  · simp
  · intro i inside inside'
    rw [getElem_bytesOf]
    simp [block, inside']

/-- Whole blocks are decrypted. -/
theorem decryptByAes256_eq (lib : Libraries) (text : List UInt8) (buf plainText : Block) (key : CharArray 34) :
    decryptByAes256 lib (block text buf) text.length plainText key =
      if (text.length : Int) % 16 ≠ 0 then (error, plainText)
      else ((text.length : Int), block (lib.cbcDecrypt (keyBytes key) iv text) plainText) := by
  unfold decryptByAes256 mbedtlsAesCryptCbc
  by_cases whole : (text.length : Int) % 16 = 0
  · simp [whole, bytesOf_block]
  · simp [whole]

section Payload

variable (host : ByteOrder) (lib : Libraries) (outcomes : Outcomes) (pr : Peer) (buf : Block) (size : Int)

theorem recvedPayload_short (short : sizeT size < payloadLen host buf + 4) :
    recvedPayload host lib outcomes pr buf size = [] := if_pos short

theorem recvedPayload_wrapped (complete : ¬ sizeT size < payloadLen host buf + 4) (wrapped : payloadLen host buf < 2) :
    recvedPayload host lib outcomes pr buf size =
      [.content 6 (sizeSub (payloadLen host buf) 2), .copied (sizeSub (payloadLen host buf) 2)] := by
  have long := bufferSize_lt_sizeSub wrapped
  unfold payloadLen at complete long ⊢
  unfold recvedPayload
  dsimp only
  rw [if_neg complete, if_pos long]

theorem recvedPayload_counted (complete : ¬ sizeT size < payloadLen host buf + 4)
    (counted : 2 ≤ payloadLen host buf) :
    recvedPayload host lib outcomes pr buf size =
      let checked := [Call.content 6 (payloadLen host buf - 2), .copied (payloadLen host buf - 2), .content 4 2,
        .uncompress ((payloadLen host buf - 2) * 4)]
      match uncompress lib ((payloadLen host buf - 2) * 4) (payloadBytes host buf) with
      | none => checked
      | some text =>
          if bufferSize < text.length ∨ (text.length : Int) % 16 ≠ 0 then checked
          else checked ++ [.decrypted text.length,
            .utunWrite pr.tunFd (bytesOf (block (lib.cbcDecrypt (keyBytes pr.key) iv text) outcomes.plaintext)
              (htons host (load16 host buf 4)).toNat)] := by
  have small := payloadLen_lt host buf
  have count := sizeSub_eq counted small
  have capacity : (payloadLen host buf - 2) * 4 % 2 ^ 64 = (payloadLen host buf - 2) * 4 := by omega
  have copied : bytesOf (memcpy outcomes.stack 0 (pointer buf 6) (payloadLen host buf - 2)) (payloadLen host buf - 2) =
      payloadBytes host buf := by
    apply bytesOf_congr
    intro i inside
    rw [memcpy_inside (Nat.zero_le i) (by omega), Nat.sub_zero]
  unfold recvedPayload
  dsimp only
  rw [show (htons host (load16 host buf 2)).toNat = payloadLen host buf from rfl, if_neg complete, count, capacity,
    if_neg (by unfold bufferSize; omega), copied]
  cases uncompress lib ((payloadLen host buf - 2) * 4) (payloadBytes host buf) with
  | none => rfl
  | some text =>
      dsimp only
      rw [decryptByAes256_eq]
      by_cases long : bufferSize < text.length
      · simp [long]
      · by_cases blocks : (text.length : Int) % 16 = 0
        · have unequal : (text.length : Int) ≠ error := by
            unfold error
            omega
          simp [long, blocks, unequal]
        · simp [long, blocks]

/-- A payload is written to the device exactly when it is accepted. -/
theorem recvedPayload_cases :
    (AcceptedPayload host lib buf size ∧ ∃ before bytes, Quiet before ∧
      recvedPayload host lib outcomes pr buf size = before ++ [.utunWrite pr.tunFd bytes]) ∨
    (¬ AcceptedPayload host lib buf size ∧ Quiet (recvedPayload host lib outcomes pr buf size)) := by
  by_cases short : sizeT size < payloadLen host buf + 4
  · rw [recvedPayload_short host lib outcomes pr buf size short]
    exact .inr ⟨fun accepted => absurd accepted.complete (by omega), quiet_nil⟩
  · by_cases wrapped : payloadLen host buf < 2
    · rw [recvedPayload_wrapped host lib outcomes pr buf size short wrapped]
      exact .inr ⟨fun accepted => absurd accepted.counted (by omega), by simp [Call.Quiet]⟩
    · have counted : 2 ≤ payloadLen host buf := by omega
      rw [recvedPayload_counted host lib outcomes pr buf size short counted]
      cases unpacked : uncompress lib ((payloadLen host buf - 2) * 4) (payloadBytes host buf) with
      | none =>
          refine .inr ⟨fun accepted => ?_, by simp [Call.Quiet]⟩
          obtain ⟨text, found, _⟩ := accepted.unpacked
          rw [unpacked] at found
          cases found
      | some text =>
          dsimp only
          by_cases rejected : bufferSize < text.length ∨ (text.length : Int) % 16 ≠ 0
          · rw [if_pos rejected]
            refine .inr ⟨fun accepted => ?_, by simp [Call.Quiet]⟩
            obtain ⟨text', found, fits, blocks⟩ := accepted.unpacked
            rw [unpacked] at found
            obtain rfl := Option.some.inj found
            omega
          · rw [if_neg rejected]
            exact .inl ⟨⟨by omega, counted, text, unpacked, by omega, by omega⟩,
              [.content 6 (payloadLen host buf - 2), .copied (payloadLen host buf - 2), .content 4 2,
                .uncompress ((payloadLen host buf - 2) * 4), .decrypted text.length], _, by simp [Call.Quiet], rfl⟩

end Payload

/-- The ciphers work on whole blocks. -/
def blocks (length : Nat) : Nat := (length + 15) / 16 * 16

/-- The sender fills the last block of a packet up with old bytes. -/
def paddedText (stack : Block) (read : List UInt8) : List UInt8 := bytesOf (block read stack) (blocks read.length)

def cipherText (lib : Libraries) (outcomes : Outcomes) (pr : Peer) (read : List UInt8) : List UInt8 :=
  bytesOf (block (lib.cbcEncrypt (keyBytes pr.key) iv (paddedText outcomes.stack read)) outcomes.bbuf)
    (blocks read.length)

/-- The sender leaves room for four times the length of the text. -/
def CompressFits (lib : Libraries) (text : List UInt8) : Prop := (lib.deflate text).length ≤ 4 * text.length

theorem encryptByAes256_eq (lib : Libraries) (stack plaintext : Block) (read : List UInt8) (cipher : Block)
    (key : CharArray 34) (small : read.length < 2 ^ 64) :
    encryptByAes256 lib stack (block read plaintext) read.length cipher key =
      ((blocks read.length : Int), block (lib.cbcEncrypt (keyBytes key) iv (paddedText stack read)) cipher) := by
  have size : sizeT (read.length : Int) = read.length := sizeT_natCast small
  have outputLen : (if (read.length : Int) % 16 = 0 then (read.length : Int) else ((read.length : Int) / 16 + 1) * 16) =
      (blocks read.length : Int) := by
    unfold blocks
    split <;> omega
  have whole : (blocks read.length : Int) % 16 = 0 := by
    unfold blocks
    omega
  have input : bytesOf (memcpy (memset stack 0 read.length) 0 (block read plaintext) read.length) (blocks read.length) =
      paddedText stack read := by
    apply bytesOf_congr
    intro i _
    by_cases inside : i < read.length
    · rw [memcpy_inside (Nat.zero_le i) (by omega)]
      simp [block, inside]
    · rw [memcpy_outside (by omega)]
      simp [memset, block, inside]
  unfold encryptByAes256 mbedtlsAesCryptCbc
  dsimp only
  rw [outputLen, size, if_neg (by omega), Int.toNat_natCast, input]

/-- A turn of the reader compresses the cipher text of its packet and sends it. -/
theorem recvTunDeviceThread_eq (host : ByteOrder) (lib : Libraries) (outcomes : Outcomes) (pr : Peer)
    (packet : List UInt8) (nonempty : utunRead packet ≠ []) :
    recvTunDeviceThread host lib outcomes pr packet =
      let read := utunRead packet
      match compress lib (4 * blocks read.length) (cipherText lib outcomes pr read) with
      | none => (false, [])
      | some packed =>
          let built := pcpPayloadPkt host outcomes.malloc (block packed (block read outcomes.buf))
            (block (lib.cbcEncrypt (keyBytes pr.key) iv (paddedText outcomes.stack read)) outcomes.bbuf)
            packed.length (UInt16.ofNat read.length)
          (true, (sendtoRemotePeer outcomes built.2 built.1).2) := by
  have small : (utunRead packet).length ≤ 1518 := by simp [utunRead]
  have some_read : (utunRead packet).length ≠ 0 := fun empty => nonempty (List.length_eq_zero_iff.mp empty)
  have unequal : (blocks (utunRead packet).length : Int) ≠ error := by
    unfold error
    omega
  have room : ((blocks (utunRead packet).length : Int) * 4).toNat = 4 * blocks (utunRead packet).length := by omega
  unfold recvTunDeviceThread
  dsimp only
  rw [if_neg some_read, encryptByAes256_eq _ _ _ _ _ _ (by omega)]
  dsimp only
  rw [if_neg unequal, room, Int.toNat_natCast]
  rfl

theorem length_cipherText (lib : Libraries) (outcomes : Outcomes) (pr : Peer) (read : List UInt8) :
    (cipherText lib outcomes pr read).length = blocks read.length := length_bytesOf _ _

/-- A reader goes on and stays quiet as long as its compressed texts fit. -/
theorem recvTunDeviceThread_cases (host : ByteOrder) (lib : Libraries) (outcomes : Outcomes) (pr : Peer)
    (packet : List UInt8) :
    ((utunRead packet = [] ∨ CompressFits lib (cipherText lib outcomes pr (utunRead packet))) ∧
      (recvTunDeviceThread host lib outcomes pr packet).1 = true ∧
        Quiet (recvTunDeviceThread host lib outcomes pr packet).2) ∨
    (¬ (utunRead packet = [] ∨ CompressFits lib (cipherText lib outcomes pr (utunRead packet))) ∧
      recvTunDeviceThread host lib outcomes pr packet = (false, [])) := by
  by_cases empty : utunRead packet = []
  · left
    simp [empty, recvTunDeviceThread]
  · rw [recvTunDeviceThread_eq host lib outcomes pr packet empty, CompressFits, length_cipherText]
    dsimp only
    unfold compress
    by_cases fits : (lib.deflate (cipherText lib outcomes pr (utunRead packet))).length ≤
      4 * blocks (utunRead packet).length
    · left
      simp only [if_pos fits]
      exact ⟨.inr fits, trivial, sendtoRemotePeer_quiet _ _ _⟩
    · right
      simp [fits, empty]

/-- These are the steps of a process, with what each of them changes and with its calls. -/
inductive Transition (host : ByteOrder) (lib : Libraries) (pr : Peer) (readers : Nat) :
    PeerInput → Process → List Call → Prop
  /-- A search for the remote peer fails and is armed again. -/
  | retried (outcomes : Outcomes) (table : Bucket) (calls : List Call) (pending : pr.fpEvent = true)
      (quiet : Quiet calls) :
      Transition host lib pr readers (.expire .fpEvent outcomes) ⟨{ pr with peer := table }, readers⟩ calls
  | found (outcomes : Outcomes) (table : Bucket) (calls : List Call) (address : SockAddr) (pending : pr.fpEvent = true)
      (quiet : Quiet calls) : Transition host lib pr readers (.expire .fpEvent outcomes)
        ⟨{ pr with fpEvent := false, peer := table, remotePeerAddr := address, helloEvent := true }, readers⟩
        (calls ++ [.found address, .eventAssign .helloEvent pr.helloEvent])
  | greeted (outcomes : Outcomes) (calls : List Call) (pending : pr.helloEvent = true) (waiting : pr.helloed = 0)
      (quiet : Quiet calls) : Transition host lib pr readers (.expire .helloEvent outcomes) ⟨pr, readers⟩ calls
  /-- A connected peer drops the timer of its greeting. -/
  | dropped (outcomes : Outcomes) (pending : pr.helloEvent = true) (connected : pr.helloed ≠ 0) :
      Transition host lib pr readers (.expire .helloEvent outcomes) ⟨{ pr with helloEvent := false }, readers⟩ []
  | beat (outcomes : Outcomes) (counts : Int) (calls : List Call) (pending : pr.hbEvent = true)
      (answered : pr.synCounts ≠ 0) (quiet : Quiet calls) :
      Transition host lib pr readers (.expire .hbEvent outcomes) ⟨{ pr with synCounts := counts }, readers⟩ calls
  | tornDown (outcomes : Outcomes) (pending : pr.hbEvent = true) (unanswered : pr.synCounts = 0) :
      Transition host lib pr readers (.expire .hbEvent outcomes)
        ⟨{ pr with helloed := 0, synCounts := 3, helloEvent := true, hbEvent := false }, readers⟩
        [.utunClose pr.tunFd]
  | received (srcAddr : SockAddr) (datagram : List UInt8) (outcomes : Outcomes) (counts : Int) (calls : List Call)
      (plain : ¬ AcceptsHello pr srcAddr datagram outcomes)
      (noPayload : ¬ AcceptsPayload host lib pr srcAddr datagram outcomes) (quiet : Quiet calls) :
      Transition host lib pr readers (.arrive srcAddr datagram outcomes)
        ⟨{ pr with synCounts := counts }, readers⟩ calls
  | delivered (srcAddr : SockAddr) (datagram : List UInt8) (outcomes : Outcomes) (calls : List Call)
      (bytes : List UInt8) (accepted : AcceptsPayload host lib pr srcAddr datagram outcomes) (quiet : Quiet calls) :
      Transition host lib pr readers (.arrive srcAddr datagram outcomes) ⟨pr, readers⟩
        (calls ++ [.utunWrite pr.tunFd bytes])
  | openFailed (srcAddr : SockAddr) (datagram : List UInt8) (outcomes : Outcomes)
      (handles : Handles pr srcAddr datagram outcomes) (known : srcAddr ≠ noAddress) (waiting : pr.helloed = 0)
      (unopened : ¬ 0 < outcomes.utunOpen) : Transition host lib pr readers (.arrive srcAddr datagram outcomes)
        ⟨{ pr with tunFd := outcomes.utunOpen }, readers⟩ [.content 0 4, .utunOpen outcomes.utunOpen]
  | threadFailed (srcAddr : SockAddr) (datagram : List UInt8) (outcomes : Outcomes)
      (accepted : AcceptsHello pr srcAddr datagram outcomes) (known : srcAddr ≠ noAddress)
      (refused : outcomes.pthreadCreate < 0) : Transition host lib pr readers (.arrive srcAddr datagram outcomes)
        ⟨{ pr with tunFd := outcomes.utunOpen }, readers⟩
        [.content 0 4, .utunOpen outcomes.utunOpen, .pthreadCreate outcomes.pthreadCreate]
  | connected (srcAddr : SockAddr) (datagram : List UInt8) (outcomes : Outcomes)
      (accepted : AcceptsHello pr srcAddr datagram outcomes) (known : srcAddr ≠ noAddress)
      (created : 0 ≤ outcomes.pthreadCreate) : Transition host lib pr readers (.arrive srcAddr datagram outcomes)
        ⟨{ pr with tunFd := outcomes.utunOpen, helloed := 1, hbEvent := true },
          if outcomes.pthreadCreate = 0 then readers + 1 else readers⟩
        [.content 0 4, .utunOpen outcomes.utunOpen, .pthreadCreate outcomes.pthreadCreate,
          .eventAssign .hbEvent pr.hbEvent]
  | sent (packet : List UInt8) (outcomes : Outcomes) (calls : List Call) (live : readers ≠ 0)
      (fits : utunRead packet = [] ∨ CompressFits lib (cipherText lib outcomes pr (utunRead packet)))
      (quiet : Quiet calls) : Transition host lib pr readers (.read packet outcomes) ⟨pr, readers⟩ calls
  | returned (packet : List UInt8) (outcomes : Outcomes) (live : readers ≠ 0)
      (large : ¬ (utunRead packet = [] ∨ CompressFits lib (cipherText lib outcomes pr (utunRead packet)))) :
      Transition host lib pr readers (.read packet outcomes) ⟨pr, readers - 1⟩ []

section Callbacks

variable (host : ByteOrder) (lib : Libraries) (outcomes : Outcomes) (pr : Peer) (readers : Nat)

/-- A search either changes the table only, or it sets the address of the remote peer. -/
theorem findRemotePeer_cases :
    (∃ table calls, Quiet calls ∧
      findRemotePeer host outcomes pr = ({ pr with peer := table, fpEvent := true }, calls)) ∨
    (∃ table calls address, Quiet calls ∧ findRemotePeer host outcomes pr =
      ({ pr with peer := table, remotePeerAddr := address, helloEvent := true },
        calls ++ [.found address, .eventAssign .helloEvent pr.helloEvent])) := by
  unfold findRemotePeer
  dsimp only
  split
  · exact .inl ⟨pr.peer, [], quiet_nil, rfl⟩
  · split
    · exact .inl ⟨pr.peer, _, by simp [Call.Quiet], rfl⟩
    · split
      · exact .inl ⟨pr.peer, _, by simp [Call.Quiet], rfl⟩
      · split
        · exact .inl ⟨_, _, by simp [Call.Quiet], rfl⟩
        · split
          · exact .inl ⟨_, _, by simp [Call.Quiet], rfl⟩
          · exact .inr ⟨_, _, _, by simp [Call.Quiet], rfl⟩

theorem udpHolingHello_cases :
    (pr.helloed ≠ 0 ∧ udpHolingHello host outcomes pr = (pr, [])) ∨
    (pr.helloed = 0 ∧ ∃ calls, Quiet calls ∧
      udpHolingHello host outcomes pr = ({ pr with helloEvent := true }, calls)) := by
  unfold udpHolingHello
  by_cases connected : pr.helloed = 0
  · right
    refine ⟨connected, ?_⟩
    rw [if_neg (by simp [connected])]
    dsimp only
    split
    · exact ⟨_, quiet_nil, rfl⟩
    · split
      · exact ⟨_, quiet_nil, rfl⟩
      · exact ⟨_, by simp [Call.Quiet], rfl⟩
  · exact .inl ⟨connected, if_pos connected⟩

theorem peerHeartbeat_cases :
    (pr.synCounts = 0 ∧ peerHeartbeat host outcomes pr =
      ({ pr with helloed := 0, synCounts := 3, helloEvent := true }, [.utunClose pr.tunFd])) ∨
    (pr.synCounts ≠ 0 ∧ ∃ counts calls, Quiet calls ∧
      peerHeartbeat host outcomes pr = ({ pr with synCounts := counts, hbEvent := true }, calls)) := by
  unfold peerHeartbeat
  by_cases broken : pr.synCounts = 0
  · exact .inl ⟨broken, if_pos broken⟩
  · right
    refine ⟨broken, ?_⟩
    rw [if_neg broken]
    dsimp only
    split
    · exact ⟨pr.synCounts, _, quiet_nil, rfl⟩
    · exact ⟨_, _, sendtoRemotePeer_quiet _ _ _, rfl⟩

/-- A datagram that is not handled changes nothing. -/
theorem udpRecvCb_ignored {srcAddr : SockAddr} {datagram : List UInt8}
    (ignored : ¬ Handles pr srcAddr datagram outcomes) :
    pr.udpRecvCb host lib outcomes srcAddr datagram = (pr, []) := by
  have length : (datagram.take bufferSize).length = min bufferSize datagram.length := List.length_take
  unfold Peer.udpRecvCb
  dsimp only
  by_cases failure : outcomes.recvfrom < 0
  · rw [if_pos failure, if_neg (by omega)]
  · rw [if_neg failure]
    by_cases source : srcAddr = pr.remotePeerAddr
    · have short : datagram.length < 4 := by
        by_contra complete
        exact ignored ⟨source, by omega, by omega⟩
      have small : sizeT ((datagram.take bufferSize).length : Int) < 4 := by
        rw [sizeT_natCast (by omega)]
        omega
      rw [recvedPktUnpack, if_pos small, if_pos source, ite_self]
    · rw [if_neg source, ite_self]

theorem udpRecvCb_handled {srcAddr : SockAddr} {datagram : List UInt8}
    (handles : Handles pr srcAddr datagram outcomes) :
    pr.udpRecvCb host lib outcomes srcAddr datagram =
      recvedPktUnpack host lib outcomes pr (arrived outcomes datagram) (datagram.take bufferSize).length ∧
        ¬ sizeT ((datagram.take bufferSize).length : Int) < 4 := by
  have length : (datagram.take bufferSize).length = min bufferSize datagram.length := List.length_take
  have complete := handles.complete
  have long : 4 ≤ (datagram.take bufferSize).length := by
    rw [length]
    unfold bufferSize
    omega
  constructor
  · unfold Peer.udpRecvCb
    dsimp only
    rw [if_neg (not_lt.mpr handles.received), if_pos (by omega), if_pos handles.source]
    rfl
  · have bound : bufferSize < 2 ^ 64 := by decide
    rw [sizeT_natCast (by omega)]
    omega

/-- The answer to a greeting or a heartbeat is quiet. -/
theorem answer_quiet (built : Int × Block) :
    ∃ calls, Quiet calls ∧ (if built.1 = error then (pr, [Call.content 0 4])
      else (pr, Call.content 0 4 :: (sendtoRemotePeer outcomes built.2 built.1).2)) = (pr, calls) := by
  split
  · exact ⟨_, by simp [Call.Quiet], rfl⟩
  · exact ⟨_, (quiet_cons (.content 0 4) _).mpr ⟨trivial, sendtoRemotePeer_quiet _ _ _⟩, rfl⟩

/-- An acknowledged hello fails to open the device or to start its reader, or it connects the peer. -/
theorem recvedHelloAck_cases :
    (pr.helloed ≠ 0 ∧ recvedHelloAck outcomes pr = (pr, [])) ∨
    (pr.helloed = 0 ∧ ¬ 0 < outcomes.utunOpen ∧ recvedHelloAck outcomes pr =
      ({ pr with tunFd := outcomes.utunOpen }, [.utunOpen outcomes.utunOpen])) ∨
    (pr.helloed = 0 ∧ 0 < outcomes.utunOpen ∧ outcomes.pthreadCreate < 0 ∧ recvedHelloAck outcomes pr =
      ({ pr with tunFd := outcomes.utunOpen },
        [.utunOpen outcomes.utunOpen, .pthreadCreate outcomes.pthreadCreate])) ∨
    (pr.helloed = 0 ∧ 0 < outcomes.utunOpen ∧ 0 ≤ outcomes.pthreadCreate ∧ recvedHelloAck outcomes pr =
      ({ pr with tunFd := outcomes.utunOpen, helloed := 1, hbEvent := true },
        [.utunOpen outcomes.utunOpen, .pthreadCreate outcomes.pthreadCreate, .eventAssign .hbEvent pr.hbEvent])) := by
  unfold recvedHelloAck initTunDevice
  by_cases waiting : pr.helloed = 0
  · right
    rw [if_neg (by simp [waiting])]
    by_cases opened : 0 < outcomes.utunOpen
    · right
      simp only [if_neg (not_le.mpr opened), ne_eq, not_true_eq_false, if_false]
      by_cases refused : outcomes.pthreadCreate < 0
      · exact .inl ⟨waiting, opened, refused, if_pos refused⟩
      · exact .inr ⟨waiting, opened, not_lt.mp refused, if_neg refused⟩
    · left
      have unequal : failed ≠ ok := by decide
      refine ⟨waiting, opened, ?_⟩
      dsimp only
      rw [if_pos (not_lt.mp opened), if_pos unequal]
  · exact .inl ⟨waiting, if_pos waiting⟩

variable {srcAddr : SockAddr} {datagram : List UInt8}

theorem helloAck_transition (known : srcAddr ≠ noAddress) (handles : Handles pr srcAddr datagram outcomes)
    (flags : arrived outcomes datagram 1 = fHelloAck) :
    let result := recvedHelloAck outcomes pr
    Transition host lib pr readers (.arrive srcAddr datagram outcomes)
      ⟨result.1, readers + started (.content 0 4 :: result.2)⟩ (.content 0 4 :: result.2) := by
  intro result
  rcases recvedHelloAck_cases outcomes pr with ⟨already, same⟩ | ⟨waiting, unopened, failure⟩ |
    ⟨waiting, opened, refused, failure⟩ | ⟨waiting, opened, created, success⟩
  · have noPayload : ¬ AcceptsPayload host lib pr srcAddr datagram outcomes := fun accepts =>
      absurd (flags.symm.trans accepts.flags) (by decide)
    have quiet : Quiet [.content 0 4] := by simp [Call.Quiet]
    rw [show result = (pr, []) from same, quiet.started]
    exact .received srcAddr datagram outcomes pr.synCounts _ (fun accepts => already accepts.waiting) noPayload quiet
  · have none_started : started (.content 0 4 :: result.2) = 0 := by simp [result, failure, started]
    rw [none_started, show result = _ from failure]
    exact .openFailed srcAddr datagram outcomes handles known waiting unopened
  · have nonzero : outcomes.pthreadCreate ≠ 0 := by omega
    have none_started : started (.content 0 4 :: result.2) = 0 := by simp [result, failure, started, nonzero]
    rw [none_started, show result = _ from failure]
    exact .threadFailed srcAddr datagram outcomes ⟨handles, flags, waiting, opened⟩ known refused
  · have joined : readers + started (.content 0 4 :: result.2) =
        if outcomes.pthreadCreate = 0 then readers + 1 else readers := by
      simp only [result, success, started]
      by_cases zero : outcomes.pthreadCreate = 0 <;> simp [zero]
    rw [joined, show result = _ from success]
    exact .connected srcAddr datagram outcomes ⟨handles, flags, waiting, opened⟩ known created

theorem payload_transition (handles : Handles pr srcAddr datagram outcomes)
    (flags : arrived outcomes datagram 1 = fPayload) :
    let calls := Call.content 0 4 :: recvedPayload host lib outcomes pr (arrived outcomes datagram)
      (datagram.take bufferSize).length
    Transition host lib pr readers (.arrive srcAddr datagram outcomes) ⟨pr, readers + started calls⟩ calls := by
  intro calls
  rcases recvedPayload_cases host lib outcomes pr (arrived outcomes datagram) (datagram.take bufferSize).length with
    ⟨accepted, before, bytes, quiet, written⟩ | ⟨rejected, quiet⟩
  · have quiet' : Quiet (.content 0 4 :: before) := (quiet_cons (.content 0 4) _).mpr ⟨trivial, quiet⟩
    have calls_eq : calls = (.content 0 4 :: before) ++ [.utunWrite pr.tunFd bytes] := by
      rw [List.cons_append, ← written]
    have none_started : started calls = 0 := by
      rw [calls_eq, started, List.count_append, ← started, quiet'.started]
      simp
    rw [none_started, calls_eq]
    exact .delivered srcAddr datagram outcomes _ bytes ⟨handles, flags, accepted⟩ quiet'
  · have quiet' : Quiet calls := (quiet_cons (.content 0 4) _).mpr ⟨trivial, quiet⟩
    rw [quiet'.started]
    exact .received srcAddr datagram outcomes pr.synCounts calls
      (fun accepts => absurd (flags.symm.trans accepts.flags) (by decide))
      (fun accepts => rejected accepts.payload) quiet'

/-- A datagram from a peer makes one of the transitions. -/
theorem arrive_transition (known : srcAddr ≠ noAddress) :
    let result := pr.udpRecvCb host lib outcomes srcAddr datagram
    Transition host lib pr readers (.arrive srcAddr datagram outcomes)
      ⟨result.1, readers + started result.2⟩ result.2 := by
  intro result
  have keep (counts : Int) (calls : List Call) (plain : ¬ AcceptsHello pr srcAddr datagram outcomes)
      (noPayload : ¬ AcceptsPayload host lib pr srcAddr datagram outcomes) (quiet : Quiet calls)
      (same : result = ({ pr with synCounts := counts }, calls)) :
      Transition host lib pr readers (.arrive srcAddr datagram outcomes)
        ⟨result.1, readers + started result.2⟩ result.2 := by
    rw [same, quiet.started]
    exact .received srcAddr datagram outcomes counts calls plain noPayload quiet
  by_cases handles : Handles pr srcAddr datagram outcomes
  · obtain ⟨handled, complete⟩ := udpRecvCb_handled host lib outcomes pr handles
    have result_eq : result = recvedPktUnpack host lib outcomes pr (arrived outcomes datagram)
      (datagram.take bufferSize).length := handled
    unfold recvedPktUnpack at result_eq
    rw [if_neg complete] at result_eq
    dsimp only at result_eq
    have other (flags : UInt8) (here : arrived outcomes datagram 1 = flags) (notHello : flags ≠ fHelloAck)
        (notPayload : flags ≠ fPayload) : ¬ AcceptsHello pr srcAddr datagram outcomes ∧
          ¬ AcceptsPayload host lib pr srcAddr datagram outcomes :=
      ⟨fun accepts => notHello (here.symm.trans accepts.flags),
        fun accepts => notPayload (here.symm.trans accepts.flags)⟩
    -- The cases follow the switch on the flags of the packet.
    by_cases helloSyn : arrived outcomes datagram 1 = fHelloSyn
    · rw [if_pos helloSyn] at result_eq
      obtain ⟨calls, quiet, answered⟩ := answer_quiet outcomes pr (pcpHelloAck host outcomes.malloc outcomes.stack)
      obtain ⟨plain, noPayload⟩ := other _ helloSyn (by decide) (by decide)
      exact keep pr.synCounts calls plain noPayload quiet (result_eq.trans answered)
    · rw [if_neg helloSyn] at result_eq
      by_cases helloAck : arrived outcomes datagram 1 = fHelloAck
      · rw [if_pos helloAck] at result_eq
        rw [result_eq]
        exact helloAck_transition host lib outcomes pr readers known handles helloAck
      · rw [if_neg helloAck] at result_eq
        by_cases hbSyn : arrived outcomes datagram 1 = fHbSyn
        · rw [if_pos hbSyn] at result_eq
          obtain ⟨calls, quiet, answered⟩ := answer_quiet outcomes pr (pcpHbAck host outcomes.malloc outcomes.stack)
          obtain ⟨plain, noPayload⟩ := other _ hbSyn (by decide) (by decide)
          exact keep pr.synCounts calls plain noPayload quiet (result_eq.trans answered)
        · rw [if_neg hbSyn] at result_eq
          by_cases hbAck : arrived outcomes datagram 1 = fHbAck
          · rw [if_pos hbAck] at result_eq
            obtain ⟨plain, noPayload⟩ := other _ hbAck (by decide) (by decide)
            exact keep (pr.synCounts + 1) _ plain noPayload (by simp [Call.Quiet]) result_eq
          · rw [if_neg hbAck] at result_eq
            by_cases payload : arrived outcomes datagram 1 = fPayload
            · rw [if_pos payload] at result_eq
              rw [result_eq]
              exact payload_transition host lib outcomes pr readers handles payload
            · rw [if_neg payload] at result_eq
              obtain ⟨plain, noPayload⟩ := other _ rfl helloAck payload
              exact keep pr.synCounts _ plain noPayload (by simp [Call.Quiet]) result_eq
  · have ignored := udpRecvCb_ignored host lib outcomes pr handles
    exact keep pr.synCounts [] (fun accepts => handles accepts.toHandles) (fun accepts => handles accepts.toHandles)
      quiet_nil ignored

end Callbacks

/-- Setting a pending timer again changes nothing. -/
theorem restored {pr : Peer} (timer : Timer) (pending : pr.pending timer = true) :
    match timer with
    | .fpEvent => ∀ table, ({ pr with peer := table, fpEvent := true } : Peer) = { pr with peer := table }
    | .helloEvent => ({ pr with helloEvent := true } : Peer) = pr
    | .hbEvent => ∀ counts,
        ({ pr with synCounts := counts, hbEvent := true } : Peer) = { pr with synCounts := counts } := by
  cases timer <;> simp only [Peer.pending] at pending <;> simp [← pending]

/-- An expired timer makes one of the transitions. -/
theorem expire_transition (host : ByteOrder) (lib : Libraries) (outcomes : Outcomes) (pr : Peer) (readers : Nat)
    (timer : Timer) (pending : pr.pending timer = true) :
    let result := timer.callback host outcomes (pr.expired timer)
    Transition host lib pr readers (.expire timer outcomes) ⟨result.1, readers + started result.2⟩ result.2 := by
  intro result
  have same := restored timer pending
  cases timer with
  | fpEvent =>
      rcases findRemotePeer_cases host outcomes (pr.expired .fpEvent) with
        ⟨table, calls, quiet, failure⟩ | ⟨table, calls, address, quiet, success⟩
      · have result_eq : result = ({ pr with peer := table }, calls) := by
          rw [← same table]
          exact failure
        rw [result_eq, quiet.started]
        exact .retried outcomes table calls pending quiet
      · have result_eq : result = _ := success
        have none_started : started result.2 = 0 := by
          rw [result_eq, started, List.count_append, show List.count _ calls = 0 from quiet.started]
          simp
        rw [none_started, result_eq]
        exact .found outcomes table calls address pending quiet
  | helloEvent =>
      rcases udpHolingHello_cases host outcomes (pr.expired .helloEvent) with
        ⟨connected, dropped⟩ | ⟨waiting, calls, quiet, sent⟩
      · have result_eq : result = _ := dropped
        rw [result_eq, quiet_nil.started]
        exact .dropped outcomes pending connected
      · have result_eq : result = (pr, calls) := by
          rw [← same]
          exact sent
        rw [result_eq, quiet.started]
        exact .greeted outcomes calls pending waiting quiet
  | hbEvent =>
      rcases peerHeartbeat_cases host outcomes (pr.expired .hbEvent) with
        ⟨unanswered, closed⟩ | ⟨answered, counts, calls, quiet, sent⟩
      · have result_eq : result = _ := closed
        have none_started : started result.2 = 0 := by simp [result_eq, started]
        rw [none_started, result_eq]
        exact .tornDown outcomes pending unanswered
      · have result_eq : result = ({ pr with synCounts := counts }, calls) := by
          rw [← same counts]
          exact sent
        rw [result_eq, quiet.started]
        exact .beat outcomes counts calls pending answered quiet

section Step

variable {host : ByteOrder} {lib : Libraries} {process next : Process} {calls : List Call}

/-- A timer that expires was pending. -/
theorem peerStep_expire {timer : Timer} {outcomes : Outcomes}
    (stepped : peerStep host lib process (.expire timer outcomes) = some (next, calls)) :
    process.pr.pending timer = true ∧
      next = ⟨(timer.callback host outcomes (process.pr.expired timer)).1, process.readers + started calls⟩ ∧
        calls = (timer.callback host outcomes (process.pr.expired timer)).2 := by
  simp only [peerStep] at stepped
  split at stepped
  · rename_i pending
    obtain ⟨rfl, rfl⟩ := Prod.mk.inj (Option.some.inj stepped)
    exact ⟨pending, rfl, rfl⟩
  · cases stepped

/-- A datagram that arrives comes from some address. -/
theorem peerStep_arrive {srcAddr : SockAddr} {datagram : List UInt8} {outcomes : Outcomes}
    (stepped : peerStep host lib process (.arrive srcAddr datagram outcomes) = some (next, calls)) :
    srcAddr ≠ noAddress ∧
      next = ⟨(process.pr.udpRecvCb host lib outcomes srcAddr datagram).1, process.readers + started calls⟩ ∧
        calls = (process.pr.udpRecvCb host lib outcomes srcAddr datagram).2 := by
  simp only [peerStep] at stepped
  split at stepped
  · cases stepped
  · rename_i known
    obtain ⟨rfl, rfl⟩ := Prod.mk.inj (Option.some.inj stepped)
    exact ⟨known, rfl, rfl⟩

/-- A reader that gets a packet was live. -/
theorem peerStep_read {packet : List UInt8} {outcomes : Outcomes}
    (stepped : peerStep host lib process (.read packet outcomes) = some (next, calls)) :
    process.readers ≠ 0 ∧
      next = { process with
        readers := if (recvTunDeviceThread host lib outcomes process.pr packet).1 then process.readers
          else process.readers - 1 } ∧
        calls = (recvTunDeviceThread host lib outcomes process.pr packet).2 := by
  simp only [peerStep] at stepped
  split at stepped
  · cases stepped
  · rename_i live
    obtain ⟨rfl, rfl⟩ := Prod.mk.inj (Option.some.inj stepped)
    exact ⟨live, rfl, rfl⟩

end Step

/-- Every step of a process is one of the transitions. -/
theorem peerStep_transition {host : ByteOrder} {lib : Libraries} {process next : Process} {input : PeerInput}
    {calls : List Call} (stepped : peerStep host lib process input = some (next, calls)) :
    Transition host lib process.pr process.readers input next calls := by
  cases input with
  | expire timer outcomes =>
      obtain ⟨pending, rfl, rfl⟩ := peerStep_expire stepped
      exact expire_transition host lib outcomes process.pr process.readers timer pending
  | arrive srcAddr datagram outcomes =>
      obtain ⟨known, rfl, rfl⟩ := peerStep_arrive stepped
      exact arrive_transition host lib outcomes process.pr process.readers known
  | read packet outcomes =>
      obtain ⟨live, rfl, rfl⟩ := peerStep_read stepped
      rcases recvTunDeviceThread_cases host lib outcomes process.pr packet with
        ⟨fits, goes, quiet⟩ | ⟨large, returns⟩
      · rw [if_pos goes]
        exact .sent packet outcomes _ live fits quiet
      · simp only [returns]
        exact .returned packet outcomes live large

end Nose
