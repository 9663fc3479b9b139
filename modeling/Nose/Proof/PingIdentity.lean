import Nose.Proof.SocketCount

namespace Nose

open CMemory

/-- The receiver of an id reads the characters that its twenty bytes hold. -/
theorem cstr_copyId (target : CharArray 21) (src : Block) :
    cstr (copyId target src).toList = cstr (bytesOf src 20) := by
  rw [copyId, toList_terminateId, cstr_append_zero]
  apply cstr_congr
  · simp [idBytes]
  · intro i inside before
    rw [length_bytesOf] at inside
    have plain : (List.range i).all (fun j => src j ≠ 0) = true := by
      rw [List.all_eq_true]
      intro j member
      have small := List.mem_range.mp member
      have nonzero := before j small
      rw [getD_bytesOf (by omega)] at nonzero
      simpa using nonzero
    rw [idBytes, getD_bytesOf inside, getD_bytesOf inside, CharArray.memory_apply _ (by omega), CharArray.strncpy,
      Vector.getElem_ofFn, if_pos inside, if_pos plain]

theorem zero_mem_copyId (target : CharArray 21) (src : Block) : 0 ∈ (copyId target src).toList := by
  rw [copyId, toList_terminateId]
  simp

/-- A terminated id is the string of its first twenty bytes. -/
theorem cstr_idBytes {id : CharArray 21} (terminated : 0 ∈ id.toList) : cstr (idBytes id) = cstr id.toList := by
  rw [toList_eq_idBytes] at terminated ⊢
  rcases List.mem_append.mp terminated with inside | last
  · exact (cstr_append inside _).symm
  · rw [← List.mem_singleton.mp last, cstr_append_zero]

/-- An id that travels in a packet is read as itself when it is terminated. -/
theorem cstr_copyId_memory {id : CharArray 21} (terminated : 0 ∈ id.toList) {src : Block} (target : CharArray 21)
    (agree : ∀ i < 20, src i = id.memory i) : cstr (copyId target src).toList = cstr id.toList := by
  have bytes : bytesOf src 20 = idBytes id := bytesOf_congr agree
  rw [cstr_copyId, bytes, cstr_idBytes terminated]

/-- A packet with two ids carries their bytes. -/
structure CarriesIds (b : Block) (type code : UInt8) (sourceId targetId : CharArray 21) : Prop where
  type : b 0 = type
  code : b 1 = code
  target : ∀ i < 20, b (4 + i) = targetId.memory i
  source : ∀ i < 20, b (24 + i) = sourceId.memory i

/-- Both ids lie behind the header of a packet that is built in one allocation and copied. -/
theorem carriesIds_memcpy {base : Block} {type code : UInt8} (first : base 0 = type) (second : base 1 = code)
    (sourceId targetId : CharArray 21) (buf : Block) :
    CarriesIds (memcpy buf 0 (memcpy (memcpy base 24 sourceId.memory 20) 4 targetId.memory 20) 44) type code sourceId
      targetId where
  type := by
    rw [memcpy_inside (by omega) (by omega), memcpy_outside (by omega), memcpy_outside (by omega)]
    exact first
  code := by
    rw [memcpy_inside (by omega) (by omega), memcpy_outside (by omega), memcpy_outside (by omega)]
    exact second
  target i inside := by
    rw [memcpy_inside (by omega) (by omega), Nat.sub_zero, memcpy_inside (by omega) (by omega),
      Nat.add_sub_cancel_left]
  source i inside := by
    rw [memcpy_inside (by omega) (by omega), Nat.sub_zero, memcpy_outside (by omega),
      memcpy_inside (by omega) (by omega), Nat.add_sub_cancel_left]

theorem header_bytes (block : Block) (type code : UInt8) :
    header block type code 0 = type ∧ header block type code 1 = code := by
  simp [header, setByte]

theorem pingReqPkt_carries (host : ByteOrder) (old : Block) (sourceId targetId : CharArray 21) (buf : Block) :
    CarriesIds (pmpPingReqPkt host (some old) sourceId targetId buf).2 ping req sourceId targetId := by
  obtain ⟨type, code⟩ := header_bytes old ping req
  have first : store16 host (header old ping req) 2 0 0 = ping := by rw [store16_other (by omega), type]
  have second : store16 host (header old ping req) 2 0 1 = req := by rw [store16_other (by omega), code]
  exact carriesIds_memcpy first second sourceId targetId buf

theorem pingRspPkt_carries (old : Block) (sourceId targetId : CharArray 21) (buf : Block) :
    CarriesIds (pmpPingRspPkt (some old) sourceId targetId buf).2 ping rsp sourceId targetId := by
  obtain ⟨type, code⟩ := header_bytes old ping rsp
  exact carriesIds_memcpy type code sourceId targetId buf

/-- The receiver of the first 44 bytes finds the same ids over its old bytes. -/
theorem CarriesIds.delivered {b : Block} {type code : UInt8} {sourceId targetId : CharArray 21}
    (carries : CarriesIds b type code sourceId targetId) (stale : Block) :
    (bytesOf b 44).take bufsiz = bytesOf b 44 ∧
      CarriesIds (block (bytesOf b 44) stale) type code sourceId targetId := by
  refine ⟨List.take_of_length_le (by rw [length_bytesOf]; decide), ?_, ?_, fun i inside => ?_, fun i inside => ?_⟩
  · rw [block_bytesOf (by omega), carries.type]
  · rw [block_bytesOf (by omega), carries.code]
  · rw [block_bytesOf (by omega), carries.target i inside]
  · rw [block_bytesOf (by omega), carries.source i inside]

/-- The answer to a ping carries the ids of the ping, each one in the place of the other. -/
theorem receive_ping {host : ByteOrder} {around : Surroundings} {stale : Block} {mstp : MasterPeer} {b : Block}
    {sourceId targetId : CharArray 21} {answer : List UInt8} (carries : CarriesIds b ping req sourceId targetId)
    (answered : (receive host around stale mstp (bytesOf b 44)).2 = some answer) :
    ∃ first second built, (∀ i < 20, first i = targetId.memory i) ∧ (∀ i < 20, second i = sourceId.memory i) ∧
      answer = bytesOf built 44 ∧
        CarriesIds built ping rsp (copyId around.targetId first) (copyId around.sourceId second) := by
  obtain ⟨whole, delivered⟩ := carries.delivered stale
  have size : sizeT ((bytesOf b 44).length : Int) = 44 := by
    rw [length_bytesOf]
    rfl
  rw [receive, whole] at answered
  rw [udpRecvCb_ping _ _ _ _ _ delivered.type delivered.code (by rw [size])] at answered
  cases allocated : around.malloc with
  | none => simp [allocated, pmpPingRspPkt, idsRspPkt, respond, error] at answered
  | some old =>
      rw [allocated] at answered
      exact ⟨_, _, _, delivered.target, delivered.source, (Option.some.inj answered).symm, pingRspPkt_carries old _ _ _⟩

/-- The sender reads both ids of the answer. -/
theorem pingPeer_report {host : ByteOrder} {around : Surroundings} {net : UdpOutcomes} {mstp : MasterPeer} {slot : Int}
    {bkt : Bucket} (chosen : getNextBucketItem mstp.masterPeerBkt = some (slot, bkt)) {source : SockAddr} {b : Block}
    {code : UInt8} {sourceId targetId : CharArray 21} (carries : CarriesIds b ping code sourceId targetId)
    (received : net.recvfrom = some (source, bytesOf b 44)) :
    ∃ first second, (∀ i < 20, first i = sourceId.memory i) ∧ (∀ i < 20, second i = targetId.memory i) ∧
      (mstp.pingPeer host around net).1.map Prod.snd = some
        (if strcmp ((around.push 0).past 0) (copyId around.sourceId first).toList (bkt.b slot.toNat).nodeId.toList ∧
            strcmp ((around.push 0).past 1) (copyId around.targetId second).toList mstp.nodeId.toList then
          .alive (cstr (copyId around.sourceId first).toList)
        else .invalid) := by
  have unpacked (buf : Block) : pmpPingRspUnpack around.sourceId around.targetId buf 44 =
      (ok, copyId around.sourceId (pointer buf 24), copyId around.targetId (pointer buf 4)) := by
    rw [pmpPingRspUnpack, pmpPingReqUnpack, if_neg (by decide)]
  have answer (item : BucketItem) (built : Int × Block) : ∃ calls,
      exchange host net item built = (44, block (bytesOf b 44) built.2, calls) := by
    rw [exchange, recvUdpPkt, received]
    refine ⟨_, Prod.ext ?_ (Prod.ext ?_ rfl)⟩
    · dsimp only
      rw [(carries.delivered built.2).1, length_bytesOf]
      rfl
    · dsimp only
      rw [(carries.delivered built.2).1]
  set built := pmpPingReqPkt host around.malloc mstp.nodeId (bkt.b slot.toNat).nodeId net.buf with request
  obtain ⟨calls, answered⟩ := answer (bkt.b slot.toNat) built
  rw [MasterPeer.pingPeer, chosen]
  dsimp only
  rw [← request, answered]
  dsimp only
  rw [if_pos (by decide), unpacked, if_pos rfl, Option.map_some]
  exact ⟨pointer (block (bytesOf b 44) built.2) 24, pointer (block (bytesOf b 44) built.2) 4,
    (carries.delivered built.2).2.source, (carries.delivered built.2).2.target, by dsimp only⟩

/-- An exchange sends the packet that was built for it. -/
theorem exchange_sent {host : ByteOrder} {net : UdpOutcomes} {item : BucketItem} {built : Int × Block} {sockfd : Int}
    {addr : SockAddr} {request : List UInt8}
    (member : .sendto sockfd addr request ∈ (exchange host net item built).2.2) : request = sent built := by
  rw [exchange] at member
  dsimp only at member
  rw [recvUdpPkt_calls, sendUdpPkt_calls] at member
  split at member
  · simp at member
  · split at member
    · simp at member
    · simp only [List.cons_append, List.nil_append, List.mem_cons, UdpCall.sendto.injEq, reduceCtorEq, false_or,
        or_false, List.not_mem_nil] at member
      exact member.2.2

/-- The first master pings the entry, the second one answers the ping, and its answer is delivered unchanged. -/
structure PingExchange (hostA hostB : ByteOrder) (aroundA aroundB : Surroundings) (net : UdpOutcomes) (stale : Block)
    (a b : MasterPeer) (entry : BucketItem) : Prop where
  chosen : ∃ slot bkt, getNextBucketItem a.masterPeerBkt = some (slot, bkt) ∧ entry = bkt.b slot.toNat
  firstId : strlen a.nodeId.toList = 20
  secondId : strlen b.nodeId.toList = 20
  allocated : aroundA.malloc ≠ none
  answered : ∃ sockfd addr request answer source, .sendto sockfd addr request ∈ (a.pingPeer hostA aroundA net).2 ∧
    (receive hostB aroundB stale b request).2 = some answer ∧ net.recvfrom = some (source, answer)

/-- The first master reports the entry as alive exactly when the second one has its id. -/
def Identifies (hostA : ByteOrder) (aroundA : Surroundings) (net : UdpOutcomes) (a b : MasterPeer)
    (entry : BucketItem) : Prop :=
  (a.pingPeer hostA aroundA net).1.map Prod.snd = some (.alive (cstr entry.nodeId.toList)) ↔
    cstr b.nodeId.toList = cstr entry.nodeId.toList

/-- An answered ping reports its entry as alive when the id of the entry is terminated, whoever answered. -/
theorem PingExchange.alive_iff {hostA hostB : ByteOrder} {aroundA aroundB : Surroundings} {net : UdpOutcomes}
    {stale : Block} {a b : MasterPeer} {entry : BucketItem}
    (exchange : PingExchange hostA hostB aroundA aroundB net stale a b entry) :
    (a.pingPeer hostA aroundA net).1.map Prod.snd = some (.alive (cstr entry.nodeId.toList)) ↔
      0 ∈ entry.nodeId.toList := by
  obtain ⟨slot, bkt, chosen, rfl⟩ := exchange.chosen
  obtain ⟨old, allocated⟩ := Option.ne_none_iff_exists'.mp exchange.allocated
  obtain ⟨sockfd, addr, request, answer, source, member, replied, received⟩ := exchange.answered
  have sentPing : request =
      bytesOf (pmpPingReqPkt hostA (some old) a.nodeId (bkt.b slot.toNat).nodeId net.buf).2 44 := by
    rw [MasterPeer.pingPeer, chosen, allocated] at member
    exact exchange_sent member
  obtain ⟨plain, last⟩ := plain_of_strlen exchange.firstId
  have ownId : 0 ∈ a.nodeId.toList := by
    rw [toList_eq_idBytes, last]
    simp
  rw [sentPing] at replied
  obtain ⟨first, second, built, target, source', rfl, carries⟩ :=
    receive_ping (pingReqPkt_carries hostA old _ _ _) replied
  obtain ⟨third, fourth, answerSource, answerTarget, report⟩ := pingPeer_report chosen carries received
  have own : strcmp ((aroundA.push 0).past 1) (copyId aroundA.targetId fourth).toList a.nodeId.toList = true := by
    rw [strcmp_eq_true _ _ _ ownId (.inl (zero_mem_copyId _ _)),
      cstr_copyId_memory (zero_mem_copyId _ _) _ answerTarget, cstr_copyId_memory ownId _ source']
  have name : cstr (copyId aroundA.sourceId third).toList = cstr (idBytes (bkt.b slot.toNat).nodeId) := by
    rw [cstr_copyId_memory (zero_mem_copyId _ _) _ answerSource, cstr_copyId]
    exact congrArg cstr (bytesOf_congr target)
  rw [report]
  simp only [own, and_true]
  by_cases terminated : 0 ∈ (bkt.b slot.toNat).nodeId.toList
  · have equal : strcmp ((aroundA.push 0).past 0) (copyId aroundA.sourceId third).toList
        (bkt.b slot.toNat).nodeId.toList = true := by
      rw [strcmp_eq_true _ _ _ terminated (.inl (zero_mem_copyId _ _)), name, cstr_idBytes terminated]
    rw [if_pos equal, name, cstr_idBytes terminated]
    exact iff_of_true rfl terminated
  · have different : strcmp ((aroundA.push 0).past 0) (copyId aroundA.sourceId third).toList
        (bkt.b slot.toNat).nodeId.toList = false :=
      strcmp_unterminated _ (zero_mem_copyId _ _) terminated (by simp)
    rw [different]
    simpa using terminated

/-- A ping identifies the master that it reaches exactly when that master has the id of the entry, or the id of the
entry is not terminated. -/
theorem ping_identity_iff {hostA hostB : ByteOrder} {aroundA aroundB : Surroundings} {net : UdpOutcomes}
    {stale : Block} {a b : MasterPeer} {entry : BucketItem}
    (exchange : PingExchange hostA hostB aroundA aroundB net stale a b entry) :
    Identifies hostA aroundA net a b entry ↔
      cstr b.nodeId.toList = cstr entry.nodeId.toList ∨ 0 ∉ entry.nodeId.toList := by
  rw [Identifies, exchange.alive_iff]
  by_cases terminated : 0 ∈ entry.nodeId.toList
  · simp [terminated]
  · have different : cstr b.nodeId.toList ≠ cstr entry.nodeId.toList := by
      intro same
      have length := congrArg List.length same
      rw [cstr_plain terminated, Vector.length_toList] at length
      exact absurd (exchange.secondId.symm.trans length) (by decide)
    simp [terminated, different]

/-- The master whose id repeats a letter. -/
def letterMaster (letter : UInt8) : MasterPeer := { blankMaster with nodeId := letterId letter }

/-- The ping of the sample master to its entry. -/
def pingToEntry : List UInt8 := sent (pmpPingReqPkt .little (some blankBlock) (letterId 97) (letterId 98) blankBlock)

/-- All calls of the ping succeed, and the master with the letter answers it. -/
def answeredPing (letter : UInt8) : UdpOutcomes :=
  let answer := (receive .little blankSurroundings blankBlock (letterMaster letter) pingToEntry).2.getD []
  ⟨5, 0, 44, some (⟨⟨1, 2, 3, 98⟩, htons .little 9998⟩, answer), ⟨0, ⟨⟨0, 0, 0, 0⟩, 0⟩⟩, blankBlock⟩

theorem strlen_letterId {letter : UInt8} (character : letter = 97 ∨ letter = 98 ∨ letter = 99) :
    strlen (letterId letter).toList = 20 := by
  rcases character with rfl | rfl | rfl <;> decide +kernel

/-- Whatever the letter of the master is, it answers the ping. -/
theorem answeredPing_exchange {letter : UInt8} (character : letter = 97 ∨ letter = 98 ∨ letter = 99) :
    PingExchange .little .little blankSurroundings blankSurroundings (answeredPing letter) blankBlock samplePinger
      (letterMaster letter) (claimant 98 98 9998) where
  chosen := ⟨0, ⟨0, 1, fun _ => claimant 98 98 9998⟩, rfl, rfl⟩
  firstId := strlen_letterId (.inl rfl)
  secondId := strlen_letterId character
  allocated := Option.some_ne_none blankBlock
  answered := by
    have answered : (receive .little blankSurroundings blankBlock (letterMaster letter) pingToEntry).2.isSome := by
      rcases character with rfl | rfl | rfl <;> decide +kernel
    obtain ⟨answer, replied⟩ := Option.isSome_iff_exists.mp answered
    refine ⟨5, ⟨DottedQuad.inetAddr (cstr (quad ⟨1, 2, 3, 98⟩).toList), htons .little 9998⟩, pingToEntry, answer,
      ⟨⟨1, 2, 3, 98⟩, htons .little 9998⟩, ?_, replied, ?_⟩
    · exact List.mem_cons_of_mem _ (List.mem_cons_of_mem _ List.mem_cons_self)
    · rw [answeredPing, replied]
      rfl

theorem ping_identity_sample :
    Identifies .little blankSurroundings (answeredPing 98) samplePinger (letterMaster 98) (claimant 98 98 9998) ↔
      cstr (letterMaster 98).nodeId.toList = cstr (claimant 98 98 9998).nodeId.toList ∨
        0 ∉ (claimant 98 98 9998).nodeId.toList :=
  ping_identity_iff (answeredPing_exchange (.inr (.inl rfl)))

/-- A master with another id answers the ping, and the entry is reported as alive. -/
theorem impostor_is_alive :
    PingExchange .little .little blankSurroundings blankSurroundings (answeredPing 99) blankBlock samplePinger
      (letterMaster 99) (claimant 98 98 9998) ∧
    ¬ Identifies .little blankSurroundings (answeredPing 99) samplePinger (letterMaster 99) (claimant 98 98 9998) := by
  have exchange := answeredPing_exchange (.inr (.inr rfl))
  refine ⟨exchange, fun identifies => ?_⟩
  rw [Identifies, exchange.alive_iff] at identifies
  have terminated : 0 ∈ (claimant 98 98 9998).nodeId.toList := by decide +kernel
  have different : cstr (letterMaster 99).nodeId.toList ≠ cstr (claimant 98 98 9998).nodeId.toList := by decide +kernel
  exact different (identifies.mp terminated)

end Nose
