import Nose.Proof.DiscoveryCodec

namespace Nose

open CMemory DottedQuad

/-- The header names one of the five requests that a master handles. -/
def NamesRequest (b : Block) : Prop :=
  b 1 = req ∧ (b 0 = ping ∨ b 0 = disc ∨ b 0 = gPs ∨ b 0 = rP ∨ b 0 = fP)

/-- The fixed size of a request of the given type. -/
def requestSize (type : UInt8) : Nat := if type = rP then 56 else if type = fP then 48 else 44

theorem requestSize_bounds (type : UInt8) : 44 ≤ requestSize type ∧ requestSize type ≤ 56 := by
  unfold requestSize
  split
  · decide
  · split <;> decide

section Requests

variable (host : ByteOrder) (around : Surroundings) (mstp : MasterPeer) (b : Block) (rlen : Int)

/-- Everything but a complete request is dropped. -/
theorem udpRecvCb_dropped (dropped : ¬ (NamesRequest b ∧ requestSize (b 0) ≤ sizeT rlen)) :
    udpRecvCb host around mstp b rlen = (mstp, none) := by
  by_cases long : sizeT rlen > 2
  · by_cases request : b 1 = req
    · have short (named : b 0 = ping ∨ b 0 = disc ∨ b 0 = gPs ∨ b 0 = rP ∨ b 0 = fP) :
          sizeT rlen < requestSize (b 0) := by
        by_contra complete
        exact dropped ⟨⟨request, named⟩, by omega⟩
      simp only [udpRecvCb, if_pos long, if_pos request]
      split
      · rename_i type
        have short := short (.inl type)
        rw [type] at short
        have size : sizeT rlen < 44 := short
        simp [pmpPingReqUnpack, size]
      · split
        · rename_i type
          have short := short (.inr (.inl type))
          rw [type] at short
          have size : sizeT rlen < 44 := short
          simp [pmpDiscoveryReqUnpack, size]
        · split
          · rename_i type
            have short := short (.inr (.inr (.inl type)))
            rw [type] at short
            have size : sizeT rlen < 44 := short
            simp [pmpGetPeersReqUnpack, pmpPingReqUnpack, size]
          · split
            · rename_i type
              have short := short (.inr (.inr (.inr (.inl type))))
              rw [type] at short
              have size : sizeT rlen < 56 := short
              simp [pmpPeerRegistryReqUnpack, size]
            · split
              · rename_i type
                have short := short (.inr (.inr (.inr (.inr type))))
                rw [type] at short
                have size : sizeT rlen < 48 := short
                simp [pmpFindPeerReqUnpack, size]
              · simp [respond]
    · simp [udpRecvCb, long, request, respond]
  · simp [udpRecvCb, long]

/-- A complete ping is answered with its ids swapped. -/
theorem udpRecvCb_ping (type : b 0 = ping) (request : b 1 = req) (complete : 44 ≤ sizeT rlen) :
    udpRecvCb host around mstp b rlen =
      let built := pmpPingRspPkt around.malloc (copyId around.targetId (pointer b 4))
        (copyId around.sourceId (pointer b 24)) b
      respond mstp built.1 built.2 := by
  have long : sizeT rlen > 2 := by omega
  have unequal : ok ≠ error := by decide
  simp only [udpRecvCb, if_pos long, if_pos request, if_pos type, pmpPingReqUnpack, if_neg (Nat.not_lt.mpr complete),
    if_neg unequal]

/-- A complete discovery request is answered with the newest masters, to the master's own id. -/
theorem udpRecvCb_discovery (type : b 0 = disc) (request : b 1 = req) (complete : 44 ≤ sizeT rlen) :
    udpRecvCb host around mstp b rlen =
      let top := getTopBucketItems mstp.masterPeerBkt around.items 10
      let built := pmpDiscoveryRspPkt host around.malloc around.mallocOption mstp.nodeId top.2 top.1 b
      respond mstp built.1 built.2 := by
  have long : sizeT rlen > 2 := by omega
  have unequal : ok ≠ error := by decide
  have notPing : disc ≠ ping := by decide
  simp only [udpRecvCb, if_pos long, if_pos request, type, if_neg notPing, if_true, pmpDiscoveryReqUnpack,
    if_neg (Nat.not_lt.mpr complete), if_neg unequal]

/-- A complete request for the peers is answered with the newest peers. -/
theorem udpRecvCb_getPeers (type : b 0 = gPs) (request : b 1 = req) (complete : 44 ≤ sizeT rlen) :
    udpRecvCb host around mstp b rlen =
      let top := getTopBucketItems mstp.peerBkt around.items 10
      let built := pmpGetPeersRspPkt host around.malloc around.mallocOption (copyId around.sourceId (pointer b 24))
        top.2 top.1 b
      respond mstp built.1 built.2 := by
  have long : sizeT rlen > 2 := by omega
  have unequal : ok ≠ error := by decide
  have notPing : gPs ≠ ping := by decide
  have notDisc : gPs ≠ disc := by decide
  simp only [udpRecvCb, if_pos long, if_pos request, type, if_neg notPing, if_neg notDisc, if_true,
    pmpGetPeersReqUnpack, pmpPingReqUnpack, if_neg (Nat.not_lt.mpr complete), if_neg unequal]

/-- A complete registry request is answered to its sender, whether or not its item was new. -/
theorem udpRecvCb_registered (type : b 0 = rP) (request : b 1 = req) (complete : 56 ≤ sizeT rlen) :
    udpRecvCb host around mstp b rlen =
      let item := registryItem host around.item b
      let built := pmpPeerRegistryRspPkt around.malloc mstp.nodeId
        (terminateId (around.sourceId.copy item.nodeId.memory 20)) b
      respond { mstp with peerBkt := pushFrontBucket (around.push 0) mstp.peerBkt item } built.1 built.2 := by
  have long : sizeT rlen > 2 := by omega
  have unequal : ok ≠ error := by decide
  have notPing : rP ≠ ping := by decide
  have notDisc : rP ≠ disc := by decide
  have notGetPeers : rP ≠ gPs := by decide
  simp only [udpRecvCb, if_pos long, if_pos request, type, if_neg notPing, if_neg notDisc, if_neg notGetPeers, if_true,
    pmpPeerRegistryReqUnpack, if_neg (Nat.not_lt.mpr complete), if_neg unequal]

end Requests

theorem respond_none_iff (mstp : MasterPeer) (wlen : Int) (b : Block) : (respond mstp wlen b).2 = none ↔ wlen ≤ 0 := by
  unfold respond
  split
  · simp only [reduceCtorEq, false_iff]
    omega
  · simp only [true_iff]
    omega

/-- A receive leaves both tables as they are and sends nothing. -/
def Unaffected (mstp : MasterPeer) (result : MasterPeer × Option (List UInt8)) : Prop :=
  result.1.masterPeerBkt = mstp.masterPeerBkt ∧ result.1.peerBkt = mstp.peerBkt ∧ result.2 = none

/-- A response to an unchanged master has an effect exactly when it has a length. -/
theorem unaffected_respond (mstp : MasterPeer) (wlen : Int) (b : Block) :
    Unaffected mstp (respond mstp wlen b) ↔ wlen ≤ 0 := by
  simp only [Unaffected, respond_state, respond_none_iff, true_and]

theorem idsRspPkt_length (type : UInt8) (malloc : Option Block) (sourceId targetId : CharArray 21) (buf : Block) :
    (idsRspPkt type malloc sourceId targetId buf).1 ≤ 0 ↔ malloc = none := by
  cases malloc <;> simp [idsRspPkt, error]

theorem discoveryRspPkt_length (host : ByteOrder) (malloc mallocOption : Option Block) (targetId : CharArray 21)
    (items : Nat → BucketItem) (size : Int) (buf : Block) :
    (pmpDiscoveryRspPkt host malloc mallocOption targetId items size buf).1 ≤ 0 ↔
      malloc = none ∨ mallocOption = none := by
  cases malloc with
  | none => simp [pmpDiscoveryRspPkt, error]
  | some old =>
      cases mallocOption with
      | none => simp [pmpDiscoveryRspPkt, error]
      | some oldOption =>
          have total := (appendOptions_facts (fun _ _ agree => discoveryInfo_congr agree) (discoveryInfo_stored host)
            oldOption (memcpy buf 0 (memcpy (store16 host (header old disc rsp) 2 (htons host (UInt16.ofInt size))) 4
              targetId.memory (strlen targetId.toList)) 24) 24 ((List.range size.toNat).map items)).1
          rw [← discoveryOptions_eq] at total
          simp only [pmpDiscoveryRspPkt, total]
          simp
          omega

theorem getPeersRspPkt_length (host : ByteOrder) (malloc mallocOption : Option Block) (targetId : CharArray 21)
    (items : Nat → BucketItem) (size : Int) (buf : Block) :
    (pmpGetPeersRspPkt host malloc mallocOption targetId items size buf).1 ≤ 0 ↔
      size ≤ 0 ∨ malloc = none ∨ mallocOption = none := by
  by_cases empty : size ≤ 0
  · simp [pmpGetPeersRspPkt, empty, error]
  · cases malloc with
    | none => simp [pmpGetPeersRspPkt, empty, error]
    | some old =>
        cases mallocOption with
        | none => simp [pmpGetPeersRspPkt, empty, error]
        | some oldOption =>
            have total := (getPeersOptions_facts host oldOption (memcpy buf 0 (memcpy (store16 host (header old gPs rsp) 2
              (htons host (UInt16.ofInt size))) 4 targetId.memory (strlen targetId.toList)) 24) 24
                ((List.range size.toNat).map items)).1
            simp only [pmpGetPeersRspPkt, if_neg empty, total]
            simp [empty]
            omega

/-- A push of a terminated item leaves the bucket unchanged exactly when its id is known. -/
theorem pushFrontBucket_eq_iff {ctx : PushContext} {bkt : Bucket} {item : BucketItem} (terminated : Terminated item) :
    pushFrontBucket ctx bkt item = bkt ↔ hasNodeId ctx bkt item = true := by
  constructor
  · intro same
    by_contra fresh
    rw [pushFrontBucket, if_neg fresh] at same
    by_cases full : bkt.top + 1 = maxBucketSize
    · rw [if_pos full] at same
      unfold maxBucketSize at full
      -- The newest slot of a full bucket keeps its place and gets another id.
      have slot : (popBackBucket bkt).top + 1 = bkt.top := by simp [popBackBucket]
      have newest := congrArg (fun bucket => (bucket.b bkt.top.toNat).nodeId) same
      simp only [slot, Function.update_self] at newest
      apply fresh
      rw [hasNodeId, List.any_eq_true]
      refine ⟨bkt.top.toNat, List.mem_range.mpr (by unfold Bucket.count; omega), ?_⟩
      rw [← newest, strcmp_eq_true _ _ _ terminated (.inl terminated)]
    · rw [if_neg full] at same
      have grown := congrArg Bucket.top same
      simp at grown
  · exact pushFrontBucket_known

/-- The master acts on the request in its buffer: it sends an answer or pushes a new peer. -/
def ActsOn (host : ByteOrder) (around : Surroundings) (mstp : MasterPeer) (b : Block) : Prop :=
  b 1 = req ∧
    ((b 0 = ping ∧ around.malloc ≠ none) ∨
      (b 0 = disc ∧ around.malloc ≠ none ∧ around.mallocOption ≠ none) ∨
      (b 0 = gPs ∧ 0 ≤ mstp.peerBkt.top ∧ around.malloc ≠ none ∧ around.mallocOption ≠ none) ∨
      (b 0 = rP ∧
        (around.malloc ≠ none ∨ hasNodeId (around.push 0) mstp.peerBkt (registryItem host around.item b) = false)) ∨
      (b 0 = fP ∧ around.malloc ≠ none ∧
        ∃ entry ∈ mstp.peerBkt.entries, vlanOf entry = inetNtoa (loadAddr b 4)))

/-- The master acts on requests only. -/
theorem ActsOn.named {host : ByteOrder} {around : Surroundings} {mstp : MasterPeer} {b : Block}
    (acts : ActsOn host around mstp b) : NamesRequest b := by
  obtain ⟨request, acts⟩ := acts
  refine ⟨request, ?_⟩
  rcases acts with acts | acts | acts | acts | acts
  · exact .inl acts.1
  · exact .inr (.inl acts.1)
  · exact .inr (.inr (.inl acts.1))
  · exact .inr (.inr (.inr (.inl acts.1)))
  · exact .inr (.inr (.inr (.inr acts.1)))

/-- A search affects the master exactly when it finds an entry and its answer has memory. -/
theorem unaffected_find_iff (host : ByteOrder) (around : Surroundings) (mstp : MasterPeer) (b : Block) (rlen : Int)
    (type : b 0 = fP) (request : b 1 = req) (complete : 48 ≤ sizeT rlen) :
    Unaffected mstp (udpRecvCb host around mstp b rlen) ↔
      ¬ (around.malloc ≠ none ∧ ∃ entry ∈ mstp.peerBkt.entries, vlanOf entry = inetNtoa (loadAddr b 4)) := by
  have state : (udpRecvCb host around mstp b rlen).1 = mstp := by
    apply udpRecvCb_quiet
    rintro ⟨registry, _⟩
    exact absurd (type.symm.trans registry) (by decide)
  have answer := udpRecvCb_find host around mstp b rlen type request (by omega)
  rw [Unaffected, state, answer]
  cases found : DedupQueue.newest (fun entry => vlanOf entry = inetNtoa (loadAddr b 4)) mstp.peerBkt.entries with
  | none =>
      have nobody : ¬ ∃ entry ∈ mstp.peerBkt.entries, vlanOf entry = inetNtoa (loadAddr b 4) := by
        simpa [DedupQueue.newest, List.find?_eq_none] using found
      simp [nobody]
  | some entry =>
      have member : entry ∈ mstp.peerBkt.entries := List.mem_reverse.mp (List.mem_of_find?_eq_some found)
      have claims : vlanOf entry = inetNtoa (loadAddr b 4) := by simpa using List.find?_some found
      have somebody : ∃ entry ∈ mstp.peerBkt.entries, vlanOf entry = inetNtoa (loadAddr b 4) :=
        ⟨entry, member, claims⟩
      have length : (pmpFindPeerRspPkt host around.malloc mstp.nodeId
          (terminateId (around.sourceId.copy (pointer b 28) 20)) entry b).1 ≤ 0 ↔ around.malloc = none := by
        cases around.malloc <;> simp [pmpFindPeerRspPkt, error]
      simp only [true_and, somebody, and_true, not_not]
      exact (respond_none_iff ..).trans length

/-- A receive misses when it fails, when it is too short, or when it is no request. -/
def Missed (b : Block) (rlen : Int) : Prop :=
  rlen < 0 ∨ rlen ≤ 2 ∨ (NamesRequest b ∧ rlen < requestSize (b 0)) ∨ ¬ NamesRequest b

/-- A master that takes its buffer for a complete request is affected exactly when it acts on the request. -/
theorem unaffected_complete_iff (host : ByteOrder) (around : Surroundings) (mstp : MasterPeer) (b : Block) (rlen : Int)
    (complete : 56 ≤ sizeT rlen) :
    Unaffected mstp (udpRecvCb host around mstp b rlen) ↔ ¬ ActsOn host around mstp b := by
  by_cases named : NamesRequest b
  · obtain ⟨request, type⟩ := named
    rcases type with type | type | type | type | type
    · have acts : ActsOn host around mstp b ↔ around.malloc ≠ none := by
        simp [ActsOn, request, type, ping, disc, gPs, rP, fP]
      rw [udpRecvCb_ping host around mstp b rlen type request (by omega), acts, not_not]
      exact (unaffected_respond ..).trans (idsRspPkt_length ..)
    · have acts : ActsOn host around mstp b ↔ around.malloc ≠ none ∧ around.mallocOption ≠ none := by
        simp [ActsOn, request, type, ping, disc, gPs, rP, fP]
      rw [udpRecvCb_discovery host around mstp b rlen type request (by omega), acts, not_and_or, not_not, not_not]
      exact (unaffected_respond ..).trans (discoveryRspPkt_length ..)
    · have acts : ActsOn host around mstp b ↔
          0 ≤ mstp.peerBkt.top ∧ around.malloc ≠ none ∧ around.mallocOption ≠ none := by
        simp [ActsOn, request, type, ping, disc, gPs, rP, fP]
      have size : (getTopBucketItems mstp.peerBkt around.items 10).1 ≤ 0 ↔ ¬ 0 ≤ mstp.peerBkt.top := by
        unfold getTopBucketItems
        split <;> omega
      rw [udpRecvCb_getPeers host around mstp b rlen type request (by omega), acts, not_and_or, not_and_or, not_not,
        not_not, ← size]
      exact (unaffected_respond ..).trans (getPeersRspPkt_length ..)
    · have acts : ActsOn host around mstp b ↔ around.malloc ≠ none ∨
          hasNodeId (around.push 0) mstp.peerBkt (registryItem host around.item b) = false := by
        simp [ActsOn, request, type, ping, disc, gPs, rP, fP]
      have known : pushFrontBucket (around.push 0) mstp.peerBkt (registryItem host around.item b) = mstp.peerBkt ↔ _ :=
        pushFrontBucket_eq_iff (registryItem_carries host around.item b).terminated
      have silent := idsRspPkt_length rP around.malloc mstp.nodeId
        (terminateId (around.sourceId.copy (registryItem host around.item b).nodeId.memory 20)) b
      rw [udpRecvCb_registered host around mstp b rlen type request complete, acts, not_or, not_not,
        Bool.not_eq_false, ← known, ← silent]
      simp only [Unaffected, respond_state, respond_none_iff, true_and]
      exact and_comm
    · have acts : ActsOn host around mstp b ↔
          around.malloc ≠ none ∧ ∃ entry ∈ mstp.peerBkt.entries, vlanOf entry = inetNtoa (loadAddr b 4) := by
        simp [ActsOn, request, type, ping, disc, gPs, rP, fP]
      rw [acts]
      exact unaffected_find_iff host around mstp b rlen type request (by omega)
  · rw [udpRecvCb_dropped host around mstp b rlen fun complete => named complete.1]
    have idle : ¬ ActsOn host around mstp b := fun acts => named acts.named
    simp [Unaffected, idle]

/-- A receive that misses leaves the master as it is exactly when it did not fail, or when the stale bytes of its buffer
are no request that the master acts on. -/
theorem missed_receive_iff (host : ByteOrder) (around : Surroundings) (mstp : MasterPeer) (b : Block) (rlen : Int)
    (range : -1 ≤ rlen ∧ rlen ≤ bufsiz) (missed : Missed b rlen) :
    Unaffected mstp (udpRecvCb host around mstp b rlen) ↔ 0 ≤ rlen ∨ ¬ ActsOn host around mstp b := by
  by_cases failure : rlen < 0
  · -- The length of a failed receive becomes the largest value of `size_t`.
    obtain rfl : rlen = -1 := by omega
    rw [unaffected_complete_iff host around mstp b (-1) (by decide)]
    simp
  · have size : (sizeT rlen : Int) = rlen := by
      unfold bufsiz at range
      unfold sizeT
      omega
    have bounds := requestSize_bounds (b 0)
    have dropped : ¬ (NamesRequest b ∧ requestSize (b 0) ≤ sizeT rlen) := by
      rintro ⟨named, complete⟩
      rcases missed with negative | short | ⟨_, short⟩ | other
      · exact failure negative
      · omega
      · omega
      · exact other named
    rw [udpRecvCb_dropped host around mstp b rlen dropped]
    simp [Unaffected, Int.not_lt.mp failure]

/-- A failed receive after a response leaves the master as it is. -/
theorem missed_receive_sample : Missed (fun _ => rsp) (-1) ∧
    Unaffected blankMaster (udpRecvCb .little blankSurroundings blankMaster (fun _ => rsp) (-1)) := by
  have missed : Missed (fun _ => rsp) (-1) := .inl (by decide)
  have idle : ¬ ActsOn .little blankSurroundings blankMaster (fun _ => rsp) := fun acts => absurd acts.1 (by decide)
  exact ⟨missed, (missed_receive_iff .little blankSurroundings blankMaster (fun _ => rsp) (-1) (by decide) missed).mpr
    (.inr idle)⟩

/-- A failed receive after a registry request registers the old sender again and answers it. -/
theorem failed_receive_registers :
    let stale := block (registering (samplePeer 98 4000)).datagram blankBlock
    Missed stale (-1) ∧ ¬ Unaffected blankMaster (udpRecvCb .little blankSurroundings blankMaster stale (-1)) := by
  intro stale
  obtain ⟨⟨type, code, _⟩, _⟩ := (registering_registers (samplePeer 98 4000)).facts
  refine ⟨.inl (by decide), ?_⟩
  rw [unaffected_complete_iff .little blankSurroundings blankMaster stale (-1) (by decide), not_not]
  exact ⟨code, .inr (.inr (.inr (.inl ⟨type, .inl (Option.some_ne_none _)⟩)))⟩

/-- The length that the format of a response prescribes for its type and its count. -/
def formatLength (answer : List UInt8) : Nat :=
  let count := (word (answer.getD 2 0) (answer.getD 3 0)).toNat
  if answer.getD 0 0 = disc then 24 + 28 * count
  else if answer.getD 0 0 = gPs then 24 + 32 * count
  else 44

/-- The twenty bytes of a field. -/
def fieldAt (offset : Nat) (datagram : List UInt8) : List UInt8 := (datagram.drop offset).take 20

/-- The id of the sender comes last in a request. -/
def senderId (type : UInt8) (datagram : List UInt8) : List UInt8 := fieldAt (requestSize type - 20) datagram

/-- A response of the given type to the given id. -/
structure Answers (type : UInt8) (id answer : List UInt8) : Prop where
  type : answer.getD 0 0 = type
  code : answer.getD 1 0 = rsp
  length : answer.length = formatLength answer
  target : fieldAt 4 answer = id

/-- The target field of a response with options is the copied id over the old bytes of the allocation, and spells
`id`. -/
def Spells (targetId : CharArray 21) (old : Block) (id : List UInt8) : Prop :=
  ∀ i < 20, (if i < strlen targetId.toList then targetId.memory i else old (4 + i)) = id.getD i 0

/-- The master has memory for its response. A discovery response, which carries the master's own id, spells the id of
the sender, and a peers response has a peer to list. -/
def CanAnswer (around : Surroundings) (mstp : MasterPeer) (type : UInt8) (id : List UInt8) : Prop :=
  ∃ old, around.malloc = some old ∧
    (type = disc → around.mallocOption ≠ none ∧ Spells mstp.nodeId old id) ∧
    (type = gPs → around.mallocOption ≠ none ∧ 0 ≤ mstp.peerBkt.top)

theorem fieldAt_bytesOf (contents : Block) {count offset : Nat} (fits : offset + 20 ≤ count) :
    fieldAt offset (bytesOf contents count) = bytesOf (pointer contents offset) 20 := by
  apply List.ext_getElem
  · simp only [fieldAt, List.length_take, List.length_drop, length_bytesOf]
    omega
  · intro i inside inside'
    simp [fieldAt, bytesOf, pointer]

/-- The callback sees the fields of a complete datagram. -/
theorem Delivery.field_buffer (delivery : Delivery) {offset : Nat} (long : offset + 20 ≤ delivery.datagram.length)
    (fits : offset + 20 ≤ bufsiz) : bytesOf (pointer delivery.buffer offset) 20 = fieldAt offset delivery.datagram := by
  apply List.ext_getElem
  · simp only [fieldAt, List.length_take, List.length_drop, length_bytesOf]
    omega
  · intro i inside inside'
    rw [length_bytesOf] at inside
    rw [getElem_bytesOf, pointer, buffer_eq (by omega) (by omega)]
    simp [fieldAt, show offset + i < delivery.datagram.length by omega]

/-- An answer with an explicit header, count and target. -/
theorem answers_iff {contents : Block} {count : Nat} {type : UInt8} {id : List UInt8} (long : 24 ≤ count)
    (first : contents 0 = type) (second : contents 1 = rsp)
    (length : count = formatLength (bytesOf contents count)) :
    Answers type id (bytesOf contents count) ↔ bytesOf (pointer contents 4) 20 = id := by
  rw [← fieldAt_bytesOf contents (show 4 + 20 ≤ count by omega)]
  constructor
  · exact Answers.target
  · exact fun target => ⟨(getD_bytesOf (by omega)).trans first, (getD_bytesOf (by omega)).trans second,
      (length_bytesOf _ _).trans length, target⟩

/-- The header, the count and the target id of a response with options. -/
theorem rspHeader_facts (host : ByteOrder) (old : Block) (type : UInt8) (count : UInt16) (targetId : CharArray 21) :
    let start := memcpy (store16 host (header old type rsp) 2 (htons host count)) 4 targetId.memory
      (strlen targetId.toList)
    start 0 = type ∧ start 1 = rsp ∧ start 2 = high count ∧ start 3 = low count ∧
      ∀ i, start (4 + i) = if i < strlen targetId.toList then targetId.memory i else old (4 + i) := by
  intro start
  refine ⟨?_, ?_, ?_, ?_, ?_⟩
  · simp [start, memcpy, store16_htons, setByte, header]
  · simp [start, memcpy, store16_htons, setByte, header]
  · simp [start, memcpy, store16_htons, setByte]
  · simp [start, memcpy, store16_htons, setByte]
  · intro i
    split
    · rename_i inside
      simp only [start]
      rw [memcpy_inside (by omega) (by omega), Nat.add_sub_cancel_left]
    · rename_i outside
      simp only [start]
      rw [memcpy_outside (by omega), store16_other (by omega), header, setByte_other (by omega),
        setByte_other (by omega)]

theorem bytesOf_eq_iff {contents : Block} {bytes : List UInt8} :
    bytesOf contents bytes.length = bytes ↔ ∀ i < bytes.length, contents i = bytes.getD i 0 := by
  constructor
  · intro same i inside
    have read : (bytesOf contents bytes.length).getD i 0 = contents i := getD_bytesOf inside
    rw [← read, same]
  · intro agree
    apply List.ext_getElem
    · exact length_bytesOf _ _
    · intro i inside inside'
      rw [getElem_bytesOf, agree i inside']
      simp [inside']

theorem idBytes_copyId {target : CharArray 21} {src : Block} (plain : 0 ∉ bytesOf src 20) :
    idBytes (copyId target src) = bytesOf src 20 := by
  have text : (copyId target src).toList = bytesOf src 20 ++ [0] := toList_copyId plain
  rw [toList_eq_idBytes] at text
  exact (List.append_inj text (by simp [idBytes])).1

/-- A response with ids only has the length of a ping. -/
theorem idsRspPkt_answers {type : UInt8} (plainFormat : type = ping ∨ type = rP) (old : Block)
    (sourceId targetId : CharArray 21) (buf : Block) (id : List UInt8) :
    Answers type id (bytesOf (idsRspPkt type (some old) sourceId targetId buf).2 44) ↔ idBytes targetId = id := by
  set contents := (idsRspPkt type (some old) sourceId targetId buf).2 with built
  have first : contents 0 = type := by simp [built, idsRspPkt, memcpy, header, setByte]
  have second : contents 1 = rsp := by simp [built, idsRspPkt, memcpy, header, setByte]
  have target : bytesOf (pointer contents 4) 20 = idBytes targetId := by
    apply bytesOf_congr
    intro i inside
    rw [pointer, built, idsRspPkt]
    dsimp only
    rw [memcpy_inside (by omega) (by omega), Nat.sub_zero, memcpy_inside (by omega) (by omega), Nat.add_sub_cancel_left]
  have length : 44 = formatLength (bytesOf contents 44) := by
    rw [formatLength, getD_bytesOf (show 0 < 44 by decide), first]
    rcases plainFormat with rfl | rfl <;> rfl
  rw [answers_iff (by decide) first second length, target]

/-- A response with options is an answer when its target field spells the id. -/
theorem optionsRsp_answers {host : ByteOrder} {contents old : Block} {type : UInt8} {n stride : Nat}
    {targetId : CharArray 21} {id : List UInt8} (twenty : id.length = 20)
    (starts : ∀ i < 24, contents i = memcpy (store16 host (header old type rsp) 2 (htons host (UInt16.ofInt n))) 4
      targetId.memory (strlen targetId.toList) i)
    (few : n < 65536) (format : type = disc ∧ stride = 28 ∨ type = gPs ∧ stride = 32) :
    Answers type id (bytesOf contents (24 + stride * n)) ↔ Spells targetId old id := by
  obtain ⟨first, second, third, fourth, target⟩ := rspHeader_facts host old type (UInt16.ofInt n) targetId
  have count : (UInt16.ofInt n).toNat = n := by
    rw [UInt16.ofInt, UInt16.toNat_ofNat']
    omega
  have length : 24 + stride * n = formatLength (bytesOf contents (24 + stride * n)) := by
    rw [formatLength, getD_bytesOf (show 0 < 24 + stride * n by omega), getD_bytesOf (show 2 < 24 + stride * n by omega),
      getD_bytesOf (show 3 < 24 + stride * n by omega), starts 0 (by decide), starts 2 (by decide),
      starts 3 (by decide), first, third, fourth, word_high_low, count]
    rcases format with ⟨rfl, rfl⟩ | ⟨rfl, rfl⟩ <;> rfl
  rw [answers_iff (by omega) ((starts 0 (by decide)).trans first) ((starts 1 (by decide)).trans second) length,
    Spells, ← twenty, bytesOf_eq_iff]
  apply forall_congr'
  intro i
  apply imp_congr_right
  intro inside
  rw [pointer, starts (4 + i) (by omega), target i]

theorem discoveryRspPkt_answers (host : ByteOrder) (old oldOption : Block) (targetId : CharArray 21)
    (items : Nat → BucketItem) (buf : Block) {size : Int} {list : List BucketItem} {id : List UInt8}
    (listed : (List.range size.toNat).map items = list) (length : size = list.length) (few : list.length < 65536)
    (twenty : id.length = 20) :
    let built := pmpDiscoveryRspPkt host (some old) (some oldOption) targetId items size buf
    0 < built.1 ∧ (Answers disc id (bytesOf built.2 built.1.toNat) ↔ Spells targetId old id) := by
  intro built
  have total : built.1 = (24 + 28 * list.length : Nat) :=
    (discoveryRspPkt_facts host old oldOption targetId items buf size _ listed length).1
  have starts (i : Nat) (inside : i < 24) : built.2 i = memcpy (store16 host (header old disc rsp) 2
      (htons host (UInt16.ofInt list.length))) 4 targetId.memory (strlen targetId.toList) i := by
    have before := (appendOptions_facts (fun _ _ agree => discoveryInfo_congr agree) (discoveryInfo_stored host)
      oldOption (memcpy buf 0 (memcpy (store16 host (header old disc rsp) 2 (htons host (UInt16.ofInt size))) 4
        targetId.memory (strlen targetId.toList)) 24) 24 ((List.range size.toNat).map items)).2.1
    rw [← discoveryOptions_eq] at before
    simp only [built, pmpDiscoveryRspPkt]
    rw [before i inside, memcpy_inside (Nat.zero_le i) (by omega), Nat.sub_zero, length]
  rw [total, Int.toNat_natCast]
  exact ⟨by omega, optionsRsp_answers twenty starts few (.inl ⟨rfl, rfl⟩)⟩

theorem getPeersRspPkt_answers (host : ByteOrder) (old oldOption : Block) (targetId : CharArray 21)
    (items : Nat → BucketItem) (buf : Block) {size : Int} {list : List BucketItem} {id : List UInt8}
    (listed : (List.range size.toNat).map items = list) (length : size = list.length) (few : list.length < 65536)
    (positive : 0 < list.length) (twenty : id.length = 20) :
    let built := pmpGetPeersRspPkt host (some old) (some oldOption) targetId items size buf
    0 < built.1 ∧ (Answers gPs id (bytesOf built.2 built.1.toNat) ↔ Spells targetId old id) := by
  intro built
  have some_listed : ¬ size ≤ 0 := by omega
  have total : built.1 = (24 + 32 * list.length : Nat) := by
    simp only [built, pmpGetPeersRspPkt, if_neg some_listed, listed, (getPeersOptions_facts ..).1]
  have starts (i : Nat) (inside : i < 24) : built.2 i = memcpy (store16 host (header old gPs rsp) 2
      (htons host (UInt16.ofInt list.length))) 4 targetId.memory (strlen targetId.toList) i := by
    simp only [built, pmpGetPeersRspPkt, if_neg some_listed]
    rw [(getPeersOptions_facts host oldOption _ 24 _).2.1 i inside, memcpy_inside (Nat.zero_le i) (by omega),
      Nat.sub_zero, length]
  rw [total, Int.toNat_natCast]
  exact ⟨by omega, optionsRsp_answers twenty starts few (.inr ⟨rfl, rfl⟩)⟩

/-- The callback sends one response of the given type to the given id. -/
def Responds (type : UInt8) (id : List UInt8) (result : MasterPeer × Option (List UInt8)) : Prop :=
  ∃ answer, result.2 = some answer ∧ Answers type id answer

theorem responds_respond (type : UInt8) (id : List UInt8) (mstp : MasterPeer) (wlen : Int) (b : Block) :
    Responds type id (respond mstp wlen b) ↔ 0 < wlen ∧ Answers type id (bytesOf b wlen.toNat) := by
  unfold Responds respond
  by_cases positive : wlen > 0
  · simp [positive]
  · simp [positive]

section Law

variable (host : ByteOrder) (around : Surroundings) (mstp : MasterPeer) (b : Block) (rlen : Int) (id : List UInt8)

theorem ping_responds_iff (type : b 0 = ping) (request : b 1 = req) (complete : 44 ≤ sizeT rlen)
    (sender : bytesOf (pointer b 24) 20 = id) (plain : 0 ∉ id) :
    Responds ping id (udpRecvCb host around mstp b rlen) ↔ CanAnswer around mstp ping id := by
  rw [udpRecvCb_ping host around mstp b rlen type request complete]
  refine (responds_respond ..).trans ?_
  unfold CanAnswer
  cases around.malloc with
  | none => simp [pmpPingRspPkt, idsRspPkt, error]
  | some old =>
      have swapped : idBytes (copyId around.sourceId (pointer b 24)) = id := by
        rw [idBytes_copyId (by rwa [sender]), sender]
      have answered := (idsRspPkt_answers (.inl rfl) old (copyId around.targetId (pointer b 4))
        (copyId around.sourceId (pointer b 24)) b id).mpr swapped
      have others : ping ≠ disc ∧ ping ≠ gPs := by decide
      simp only [Option.some.injEq, exists_eq_left', others.1, others.2, false_implies, and_self, iff_true]
      exact ⟨by simp [pmpPingRspPkt, idsRspPkt], answered⟩

theorem registry_responds_iff (type : b 0 = rP) (request : b 1 = req) (complete : 56 ≤ sizeT rlen)
    (sender : bytesOf (pointer b 36) 20 = id) :
    Responds rP id (udpRecvCb host around mstp b rlen) ↔ CanAnswer around mstp rP id := by
  rw [udpRecvCb_registered host around mstp b rlen type request complete]
  refine (responds_respond ..).trans ?_
  unfold CanAnswer
  cases around.malloc with
  | none => simp [pmpPeerRegistryRspPkt, idsRspPkt, error]
  | some old =>
      have returned : idBytes (terminateId (around.sourceId.copy (registryItem host around.item b).nodeId.memory 20)) =
          id := by
        have field : (registryItem host around.item b).nodeId =
            terminateId (around.item.nodeId.copy (pointer b 36) 20) := rfl
        rw [idBytes_terminateId, idBytes_copy, ← idBytes, field, idBytes_terminateId, idBytes_copy, sender]
      have answered := (idsRspPkt_answers (.inr rfl) old mstp.nodeId
        (terminateId (around.sourceId.copy (registryItem host around.item b).nodeId.memory 20)) b id).mpr returned
      have others : rP ≠ disc ∧ rP ≠ gPs := by decide
      simp only [Option.some.injEq, exists_eq_left', others.1, others.2, false_implies, and_self, iff_true]
      exact ⟨by simp [pmpPeerRegistryRspPkt, idsRspPkt], answered⟩

theorem discovery_responds_iff (valid : mstp.masterPeerBkt.Valid) (type : b 0 = disc) (request : b 1 = req)
    (complete : 44 ≤ sizeT rlen) (twenty : id.length = 20) :
    Responds disc id (udpRecvCb host around mstp b rlen) ↔ CanAnswer around mstp disc id := by
  rw [udpRecvCb_discovery host around mstp b rlen type request complete]
  refine (responds_respond ..).trans ?_
  obtain ⟨length, listed⟩ := topItems_eq valid around.items
  have few : (transferred mstp.masterPeerBkt).length ≤ 10 := List.length_take_le _ _
  have other : disc ≠ gPs := by decide
  have silent := discoveryRspPkt_length host around.malloc around.mallocOption mstp.nodeId
    (getTopBucketItems mstp.masterPeerBkt around.items 10).2 (getTopBucketItems mstp.masterPeerBkt around.items 10).1 b
  unfold CanAnswer
  cases allocated : around.malloc with
  | none =>
      rw [allocated] at silent
      have nothing := silent.mpr (.inl rfl)
      simp [Int.not_lt.mpr nothing]
  | some old =>
      cases allocated' : around.mallocOption with
      | none =>
          rw [allocated, allocated'] at silent
          have nothing := silent.mpr (.inr rfl)
          simp [Int.not_lt.mpr nothing]
      | some oldOption =>
          obtain ⟨positive, answered⟩ := discoveryRspPkt_answers host old oldOption mstp.nodeId
            (getTopBucketItems mstp.masterPeerBkt around.items 10).2 b listed length (by omega) twenty
          rw [answered]
          simp [positive, other]

/-- A decoded id is spelled by every response that carries it. -/
theorem spells_copyId {target : CharArray 21} {src old : Block} (plain : 0 ∉ bytesOf src 20) :
    Spells (copyId target src) old (bytesOf src 20) := by
  have text : (copyId target src).toList = bytesOf src 20 ++ [0] := toList_copyId plain
  have characters : strlen (copyId target src).toList = 20 := by
    rw [strlen, text, cstr_terminated _ [] plain, length_bytesOf]
  intro i inside
  have byte : idBytes (copyId target src) = bytesOf src 20 := idBytes_copyId plain
  have read : (idBytes (copyId target src)).getD i 0 = (copyId target src).memory i := getD_bytesOf inside
  rw [characters, if_pos inside, getD_bytesOf inside, ← read, byte, getD_bytesOf inside]

theorem getPeers_responds_iff (valid : mstp.peerBkt.Valid) (type : b 0 = gPs) (request : b 1 = req)
    (complete : 44 ≤ sizeT rlen) (sender : bytesOf (pointer b 24) 20 = id) (plain : 0 ∉ id) :
    Responds gPs id (udpRecvCb host around mstp b rlen) ↔ CanAnswer around mstp gPs id := by
  rw [udpRecvCb_getPeers host around mstp b rlen type request complete]
  refine (responds_respond ..).trans ?_
  obtain ⟨length, listed⟩ := topItems_eq valid around.items
  have few : (transferred mstp.peerBkt).length ≤ 10 := List.length_take_le _ _
  have count := valid.count_eq
  have listedCount : (transferred mstp.peerBkt).length = min 10 mstp.peerBkt.count := by simp [transferred]
  have twenty : id.length = 20 := by rw [← sender, length_bytesOf]
  have other : gPs ≠ disc := by decide
  have silent := getPeersRspPkt_length host around.malloc around.mallocOption (copyId around.sourceId (pointer b 24))
    (getTopBucketItems mstp.peerBkt around.items 10).2 (getTopBucketItems mstp.peerBkt around.items 10).1 b
  unfold CanAnswer
  by_cases empty : mstp.peerBkt.top < 0
  · have nothing := silent.mpr (.inl (by omega))
    simp [Int.not_lt.mpr nothing, Int.not_le.mpr empty]
  · cases allocated : around.malloc with
    | none =>
        rw [allocated] at silent
        have nothing := silent.mpr (.inr (.inl rfl))
        simp [Int.not_lt.mpr nothing]
    | some old =>
        cases allocated' : around.mallocOption with
        | none =>
            rw [allocated, allocated'] at silent
            have nothing := silent.mpr (.inr (.inr rfl))
            simp [Int.not_lt.mpr nothing]
        | some oldOption =>
            obtain ⟨positive, answered⟩ := getPeersRspPkt_answers host old oldOption
              (copyId around.sourceId (pointer b 24)) (getTopBucketItems mstp.peerBkt around.items 10).2 b listed length
                (by omega) (by omega) twenty
            have returned : Spells (copyId around.sourceId (pointer b 24)) old id := by
              rw [← sender] at plain ⊢
              exact spells_copyId plain
            rw [answered]
            simp [positive, other, Int.not_lt.mp empty, returned]

end Law

/-- A master with valid tables answers a complete ping, discovery, peers or registry request with one response of the
same type to the sender's id exactly when it can answer. -/
theorem master_responds_iff (host : ByteOrder) (around : Surroundings) (stale : Block) (mstp : MasterPeer)
    (masters : mstp.masterPeerBkt.Valid) (peers : mstp.peerBkt.Valid) (type : UInt8)
    (kind : type = ping ∨ type = disc ∨ type = gPs ∨ type = rP) (datagram : List UInt8)
    (complete : IsRequest type (requestSize type) datagram) (plain : 0 ∉ senderId type datagram) :
    Responds type (senderId type datagram) (receive host around stale mstp datagram) ↔
      CanAnswer around mstp type (senderId type datagram) := by
  let delivery : Delivery := ⟨around, stale, datagram⟩
  obtain ⟨lower, upper⟩ := requestSize_bounds type
  obtain ⟨first, second, long⟩ := (delivery.request_iff type (by omega) (by omega)).mpr complete
  have size := complete.2.2
  have sender : bytesOf (pointer delivery.buffer (requestSize type - 20)) 20 = senderId type datagram :=
    delivery.field_buffer (by change _ ≤ datagram.length; omega) (by unfold bufsiz; omega)
  have received : receive host around stale mstp datagram =
      udpRecvCb host around mstp delivery.buffer (datagram.take bufsiz).length := rfl
  rw [received]
  rcases kind with rfl | rfl | rfl | rfl
  · exact ping_responds_iff host around mstp _ _ _ first second (Nat.not_lt.mp long) sender plain
  · exact discovery_responds_iff host around mstp _ _ _ masters first second (Nat.not_lt.mp long)
      (by rw [← sender, length_bytesOf])
  · exact getPeers_responds_iff host around mstp _ _ _ peers first second (Nat.not_lt.mp long) sender plain
  · exact registry_responds_iff host around mstp _ _ _ first second (Nat.not_lt.mp long) sender

/-- A node with the id of the letter b asks the sample master for the given table. -/
def samplePing : List UInt8 := sent (pmpPingReqPkt .little (some blankBlock) (letterId 98) (letterId 97) blankBlock)

def sampleDiscovery : List UInt8 :=
  sent (pmpDiscoveryReqPkt .little (some blankBlock) 9998 (letterId 98) (letterId 97) blankBlock)

def sampleGetPeers : List UInt8 :=
  sent (pmpGetPeersReqPkt .little (some blankBlock) (letterId 98) (letterId 97) blankBlock)

/-- A ping is answered to its sender. -/
theorem master_responds_sample :
    Responds ping (senderId ping samplePing) (receive .little blankSurroundings blankBlock blankMaster samplePing) := by
  have valid : blankBucket.Valid := ⟨by decide, by decide⟩
  have complete : IsRequest ping (requestSize ping) samplePing := by decide +kernel
  have plain : 0 ∉ senderId ping samplePing := by decide +kernel
  exact (master_responds_iff .little blankSurroundings blankBlock blankMaster valid valid ping (.inl rfl) samplePing
    complete plain).mpr ⟨blankBlock, rfl,
      fun impossible => absurd impossible (by decide), fun impossible => absurd impossible (by decide)⟩

/-- A discovery request of the node b is answered to the id of the master, and an empty table of peers is not sent. -/
theorem master_answers_itself :
    (IsRequest disc (requestSize disc) sampleDiscovery ∧ 0 ∉ senderId disc sampleDiscovery ∧
      ¬ Responds disc (senderId disc sampleDiscovery)
        (receive .little blankSurroundings blankBlock blankMaster sampleDiscovery)) ∧
    (IsRequest gPs (requestSize gPs) sampleGetPeers ∧ 0 ∉ senderId gPs sampleGetPeers ∧
      ¬ Responds gPs (senderId gPs sampleGetPeers)
        (receive .little blankSurroundings blankBlock blankMaster sampleGetPeers)) := by
  have target : (receive .little blankSurroundings blankBlock blankMaster sampleDiscovery).2.map (fieldAt 4) =
      some (idBytes (letterId 97)) := by decide +kernel
  have different : senderId disc sampleDiscovery ≠ idBytes (letterId 97) := by decide +kernel
  have silent : (receive .little blankSurroundings blankBlock blankMaster sampleGetPeers).2 = none := by decide +kernel
  refine ⟨⟨by decide +kernel, by decide +kernel, ?_⟩, by decide +kernel, by decide +kernel, ?_⟩
  · rintro ⟨answer, answered, answers⟩
    rw [answered, Option.map_some, Option.some.injEq] at target
    exact different (answers.target.symm.trans target)
  · rintro ⟨answer, answered, _⟩
    rw [silent] at answered
    cases answered

end Nose
