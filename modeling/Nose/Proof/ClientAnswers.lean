import Nose.Proof.SocketCount
import Nose.Proof.Tunnel

namespace Nose

open CMemory DottedQuad

/-- The datagram starts with the header of a response of the given type. -/
def IsResponse (type : UInt8) (datagram : List UInt8) : Prop := datagram.getD 0 0 = type ∧ datagram.getD 1 0 = rsp

/-- These are the items that the pushes add to the bucket, whose ids are new at that time. -/
def inserted (ctx : Nat → PushContext) : Bucket → List BucketItem → List BucketItem
  | _, [] => []
  | bkt, item :: rest =>
      if hasNodeId (ctx rest.length) bkt item then inserted ctx bkt rest
      else item :: inserted ctx (pushFrontBucket (ctx rest.length) bkt item) rest

/-- The bucket knows the id of each item. -/
def AllKnown (ctx : Nat → PushContext) (bkt : Bucket) : List BucketItem → Prop
  | [] => True
  | item :: rest => hasNodeId (ctx rest.length) bkt item = true ∧ AllKnown ctx bkt rest

theorem inserted_eq_nil_iff (ctx : Nat → PushContext) (bkt : Bucket) (items : List BucketItem) :
    inserted ctx bkt items = [] ↔ AllKnown ctx bkt items := by
  induction items with
  | nil => exact iff_of_true rfl trivial
  | cons item rest ih =>
      rw [inserted, AllKnown, ← ih]
      by_cases known : hasNodeId (ctx rest.length) bkt item = true
      · simp [known]
      · simp [known]

/-- Known items leave the bucket as it is. -/
theorem AllKnown.unchanged {ctx : Nat → PushContext} {bkt : Bucket} {items : List BucketItem}
    (known : AllKnown ctx bkt items) : pushItems ctx bkt items = bkt := by
  induction items with
  | nil => rfl
  | cons item rest ih => rw [pushItems, pushFrontBucket_known known.1, ih known.2]

/-- The items that a response with options hands to the bucket of its receiver. A response that is too short for its
options hands over none. -/
def responseItems (decode : BucketItem → Block → BucketItem) (stride least : Nat) (count : Block → Nat)
    (item : BucketItem) (datagram : List UInt8) : List BucketItem :=
  let received := datagram.take bufsiz
  let buf := block received fun _ => 0
  if received.length < least ∨ received.length < 24 + stride * count buf then []
  else decodedItems decode stride buf (count buf) 24 item

def discoveryItems (host : ByteOrder) : BucketItem → List UInt8 → List BucketItem :=
  responseItems (discoveryItem host) 28 44 fun buf => (load16 host buf 2).toNat

def getPeersItems (host : ByteOrder) : BucketItem → List UInt8 → List BucketItem :=
  responseItems (getPeersItem host) 32 24 fun buf => (htons host (load16 host buf 2)).toNat

theorem copy_congr {size : Nat} (array : CharArray size) {first second : Block} {count : Nat}
    (agree : ∀ i < count, first i = second i) : array.copy first count = array.copy second count := by
  apply Vector.ext
  intro i inside
  rw [CharArray.getElem_copy _ _ _ _ inside, CharArray.getElem_copy _ _ _ _ inside]
  split
  · rename_i small
    exact agree i small
  · rfl

theorem loadAddr_congr {first second : Block} {offset : Nat}
    (agree : ∀ i < 4, first (offset + i) = second (offset + i)) : loadAddr first offset = loadAddr second offset := by
  simp only [loadAddr, agree 1 (by decide), agree 2 (by decide), agree 3 (by decide)]
  rw [show first offset = second offset from agree 0 (by decide)]

theorem discoveryItem_congr (host : ByteOrder) (item : BucketItem) {first second : Block}
    (agree : ∀ i < 28, first i = second i) : discoveryItem host item first = discoveryItem host item second := by
  have id : item.nodeId.copy (pointer first 8) 20 = item.nodeId.copy (pointer second 8) 20 :=
    copy_congr item.nodeId fun i inside => agree (8 + i) (by omega)
  have address : loadAddr first 4 = loadAddr second 4 := loadAddr_congr fun i inside => agree (4 + i) (by omega)
  rw [discoveryItem, discoveryItem, id, address, load16_congr host (agree 0 (by decide)) (agree 1 (by decide))]

theorem getPeersItem_congr (host : ByteOrder) (item : BucketItem) {first second : Block}
    (agree : ∀ i < 32, first i = second i) : getPeersItem host item first = getPeersItem host item second := by
  have id : item.nodeId.copy (pointer first 12) 20 = item.nodeId.copy (pointer second 12) 20 :=
    copy_congr item.nodeId fun i inside => agree (12 + i) (by omega)
  have address : loadAddr first 4 = loadAddr second 4 := loadAddr_congr fun i inside => agree (4 + i) (by omega)
  have vlan : loadAddr first 8 = loadAddr second 8 := loadAddr_congr fun i inside => agree (8 + i) (by omega)
  rw [getPeersItem, getPeersItem, id, address, vlan, agree 0 (by decide),
    load16_congr host (agree 2 (by decide)) (agree 3 (by decide))]

/-- Items are decoded from the bytes of their options only. -/
theorem decodedItems_congr {decode : BucketItem → Block → BucketItem} {stride : Nat}
    (congruent : ∀ item {first second : Block}, (∀ i < stride, first i = second i) →
      decode item first = decode item second)
    {first second : Block} {n offset : Nat} (item : BucketItem)
    (agree : ∀ i < offset + stride * n, first i = second i) :
    decodedItems decode stride first n offset item = decodedItems decode stride second n offset item := by
  induction n generalizing offset item with
  | zero => rfl
  | succ n ih =>
      have total : offset + stride * (n + 1) = offset + stride + stride * n := by ring
      have same : decode item (pointer first offset) = decode item (pointer second offset) :=
        congruent item fun i inside => agree (offset + i) (by omega)
      rw [decodedItems, decodedItems, same, ih _ fun i inside => agree i (by omega)]

/-- The old bytes behind a response do not matter. -/
theorem responseItems_eq {decode : BucketItem → Block → BucketItem} {stride least : Nat} {count : Block → Nat}
    (congruent : ∀ item {first second : Block}, (∀ i < stride, first i = second i) →
      decode item first = decode item second)
    (counted : ∀ {first second : Block}, first 2 = second 2 → first 3 = second 3 → count first = count second)
    (header : 4 ≤ least) (item : BucketItem) (datagram : List UInt8) (old : Block) :
    let received := datagram.take bufsiz
    let buf := block received old
    responseItems decode stride least count item datagram =
      if received.length < least ∨ received.length < 24 + stride * count buf then []
      else decodedItems decode stride buf (count buf) 24 item := by
  intro received buf
  have read (i : Nat) (inside : i < received.length) : block received (fun _ => 0) i = buf i := by
    rw [block_of_lt inside]
    exact (block_of_lt inside).symm
  rw [responseItems]
  by_cases short : received.length < least
  · rw [if_pos (.inl short), if_pos (.inl short)]
  · have number : count (block received fun _ => 0) = count buf := counted (read 2 (by omega)) (read 3 (by omega))
    rw [number]
    by_cases incomplete : received.length < 24 + stride * count buf
    · rw [if_pos (.inr incomplete), if_pos (.inr incomplete)]
    · have complete : ¬ (received.length < least ∨ received.length < 24 + stride * count buf) := by omega
      rw [if_neg complete, if_neg complete]
      exact decodedItems_congr congruent item fun i inside => read i (by omega)

theorem sizeT_take (datagram : List UInt8) :
    sizeT ((datagram.take bufsiz).length : Int) = (datagram.take bufsiz).length := by
  rw [sizeT_received, List.length_take]
  rfl

/-- A decoder of options that rejects short datagrams leaves the bucket with the items of the response pushed. -/
theorem pushItems_responseItems {decode : BucketItem → Block → BucketItem} {stride least : Nat} {count : Block → Nat}
    (congruent : ∀ item {first second : Block}, (∀ i < stride, first i = second i) →
      decode item first = decode item second)
    (counted : ∀ {first second : Block}, first 2 = second 2 → first 3 = second 3 → count first = count second)
    (header : 4 ≤ least) (ctx : Nat → PushContext) (item : BucketItem) (b : Bucket) (datagram : List UInt8)
    (old : Block) :
    let received := datagram.take bufsiz
    let buf := block received old
    (if received.length < least then (error, b)
      else if received.length < 24 + stride * count buf then (error, b)
      else (ok, pushItems ctx b (decodedItems decode stride buf (count buf) 24 item))).2 =
        pushItems ctx b (responseItems decode stride least count item datagram) := by
  intro received buf
  rw [responseItems_eq congruent counted header item datagram old]
  by_cases short : received.length < least
  · rw [if_pos short, if_pos (.inl short)]
    rfl
  · by_cases incomplete : received.length < 24 + stride * count buf
    · rw [if_neg short, if_pos incomplete, if_pos (.inr incomplete)]
      rfl
    · have complete : ¬ (received.length < least ∨ received.length < 24 + stride * count buf) := by omega
      rw [if_neg short, if_neg incomplete, if_neg complete]

/-- Nothing is offered when nothing was received. -/
theorem responseItems_nothing {decode : BucketItem → Block → BucketItem} {stride least : Nat} {count : Block → Nat}
    (header : 4 ≤ least) (item : BucketItem) {datagram : List UInt8}
    (nothing : ¬ ((datagram.take bufsiz).length : Int) > 0) :
    responseItems decode stride least count item datagram = [] := if_pos (.inl (by omega))

/-- A discovery callback pushes the items of the datagram. -/
theorem discoveryProc_eq (host : ByteOrder) (around : Surroundings) (mstp : MasterPeer) (datagram : List UInt8)
    (old : Block) :
    discoveryProc host around mstp (block (datagram.take bufsiz) old) (datagram.take bufsiz).length =
      { mstp with
        masterPeerBkt := pushItems around.push mstp.masterPeerBkt (discoveryItems host around.item datagram) } := by
  have counted {first second : Block} (third : first 2 = second 2) (fourth : first 3 = second 3) :
      (load16 host first 2).toNat = (load16 host second 2).toNat := by rw [load16_congr host third fourth]
  have unpacked : (pmpDiscoveryRspUnpack host around.push around.item mstp.masterPeerBkt
      (block (datagram.take bufsiz) old) (datagram.take bufsiz).length).2 =
        pushItems around.push mstp.masterPeerBkt (discoveryItems host around.item datagram) := by
    rw [pmpDiscoveryRspUnpack, sizeT_take]
    dsimp only
    rw [Nat.mul_comm _ 28, Nat.add_comm _ 24, discoveryOptionsUnpack_eq]
    exact pushItems_responseItems (discoveryItem_congr host) counted (by decide) around.push around.item
      mstp.masterPeerBkt datagram old
  rw [discoveryProc, unpacked]
  split
  · rfl
  · rename_i nothing
    have none_offered : discoveryItems host around.item datagram = [] :=
      responseItems_nothing (by decide) around.item nothing
    rw [none_offered]
    rfl

/-- A peers callback pushes the items of the datagram. -/
theorem getPeers_eq (host : ByteOrder) (around : Surroundings) (mstp : MasterPeer) (datagram : List UInt8)
    (old : Block) :
    getPeers host around mstp (block (datagram.take bufsiz) old) (datagram.take bufsiz).length =
      { mstp with peerBkt := pushItems around.push mstp.peerBkt (getPeersItems host around.item datagram) } := by
  have counted {first second : Block} (third : first 2 = second 2) (fourth : first 3 = second 3) :
      (htons host (load16 host first 2)).toNat = (htons host (load16 host second 2)).toNat := by
    rw [load16_congr host third fourth]
  have unpacked : (pmpGetPeersRspUnpack host around.push around.item mstp.peerBkt
      (block (datagram.take bufsiz) old) (datagram.take bufsiz).length).2 =
        pushItems around.push mstp.peerBkt (getPeersItems host around.item datagram) := by
    rw [pmpGetPeersRspUnpack, sizeT_take]
    dsimp only
    rw [getPeersOptionsUnpack_eq]
    exact pushItems_responseItems (getPeersItem_congr host) counted (by decide) around.push around.item mstp.peerBkt
      datagram old
  rw [getPeers, unpacked]
  split
  · rfl
  · rename_i nothing
    have none_offered : getPeersItems host around.item datagram = [] :=
      responseItems_nothing (by decide) around.item nothing
    rw [none_offered]
    rfl

/-- The exchange gives the received bytes over those of the request. -/
theorem exchange_received {host : ByteOrder} {net : UdpOutcomes} {item : BucketItem} {built : Int × Block}
    {source : SockAddr} {datagram : List UInt8} (received : net.recvfrom = some (source, datagram)) :
    (exchange host net item built).1 = (datagram.take bufsiz).length ∧
      (exchange host net item built).2.1 = block (datagram.take bufsiz) built.2 := by
  rw [exchange, recvUdpPkt, received]
  exact ⟨rfl, rfl⟩

/-- The discovery callback adds nothing and leaves the master as it is, unless the datagram is a discovery response. -/
def DiscoveryBelieves (host : ByteOrder) (around : Surroundings) (net : UdpOutcomes) (mstp : MasterPeer)
    (datagram : List UInt8) : Prop :=
  ¬ IsResponse disc datagram → inserted around.push mstp.masterPeerBkt (discoveryItems host around.item datagram) = [] ∧
    (mstp.discoveryProc host around net).1 = some mstp

/-- The peers callback adds nothing and leaves the master as it is, unless the datagram is a peers response. -/
def GetPeersBelieves (host : ByteOrder) (around : Surroundings) (net : UdpOutcomes) (mstp : MasterPeer)
    (datagram : List UInt8) : Prop :=
  ¬ IsResponse gPs datagram → inserted around.push mstp.peerBkt (getPeersItems host around.item datagram) = [] ∧
    (mstp.getPeers host around net).1 = some mstp

/-- The datagram arrives after the request of a search. -/
def Outcomes.answered (outcomes : Outcomes) (datagram : List UInt8) : Outcomes :=
  { outcomes with
    answer := block (datagram.take bufsiz) outcomes.answer
    recvUdpPkt := (datagram.take bufsiz).length }

/-- The search changes neither the bucket nor the remote address nor the phase, unless the datagram is a find
response. -/
def FindBelieves (host : ByteOrder) (outcomes : Outcomes) (pr : Peer) (datagram : List UInt8) : Prop :=
  ¬ IsResponse fP datagram →
    let result := findRemotePeer host (outcomes.answered datagram) pr
    result.1.peer = pr.peer ∧ result.1.remotePeerAddr = pr.remotePeerAddr ∧ result.1.helloEvent = pr.helloEvent ∧
      Quiet result.2

/-- Items that are pushed into a table of the master leave it as it is when they are known. -/
theorem unless_named_iff {named : Prop} {ctx : Nat → PushContext} {bkt : Bucket} {items : List BucketItem}
    {mstp : MasterPeer} (store : Bucket → MasterPeer) (stored : store bkt = mstp) :
    (¬ named → AllKnown ctx bkt items ∧ some (store (pushItems ctx bkt items)) = some mstp) ↔
      named ∨ AllKnown ctx bkt items := by
  constructor
  · intro believes
    by_cases said : named
    · exact .inl said
    · exact .inr (believes said).1
  · rintro (said | known) unnamed
    · exact absurd said unnamed
    · rw [known.unchanged, stored]
      exact ⟨known, rfl⟩

section Receivers

variable (host : ByteOrder)

theorem discovery_believes_iff (around : Surroundings) {net : UdpOutcomes} {mstp : MasterPeer} {source : SockAddr}
    {datagram : List UInt8} (knows : 0 ≤ mstp.masterPeerBkt.top) (received : net.recvfrom = some (source, datagram)) :
    DiscoveryBelieves host around net mstp datagram ↔
      IsResponse disc datagram ∨ (datagram.length ≤ 1024 ∧
        AllKnown around.push mstp.masterPeerBkt (discoveryItems host around.item datagram)) := by
  have front := getFrontBucket_nonempty knows
  have length : (datagram.take bufsiz).length = min 8192 datagram.length := List.length_take
  have after : (mstp.discoveryProc host around net).1 =
      if 1024 < datagram.length then none
      else some { mstp with
        masterPeerBkt := pushItems around.push mstp.masterPeerBkt (discoveryItems host around.item datagram) } := by
    rw [MasterPeer.discoveryProc, front]
    dsimp only
    rw [(exchange_received received).1, (exchange_received received).2, discoveryProc_eq]
    by_cases overrun : 1024 < datagram.length
    · rw [if_pos overrun, if_pos (by omega)]
    · rw [if_neg overrun, if_neg (by omega)]
  rw [DiscoveryBelieves, inserted_eq_nil_iff, after]
  by_cases overrun : 1024 < datagram.length
  · have long : ¬ datagram.length ≤ 1024 := by omega
    simp [overrun, long]
  · have short : datagram.length ≤ 1024 := by omega
    rw [if_neg overrun, unless_named_iff (fun table => { mstp with masterPeerBkt := table }) rfl]
    simp [short]

theorem getPeers_believes_iff (around : Surroundings) {net : UdpOutcomes} {mstp : MasterPeer} {source : SockAddr}
    {datagram : List UInt8} (knows : 0 ≤ mstp.masterPeerBkt.top) (received : net.recvfrom = some (source, datagram)) :
    GetPeersBelieves host around net mstp datagram ↔
      IsResponse gPs datagram ∨ AllKnown around.push mstp.peerBkt (getPeersItems host around.item datagram) := by
  have front := getFrontBucket_nonempty knows
  have after : (mstp.getPeers host around net).1 = some { mstp with
      peerBkt := pushItems around.push mstp.peerBkt (getPeersItems host around.item datagram) } := by
    rw [MasterPeer.getPeers, front]
    dsimp only
    rw [(exchange_received received).1, (exchange_received received).2, getPeers_eq]
  rw [GetPeersBelieves, inserted_eq_nil_iff, after]
  exact unless_named_iff (fun table => { mstp with peerBkt := table }) rfl

/-- After a push the bucket has a front entry. -/
theorem getFrontBucket_push (ctx : PushContext) {bkt : Bucket} (item : BucketItem) (valid : -1 ≤ bkt.top) :
    ∃ slot, getFrontBucket (pushFrontBucket ctx bkt item) = some slot := by
  refine ⟨_, getFrontBucket_nonempty ?_⟩
  rw [pushFrontBucket]
  by_cases known : hasNodeId ctx bkt item = true
  · rw [if_pos known]
    by_contra empty
    have none : bkt.count = 0 := by
      unfold Bucket.count
      omega
    simp [hasNodeId, none] at known
  · rw [if_neg known]
    dsimp only
    split
    · rename_i full
      simp only [popBackBucket, maxBucketSize] at full ⊢
      omega
    · omega

/-- A search with a short answer sends its request and is armed again. -/
theorem findRemotePeer_short {outcomes : Outcomes} (pr : Peer) {datagram : List UInt8} {old : Block}
    (allocated : outcomes.malloc = some old) (asked : 0 ≤ outcomes.sendUdpPkt) (short : datagram.length < 56) :
    ∃ request, findRemotePeer host (outcomes.answered datagram) pr =
      ({ pr with fpEvent := true }, [.sendUdpPkt request]) := by
  have size := sizeT_received datagram
  have rejected : pmpFindPeerRspUnpack host outcomes.push outcomes.item (Vector.replicate 21 0) pr.peer
      (block (datagram.take bufsiz) outcomes.answer) (datagram.take bufsiz).length =
        (error, Vector.replicate 21 0, pr.peer) := if_pos (by omega)
  have built (peerId mstpId : CharArray 21) (vlanIpv4 : CharArray 16) (buf : Block) :
      (pmpFindPeerReqPkt (some old) peerId mstpId vlanIpv4 buf).1 = 48 := rfl
  rw [findRemotePeer, Outcomes.answered]
  dsimp only
  rw [allocated, built, if_neg (by omega), if_neg (by omega), if_neg (by omega), rejected,
    if_pos (show error ≠ ok by decide)]
  exact ⟨_, rfl⟩

/-- A search takes every longer answer for a find response. -/
theorem findRemotePeer_long {outcomes : Outcomes} {pr : Peer} {datagram : List UInt8} {old : Block}
    (valid : -1 ≤ pr.peer.top) (allocated : outcomes.malloc = some old) (asked : 0 ≤ outcomes.sendUdpPkt)
    (long : 56 ≤ datagram.length) :
    ∃ address, .found address ∈ (findRemotePeer host (outcomes.answered datagram) pr).2 := by
  have size := sizeT_received datagram
  obtain ⟨peerId, accepted⟩ : ∃ peerId, pmpFindPeerRspUnpack host outcomes.push outcomes.item (Vector.replicate 21 0)
      pr.peer (block (datagram.take bufsiz) outcomes.answer) (datagram.take bufsiz).length =
        (ok, peerId, pushFrontBucket outcomes.push pr.peer
          (registryItem host outcomes.item (block (datagram.take bufsiz) outcomes.answer))) :=
    ⟨_, if_neg (by omega)⟩
  obtain ⟨slot, front⟩ := getFrontBucket_push outcomes.push
    (registryItem host outcomes.item (block (datagram.take bufsiz) outcomes.answer)) valid
  have built (peerId mstpId : CharArray 21) (vlanIpv4 : CharArray 16) (buf : Block) :
      (pmpFindPeerReqPkt (some old) peerId mstpId vlanIpv4 buf).1 = 48 := rfl
  rw [findRemotePeer, Outcomes.answered]
  dsimp only
  rw [allocated, built, if_neg (by omega), if_neg (by omega), if_neg (by omega), accepted, if_neg (by simp)]
  dsimp only
  rw [front]
  exact ⟨_, List.mem_append_right _ List.mem_cons_self⟩

/-- A search believes a datagram that is not a find response exactly when the datagram is long enough. -/
theorem find_believes_iff {outcomes : Outcomes} {pr : Peer} (datagram : List UInt8) (valid : -1 ≤ pr.peer.top)
    (allocated : outcomes.malloc ≠ none) (asked : 0 ≤ outcomes.sendUdpPkt) :
    FindBelieves host outcomes pr datagram ↔ IsResponse fP datagram ∨ datagram.length < 56 := by
  obtain ⟨old, malloc⟩ := Option.ne_none_iff_exists'.mp allocated
  by_cases named : IsResponse fP datagram
  · exact iff_of_true (fun unnamed => absurd named unnamed) (.inl named)
  · by_cases short : datagram.length < 56
    · refine iff_of_true (fun _ => ?_) (.inr short)
      obtain ⟨request, searched⟩ := findRemotePeer_short host pr malloc asked short
      rw [searched]
      exact ⟨rfl, rfl, rfl, by simp [Call.Quiet]⟩
    · refine iff_of_false (fun believes => ?_) (by simp [named, short])
      obtain ⟨address, found⟩ := findRemotePeer_long host valid malloc asked (Nat.le_of_not_lt short)
      exact (believes named).2.2.2 _ found

end Receivers

/-- A client believes only answers to its own question exactly as long as the header of the datagram is right, or the
datagram offers nothing new. -/
theorem client_believes_iff (host : ByteOrder) (around : Surroundings) (net : UdpOutcomes) (mstp : MasterPeer)
    (outcomes : Outcomes) (pr : Peer) (source : SockAddr) (datagram : List UInt8)
    (received : net.recvfrom = some (source, datagram)) (knows : 0 ≤ mstp.masterPeerBkt.top)
    (valid : -1 ≤ pr.peer.top) (allocated : outcomes.malloc ≠ none) (asked : 0 ≤ outcomes.sendUdpPkt) :
    (DiscoveryBelieves host around net mstp datagram ↔
      IsResponse disc datagram ∨ (datagram.length ≤ 1024 ∧
        AllKnown around.push mstp.masterPeerBkt (discoveryItems host around.item datagram))) ∧
    (GetPeersBelieves host around net mstp datagram ↔
      IsResponse gPs datagram ∨ AllKnown around.push mstp.peerBkt (getPeersItems host around.item datagram)) ∧
    (FindBelieves host outcomes pr datagram ↔ IsResponse fP datagram ∨ datagram.length < 56) :=
  ⟨discovery_believes_iff host around knows received, getPeers_believes_iff host around knows received,
    find_believes_iff host datagram valid allocated asked⟩

/-- A datagram of an unknown type with the given count. -/
def foreignDatagram (first second : UInt8) : List UInt8 := [9, rsp, first, second] ++ List.replicate 52 7

/-- All calls succeed, and the datagram arrives. -/
def deliveredOutcomes (datagram : List UInt8) : UdpOutcomes :=
  ⟨5, 0, 44, some (⟨⟨1, 2, 3, 98⟩, 9998⟩, datagram), ⟨0, ⟨⟨0, 0, 0, 0⟩, 0⟩⟩, blankBlock⟩

/-- The foreign datagrams have an item for the discovery callback, for the search and for the peers callback. -/
theorem client_believes_sample :
    let first := foreignDatagram 1 0
    let second := foreignDatagram 0 1
    ((discoveryItems .little blankSurroundings.item first).length = 1 ∧
      (getPeersItems .little blankSurroundings.item second).length = 1) ∧
    (DiscoveryBelieves .little blankSurroundings (deliveredOutcomes first) samplePinger first ↔
      IsResponse disc first ∨ (first.length ≤ 1024 ∧
        AllKnown blankSurroundings.push samplePinger.masterPeerBkt
          (discoveryItems .little blankSurroundings.item first))) ∧
    (GetPeersBelieves .little blankSurroundings (deliveredOutcomes second) samplePinger second ↔
      IsResponse gPs second ∨
        AllKnown blankSurroundings.push samplePinger.peerBkt
          (getPeersItems .little blankSurroundings.item second)) ∧
    (FindBelieves .little blankOutcomes samplePr first ↔ IsResponse fP first ∨ first.length < 56) := by
  intro first second
  have believes (datagram : List UInt8) := client_believes_iff .little blankSurroundings
    (deliveredOutcomes datagram) samplePinger blankOutcomes samplePr ⟨⟨1, 2, 3, 98⟩, 9998⟩ datagram rfl (by decide)
    (by decide) (Option.some_ne_none blankBlock) (by decide)
  exact ⟨by decide +kernel, (believes first).1, (believes second).2.1, (believes first).2.2⟩

/-- Datagrams of an unknown type insert entries into both tables and start the hello phase. -/
theorem foreign_datagrams_are_believed :
    ¬ DiscoveryBelieves .little blankSurroundings (deliveredOutcomes (foreignDatagram 1 0)) samplePinger
        (foreignDatagram 1 0) ∧
      ¬ GetPeersBelieves .little blankSurroundings (deliveredOutcomes (foreignDatagram 0 1)) samplePinger
          (foreignDatagram 0 1) ∧
        ¬ FindBelieves .little blankOutcomes samplePr (foreignDatagram 1 0) := by
  have discovered : (samplePinger.discoveryProc .little blankSurroundings
      (deliveredOutcomes (foreignDatagram 1 0))).1.map (fun next => next.masterPeerBkt.top) = some 1 := by
    decide +kernel
  have learned : (samplePinger.getPeers .little blankSurroundings
      (deliveredOutcomes (foreignDatagram 0 1))).1.map (fun next => next.peerBkt.top) = some 0 := by decide +kernel
  have unnamed (type first second : UInt8) (other : type ≠ 9) : ¬ IsResponse type (foreignDatagram first second) :=
    fun named => other named.1.symm
  refine ⟨fun believes => ?_, fun believes => ?_, fun believes => ?_⟩
  · rw [(believes (unnamed disc 1 0 (by decide))).2] at discovered
    exact absurd discovered (by decide)
  · rw [(believes (unnamed gPs 0 1 (by decide))).2] at learned
    exact absurd learned (by decide)
  · obtain ⟨address, found⟩ := findRemotePeer_long .little (show -1 ≤ samplePr.peer.top by decide)
      (show blankOutcomes.malloc = some blankBlock from rfl) (by decide)
      (show 56 ≤ (foreignDatagram 1 0).length by decide)
    exact (believes (unnamed fP 1 0 (by decide))).2.2.2 _ found

end Nose
