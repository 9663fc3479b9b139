import Nose.Proof.BucketRefinement
import Nose.Proof.Registration

namespace Nose

open CMemory DottedQuad

/-- These are the arguments of a registry request. -/
structure Registration where
  mstpId : CharArray 21
  peerId : CharArray 21
  vlanIpv4 : CharArray 16
  type : NatType

/-- The id has twenty characters, the addresses are dotted quads, and the numbers are in range. -/
structure Registration.WellFormed (peer : Registration) : Prop where
  id : 0 ∉ idBytes peer.peerId
  vlan : Canonical (cstr peer.vlanIpv4.toList)
  ipv4 : Canonical (cstr peer.type.ipv4.toList)
  port : 0 ≤ peer.type.port ∧ peer.type.port ≤ 65535
  natType : 0 ≤ peer.type.natType ∧ peer.type.natType ≤ 7

/-- The caller of a builder sends as many bytes as the builder returns. -/
def sent (built : Int × Block) : List UInt8 := bytesOf built.2 built.1.toNat

/-- The delivery carries the registry request of the peer, from a host of either byte order. -/
def Registration.Registers (peer : Registration) (delivery : Delivery) : Prop :=
  ∃ host old buf, delivery.datagram =
    sent (pmpPeerRegistryReqPkt host (some old) peer.mstpId peer.peerId peer.vlanIpv4 peer.type buf)

/-- The other requests that a master receives are complete and of another type. -/
def OtherRequest (datagram : List UInt8) : Prop :=
  IsRequest ping 44 datagram ∨ IsRequest disc 44 datagram ∨ IsRequest gPs 44 datagram ∨ IsFind datagram

theorem OtherRequest.not_registry {datagram : List UInt8} (other : OtherRequest datagram) : ¬ IsRegistry datagram := by
  intro registry
  have type : datagram.getD 0 0 = rP := registry.1
  rcases other with request | request | request | request
  all_goals
    rw [request.1] at type
    exact absurd type (by decide)

/-- This is what the registry request of a peer says. -/
def Registration.info (peer : Registration) : PeerInfo :=
  ⟨UInt16.ofInt peer.type.natType, UInt16.ofInt peer.type.port, inetAddr (cstr peer.type.ipv4.toList),
    inetAddr (cstr peer.vlanIpv4.toList), idBytes peer.peerId⟩

/-- A registry request is complete and says what its builder was given. -/
theorem Registration.Registers.facts {peer : Registration} {delivery : Delivery} (registers : peer.Registers delivery) :
    IsRegistry delivery.datagram ∧ infoOf delivery.datagram = peer.info := by
  obtain ⟨host, old, buf, same⟩ := registers
  rw [same]
  have start (i : Nat) (inside : i < 56) :
      (pmpPeerRegistryReqPkt host (some old) peer.mstpId peer.peerId peer.vlanIpv4 peer.type buf).2 i =
        peerPkt host rP req (UInt16.ofInt peer.type.natType) (UInt16.ofInt peer.type.port)
          (cstr peer.type.ipv4.toList) (cstr peer.vlanIpv4.toList) peer.mstpId peer.peerId old i := by
    simp only [pmpPeerRegistryReqPkt]
    rw [memcpy_inside (Nat.zero_le i) (by omega), Nat.sub_zero]
  constructor
  · refine ⟨?_, ?_, ?_⟩
    · exact (getD_bytesOf (show 0 < 56 by decide)).trans ((start 0 (by decide)).trans (header_peerPkt ..).1)
    · exact (getD_bytesOf (show 1 < 56 by decide)).trans ((start 1 (by decide)).trans (header_peerPkt ..).2)
    · exact Nat.le_of_eq (length_bytesOf _ _).symm
  · rw [infoOf, Registration.info, ← peerInfo_peerPkt host rP req _ _ _ _ peer.mstpId peer.peerId old]
    exact peerInfo_congr fun i inside => (block_bytesOf inside).trans (start i inside)

/-- The find request for an address asks for that address. -/
theorem findReq_facts (old buf : Block) (peerId mstpId : CharArray 21) (vlanIpv4 : CharArray 16) :
    IsFind (sent (pmpFindPeerReqPkt (some old) peerId mstpId vlanIpv4 buf)) ∧
      askedVlan (sent (pmpFindPeerReqPkt (some old) peerId mstpId vlanIpv4 buf)) = inetAddr (cstr vlanIpv4.toList) := by
  have read (i : Nat) (inside : i < 48) : (sent (pmpFindPeerReqPkt (some old) peerId mstpId vlanIpv4 buf)).getD i 0 =
      (pmpFindPeerReqPkt (some old) peerId mstpId vlanIpv4 buf).2 i := getD_bytesOf inside
  have length : (sent (pmpFindPeerReqPkt (some old) peerId mstpId vlanIpv4 buf)).length = 48 := length_bytesOf _ _
  constructor
  · refine ⟨?_, ?_, Nat.le_of_eq length.symm⟩
    · rw [read 0 (by decide)]
      simp [pmpFindPeerReqPkt, memcpy, storeAddr, setByte, header]
    · rw [read 1 (by decide)]
      simp [pmpFindPeerReqPkt, memcpy, storeAddr, setByte, header]
  · have byte (i : Nat) (inside : i < 48) :
        block (sent (pmpFindPeerReqPkt (some old) peerId mstpId vlanIpv4 buf)) (fun _ => 0) i =
          (pmpFindPeerReqPkt (some old) peerId mstpId vlanIpv4 buf).2 i :=
      (block_of_lt (length ▸ inside)).trans (read i inside)
    rw [askedVlan, loadAddr, byte 4 (by decide), byte 5 (by decide), byte 6 (by decide), byte 7 (by decide)]
    simp [pmpFindPeerReqPkt, memcpy, storeAddr, setByte]

/-- A finder with an empty table has the decoded item in front. -/
theorem findPeerRspUnpack_front (host : ByteOrder) (ctx : PushContext) (item : BucketItem) (peerId : CharArray 21)
    (bkt : Bucket) (answer : List UInt8) (rest : Block) (empty : bkt.top = -1) (length : answer.length = 56) :
    let unpacked := pmpFindPeerRspUnpack host ctx item peerId bkt (block answer rest) answer.length
    unpacked.1 = ok ∧ getFrontBucket unpacked.2.2 = some 0 ∧ Carries (unpacked.2.2.b 0) (infoOf answer) := by
  have complete : ¬ sizeT (answer.length : Int) < 56 := by
    rw [length, sizeT_natCast (by decide)]
    decide
  have same : peerInfo (block answer rest) = infoOf answer :=
    peerInfo_congr fun i small => by rw [block_of_lt (by omega), block_of_lt (by omega)]
  have carries := (registryItem_carries host item (block answer rest)).stamped ctx
  rw [same] at carries
  simpa [pmpFindPeerRspUnpack, pmpPeerRegistryReqUnpack, complete, pushFrontBucket, hasNodeId, Bucket.count, empty,
    maxBucketSize, getFrontBucket, stamped] using carries

/-- An item that repeats the request of a peer has the data of the peer. -/
theorem Registration.WellFormed.item {peer : Registration} {item : BucketItem} {id : List UInt8}
    (well : peer.WellFormed) (carries : Carries item { peer.info with id := id }) :
    cstr item.ipv4.toList = cstr peer.type.ipv4.toList ∧ (item.port.toNat : Int) = peer.type.port ∧
      item.natType = peer.type.natType ∧ vlanOf item = cstr peer.vlanIpv4.toList := by
  refine ⟨carries.ipv4.trans well.ipv4.inetNtoa_inetAddr, ?_, ?_, carries.vlanIpv4.trans well.vlan.inetNtoa_inetAddr⟩
  · have port := well.port
    rw [carries.port]
    simp only [Registration.info, UInt16.ofInt, UInt16.toNat_ofNat']
    omega
  · have natType := well.natType
    rw [carries.natType]
    simp only [Registration.info, UInt16.ofInt, UInt16.toNat_ofNat']
    omega

theorem Registration.WellFormed.plain {peer : Registration} (well : peer.WellFormed) :
    cstr (idBytes peer.peerId) = idBytes peer.peerId := by
  have text := cstr_terminated (idBytes peer.peerId) [] well.id
  rwa [cstr_append_zero] at text

theorem Registration.Registers.peerId_eq {peer : Registration} {delivery : Delivery} (registers : peer.Registers delivery)
    (well : peer.WellFormed) : delivery.peerId = idBytes peer.peerId := by
  rw [Delivery.peerId, registers.facts.2]
  exact well.plain

section Registered

variable {peers : List Registration} {deliveries : List Delivery}
  (wellFormed : ∀ other ∈ peers, other.WellFormed)
  (expected : ∀ delivery ∈ deliveries, (∃ other ∈ peers, other.Registers delivery) ∨ OtherRequest delivery.datagram)

include wellFormed expected

/-- A registry request among the deliveries comes from one of the peers. -/
theorem registry_source {delivery : Delivery} (delivered : delivery ∈ deliveries)
    (registry : IsRegistry delivery.datagram) :
    ∃ other ∈ peers, infoOf delivery.datagram = other.info ∧ delivery.peerId = idBytes other.peerId := by
  rcases expected delivery delivered with ⟨other, inside, registers⟩ | other
  · exact ⟨other, inside, registers.facts.2, registers.peerId_eq (wellFormed other inside)⟩
  · exact absurd registry other.not_registry

/-- The first request with the id of a registered peer was made by the peer itself. -/
theorem first_registered {peer : Registration} (ids : (peers.map fun other => idBytes other.peerId).Nodup)
    (member : peer ∈ peers) (registered : ∃ delivery ∈ deliveries, peer.Registers delivery) :
    ∃ first, deliveries.find?
        (fun delivery => IsRegistry delivery.datagram ∧ delivery.peerId = idBytes peer.peerId) = some first ∧
      IsRegistry first.datagram ∧ infoOf first.datagram = peer.info := by
  obtain ⟨first, found⟩ : ∃ first, deliveries.find?
      (fun delivery => IsRegistry delivery.datagram ∧ delivery.peerId = idBytes peer.peerId) = some first := by
    obtain ⟨delivery, delivered, registers⟩ := registered
    rw [← Option.isSome_iff_exists, List.find?_isSome]
    refine ⟨delivery, delivered, ?_⟩
    simp [registers.facts.1, registers.peerId_eq (wellFormed peer member)]
  obtain ⟨registry, id⟩ : IsRegistry first.datagram ∧ first.peerId = idBytes peer.peerId := by
    simpa using List.find?_some found
  obtain ⟨other, inside, info, otherId⟩ := registry_source wellFormed expected (List.mem_of_find?_eq_some found) registry
  obtain rfl := List.inj_on_of_nodup_map ids inside member (otherId.symm.trans id)
  exact ⟨first, found, registry, info⟩

/-- The newest entry with the address of a registered peer says what the peer registered. -/
theorem newest_of_registered (host : ByteOrder) {mstp : MasterPeer} {peer : Registration}
    (empty : mstp.peerBkt.top = -1) (few : peers.length ≤ 255)
    (ids : (peers.map fun other => idBytes other.peerId).Nodup)
    (vlans : (peers.map fun other => cstr other.vlanIpv4.toList).Nodup) (member : peer ∈ peers)
    (registered : ∃ delivery ∈ deliveries, peer.Registers delivery) :
    ∃ entry, DedupQueue.newest (fun entry => vlanOf entry = inetNtoa (inetAddr (cstr peer.vlanIpv4.toList)))
        (masterRun host mstp deliveries).peerBkt.entries = some entry ∧ Carries entry peer.info := by
  have known : ∀ delivery ∈ deliveries, IsRegistry delivery.datagram →
      delivery.peerId ∈ peers.map fun other => idBytes other.peerId := by
    intro delivery delivered registry
    obtain ⟨other, inside, _, id⟩ := registry_source wellFormed expected delivered registry
    exact List.mem_map.mpr ⟨other, inside, id.symm⟩
  have owned : ∀ delivery ∈ deliveries, IsRegistry delivery.datagram →
      delivery.vlan = inetAddr (cstr peer.vlanIpv4.toList) → delivery.peerId = idBytes peer.peerId := by
    intro delivery delivered registry vlan
    obtain ⟨other, inside, info, id⟩ := registry_source wellFormed expected delivered registry
    rw [Delivery.vlan, info] at vlan
    have text : cstr other.vlanIpv4.toList = cstr peer.vlanIpv4.toList := by
      rw [← (wellFormed other inside).vlan.inetNtoa_inetAddr, ← (wellFormed peer member).vlan.inetNtoa_inetAddr]
      exact congrArg inetNtoa vlan
    rw [id, List.inj_on_of_nodup_map vlans inside member text]
  have lookup := newest_registered host mstp deliveries (idBytes peer.peerId) (inetAddr (cstr peer.vlanIpv4.toList))
    (peers.map fun other => idBytes other.peerId) empty (by simpa using few) known owned
  obtain ⟨first, found, registry, info⟩ := first_registered wellFormed expected ids member registered
  obtain ⟨entry, pushed⟩ : ∃ entry, first.registered host = some entry := by simp [Delivery.registered, registry]
  have carries := (Delivery.registered_carries pushed).2
  rw [info] at carries
  have claims : vlanOf entry = inetNtoa (inetAddr (cstr peer.vlanIpv4.toList)) := carries.vlanIpv4
  rw [found, Option.bind_some, pushed, Option.filter_some, if_pos (decide_eq_true claims)] at lookup
  exact ⟨entry, lookup, carries⟩

end Registered

/-- A registered peer is found with what it registered, after requests in any order. -/
theorem registered_peer_found (host finderHost : ByteOrder) (mstp : MasterPeer) (peers : List Registration)
    (deliveries : List Delivery) (peer : Registration) (empty : mstp.peerBkt.top = -1) (few : peers.length ≤ 255)
    (wellFormed : ∀ other ∈ peers, other.WellFormed) (ids : (peers.map fun other => idBytes other.peerId).Nodup)
    (vlans : (peers.map fun other => cstr other.vlanIpv4.toList).Nodup)
    (expected : ∀ delivery ∈ deliveries,
      (∃ other ∈ peers, other.Registers delivery) ∨ OtherRequest delivery.datagram)
    (member : peer ∈ peers) (registered : ∃ delivery ∈ deliveries, peer.Registers delivery)
    (around : Surroundings) (stale fprsp : Block) (allocated : around.malloc = some fprsp)
    (old buf : Block) (finderId mstpId : CharArray 21) (finder : Bucket) (finderEmpty : finder.top = -1)
    (ctx : PushContext) (item : BucketItem) (peerId : CharArray 21) (rest : Block) :
    ∃ answer, (receive host around stale (masterRun host mstp deliveries)
        (sent (pmpFindPeerReqPkt (some old) finderId mstpId peer.vlanIpv4 buf))).2 = some answer ∧
      let unpacked := pmpFindPeerRspUnpack finderHost ctx item peerId finder (block answer rest) answer.length
      unpacked.1 = ok ∧ ∃ slot, getFrontBucket unpacked.2.2 = some slot ∧
        let found := unpacked.2.2.b slot.toNat
        cstr found.ipv4.toList = cstr peer.type.ipv4.toList ∧ (found.port.toNat : Int) = peer.type.port ∧
          found.natType = peer.type.natType ∧ vlanOf found = cstr peer.vlanIpv4.toList := by
  obtain ⟨entry, lookup, carries⟩ :=
    newest_of_registered wellFormed expected host empty few ids vlans member registered
  -- The answer repeats the entry, and the finder decodes it.
  obtain ⟨find, asked⟩ := findReq_facts old buf finderId mstpId peer.vlanIpv4
  rw [← asked] at lookup
  obtain ⟨answer, answered, length, repeated⟩ :=
    receive_find_known host around stale fprsp _ _ find allocated lookup carries
  obtain ⟨status, front, decoded⟩ :=
    findPeerRspUnpack_front finderHost ctx item peerId finder answer rest finderEmpty length
  rw [repeated] at decoded
  exact ⟨answer, answered, status, 0, front, (wellFormed peer member).item decoded⟩

def blankBlock : Block := fun _ => 0

def quad (address : InAddr) : CharArray 16 := CharArray.setString (Vector.replicate 16 0) (inetNtoa address)

def blankMaster : MasterPeer := ⟨blankBucket, blankBucket, Vector.replicate 16 0, 9998, letterId 97⟩

def blankSurroundings : Surroundings where
  malloc := some blankBlock
  mallocOption := some blankBlock
  sourceId := Vector.replicate 21 0
  targetId := Vector.replicate 21 0
  port := 0
  item := blankItem
  items := fun _ => blankItem
  push := fun _ => ⟨0, fun _ => false⟩

/-- A peer with the virtual address of the configuration examples registers the given external port. -/
def samplePeer (letter : UInt8) (port : UInt16) : Registration :=
  ⟨letterId 97, letterId letter, quad ⟨172, 16, 10, letter⟩, ⟨3, port.toNat, quad ⟨1, 2, 3, letter⟩⟩⟩

def registering (peer : Registration) : Delivery :=
  ⟨blankSurroundings, blankBlock,
    sent (pmpPeerRegistryReqPkt .little (some blankBlock) peer.mstpId peer.peerId peer.vlanIpv4 peer.type blankBlock)⟩

theorem registering_registers (peer : Registration) : peer.Registers (registering peer) :=
  ⟨.little, blankBlock, blankBlock, rfl⟩

theorem samplePeer_wellFormed (letter : UInt8) (port : UInt16) (plain : 0 ∉ idBytes (letterId letter)) :
    (samplePeer letter port).WellFormed where
  id := plain
  vlan := ⟨_, cstr_setString_inetNtoa _ _⟩
  ipv4 := ⟨_, cstr_setString_inetNtoa _ _⟩
  port := by
    have bound := port.toNat_lt
    simp only [samplePeer]
    omega
  natType := by simp [samplePeer]

/-- Two peers register, the first once more after a lookup of its address. -/
theorem registered_peer_found_sample :
    let query :=
      sent (pmpFindPeerReqPkt (some blankBlock) (letterId 100) (letterId 97) (quad ⟨172, 16, 10, 98⟩) blankBlock)
    let mstp := masterRun .little blankMaster [registering (samplePeer 98 4000), registering (samplePeer 99 5000),
      ⟨blankSurroundings, blankBlock, query⟩, registering (samplePeer 98 4000)]
    ∃ answer, (receive .little blankSurroundings blankBlock mstp query).2 = some answer ∧
      let unpacked := pmpFindPeerRspUnpack .big ⟨0, fun _ => false⟩ blankItem (letterId 100) blankBucket
        (block answer blankBlock) answer.length
      unpacked.1 = ok ∧ ∃ slot, getFrontBucket unpacked.2.2 = some slot ∧
        let found := unpacked.2.2.b slot.toNat
        cstr found.ipv4.toList = cstr (quad ⟨1, 2, 3, 98⟩).toList ∧ (found.port.toNat : Int) = 4000 ∧
          found.natType = 3 ∧ vlanOf found = cstr (quad ⟨172, 16, 10, 98⟩).toList := by
  intro query mstp
  have well : ∀ other ∈ [samplePeer 98 4000, samplePeer 99 5000], other.WellFormed := by
    intro other member
    simp only [List.mem_cons, List.not_mem_nil, or_false] at member
    rcases member with rfl | rfl
    · exact samplePeer_wellFormed 98 4000 (by decide +kernel)
    · exact samplePeer_wellFormed 99 5000 (by decide +kernel)
  refine registered_peer_found .little .big blankMaster [samplePeer 98 4000, samplePeer 99 5000]
    [registering (samplePeer 98 4000), registering (samplePeer 99 5000), ⟨blankSurroundings, blankBlock, query⟩,
      registering (samplePeer 98 4000)] (samplePeer 98 4000) rfl (by decide) well (by decide +kernel)
    (by decide +kernel) ?expected (by simp) ⟨_, by simp, registering_registers _⟩ blankSurroundings blankBlock
    blankBlock rfl blankBlock blankBlock (letterId 100) (letterId 97) blankBucket rfl ⟨0, fun _ => false⟩ blankItem
    (letterId 100) blankBlock
  intro delivery delivered
  simp only [List.mem_cons, List.not_mem_nil, or_false] at delivered
  rcases delivered with rfl | rfl | rfl | rfl
  · exact .inl ⟨_, by simp, registering_registers _⟩
  · exact .inl ⟨_, by simp, registering_registers _⟩
  · exact .inr (.inr (.inr (.inr (findReq_facts ..).1)))
  · exact .inl ⟨_, by simp, registering_registers _⟩

end Nose
