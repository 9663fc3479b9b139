import Nose.Proof.RegisteredPeer

namespace Nose

open CMemory DottedQuad

/-- The last registry request that claims a virtual address. -/
def latestClaim (deliveries : List Delivery) (vlan : InAddr) : Option Delivery :=
  deliveries.reverse.find? fun delivery => delivery.vlan = vlan

/-- The first registry request of an id. -/
def firstOf (deliveries : List Delivery) (id : List UInt8) : Option Delivery :=
  deliveries.find? fun delivery => delivery.peerId = id

/-- Two statements about a peer agree on its external address, port and nat type. -/
def SameMapping (first second : PeerInfo) : Prop :=
  first.ipv4 = second.ipv4 ∧ first.port = second.port ∧ first.natType = second.natType

/-- The find request is answered with the external address that the last claim carried. -/
def ReportsLatest (host : ByteOrder) (mstp : MasterPeer) (deliveries : List Delivery) (around : Surroundings)
    (stale : Block) (query : List UInt8) : Prop :=
  ∀ latest, latestClaim deliveries (askedVlan query) = some latest →
    ∃ answer, (receive host around stale (masterRun host mstp deliveries) query).2 = some answer ∧
      SameMapping (infoOf answer) (infoOf latest.datagram)

/-- The owner of the asked address made its last claim with the data of its first request. -/
def FirstIsLatest (deliveries : List Delivery) (query : List UInt8) : Prop :=
  ∀ latest, latestClaim deliveries (askedVlan query) = some latest →
    ∃ first, firstOf deliveries latest.peerId = some first ∧ first.vlan = askedVlan query ∧
      SameMapping (infoOf first.datagram) (infoOf latest.datagram)

/-- Registry requests of at most 255 ids, where each virtual address has one owner, come to an empty master. -/
structure OwnedRegistrations (mstp : MasterPeer) (deliveries : List Delivery) : Prop where
  empty : mstp.peerBkt.top = -1
  registries : ∀ delivery ∈ deliveries, IsRegistry delivery.datagram
  few : (deliveries.map Delivery.peerId).dedup.length ≤ 255
  owned : ∀ first ∈ deliveries, ∀ second ∈ deliveries, first.vlan = second.vlan → first.peerId = second.peerId

/-- The last claim comes from some delivery of its own id. -/
theorem firstOf_latest {deliveries : List Delivery} {vlan : InAddr} {latest : Delivery}
    (claim : latestClaim deliveries vlan = some latest) :
    latest ∈ deliveries ∧ latest.vlan = vlan ∧
      ∃ first ∈ deliveries, firstOf deliveries latest.peerId = some first := by
  have member : latest ∈ deliveries := List.mem_reverse.mp (List.mem_of_find?_eq_some claim)
  obtain ⟨first, found⟩ : ∃ first, firstOf deliveries latest.peerId = some first := by
    rw [← Option.isSome_iff_exists, firstOf, List.find?_isSome]
    exact ⟨latest, member, by simp⟩
  exact ⟨member, by simpa using List.find?_some claim, first, List.mem_of_find?_eq_some found, found⟩

/-- After owned registrations the lookup of a claimed address gives the first request of its owner, when
that request claimed the address. -/
theorem OwnedRegistrations.newest (host : ByteOrder) {mstp : MasterPeer} {deliveries : List Delivery}
    (owned : OwnedRegistrations mstp deliveries) {vlan : InAddr} {latest first : Delivery}
    (claim : latestClaim deliveries vlan = some latest) (found : firstOf deliveries latest.peerId = some first) :
    ∃ item, Carries item (infoOf first.datagram) ∧
      DedupQueue.newest (fun entry => vlanOf entry = inetNtoa vlan) (masterRun host mstp deliveries).peerBkt.entries =
        if first.vlan = vlan then some item else none := by
  obtain ⟨member, claimed, _⟩ := firstOf_latest claim
  have registry := owned.registries first (List.mem_of_find?_eq_some found)
  obtain ⟨item, pushed⟩ : ∃ item, first.registered host = some item := by simp [Delivery.registered, registry]
  have carries := (Delivery.registered_carries pushed).2
  have lookup := newest_registered host mstp deliveries latest.peerId vlan (deliveries.map Delivery.peerId).dedup
    owned.empty owned.few
    (fun delivery delivered _ => List.mem_dedup.mpr (List.mem_map_of_mem delivered))
    (fun delivery delivered _ same => owned.owned delivery delivered latest member (same.trans claimed.symm))
  have search : deliveries.find? (fun delivery => IsRegistry delivery.datagram ∧ delivery.peerId = latest.peerId) =
      some first := by
    rw [← found, firstOf]
    exact List.find?_congr fun delivery delivered => by simp [owned.registries delivery delivered]
  refine ⟨item, carries, ?_⟩
  rw [lookup, search, Option.bind_some, pushed, Option.filter_some]
  have vlan_iff : vlanOf item = inetNtoa vlan ↔ first.vlan = vlan := by
    rw [carries.vlanIpv4]
    exact inetNtoa_injective.eq_iff
  simp [vlan_iff]

/-- A find request gives the last claim exactly when the owner's first request made the same claim. -/
theorem find_reports_latest_iff (host : ByteOrder) (mstp : MasterPeer) (deliveries : List Delivery)
    (around : Surroundings) (stale fprsp : Block) (query : List UInt8) (owned : OwnedRegistrations mstp deliveries)
    (find : IsFind query) (allocated : around.malloc = some fprsp) :
    ReportsLatest host mstp deliveries around stale query ↔ FirstIsLatest deliveries query := by
  unfold ReportsLatest FirstIsLatest
  apply forall_congr'
  intro latest
  apply imp_congr_right
  intro claim
  obtain ⟨_, _, first, _, found⟩ := firstOf_latest claim
  obtain ⟨item, carries, lookup⟩ := owned.newest host claim found
  by_cases same : first.vlan = askedVlan query
  · rw [if_pos same] at lookup
    obtain ⟨answer, answered, _, repeated⟩ :=
      receive_find_known host around stale fprsp _ query find allocated lookup carries
    have mapping : SameMapping (infoOf answer) (infoOf latest.datagram) ↔
        SameMapping (infoOf first.datagram) (infoOf latest.datagram) := by
      rw [repeated]
      rfl
    constructor
    · rintro ⟨answer', answered', agrees⟩
      obtain rfl := Option.some.inj (answered.symm.trans answered')
      exact ⟨first, found, same, mapping.mp agrees⟩
    · rintro ⟨first', found', _, agrees⟩
      obtain rfl := Option.some.inj (found.symm.trans found')
      exact ⟨answer, answered, mapping.mpr agrees⟩
  · rw [if_neg same] at lookup
    have silent := receive_find_unknown host around stale _ query find lookup
    constructor
    · rintro ⟨answer, answered, _⟩
      rw [silent] at answered
      cases answered
    · rintro ⟨first', found', claims, _⟩
      obtain rfl := Option.some.inj (found.symm.trans found')
      exact absurd claims same

/-- One peer registers with a first and then with a second external port, after another peer. -/
def movedPeer (first second : UInt16) : List Delivery :=
  [registering (samplePeer 99 3000), registering (samplePeer 98 first), registering (samplePeer 98 second)]

def movedQuery : List UInt8 :=
  sent (pmpFindPeerReqPkt (some blankBlock) (letterId 100) (letterId 97) (quad ⟨172, 16, 10, 98⟩) blankBlock)

instance (first second : PeerInfo) : Decidable (SameMapping first second) :=
  inferInstanceAs (Decidable (_ ∧ _ ∧ _))

theorem movedPeer_owned (first second : UInt16) : OwnedRegistrations blankMaster (movedPeer first second) := by
  have facts (letter : UInt8) (port : UInt16) := (registering_registers (samplePeer letter port)).facts
  have id (letter : UInt8) (port : UInt16) :
      (registering (samplePeer letter port)).peerId = cstr (idBytes (letterId letter)) := by
    rw [Delivery.peerId, (facts letter port).2, Registration.info, samplePeer]
  have vlan (letter : UInt8) (port : UInt16) : (registering (samplePeer letter port)).vlan = ⟨172, 16, 10, letter⟩ := by
    rw [Delivery.vlan, (facts letter port).2, Registration.info, samplePeer, quad, cstr_setString_inetNtoa,
      inetAddr_inetNtoa]
  refine ⟨rfl, ?_, ?_, ?_⟩
  · intro delivery member
    simp only [movedPeer, List.mem_cons, List.not_mem_nil, or_false] at member
    rcases member with rfl | rfl | rfl <;> exact (facts _ _).1
  · exact (List.dedup_sublist _).length_le.trans (by simp [movedPeer])
  · intro one inOne two inTwo same
    simp only [movedPeer, List.mem_cons, List.not_mem_nil, or_false] at inOne inTwo
    rcases inOne with rfl | rfl | rfl <;> rcases inTwo with rfl | rfl | rfl <;> simp_all

/-- A peer that registers again with its old port is found. -/
theorem find_reports_latest_sample :
    OwnedRegistrations blankMaster (movedPeer 4000 4000) ∧
      (ReportsLatest .little blankMaster (movedPeer 4000 4000) blankSurroundings blankBlock movedQuery ↔
        FirstIsLatest (movedPeer 4000 4000) movedQuery) :=
  ⟨movedPeer_owned 4000 4000, find_reports_latest_iff .little blankMaster (movedPeer 4000 4000) blankSurroundings
    blankBlock blankBlock movedQuery (movedPeer_owned 4000 4000) (findReq_facts ..).1 rfl⟩

/-- A peer that registers again with a new port is still found at its old port. -/
theorem moved_peer_not_found :
    OwnedRegistrations blankMaster (movedPeer 4000 5000) ∧ IsFind movedQuery ∧
      ¬ ReportsLatest .little blankMaster (movedPeer 4000 5000) blankSurroundings blankBlock movedQuery := by
  refine ⟨movedPeer_owned 4000 5000, (findReq_facts ..).1, fun reports => ?_⟩
  have claim :
      (latestClaim (movedPeer 4000 5000) (askedVlan movedQuery)).map (fun latest => (infoOf latest.datagram).port) =
      some 5000 := by decide +kernel
  obtain ⟨latest, last, port⟩ := Option.map_eq_some_iff.mp claim
  obtain ⟨answer, answered, mapping⟩ := reports latest last
  have told : ((receive .little blankSurroundings blankBlock (masterRun .little blankMaster (movedPeer 4000 5000))
      movedQuery).2.map fun answer => (infoOf answer).port) = some 4000 := by decide +kernel
  rw [answered, Option.map_some, mapping.2.1, port] at told
  exact absurd told (by decide)

end Nose
