import Nose.Proof.MasterRun

namespace Nose

open CMemory DottedQuad

/-- The virtual address that a find request asks for. -/
def askedVlan (query : List UInt8) : InAddr := loadAddr (block query fun _ => 0) 4

/-- The id of the peer that asks. -/
def askingId (query : List UInt8) : List UInt8 := bytesOf (pointer (block query fun _ => 0) 28) 20

/-- The id of a registry request is the string in its id field. -/
def Delivery.peerId (delivery : Delivery) : List UInt8 := cstr (infoOf delivery.datagram).id

def Delivery.vlan (delivery : Delivery) : InAddr := (infoOf delivery.datagram).vlanIpv4

/-- The request decoder searches the table for the newest entry with the asked address. -/
theorem findPeerReqUnpack_eq (past : Nat → Bool) (peerId mstpId : CharArray 21) (bkt : Bucket) (item : BucketItem)
    (buf : Block) (size : Int) (complete : ¬ sizeT size < 48) :
    pmpFindPeerReqUnpack past peerId mstpId bkt item buf size =
      match DedupQueue.newest (fun entry => vlanOf entry = inetNtoa (loadAddr buf 4)) bkt.entries with
      | some found =>
          (ok, terminateId (peerId.copy (pointer buf 28) 20), terminateId (mstpId.copy (pointer buf 8) 20), found)
      | none =>
          (failed, terminateId (peerId.copy (pointer buf 28) 20), terminateId (mstpId.copy (pointer buf 8) 20),
            item) := by
  have text : cstr (CharArray.setString (Vector.replicate 16 0) (inetNtoa (loadAddr buf 4))).toList =
      inetNtoa (loadAddr buf 4) := cstr_setString_inetNtoa _ _
  have string := CharArray.zero_mem_setString (Vector.replicate 16 0) _ (length_inetNtoa_lt (loadAddr buf 4))
  have fits := length_inetNtoa_lt (loadAddr buf 4)
  rw [← text] at fits
  rw [pmpFindPeerReqUnpack, if_neg complete]
  dsimp only
  rw [getItemByVlanIpv4_eq past bkt item string fits, text]
  cases DedupQueue.newest (fun entry => vlanOf entry = inetNtoa (loadAddr buf 4)) bkt.entries <;> rfl

/-- The callback handles a complete find request by its decoder and encoder. -/
theorem udpRecvCb_find (host : ByteOrder) (around : Surroundings) (mstp : MasterPeer) (b : Block) (rlen : Int)
    (find : b 0 = fP) (request : b 1 = req) (complete : ¬ sizeT rlen < 48) :
    (udpRecvCb host around mstp b rlen).2 =
      match DedupQueue.newest (fun entry => vlanOf entry = inetNtoa (loadAddr b 4)) mstp.peerBkt.entries with
      | some found =>
          let built := pmpFindPeerRspPkt host around.malloc mstp.nodeId
            (terminateId (around.sourceId.copy (pointer b 28) 20)) found b
          (respond mstp built.1 built.2).2
      | none => none := by
  have notPing : fP ≠ ping := by decide
  have notDisc : fP ≠ disc := by decide
  have notGetPeers : fP ≠ gPs := by decide
  have notRegistry : fP ≠ rP := by decide
  have long : sizeT rlen > 2 := by omega
  have unequal : ok ≠ error ∧ ok ≠ failed := by decide
  simp only [udpRecvCb, if_pos long, if_pos request, find, if_neg notPing, if_neg notDisc, if_neg notGetPeers,
    if_neg notRegistry, if_true, findPeerReqUnpack_eq _ _ _ _ _ _ _ complete]
  cases DedupQueue.newest (fun entry => vlanOf entry = inetNtoa (loadAddr b 4)) mstp.peerBkt.entries with
  | none => simp
  | some found => simp [unequal]

/-- The callback sees the bytes of a complete find request. -/
theorem Delivery.find_buffer (delivery : Delivery) (find : IsFind delivery.datagram) (i : Nat) (inside : i < 48) :
    delivery.buffer i = block delivery.datagram (fun _ => 0) i := by
  have long : i < delivery.datagram.length := by
    have := find.2.2
    omega
  rw [buffer_eq long (by unfold bufsiz; omega), block_of_lt long]

theorem Delivery.askedVlan_buffer (delivery : Delivery) (find : IsFind delivery.datagram) :
    loadAddr delivery.buffer 4 = askedVlan delivery.datagram := by
  have same := delivery.find_buffer find
  simp only [loadAddr, askedVlan, same 4 (by decide), same (4 + 1) (by decide), same (4 + 2) (by decide),
    same (4 + 3) (by decide)]

/-- A find request for a known address is answered with what the newest entry says. -/
theorem receive_find_known (host : ByteOrder) (around : Surroundings) (stale fprsp : Block) (mstp : MasterPeer)
    (query : List UInt8) (find : IsFind query) (allocated : around.malloc = some fprsp) {found : BucketItem}
    {info : PeerInfo}
    (known : DedupQueue.newest (fun entry => vlanOf entry = inetNtoa (askedVlan query)) mstp.peerBkt.entries =
      some found)
    (carries : Carries found info) :
    ∃ answer, (receive host around stale mstp query).2 = some answer ∧ answer.length = 56 ∧
      infoOf answer = { info with id := askingId query } := by
  let delivery : Delivery := ⟨around, stale, query⟩
  obtain ⟨type, code, complete⟩ := (delivery.request_iff fP (show 2 ≤ 48 by decide) (show 48 ≤ 8192 by decide)).mpr find
  have asked := delivery.askedVlan_buffer find
  have asking : bytesOf (pointer delivery.buffer 28) 20 = askingId query :=
    bytesOf_congr fun i inside => delivery.find_buffer find (28 + i) (by omega)
  have answered := udpRecvCb_find host around mstp delivery.buffer _ type code complete
  rw [asked, known, allocated] at answered
  refine ⟨_, answered, length_bytesOf _ _, ?_⟩
  rw [infoOf, ← asking, ← idBytes_copy around.sourceId, ← idBytes_terminateId,
    ← peerInfo_findRsp carries host fprsp mstp.nodeId _ delivery.buffer]
  exact peerInfo_congr fun i inside => block_bytesOf inside

/-- A find request for an unknown address is not answered. -/
theorem receive_find_unknown (host : ByteOrder) (around : Surroundings) (stale : Block) (mstp : MasterPeer)
    (query : List UInt8) (find : IsFind query)
    (unknown : DedupQueue.newest (fun entry => vlanOf entry = inetNtoa (askedVlan query)) mstp.peerBkt.entries = none) :
    (receive host around stale mstp query).2 = none := by
  let delivery : Delivery := ⟨around, stale, query⟩
  obtain ⟨type, code, complete⟩ := (delivery.request_iff fP (show 2 ≤ 48 by decide) (show 48 ≤ 8192 by decide)).mpr find
  have asked := delivery.askedVlan_buffer find
  have answered := udpRecvCb_find host around mstp delivery.buffer _ type code complete
  rw [asked, unknown] at answered
  exact answered

/-- The first item with an id is pushed by the first registry request with that id. -/
theorem find_registered (host : ByteOrder) (deliveries : List Delivery) (id : List UInt8) :
    (deliveries.filterMap (Delivery.registered host)).find? (fun item => idOf item = id) =
      (deliveries.find? fun delivery => IsRegistry delivery.datagram ∧ delivery.peerId = id).bind
        (Delivery.registered host) := by
  rw [List.find?_filterMap]
  congr 2
  funext delivery
  cases pushed : delivery.registered host with
  | none =>
      have other : ¬ IsRegistry delivery.datagram := by
        intro registry
        simp [Delivery.registered, registry] at pushed
      simp [other]
  | some item =>
      obtain ⟨registry, carries⟩ := Delivery.registered_carries pushed
      simp [registry, carries.idOf_eq, Delivery.peerId]

/-- After registry requests of at most 255 ids, a virtual address that only one id claims leads to the
first request of that id, when it made the claim. -/
theorem newest_registered (host : ByteOrder) (mstp : MasterPeer) (deliveries : List Delivery) (owner : List UInt8)
    (vlan : InAddr) (ids : List (List UInt8)) (empty : mstp.peerBkt.top = -1) (few : ids.length ≤ 255)
    (inside : ∀ delivery ∈ deliveries, IsRegistry delivery.datagram → delivery.peerId ∈ ids)
    (owned : ∀ delivery ∈ deliveries, IsRegistry delivery.datagram → delivery.vlan = vlan → delivery.peerId = owner) :
    DedupQueue.newest (fun entry => vlanOf entry = inetNtoa vlan) (masterRun host mstp deliveries).peerBkt.entries =
      ((deliveries.find? fun delivery => IsRegistry delivery.datagram ∧ delivery.peerId = owner).bind
        (Delivery.registered host)).filter fun item => vlanOf item = inetNtoa vlan := by
  obtain ⟨table, none_left⟩ := Table.empty empty
  rw [(masterRun_entries host mstp deliveries table).2, none_left, ← find_registered]
  apply DedupQueue.newest_pushAll few
  · intro item member
    obtain ⟨delivery, delivered, pushed⟩ := List.mem_filterMap.mp member
    obtain ⟨registry, carries⟩ := Delivery.registered_carries pushed
    rw [carries.idOf_eq]
    exact inside delivery delivered registry
  · intro item member passes
    obtain ⟨delivery, delivered, pushed⟩ := List.mem_filterMap.mp member
    obtain ⟨registry, carries⟩ := Delivery.registered_carries pushed
    have claims : vlanOf item = inetNtoa vlan := by simpa using passes
    rw [carries.vlanIpv4] at claims
    rw [carries.idOf_eq]
    exact owned delivery delivered registry (inetNtoa_injective claims)

end Nose
