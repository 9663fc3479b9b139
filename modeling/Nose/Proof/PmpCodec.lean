import Nose.Proof.BucketEntries
import Nose.Source.Pmp

namespace Nose

open CMemory DottedQuad

/-- This is what a registry request and a find response say about a peer. -/
structure PeerInfo where
  natType : UInt16
  port : UInt16
  ipv4 : InAddr
  vlanIpv4 : InAddr
  id : List UInt8
  deriving DecidableEq, Repr

/-- The fields of the packet have their high bytes first. -/
def peerInfo (pr : Block) : PeerInfo :=
  ⟨word (pr 2) (pr 3), word (pr 6) (pr 7), loadAddr pr 8, loadAddr pr 12, bytesOf (pointer pr 36) 20⟩

/-- The twenty bytes of an id that a packet carries. -/
def idBytes (id : CharArray 21) : List UInt8 := bytesOf id.memory 20

/-- An id field holds its twenty bytes and one more. -/
theorem toList_eq_idBytes (id : CharArray 21) : id.toList = idBytes id ++ [id.memory 20] := by
  apply List.ext_getElem
  · simp [idBytes]
  · intro i inside inside'
    have small : i < 21 := by simpa using inside
    rw [Vector.getElem_toList, ← CharArray.memory_apply id small]
    by_cases last : i = 20
    · subst last
      simp [idBytes]
    · have before : i < 20 := by omega
      rw [List.getElem_append_left (by simpa [idBytes] using before)]
      simp [idBytes, bytesOf]

theorem idBytes_copy (id : CharArray 21) (src : Block) : idBytes (id.copy src 20) = bytesOf src 20 := by
  apply bytesOf_congr
  intro i inside
  rw [CharArray.memory_apply (id.copy src 20) (by omega), CharArray.getElem_copy, if_pos inside]

/-- A copy of twenty bytes into an id field keeps the last byte of the field. -/
theorem memory_copy_last (id : CharArray 21) (src : Block) : (id.copy src 20).memory 20 = id.memory 20 := by
  rw [CharArray.memory_apply _ (by decide), CharArray.memory_apply _ (by decide), CharArray.getElem_copy,
    if_neg (by decide)]

theorem idBytes_terminateId (id : CharArray 21) : idBytes (terminateId id) = idBytes id := by
  apply bytesOf_congr
  intro i inside
  rw [CharArray.memory_apply _ (by omega), CharArray.memory_apply _ (by omega), terminateId,
    Vector.getElem_set_ne _ _ (by omega)]

theorem toList_terminateId (id : CharArray 21) : (terminateId id).toList = idBytes id ++ [0] := by
  rw [toList_eq_idBytes, idBytes_terminateId, CharArray.memory_apply _ (by decide), terminateId,
    Vector.getElem_set_self]

/-- The item of a bucket says the same as the packet. -/
structure Carries (item : BucketItem) (info : PeerInfo) : Prop where
  natType : item.natType = info.natType.toNat
  port : item.port = info.port
  ipv4 : cstr item.ipv4.toList = inetNtoa info.ipv4
  vlanIpv4 : vlanOf item = inetNtoa info.vlanIpv4
  nodeId : item.nodeId.toList = info.id ++ [0]

theorem Carries.terminated {item : BucketItem} {info : PeerInfo} (carries : Carries item info) :
    Terminated item := by
  rw [Terminated, carries.nodeId]
  simp

theorem cstr_append_zero (bytes : List UInt8) : cstr (bytes ++ [0]) = cstr bytes := by
  induction bytes with
  | nil => rfl
  | cons a rest ih => rw [List.cons_append, cstr_cons, cstr_cons, ih]

theorem Carries.idOf_eq {item : BucketItem} {info : PeerInfo} (carries : Carries item info) :
    idOf item = cstr info.id := by
  rw [idOf, carries.nodeId, cstr_append_zero]

theorem Carries.stamped {item : BucketItem} {info : PeerInfo} (carries : Carries item info) (ctx : PushContext) :
    Carries (stamped ctx item) info :=
  ⟨carries.natType, carries.port, carries.ipv4, carries.vlanIpv4, carries.nodeId⟩

theorem peerInfo_congr {first second : Block} (agree : ∀ i < 56, first i = second i) :
    peerInfo first = peerInfo second := by
  have ids : bytesOf (pointer first 36) 20 = bytesOf (pointer second 36) 20 :=
    bytesOf_congr fun i inside => agree (36 + i) (by omega)
  simp only [peerInfo, loadAddr, ids, agree 2 (by decide), agree 3 (by decide), agree 6 (by decide),
    agree 7 (by decide), agree 8 (by decide), agree 9 (by decide), agree 10 (by decide), agree 11 (by decide),
    agree 12 (by decide), agree 13 (by decide), agree 14 (by decide), agree 15 (by decide), Nat.reduceAdd]

theorem cstr_setString_inetNtoa (array : CharArray 16) (address : InAddr) :
    cstr (array.setString (inetNtoa address)).toList = inetNtoa address :=
  array.cstr_setString _ (length_inetNtoa_lt address) (zero_notMem_inetNtoa address)

/-- The decoder of a registry request fills the local item from the packet. -/
theorem registryItem_carries (host : ByteOrder) (item : BucketItem) (pr : Block) :
    Carries (registryItem host item pr) (peerInfo pr) where
  natType := by simp only [registryItem, peerInfo, htons_load16]
  port := by simp only [registryItem, peerInfo, htons_load16]
  ipv4 := cstr_setString_inetNtoa _ _
  vlanIpv4 := cstr_setString_inetNtoa _ _
  nodeId := by rw [registryItem, toList_terminateId, idBytes_copy, peerInfo]

theorem ofInt_toNat (value : UInt16) : UInt16.ofInt (value.toNat : Int) = value := by
  have bound := value.toNat_lt
  apply UInt16.toNat_inj.mp
  rw [UInt16.ofInt, UInt16.toNat_ofNat']
  omega

/-- The encoder of registry requests and find responses stores what the decoder reads. -/
theorem peerInfo_peerPkt (host : ByteOrder) (type code : UInt8) (natType port : UInt16) (ipv4 vlanIpv4 : List UInt8)
    (mstpId peerId : CharArray 21) (pr : Block) :
    peerInfo (peerPkt host type code natType port ipv4 vlanIpv4 mstpId peerId pr) =
      ⟨natType, port, inetAddr ipv4, inetAddr vlanIpv4, idBytes peerId⟩ := by
  have ids : bytesOf (pointer (peerPkt host type code natType port ipv4 vlanIpv4 mstpId peerId pr) 36) 20 =
      idBytes peerId := by
    apply bytesOf_congr
    intro i inside
    rw [pointer, peerPkt, memcpy_inside (by omega) (by omega)]
    congr 1
    omega
  rw [peerInfo, ids]
  simp [peerPkt, memcpy, storeAddr, loadAddr, store16_htons, setByte]

/-- The header of the packet keeps its type and code. -/
theorem header_peerPkt (host : ByteOrder) (type code : UInt8) (natType port : UInt16) (ipv4 vlanIpv4 : List UInt8)
    (mstpId peerId : CharArray 21) (pr : Block) :
    peerPkt host type code natType port ipv4 vlanIpv4 mstpId peerId pr 0 = type ∧
      peerPkt host type code natType port ipv4 vlanIpv4 mstpId peerId pr 1 = code := by
  simp [peerPkt, memcpy, storeAddr, store16_htons, setByte, header]

/-- A find response repeats the item and carries the id of the peer that asked. -/
theorem peerInfo_findRsp {item : BucketItem} {info : PeerInfo} (carries : Carries item info) (host : ByteOrder)
    (fprsp : Block) (mstpId peerId : CharArray 21) (buf : Block) :
    peerInfo (pmpFindPeerRspPkt host (some fprsp) mstpId peerId item buf).2 = { info with id := idBytes peerId } := by
  have inside : peerInfo (pmpFindPeerRspPkt host (some fprsp) mstpId peerId item buf).2 = peerInfo (peerPkt host fP rsp
      (UInt16.ofInt item.natType) item.port (cstr item.ipv4.toList) (cstr item.vlanIpv4.toList) mstpId peerId fprsp) :=
    peerInfo_congr fun i small => by
      simp only [pmpFindPeerRspPkt]
      rw [memcpy_inside (Nat.zero_le i) (by omega), Nat.sub_zero]
  have vlan : cstr item.vlanIpv4.toList = inetNtoa info.vlanIpv4 := carries.vlanIpv4
  rw [inside, peerInfo_peerPkt, carries.natType, ofInt_toNat, carries.port, carries.ipv4, vlan,
    inetAddr_inetNtoa, inetAddr_inetNtoa]

/-- The size of a received datagram is not changed by its conversion to `size_t`. -/
theorem sizeT_natCast {n : Nat} (small : n < 2 ^ 64) : sizeT n = n := by
  unfold sizeT
  omega

end Nose
