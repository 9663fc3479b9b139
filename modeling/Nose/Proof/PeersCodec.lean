import Nose.Proof.DiscoveryCodec

namespace Nose

open CMemory DottedQuad

/-- An entry carries everything that the item says about its peer. -/
structure Repeats (item entry : BucketItem) : Prop extends Agrees item entry where
  vlan : vlanOf item = vlanOf entry

theorem Copied.repeats {item entry : BucketItem} (copied : Copied item entry)
    (range : 0 ≤ item.natType ∧ item.natType ≤ 255) : Repeats item entry where
  toAgrees := copied.agrees_iff.mpr range
  vlan := copied.vlan

/-- The peers codec gives back every list of 1 to 255 items with different ids. -/
theorem getPeers_round_trip (senderHost receiverHost : ByteOrder) (old oldOption buf rest : Block)
    (targetId : CharArray 21) (items : Nat → BucketItem) (count : Nat) (listed : 1 ≤ count) (few : count ≤ 255)
    (plain : ∀ entry ∈ (List.range count).map items, 0 ∉ idBytes entry.nodeId)
    (distinct : (((List.range count).map items).map fun entry => idBytes entry.nodeId).Nodup)
    (ipv4 : ∀ entry ∈ (List.range count).map items, Canonical (cstr entry.ipv4.toList))
    (vlan : ∀ entry ∈ (List.range count).map items, Canonical (vlanOf entry))
    (natTypes : ∀ entry ∈ (List.range count).map items, 0 ≤ entry.natType ∧ entry.natType ≤ 255)
    (ctx : Nat → PushContext) (item : BucketItem) (bkt : Bucket) (empty : bkt.top = -1) :
    let response := sent (pmpGetPeersRspPkt senderHost (some old) (some oldOption) targetId items count buf)
    let unpacked := pmpGetPeersRspUnpack receiverHost ctx item bkt (block response rest) response.length
    unpacked.1 = ok ∧ List.Forall₂ Repeats ((List.range count).map items) unpacked.2.entries := by
  intro response unpacked
  have length : ((List.range count).map items).length = count := by simp
  have taken : (List.range (count : Int).toNat).map items = (List.range count).map items := by rw [Int.toNat_natCast]
  have size : (count : Int) = ((List.range count).map items).length := by rw [length]
  obtain ⟨_, status, copies⟩ := getPeersRspUnpack_copies receiverHost senderHost old oldOption targetId items buf taken
    size (by rw [length]; exact listed) (by rw [length]; exact few) plain distinct ipv4 vlan ctx item empty rest
  refine ⟨status, List.forall₂_iff_get.mpr ⟨copies.length_eq, fun i inside inside' => ?_⟩⟩
  exact (copies.get inside inside').repeats (natTypes _ (List.getElem_mem inside))

theorem sampleMasters_vlan : ∀ entry ∈ (List.range 2).map sampleMasters,
    Canonical (vlanOf entry) ∧ 0 ≤ entry.natType ∧ entry.natType ≤ 255 := by
  have listed : (List.range 2).map sampleMasters = [claimant 98 98 9998, claimant 99 99 9998] := rfl
  have canonical (letter : UInt8) : Canonical (vlanOf (claimant letter letter 9998)) :=
    ⟨_, cstr_setString_inetNtoa _ _⟩
  rw [listed]
  intro entry member
  simp only [List.mem_cons, List.not_mem_nil, or_false] at member
  rcases member with rfl | rfl
  · exact ⟨canonical 98, by simp [claimant]⟩
  · exact ⟨canonical 99, by simp [claimant]⟩

/-- Two peers are exchanged between hosts of different byte orders. -/
theorem getPeers_round_trip_sample :
    let response := sent (pmpGetPeersRspPkt .little (some blankBlock) (some blankBlock) (letterId 97) sampleMasters
      (2 : Nat) blankBlock)
    let unpacked := pmpGetPeersRspUnpack .big blankSurroundings.push blankItem blankBucket (block response blankBlock)
      response.length
    unpacked.1 = ok ∧ List.Forall₂ Repeats ((List.range 2).map sampleMasters) unpacked.2.entries := by
  obtain ⟨ids, distinct, canonical⟩ := sampleMasters_facts
  exact getPeers_round_trip .little .big blankBlock blankBlock blankBlock blankBlock (letterId 97) sampleMasters 2
    (by decide) (by decide) (fun entry member => (plain_of_strlen (ids entry member)).1) distinct canonical
    (fun entry member => (sampleMasters_vlan entry member).1) (fun entry member => (sampleMasters_vlan entry member).2)
    blankSurroundings.push blankItem blankBucket rfl

end Nose
