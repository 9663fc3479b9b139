import Nose.Library.Overwrite
import Nose.Proof.MasterRequests
import Nose.Source.Auth

namespace Nose

open CMemory DottedQuad

/-- The old contents of both allocations and of the output buffer of a call. -/
structure Memory where
  malloc : Block
  mallocOption : Block
  buf : Block

/-- These are the calls of the packet builders with their arguments. -/
inductive Packet where
  | discoveryReq (port : UInt16) (sourceId targetId : CharArray 21)
  | discoveryRsp (targetId : CharArray 21) (items : Nat → BucketItem) (size : Int)
  | pingReq (sourceId targetId : CharArray 21)
  | pingRsp (sourceId targetId : CharArray 21)
  | getPeersReq (sourceId targetId : CharArray 21)
  | getPeersRsp (targetId : CharArray 21) (items : Nat → BucketItem) (size : Int)
  | peerRegistryReq (mstpId peerId : CharArray 21) (vlanIpv4 : CharArray 16) (type : NatType)
  | peerRegistryRsp (mstpId peerId : CharArray 21)
  | findPeerReq (peerId mstpId : CharArray 21) (vlanIpv4 : CharArray 16)
  | findPeerRsp (mstpId peerId : CharArray 21) (item : BucketItem)
  | authRespose (id challenge messageCode : Int)

/-- The allocations succeed. -/
def Packet.build (host : ByteOrder) (memory : Memory) : Packet → Int × Block
  | .discoveryReq port sourceId targetId =>
      pmpDiscoveryReqPkt host (some memory.malloc) port sourceId targetId memory.buf
  | .discoveryRsp targetId items count =>
      pmpDiscoveryRspPkt host (some memory.malloc) (some memory.mallocOption) targetId items count memory.buf
  | .pingReq sourceId targetId => pmpPingReqPkt host (some memory.malloc) sourceId targetId memory.buf
  | .pingRsp sourceId targetId => pmpPingRspPkt (some memory.malloc) sourceId targetId memory.buf
  | .getPeersReq sourceId targetId => pmpGetPeersReqPkt host (some memory.malloc) sourceId targetId memory.buf
  | .getPeersRsp targetId items count =>
      pmpGetPeersRspPkt host (some memory.malloc) (some memory.mallocOption) targetId items count memory.buf
  | .peerRegistryReq mstpId peerId vlanIpv4 type =>
      pmpPeerRegistryReqPkt host (some memory.malloc) mstpId peerId vlanIpv4 type memory.buf
  | .peerRegistryRsp mstpId peerId => pmpPeerRegistryRspPkt (some memory.malloc) mstpId peerId memory.buf
  | .findPeerReq peerId mstpId vlanIpv4 => pmpFindPeerReqPkt (some memory.malloc) peerId mstpId vlanIpv4 memory.buf
  | .findPeerRsp mstpId peerId item => pmpFindPeerRspPkt host (some memory.malloc) mstpId peerId item memory.buf
  | .authRespose id challenge messageCode =>
      authResposePkt host (some memory.malloc) (some memory.mallocOption) id challenge messageCode memory.buf

def Packet.ids : Packet → List (CharArray 21)
  | .discoveryReq _ sourceId targetId | .pingReq sourceId targetId | .pingRsp sourceId targetId
  | .getPeersReq sourceId targetId => [sourceId, targetId]
  | .discoveryRsp targetId _ _ | .getPeersRsp targetId _ _ => [targetId]
  | .peerRegistryReq mstpId peerId _ _ | .peerRegistryRsp mstpId peerId | .findPeerReq peerId mstpId _
  | .findPeerRsp mstpId peerId _ => [mstpId, peerId]
  | .authRespose _ _ _ => []

/-- The id has one to twenty characters, and zeros fill its field up. -/
def Padded (id : CharArray 21) : Prop :=
  ∃ text : List UInt8, 1 ≤ text.length ∧ text.length ≤ 20 ∧ 0 ∉ text ∧
    id = CharArray.setString (Vector.replicate 21 0) text

/-- The length and the transmitted bytes of a packet do not depend on the old contents of the memory. -/
def Leakless (host : ByteOrder) (packet : Packet) : Prop :=
  ∀ first second : Memory, (packet.build host first).1 = (packet.build host second).1 ∧
    sent (packet.build host first) = sent (packet.build host second)

/-- The builder writes every byte that is transmitted. -/
def Packet.Covered : Packet → Prop
  | .discoveryReq _ sourceId targetId | .getPeersReq sourceId targetId =>
      strlen sourceId.toList = 20 ∧ strlen targetId.toList = 20
  | .discoveryRsp targetId _ count => strlen targetId.toList = 20 ∧ count ≤ 0
  | .pingReq _ _ => True
  | .getPeersRsp _ _ count => count ≤ 0
  | .pingRsp _ _ | .peerRegistryReq _ _ _ _ | .peerRegistryRsp _ _ | .findPeerReq _ _ _ | .findPeerRsp _ _ _
  | .authRespose _ _ _ => False

theorem Padded.strlen_le {id : CharArray 21} (padded : Padded id) : strlen id.toList ≤ 20 := by
  obtain ⟨text, _, short, plain, rfl⟩ := padded
  rwa [strlen, CharArray.cstr_setString _ _ (by omega) plain]

/-- A packet that is built in one allocation and copied is its first bytes. -/
theorem bytesOf_memcpy (buf src : Block) (count : Nat) :
    bytesOf (memcpy buf 0 src count) count = bytesOf src count := by
  apply bytesOf_congr
  intro i inside
  rw [memcpy_inside (by omega) (by omega), Nat.sub_zero]

theorem Overwrites.storeAddr {write : Block → Block} {written : Set Nat} (stores : Overwrites write written)
    (offset : Nat) (address : InAddr) :
    Overwrites (fun old => Nose.storeAddr (write old) offset address) (Set.Ico offset (offset + 4) ∪ written) := by
  have bytes := (((stores.setByte offset address.first).setByte (offset + 1) address.second).setByte
    (offset + 2) address.third).setByte (offset + 3) address.fourth
  have same : Set.Ico offset (offset + 4) ∪ written =
      insert (offset + 3) (insert (offset + 2) (insert (offset + 1) (insert offset written))) := by
    ext i
    simp only [Set.mem_union, Set.mem_Ico, Set.mem_insert_iff]
    by_cases before : i ∈ written
    · simp [before]
    · simp only [before, or_false]
      omega
  rw [same]
  exact bytes

theorem overwrites_header (type code : UInt8) : Overwrites (fun old => header old type code) {1, 0} := by
  have bytes := (overwrites_nothing.setByte 0 type).setByte 1 code
  rwa [insert_empty_eq] at bytes

/-- A packet whose allocation is filled by stores and copied is leakless exactly when the stores fill it. -/
theorem leakless_copied_iff {host : ByteOrder} {packet : Packet} {write : Block → Block} {written : Set Nat}
    (stores : Overwrites write written) (count : Nat)
    (built : ∀ memory, packet.build host memory = ((count : Int), memcpy memory.buf 0 (write memory.malloc) count)) :
    Leakless host packet ↔ ∀ i < count, i ∈ written := by
  have transmitted (memory : Memory) : sent (packet.build host memory) = bytesOf (write memory.malloc) count := by
    rw [built, sent, Int.toNat_natCast, bytesOf_memcpy]
  rw [← stores.bytesOf_iff count]
  constructor
  · intro leakless first second
    have same := (leakless ⟨first, first, first⟩ ⟨second, first, first⟩).2
    rwa [transmitted, transmitted] at same
  · intro same first second
    rw [transmitted, transmitted, built, built]
    exact ⟨rfl, same first.malloc second.malloc⟩

/-- A byte that an option does not store is the old byte of the scratch option. -/
theorem appendOptions_old {fill : Block → BucketItem → Block} {stride k : Nat} {item : BucketItem} (inside : k < stride)
    (kept : ∀ opt, fill opt item k = opt k) (opt buf : Block) (size : Nat) (rest : List BucketItem) :
    (appendOptions fill stride opt buf size (item :: rest)).1 (size + k) = opt k := by
  have before := (@appendOptions_facts Unit fill stride (fun _ => ()) (fun _ => ()) (fun _ _ _ => rfl)
    (fun _ _ => rfl) (fill opt item) (memcpy buf size (fill opt item) stride) (size + stride) rest).2.1
  rw [appendOptions, before _ (by omega), memcpy_inside (by omega) (by omega), Nat.add_sub_cancel_left, kept]

theorem length_appendOptions (fill : Block → BucketItem → Block) (stride : Nat) (opt buf : Block) (size : Nat)
    (items : List BucketItem) : (appendOptions fill stride opt buf size items).2 = size + stride * items.length :=
  (@appendOptions_facts Unit fill stride (fun _ => ()) (fun _ => ()) (fun _ _ _ => rfl) (fun _ _ => rfl) opt buf size
    items).1

/-- The header of a response with options is stored up to the length of its id. -/
theorem overwrites_rspHeader (host : ByteOrder) (type : UInt8) (count : UInt16) (targetId : CharArray 21) :
    Overwrites (fun old => memcpy (store16 host (header old type rsp) 2 (htons host count)) 4 targetId.memory
      (strlen targetId.toList)) (Set.Ico 4 (4 + strlen targetId.toList) ∪ {2, 3, 1, 0}) :=
  ((overwrites_header type rsp).store16 host 2 (htons host count)).memcpy 4 targetId.memory (strlen targetId.toList)

/-- A packet with a transmitted byte that differs between two memories is not leakless. -/
theorem leaks_byte {host : ByteOrder} {packet : Packet} (first second : Memory) {place : Nat}
    (inside : ∀ memory, place < (packet.build host memory).1.toNat)
    (differs : (packet.build host first).2 place ≠ (packet.build host second).2 place) : ¬ Leakless host packet := by
  intro leakless
  have byte := congrArg (fun bytes : List UInt8 => bytes.getD place 0) (leakless first second).2
  simp only [sent] at byte
  rw [getD_bytesOf (inside first), getD_bytesOf (inside second)] at byte
  exact differs byte

/-- A packet whose byte at a place is the old byte of the scratch option is not leakless. -/
theorem leaks_option {host : ByteOrder} {packet : Packet} {place k : Nat}
    (old : ∀ memory, place < (packet.build host memory).1.toNat ∧
      (packet.build host memory).2 place = memory.mallocOption k) : ¬ Leakless host packet := by
  apply leaks_byte ⟨fun _ => 0, fun _ => 0, fun _ => 0⟩ ⟨fun _ => 0, fun _ => 1, fun _ => 0⟩ fun memory => (old memory).1
  rw [(old _).2, (old _).2]
  exact show (0 : UInt8) ≠ 1 by decide

section Packets

variable (host : ByteOrder)

/-- A request with both ids is written completely exactly when both ids have twenty characters. -/
theorem covers_request_iff {source target : Nat} (sourceFits : source ≤ 20) (targetFits : target ≤ 20) :
    (∀ i < 44, i ∈ Set.Ico 4 (4 + target) ∪ (Set.Ico 24 (24 + source) ∪ ({2, 3, 1, 0} : Set Nat))) ↔
      source = 20 ∧ target = 20 := by
  simp only [Set.mem_union, Set.mem_Ico, Set.mem_insert_iff, Set.mem_singleton_iff]
  constructor
  · intro covers
    have last := covers 43 (by decide)
    have middle := covers 23 (by decide)
    omega
  · intro whole i inside
    omega

theorem discoveryReq_leakless_iff (port : UInt16) {sourceId targetId : CharArray 21}
    (sourceFits : strlen sourceId.toList ≤ 20) (targetFits : strlen targetId.toList ≤ 20) :
    Leakless host (.discoveryReq port sourceId targetId) ↔
      strlen sourceId.toList = 20 ∧ strlen targetId.toList = 20 := by
  have stores := (((overwrites_header disc req).store16 host 2 (htons host port)).memcpy 24 sourceId.memory
    (strlen sourceId.toList)).memcpy 4 targetId.memory (strlen targetId.toList)
  rw [leakless_copied_iff stores 44 (fun _ => rfl)]
  exact covers_request_iff sourceFits targetFits

theorem getPeersReq_leakless_iff {sourceId targetId : CharArray 21} (sourceFits : strlen sourceId.toList ≤ 20)
    (targetFits : strlen targetId.toList ≤ 20) :
    Leakless host (.getPeersReq sourceId targetId) ↔ strlen sourceId.toList = 20 ∧ strlen targetId.toList = 20 := by
  have stores := (((overwrites_header gPs req).store16 host 2 0).memcpy 24 sourceId.memory
    (strlen sourceId.toList)).memcpy 4 targetId.memory (strlen targetId.toList)
  rw [leakless_copied_iff stores 44 (fun _ => rfl)]
  exact covers_request_iff sourceFits targetFits

theorem pingReq_leakless (sourceId targetId : CharArray 21) : Leakless host (.pingReq sourceId targetId) := by
  have stores := (((overwrites_header ping req).store16 host 2 0).memcpy 24 sourceId.memory 20).memcpy 4
    targetId.memory 20
  rw [leakless_copied_iff stores 44 (fun _ => rfl)]
  exact (covers_request_iff le_rfl le_rfl).mpr ⟨rfl, rfl⟩

/-- The second word of a ping response and of a registry response is never stored. -/
theorem idsRsp_leaks {packet : Packet} (type : UInt8) (sourceId targetId : CharArray 21)
    (built : ∀ memory, packet.build host memory = idsRspPkt type (some memory.malloc) sourceId targetId memory.buf) :
    ¬ Leakless host packet := by
  have stores := ((overwrites_header type rsp).memcpy 24 sourceId.memory 20).memcpy 4 targetId.memory 20
  rw [leakless_copied_iff stores 44 built]
  intro covers
  simpa using covers 2 (by decide)

/-- The reserved word of a registry request and of a find response is never stored. -/
theorem peerPkt_leaks {packet : Packet} (type code : UInt8) (natType port : UInt16) (ipv4 vlanIpv4 : List UInt8)
    (mstpId peerId : CharArray 21)
    (built : ∀ memory, packet.build host memory = (56, memcpy memory.buf 0
      (peerPkt host type code natType port ipv4 vlanIpv4 mstpId peerId memory.malloc) 56)) :
    ¬ Leakless host packet := by
  have words := ((overwrites_header type code).store16 host 2 (htons host natType)).store16 host 6 (htons host port)
  have stores := (((Overwrites.storeAddr (Overwrites.storeAddr words 8 (inetAddr ipv4)) 12 (inetAddr vlanIpv4)).memcpy
    16 mstpId.memory 20).memcpy 36 peerId.memory 20)
  rw [leakless_copied_iff stores 56 built]
  intro covers
  simpa using covers 4 (by decide)

theorem findPeerReq_leaks (peerId mstpId : CharArray 21) (vlanIpv4 : CharArray 16) :
    ¬ Leakless host (.findPeerReq peerId mstpId vlanIpv4) := by
  have stores := ((Overwrites.storeAddr (overwrites_header fP req) 4 (inetAddr (cstr vlanIpv4.toList))).memcpy 8
    mstpId.memory 20).memcpy 28 peerId.memory 20
  rw [leakless_copied_iff stores 48 (fun _ => rfl)]
  intro covers
  simpa using covers 2 (by decide)

/-- The response has the length of a request, but only twelve of its bytes are stored in the buffer. -/
theorem authRespose_leaks (id challenge messageCode : Int) :
    ¬ Leakless host (.authRespose id challenge messageCode) := by
  have inside (memory : Memory) : 12 < (Packet.build host memory (.authRespose id challenge messageCode)).1.toNat := by
    change 12 < ((authRspLen : Nat) : Int).toNat
    decide
  have old (memory : Memory) : (Packet.build host memory (.authRespose id challenge messageCode)).2 12 =
      memory.buf 12 := by
    simp only [Packet.build, authResposePkt]
    rw [memcpy_outside (by decide), memcpy_outside (by decide)]
  apply leaks_byte ⟨fun _ => 0, fun _ => 0, fun _ => 0⟩ ⟨fun _ => 0, fun _ => 0, fun _ => 1⟩ inside
  rw [old, old]
  exact show (0 : UInt8) ≠ 1 by decide

/-- A response with options is leakless exactly when its id has twenty characters and there is no option, because each
option keeps a byte of the scratch option. -/
theorem optionsRsp_leakless_iff {packet : Packet} {fill : Block → BucketItem → Block} {stride k : Nat} {type : UInt8}
    {count : UInt16} {targetId : CharArray 21} {items : List BucketItem} (fits : strlen targetId.toList ≤ 20)
    (inside : k < stride) (kept : ∀ opt item, fill opt item k = opt k)
    (built : ∀ memory, packet.build host memory =
      let result := appendOptions fill stride memory.mallocOption (memcpy memory.buf 0 (memcpy (store16 host
        (header memory.malloc type rsp) 2 (htons host count)) 4 targetId.memory (strlen targetId.toList)) 24) 24 items
      ((result.2 : Int), result.1)) :
    Leakless host packet ↔ strlen targetId.toList = 20 ∧ items = [] := by
  cases items with
  | nil =>
      rw [leakless_copied_iff (overwrites_rspHeader host type count targetId) 24 built]
      simp only [Set.mem_union, Set.mem_Ico, Set.mem_insert_iff, Set.mem_singleton_iff, and_true]
      constructor
      · intro covers
        have last := covers 23 (by decide)
        omega
      · intro whole i small
        omega
  | cons item rest =>
      have leaks : ¬ Leakless host packet := by
        apply @leaks_option host packet (24 + k) k
        intro memory
        rw [built]
        dsimp only
        refine ⟨?_, appendOptions_old inside (fun opt => kept opt item) _ _ _ _⟩
        rw [length_appendOptions, List.length_cons, Int.toNat_natCast]
        have whole : stride ≤ stride * (rest.length + 1) := Nat.le_mul_of_pos_right stride (Nat.succ_pos rest.length)
        omega
      exact iff_of_false leaks fun covered => absurd covered.2 (List.cons_ne_nil item rest)

theorem listed_eq_nil_iff (items : Nat → BucketItem) (count : Int) :
    (List.range count.toNat).map items = [] ↔ count ≤ 0 := by
  rw [List.map_eq_nil_iff, List.range_eq_nil]
  omega

/-- The reserved word of a discovery option is never stored. -/
theorem discoveryOptions_reserve : ∃ fill : Block → BucketItem → Block,
    (∀ opt buf size items, discoveryOptions host opt buf size items = appendOptions fill 28 opt buf size items) ∧
      ∀ opt item, fill opt item 2 = opt 2 := by
  refine ⟨_, discoveryOptions_eq host, fun opt item => ?_⟩
  rw [memcpy_outside (by decide), Nose.storeAddr, setByte_other (by decide), setByte_other (by decide),
    setByte_other (by decide), setByte_other (by decide), store16_other (by decide)]

/-- The reserved byte of a peers option is never stored. -/
theorem getPeersOptions_reserve : ∃ fill : Block → BucketItem → Block,
    (∀ opt buf size items, getPeersOptions host opt buf size items = appendOptions fill 32 opt buf size items) ∧
      ∀ opt item, fill opt item 1 = opt 1 := by
  refine ⟨_, getPeersOptions_eq host, fun opt item => ?_⟩
  rw [store16_other (by decide), setByte_other (by decide), Nose.storeAddr, setByte_other (by decide),
    setByte_other (by decide), setByte_other (by decide), setByte_other (by decide), Nose.storeAddr,
    setByte_other (by decide), setByte_other (by decide), setByte_other (by decide), setByte_other (by decide),
    memcpy_outside (by decide)]

theorem discoveryRsp_leakless_iff {targetId : CharArray 21} (fits : strlen targetId.toList ≤ 20)
    (items : Nat → BucketItem) (count : Int) :
    Leakless host (.discoveryRsp targetId items count) ↔ strlen targetId.toList = 20 ∧ count ≤ 0 := by
  obtain ⟨fill, appended, kept⟩ := discoveryOptions_reserve host
  rw [← listed_eq_nil_iff items]
  apply optionsRsp_leakless_iff host fits (show 2 < 28 by decide) kept
  intro memory
  rw [← appended]
  rfl

theorem getPeersRsp_leakless_iff {targetId : CharArray 21} (fits : strlen targetId.toList ≤ 20)
    (items : Nat → BucketItem) (count : Int) : Leakless host (.getPeersRsp targetId items count) ↔ count ≤ 0 := by
  by_cases empty : count ≤ 0
  · have rejected (memory : Memory) : Packet.build host memory (.getPeersRsp targetId items count) =
        (error, memory.buf) := if_pos empty
    refine iff_of_true (fun first second => ?_) empty
    rw [rejected, rejected]
    exact ⟨rfl, rfl⟩
  · obtain ⟨fill, appended, kept⟩ := getPeersOptions_reserve host
    have built (memory : Memory) : Packet.build host memory (.getPeersRsp targetId items count) =
        let result := appendOptions fill 32 memory.mallocOption (memcpy memory.buf 0 (memcpy (store16 host
          (header memory.malloc gPs rsp) 2 (htons host (UInt16.ofInt count))) 4 targetId.memory
          (strlen targetId.toList)) 24) 24 ((List.range count.toNat).map items)
        ((result.2 : Int), result.1) := by
      rw [← appended]
      exact if_neg empty
    have options := optionsRsp_leakless_iff host fits (show 1 < 32 by decide) kept built
    rw [options, listed_eq_nil_iff]
    exact iff_of_false (fun covered => empty covered.2) empty

end Packets

/-- A packet is leakless exactly when its builder writes every byte that is transmitted. -/
theorem leakless_iff (host : ByteOrder) (packet : Packet) (padded : ∀ id ∈ packet.ids, Padded id) :
    Leakless host packet ↔ packet.Covered := by
  cases packet with
  | discoveryReq port sourceId targetId =>
      exact discoveryReq_leakless_iff host port (padded sourceId (by simp [Packet.ids])).strlen_le
        (padded targetId (by simp [Packet.ids])).strlen_le
  | discoveryRsp targetId items count =>
      exact discoveryRsp_leakless_iff host (padded targetId (by simp [Packet.ids])).strlen_le items count
  | pingReq sourceId targetId => exact iff_of_true (pingReq_leakless host sourceId targetId) trivial
  | pingRsp sourceId targetId =>
      exact iff_of_false (idsRsp_leaks host ping sourceId targetId fun _ => rfl) id
  | getPeersReq sourceId targetId =>
      exact getPeersReq_leakless_iff host (padded sourceId (by simp [Packet.ids])).strlen_le
        (padded targetId (by simp [Packet.ids])).strlen_le
  | getPeersRsp targetId items count =>
      exact getPeersRsp_leakless_iff host (padded targetId (by simp [Packet.ids])).strlen_le items count
  | peerRegistryReq mstpId peerId vlanIpv4 type =>
      exact iff_of_false (peerPkt_leaks host rP req _ _ _ _ mstpId peerId fun _ => rfl) id
  | peerRegistryRsp mstpId peerId => exact iff_of_false (idsRsp_leaks host rP mstpId peerId fun _ => rfl) id
  | findPeerReq peerId mstpId vlanIpv4 => exact iff_of_false (findPeerReq_leaks host peerId mstpId vlanIpv4) id
  | findPeerRsp mstpId peerId item =>
      exact iff_of_false (peerPkt_leaks host fP rsp _ _ _ _ mstpId peerId fun _ => rfl) id
  | authRespose number challenge messageCode =>
      exact iff_of_false (authRespose_leaks host number challenge messageCode) id

/-- An id with one letter and twenty zeros. -/
def shortId : CharArray 21 := CharArray.setString (Vector.replicate 21 0) [97]

theorem shortId_padded : Padded shortId := ⟨[97], by decide, by decide, by decide, rfl⟩

theorem leakless_sample : Leakless .little (.discoveryReq 9998 shortId shortId) ↔
    (Packet.discoveryReq 9998 shortId shortId).Covered :=
  leakless_iff .little (.discoveryReq 9998 shortId shortId) (by simp [Packet.ids, shortId_padded])

/-- Two bytes of a ping response come from the old contents of its allocation. -/
theorem ping_response_leaks :
    (∀ id ∈ (Packet.pingRsp shortId shortId).ids, Padded id) ∧ ¬ Leakless .little (.pingRsp shortId shortId) := by
  refine ⟨by simp [Packet.ids, shortId_padded], fun leakless => ?_⟩
  have same := (leakless ⟨fun _ => 0, fun _ => 0, fun _ => 0⟩ ⟨fun _ => 1, fun _ => 0, fun _ => 0⟩).2
  exact absurd same (by decide +kernel)

end Nose
