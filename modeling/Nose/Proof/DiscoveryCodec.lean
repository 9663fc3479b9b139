import Nose.Proof.TableTransfer

namespace Nose

open CMemory DottedQuad

/-- An id of twenty characters fills its field up to the terminator. -/
theorem plain_of_strlen {id : CharArray 21} (characters : strlen id.toList = 20) :
    0 ∉ idBytes id ∧ id.memory 20 = 0 := by
  have split := List.takeWhile_append_dropWhile (p := (· ≠ 0)) (l := id.toList)
  have total : (cstr id.toList).length + (id.toList.dropWhile (· ≠ 0)).length = 21 := by
    rw [← List.length_append, cstr, split, Vector.length_toList]
  obtain ⟨last, rest⟩ : ∃ last, id.toList.dropWhile (· ≠ 0) = [last] := by
    rw [← List.length_eq_one_iff]
    rw [strlen] at characters
    omega
  rw [rest, toList_eq_idBytes] at split
  obtain ⟨start, ends⟩ := List.append_inj split (by
    rw [← toList_eq_idBytes]
    exact characters.trans (length_bytesOf _ _).symm)
  have zero : last = 0 := by
    have stops := List.head_dropWhile_not (p := fun byte : UInt8 => decide (byte ≠ 0)) (l := id.toList)
      (by rw [rest]; simp)
    simp only [rest, List.head_cons] at stops
    simpa using stops
  constructor
  · intro member
    rw [← start] at member
    simpa using List.mem_takeWhile_imp member
  · rw [← List.singleton_inj.mp ends, zero]

/-- A copied id without a terminator among its twenty bytes keeps them all. -/
theorem toList_copyId {target : CharArray 21} {src : Block} (plain : 0 ∉ bytesOf src 20) :
    (copyId target src).toList = bytesOf src 20 ++ [0] := by
  have nonzero (i : Nat) (inside : i < 20) : src i ≠ 0 := fun zero =>
    plain (List.mem_map.mpr ⟨i, List.mem_range.mpr inside, zero⟩)
  have copied : idBytes (target.strncpy src 20) = bytesOf src 20 := by
    apply bytesOf_congr
    intro i inside
    have before : (List.range i).all (fun j => src j ≠ 0) = true := by
      rw [List.all_eq_true]
      intro j member
      have small := List.mem_range.mp member
      simpa using nonzero j (by omega)
    rw [CharArray.memory_apply _ (by omega), CharArray.strncpy, Vector.getElem_ofFn, if_pos inside, if_pos before]
  rw [copyId, toList_terminateId, copied]

/-- The bytes of an id are decoded to the id. -/
theorem copyId_eq {id target : CharArray 21} {src : Block} (characters : strlen id.toList = 20)
    (agree : ∀ i < 20, src i = id.memory i) : copyId target src = id := by
  obtain ⟨plain, last⟩ := plain_of_strlen characters
  have bytes : bytesOf src 20 = idBytes id := bytesOf_congr agree
  apply Vector.toList_inj.mp
  rw [toList_copyId (by rwa [bytes]), bytes, toList_eq_idBytes id, last]

/-- A discovery request has its port with the high byte first and then both ids. -/
theorem discoveryReqPkt_facts (host : ByteOrder) (old buf : Block) (port : UInt16) {sourceId targetId : CharArray 21}
    (source : strlen sourceId.toList = 20) (target : strlen targetId.toList = 20) :
    let built := pmpDiscoveryReqPkt host (some old) port sourceId targetId buf
    built.1 = 44 ∧ built.2 2 = high port ∧ built.2 3 = low port ∧
      (∀ i < 20, built.2 (4 + i) = targetId.memory i) ∧ ∀ i < 20, built.2 (24 + i) = sourceId.memory i := by
  simp only [pmpDiscoveryReqPkt, source, target]
  refine ⟨trivial, ?_, ?_, ?_, ?_⟩
  · simp [memcpy, store16_htons, setByte]
  · simp [memcpy, store16_htons, setByte]
  · intro i inside
    rw [memcpy_inside (by omega) (by omega), Nat.sub_zero, memcpy_inside (by omega) (by omega), Nat.add_sub_cancel_left]
  · intro i inside
    rw [memcpy_inside (by omega) (by omega), Nat.sub_zero, memcpy_outside (by omega), memcpy_inside (by omega) (by omega),
      Nat.add_sub_cancel_left]

/-- The word with its bytes swapped is the same word exactly when its bytes are equal. -/
theorem word_swapped_iff (value : UInt16) : word (low value) (high value) = value ↔ high value = low value := by
  constructor
  · intro same
    have swapped := congrArg high same
    rw [high_word] at swapped
    exact swapped.symm
  · intro equal
    rw [equal]
    conv_rhs => rw [← word_high_low value, equal]

/-- A word that is stored with its high byte first is loaded again on a big-endian host, or when its bytes are equal. -/
theorem load16_stored_iff {host : ByteOrder} {block : Block} {offset : Nat} {value : UInt16}
    (first : block offset = high value) (second : block (offset + 1) = low value) :
    load16 host block offset = value ↔ host = .big ∨ high value = low value := by
  cases host with
  | little => simp [load16, first, second, word_swapped_iff]
  | big => simp [load16, first, second]

/-- This is what an option of a discovery response says about a master. -/
structure DiscoveryInfo where
  port : UInt16
  ipv4 : InAddr
  id : List UInt8

def discoveryInfo (opt : Block) : DiscoveryInfo :=
  ⟨word (opt 0) (opt 1), loadAddr opt 4, bytesOf (pointer opt 8) 20⟩

/-- This is what the encoder of a discovery response takes from an item. -/
def announced (item : BucketItem) : DiscoveryInfo :=
  ⟨item.port, inetAddr (cstr item.ipv4.toList), idBytes item.nodeId⟩

theorem discoveryInfo_congr {first second : Block} (agree : ∀ i < 28, first i = second i) :
    discoveryInfo first = discoveryInfo second := by
  have ids : bytesOf (pointer first 8) 20 = bytesOf (pointer second 8) 20 :=
    bytesOf_congr fun i inside => agree (8 + i) (by omega)
  simp only [discoveryInfo, loadAddr, ids, agree 0 (by decide), agree 1 (by decide), agree 4 (by decide),
    agree 5 (by decide), agree 6 (by decide), agree 7 (by decide), Nat.reduceAdd]

theorem discoveryInfo_stored (host : ByteOrder) (opt : Block) (item : BucketItem) :
    discoveryInfo (memcpy (storeAddr (store16 host opt 0 (htons host item.port)) 4
      (inetAddr (cstr item.ipv4.toList))) 8 item.nodeId.memory 20) = announced item := by
  have ids : bytesOf (pointer (memcpy (storeAddr (store16 host opt 0 (htons host item.port)) 4
      (inetAddr (cstr item.ipv4.toList))) 8 item.nodeId.memory 20) 8) 20 = idBytes item.nodeId := by
    apply bytesOf_congr
    intro i inside
    rw [pointer, memcpy_inside (by omega) (by omega), Nat.add_sub_cancel_left]
  rw [discoveryInfo, ids, announced]
  simp [memcpy, store16_htons, storeAddr, loadAddr, setByte]

theorem discoveryOptions_eq (host : ByteOrder) (opt buf : Block) (size : Nat) (items : List BucketItem) :
    discoveryOptions host opt buf size items = appendOptions (fun opt item =>
      memcpy (storeAddr (store16 host opt 0 (htons host item.port)) 4 (inetAddr (cstr item.ipv4.toList))) 8
        item.nodeId.memory 20) 28 opt buf size items := by
  induction items generalizing opt buf size with
  | nil => rfl
  | cons item rest ih => rw [discoveryOptions, appendOptions, ih]

/-- A discovery response is a header with the count and an option for each item. -/
theorem discoveryRspPkt_facts (host : ByteOrder) (old oldOption : Block) (targetId : CharArray 21)
    (items : Nat → BucketItem) (buf : Block) (size : Int) (list : List BucketItem)
    (listed : (List.range size.toNat).map items = list) (length : size = list.length) :
    let built := pmpDiscoveryRspPkt host (some old) (some oldOption) targetId items size buf
    built.1 = (24 + 28 * list.length : Nat) ∧ built.2 2 = high (UInt16.ofNat list.length) ∧
      built.2 3 = low (UInt16.ofNat list.length) ∧
        ∀ i (inside : i < (list.map announced).length),
          discoveryInfo (pointer built.2 (24 + 28 * i)) = (list.map announced)[i] := by
  intro built
  let start := memcpy buf 0 (memcpy (store16 host (header old disc rsp) 2 (htons host (UInt16.ofInt size))) 4
    targetId.memory (strlen targetId.toList)) 24
  have split : built = (((discoveryOptions host oldOption start 24 list).2 : Int),
      (discoveryOptions host oldOption start 24 list).1) := by
    simp only [built, pmpDiscoveryRspPkt, listed, start]
  have facts := appendOptions_facts (fun _ _ agree => discoveryInfo_congr agree) (discoveryInfo_stored host)
    oldOption start 24 list
  rw [← discoveryOptions_eq] at facts
  obtain ⟨total, before, options⟩ := facts
  have count : UInt16.ofInt size = UInt16.ofNat list.length := by
    apply UInt16.toNat_inj.mp
    rw [length, UInt16.ofInt, UInt16.toNat_ofNat', UInt16.toNat_ofNat']
    omega
  rw [split]
  refine ⟨by rw [total], ?_, ?_, ?_⟩
  · dsimp only
    rw [before 2 (by decide)]
    simp [start, memcpy, store16_htons, setByte, count]
  · dsimp only
    rw [before 3 (by decide)]
    simp [start, memcpy, store16_htons, setByte, count]
  · intro i inside
    rw [List.getElem_map]
    exact options i (by simpa using inside)

/-- A decoded master says the same as its option. -/
structure CarriesDiscovery (info : DiscoveryInfo) (item : BucketItem) : Prop where
  port : item.port = info.port
  ipv4 : cstr item.ipv4.toList = inetNtoa info.ipv4
  nodeId : idBytes item.nodeId = info.id

theorem discoveryItem_carries (item : BucketItem) (opt : Block) :
    CarriesDiscovery (discoveryInfo opt) (discoveryItem .big item opt) where
  port := rfl
  ipv4 := cstr_setString_inetNtoa _ _
  nodeId := idBytes_copy _ _

/-- A master was discovered with its address, its port and its id. -/
structure Discovered (first second : BucketItem) : Prop where
  ipv4 : cstr first.ipv4.toList = cstr second.ipv4.toList
  port : first.port = second.port
  nodeId : idBytes first.nodeId = idBytes second.nodeId

theorem CarriesDiscovery.discovered {entry item : BucketItem} (carries : CarriesDiscovery (announced entry) item)
    (ipv4 : Canonical (cstr entry.ipv4.toList)) (ctx : PushContext) : Discovered entry (stamped ctx item) where
  ipv4 := (carries.ipv4.trans ipv4.inetNtoa_inetAddr).symm
  port := carries.port.symm
  nodeId := carries.nodeId.symm

/-- The decoder of requests returns the port and both ids. -/
def RequestReturns (host : ByteOrder) (request : List UInt8) (rest : Block) (oldPort : UInt16)
    (oldSource oldTarget : CharArray 21) (port : UInt16) (sourceId targetId : CharArray 21) : Prop :=
  pmpDiscoveryReqUnpack host oldPort oldSource oldTarget (block request rest) request.length =
    (ok, port, sourceId, targetId)

/-- The decoder of responses inserts exactly the items, in order. -/
def ResponseInserts (host : ByteOrder) (ctx : Nat → PushContext) (item : BucketItem) (bkt : Bucket)
    (response : List UInt8) (rest : Block) (items : List BucketItem) : Prop :=
  let unpacked := pmpDiscoveryRspUnpack host ctx item bkt (block response rest) response.length
  unpacked.1 = ok ∧ List.Forall₂ Discovered items unpacked.2.entries

/-- A request comes back when the decoder does not have to swap the bytes of its port. -/
theorem request_returns_iff (senderHost receiverHost : ByteOrder) (old buf rest : Block) (port oldPort : UInt16)
    (sourceId targetId oldSource oldTarget : CharArray 21) (source : strlen sourceId.toList = 20)
    (target : strlen targetId.toList = 20) :
    RequestReturns receiverHost (sent (pmpDiscoveryReqPkt senderHost (some old) port sourceId targetId buf)) rest oldPort
        oldSource oldTarget port sourceId targetId ↔ receiverHost = .big ∨ high port = low port := by
  obtain ⟨size, first, second, targets, sources⟩ := discoveryReqPkt_facts senderHost old buf port source target
  set built := pmpDiscoveryReqPkt senderHost (some old) port sourceId targetId buf
  have length : (sent built).length = 44 := by
    rw [sent, length_bytesOf, size]
    rfl
  have read (i : Nat) (inside : i < 44) : block (sent built) rest i = built.2 i :=
    block_bytesOf (by rw [size]; exact inside)
  have decodedSource : copyId oldSource (pointer (block (sent built) rest) 24) = sourceId :=
    copyId_eq source fun i inside => (read (24 + i) (by omega)).trans (sources i inside)
  have decodedTarget : copyId oldTarget (pointer (block (sent built) rest) 4) = targetId :=
    copyId_eq target fun i inside => (read (4 + i) (by omega)).trans (targets i inside)
  rw [RequestReturns, pmpDiscoveryReqUnpack, length, if_neg (by decide), decodedSource, decodedTarget]
  simp only [Prod.mk.injEq, true_and, and_true]
  exact load16_stored_iff ((read 2 (by decide)).trans first) ((read 3 (by decide)).trans second)

section Response

variable (senderHost receiverHost : ByteOrder) (old oldOption buf rest : Block) (targetId : CharArray 21)
  (items : Nat → BucketItem) (count : Nat) (ctx : Nat → PushContext) (item : BucketItem) (bkt : Bucket)

/-- The decoder rejects a list when it swaps the bytes of the count, and always rejects an empty list. -/
theorem response_rejected (few : count ≤ 255) (rejects : receiverHost = .little ∨ count = 0) :
    let response := sent (pmpDiscoveryRspPkt senderHost (some old) (some oldOption) targetId items count buf)
    (pmpDiscoveryRspUnpack receiverHost ctx item bkt (block response rest) response.length).1 = error := by
  intro response
  obtain ⟨size, first, second, _⟩ := discoveryRspPkt_facts senderHost old oldOption targetId items buf
    count ((List.range count).map items) rfl (by simp)
  rw [List.length_map, List.length_range] at size first second
  have length : response.length = 24 + 28 * count := by
    simp only [response, sent, length_bytesOf, size, Int.toNat_natCast]
  have read (i : Nat) (inside : i < 24 + 28 * count) : block response rest i =
      (pmpDiscoveryRspPkt senderHost (some old) (some oldOption) targetId items count buf).2 i :=
    block_bytesOf (by rw [size, Int.toNat_natCast]; exact inside)
  rw [pmpDiscoveryRspUnpack, length, sizeT_natCast (by omega)]
  by_cases none_listed : count = 0
  · rw [if_pos (by omega)]
  · obtain rfl := rejects.resolve_right none_listed
    have swapped : (load16 .little (block response rest) 2).toNat = 256 * count := by
      have fits : count % 2 ^ 16 = count := by omega
      have highZero : count / 256 = 0 := by omega
      have lowByte : count % 256 % 2 ^ 8 = count := by omega
      rw [load16, read 2 (by omega), read 3 (by omega), first, second]
      simp only [word, high, low, UInt16.toNat_ofNat', UInt8.toNat_ofNat', fits, highZero, lowByte]
      omega
    dsimp only
    rw [swapped, if_neg (by omega), if_pos (by omega)]

/-- A big-endian decoder inserts the items of every list but the empty one. -/
theorem response_accepted (few : count ≤ 255) (positive : 0 < count) (empty : bkt.top = -1)
    (plain : ∀ entry ∈ (List.range count).map items, 0 ∉ idBytes entry.nodeId)
    (distinct : (((List.range count).map items).map fun entry => idBytes entry.nodeId).Nodup)
    (canonical : ∀ entry ∈ (List.range count).map items, Canonical (cstr entry.ipv4.toList)) :
    ResponseInserts .big ctx item bkt
      (sent (pmpDiscoveryRspPkt senderHost (some old) (some oldOption) targetId items count buf)) rest
        ((List.range count).map items) := by
  obtain ⟨size, first, second, options⟩ := discoveryRspPkt_facts senderHost old oldOption targetId items buf
    count ((List.range count).map items) rfl (by simp)
  rw [List.length_map, List.length_range] at size first second
  set built := pmpDiscoveryRspPkt senderHost (some old) (some oldOption) targetId items count buf
  have length : (sent built).length = 24 + 28 * count := by
    simp only [sent, length_bytesOf, size, Int.toNat_natCast]
  have read (i : Nat) (inside : i < 24 + 28 * count) : block (sent built) rest i = built.2 i :=
    block_bytesOf (by rw [size, Int.toNat_natCast]; exact inside)
  have counted : (load16 .big (block (sent built) rest) 2).toNat = count := by
    rw [load16, read 2 (by omega), read 3 (by omega), first, second, word_high_low, UInt16.toNat_ofNat']
    omega
  have carried := forall₂_decodedItems discoveryItem_carries 28 (block (sent built) rest)
    (((List.range count).map items).map announced) 24 item fun i inside => by
      rw [← options i inside]
      apply discoveryInfo_congr
      intro j small
      rw [List.length_map, List.length_map, List.length_range] at inside
      exact read _ (by omega)
  rw [List.length_map, List.length_map, List.length_range, List.forall₂_map_left_iff] at carried
  have entries : (pushItems ctx bkt (decodedItems (discoveryItem .big) 28 (block (sent built) rest) count 24 item)).entries =
      stampedAll ctx _ :=
    entries_received ctx empty (ids_of_carried (fun _ _ carries => carries.nodeId) carried) plain distinct
      (by rw [length_decodedItems]; exact few)
  rw [ResponseInserts, pmpDiscoveryRspUnpack, length, sizeT_natCast (by omega), if_neg (by omega)]
  dsimp only
  rw [counted, if_neg (by omega), discoveryOptionsUnpack_eq]
  refine ⟨rfl, ?_⟩
  rw [entries]
  exact forall₂_stampedAll ctx carried fun entry member _ ctx carries => carries.discovered (canonical entry member) ctx

end Response

/-- The discovery codec gives back a request exactly when the receiver is big-endian or the port has two equal bytes,
and a response exactly when the receiver is big-endian and the list is not empty. -/
theorem discovery_round_trip_iff (senderHost receiverHost : ByteOrder) (old oldOption buf rest : Block)
    (port oldPort : UInt16) (sourceId targetId oldSource oldTarget : CharArray 21)
    (source : strlen sourceId.toList = 20) (target : strlen targetId.toList = 20)
    (rspTarget : CharArray 21) (items : Nat → BucketItem) (count : Nat) (few : count ≤ 255)
    (plain : ∀ entry ∈ (List.range count).map items, strlen entry.nodeId.toList = 20)
    (distinct : (((List.range count).map items).map fun entry => idBytes entry.nodeId).Nodup)
    (canonical : ∀ entry ∈ (List.range count).map items, Canonical (cstr entry.ipv4.toList))
    (ctx : Nat → PushContext) (item : BucketItem) (bkt : Bucket) (empty : bkt.top = -1) :
    (RequestReturns receiverHost (sent (pmpDiscoveryReqPkt senderHost (some old) port sourceId targetId buf)) rest oldPort
        oldSource oldTarget port sourceId targetId ↔ receiverHost = .big ∨ high port = low port) ∧
      (ResponseInserts receiverHost ctx item bkt
        (sent (pmpDiscoveryRspPkt senderHost (some old) (some oldOption) rspTarget items count buf)) rest
          ((List.range count).map items) ↔ receiverHost = .big ∧ 0 < count) := by
  refine ⟨request_returns_iff senderHost receiverHost old buf rest port oldPort sourceId targetId oldSource oldTarget
    source target, ?_⟩
  constructor
  · intro inserts
    by_contra rejects
    have cause : receiverHost = .little ∨ count = 0 := by
      cases receiverHost with
      | little => exact .inl rfl
      | big => exact .inr (by simpa using rejects)
    have status := response_rejected senderHost receiverHost old oldOption buf rest rspTarget items count ctx item bkt
      few cause
    exact absurd (inserts.1.symm.trans status) (by decide)
  · rintro ⟨rfl, positive⟩
    exact response_accepted senderHost old oldOption buf rest rspTarget items count ctx item bkt few positive empty
      (fun entry member => (plain_of_strlen (plain entry member)).1) distinct canonical

/-- These are two masters on the port of the configuration examples. -/
def sampleMasters (i : Nat) : BucketItem := if i = 0 then claimant 98 98 9998 else claimant 99 99 9998

theorem sampleMasters_facts : (∀ entry ∈ (List.range 2).map sampleMasters, strlen entry.nodeId.toList = 20) ∧
    (((List.range 2).map sampleMasters).map fun entry => idBytes entry.nodeId).Nodup ∧
      ∀ entry ∈ (List.range 2).map sampleMasters, Canonical (cstr entry.ipv4.toList) := by
  have listed : (List.range 2).map sampleMasters = [claimant 98 98 9998, claimant 99 99 9998] := rfl
  rw [listed]
  have first : strlen (letterId 98).toList = 20 := by decide +kernel
  have second : strlen (letterId 99).toList = 20 := by decide +kernel
  have canonical (letter : UInt8) : Canonical (cstr (claimant letter letter 9998).ipv4.toList) :=
    ⟨_, cstr_setString_inetNtoa _ _⟩
  refine ⟨?_, ?_, ?_⟩
  · simp [claimant, first, second]
  · have distinct : [idBytes (letterId 98), idBytes (letterId 99)].Nodup := by decide +kernel
    exact distinct
  · simp [canonical]

/-- Two masters and a port with two equal bytes are exchanged with a big-endian receiver. -/
theorem discovery_round_trip_sample :
    RequestReturns .big (sent (pmpDiscoveryReqPkt .little (some blankBlock) 257 (letterId 97) (letterId 98) blankBlock))
        blankBlock 0 (letterId 97) (letterId 97) 257 (letterId 97) (letterId 98) ∧
      ResponseInserts .big blankSurroundings.push blankItem blankBucket
        (sent (pmpDiscoveryRspPkt .little (some blankBlock) (some blankBlock) (letterId 97) sampleMasters (2 : Nat)
          blankBlock)) blankBlock ((List.range 2).map sampleMasters) := by
  obtain ⟨plain, distinct, canonical⟩ := sampleMasters_facts
  obtain ⟨request, response⟩ := discovery_round_trip_iff .little .big blankBlock blankBlock blankBlock blankBlock 257 0
    (letterId 97) (letterId 98) (letterId 97) (letterId 97) (by decide +kernel) (by decide +kernel) (letterId 97)
    sampleMasters 2 (by decide) plain distinct canonical blankSurroundings.push blankItem blankBucket rfl
  exact ⟨request.mpr (.inl rfl), response.mpr ⟨rfl, by decide⟩⟩

/-- A little-endian receiver reads port 9998 with swapped bytes and rejects a list of two masters, and every receiver
rejects an empty list. -/
theorem discovery_byte_order_lost :
    ¬ RequestReturns .little (sent (pmpDiscoveryReqPkt .little (some blankBlock) 9998 (letterId 97) (letterId 98)
        blankBlock)) blankBlock 0 (letterId 97) (letterId 97) 9998 (letterId 97) (letterId 98) ∧
      ¬ ResponseInserts .little blankSurroundings.push blankItem blankBucket
        (sent (pmpDiscoveryRspPkt .little (some blankBlock) (some blankBlock) (letterId 97) sampleMasters (2 : Nat)
          blankBlock)) blankBlock ((List.range 2).map sampleMasters) ∧
        ¬ ResponseInserts .big blankSurroundings.push blankItem blankBucket
          (sent (pmpDiscoveryRspPkt .big (some blankBlock) (some blankBlock) (letterId 97) sampleMasters (0 : Nat)
            blankBlock)) blankBlock [] := by
  refine ⟨?_, ?_, ?_⟩
  · rw [request_returns_iff _ _ _ _ _ _ _ _ _ _ _ (by decide +kernel) (by decide +kernel)]
    decide
  · intro inserts
    have status := response_rejected .little .little blankBlock blankBlock blankBlock blankBlock (letterId 97)
      sampleMasters 2 blankSurroundings.push blankItem blankBucket (by decide) (.inl rfl)
    exact absurd (inserts.1.symm.trans status) (by decide)
  · intro inserts
    have status := response_rejected .big .big blankBlock blankBlock blankBlock blankBlock (letterId 97)
      sampleMasters 0 blankSurroundings.push blankItem blankBucket (by decide) (.inr rfl)
    exact absurd (inserts.1.symm.trans status) (by decide)

end Nose
