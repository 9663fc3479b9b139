import Nose.Proof.PeerOptions
import Nose.Proof.RegisteredPeer

namespace Nose

open CMemory DottedQuad

/-- These are the entries that a peers response carries, the newest one first. -/
def transferred (bkt : Bucket) : List BucketItem := bkt.entries.reverse.take 10

/-- Two lookups agree on the external address, the port, the nat type and the id. -/
structure Agrees (first second : BucketItem) : Prop where
  ipv4 : cstr first.ipv4.toList = cstr second.ipv4.toList
  port : first.port = second.port
  natType : first.natType = second.natType
  nodeId : idBytes first.nodeId = idBytes second.nodeId

/-- The lookups of all transferred virtual addresses succeed in both buckets and agree. -/
def SameLookups (sender receiver : Bucket) : Prop :=
  ∀ entry ∈ transferred sender, ∀ past past' item,
    let here := getItemByVlanIpv4 past sender entry.vlanIpv4.toList item
    let there := getItemByVlanIpv4 past' receiver entry.vlanIpv4.toList item
    here.1 = ok ∧ there.1 = ok ∧ Agrees here.2 there.2

/-- The entries of a sender have different ids of twenty characters and canonical addresses. -/
structure Offers (bkt : Bucket) : Prop where
  valid : bkt.Valid
  nonempty : bkt.entries ≠ []
  plain : ∀ entry ∈ bkt.entries, 0 ∉ idBytes entry.nodeId
  distinct : (bkt.entries.map fun entry => idBytes entry.nodeId).Nodup
  ipv4 : ∀ entry ∈ bkt.entries, Canonical (cstr entry.ipv4.toList)
  vlan : ∀ entry ∈ bkt.entries, Canonical (vlanOf entry)

theorem mem_transferred {bkt : Bucket} {entry : BucketItem} (member : entry ∈ transferred bkt) :
    entry ∈ bkt.entries := List.mem_reverse.mp (List.mem_of_mem_take member)

theorem Offers.distinct_transferred {bkt : Bucket} (offers : Offers bkt) :
    ((transferred bkt).map fun entry => idBytes entry.nodeId).Nodup := by
  have backwards : (bkt.entries.reverse.map fun entry => idBytes entry.nodeId).Nodup := by
    rw [List.map_reverse, List.nodup_reverse]
    exact offers.distinct
  exact backwards.sublist ((List.take_sublist _ _).map _)

/-- The items that the sender takes for its response are the transferred entries. -/
theorem topItems_eq {bkt : Bucket} (valid : bkt.Valid) (items : Nat → BucketItem) :
    ((getTopBucketItems bkt items 10).1 = (transferred bkt).length) ∧
      (List.range (getTopBucketItems bkt items 10).1.toNat).map (getTopBucketItems bkt items 10).2 =
        transferred bkt := by
  have count := valid.count_eq
  have size : (getTopBucketItems bkt items 10).1 = (transferred bkt).length := by
    simp only [getTopBucketItems, transferred, List.length_take, List.length_reverse, length_entries]
    split <;> omega
  refine ⟨size, ?_⟩
  apply List.ext_getElem
  · simp [size]
  · intro i inside inside'
    have small : i < bkt.count := by
      simp only [transferred, List.length_take, List.length_reverse, length_entries] at inside'
      omega
    simp only [List.getElem_map, List.getElem_range, transferred, List.getElem_take, List.getElem_reverse,
      getTopBucketItems, getElem_entries]
    rw [copyDown_apply, if_pos (by omega), length_entries]
    rfl

/-- These are the entries that pushes of new items append. -/
def stampedAll (ctx : Nat → PushContext) : List BucketItem → List BucketItem
  | [] => []
  | item :: rest => stamped (ctx rest.length) item :: stampedAll ctx rest

/-- An id of twenty characters that no entry has is new, with or without a terminator. -/
theorem hasNodeId_fresh {ctx : PushContext} {bkt : Bucket} {item : BucketItem} (plain : 0 ∉ idBytes item.nodeId)
    (fresh : idBytes item.nodeId ∉ bkt.entries.map fun entry => idBytes entry.nodeId) :
    hasNodeId ctx bkt item = false := by
  unfold hasNodeId
  rw [List.any_eq_false]
  intro i member
  have entry : bkt.b i ∈ bkt.entries := mem_entries.mpr ⟨i, List.mem_range.mp member, rfl⟩
  have different : idBytes item.nodeId ≠ idBytes (bkt.b i).nodeId := fun same =>
    fresh (List.mem_map.mpr ⟨_, entry, same.symm⟩)
  rw [toList_eq_idBytes item.nodeId, toList_eq_idBytes (bkt.b i).nodeId,
    strcmp_different _ _ _ _ _ (by simp [idBytes]) plain different]
  decide

/-- Pushes of new ids append all items while there is room. -/
theorem entries_pushItems {ctx : Nat → PushContext} {bkt : Bucket} {items : List BucketItem} (valid : bkt.Valid)
    (plain : ∀ item ∈ items, 0 ∉ idBytes item.nodeId)
    (distinct : ((bkt.entries ++ items).map fun entry => idBytes entry.nodeId).Nodup)
    (room : bkt.entries.length + items.length ≤ 255) :
    (pushItems ctx bkt items).entries = bkt.entries ++ stampedAll ctx items := by
  induction items generalizing bkt with
  | nil => simp [pushItems, stampedAll]
  | cons item rest ih =>
      rw [List.length_cons] at room
      have fresh : idBytes item.nodeId ∉ bkt.entries.map fun entry => idBytes entry.nodeId := by
        rw [List.map_append, List.map_cons] at distinct
        intro member
        exact (List.disjoint_of_nodup_append distinct) member List.mem_cons_self
      have pushed : (pushFrontBucket (ctx rest.length) bkt item).entries =
          bkt.entries ++ [stamped (ctx rest.length) item] := by
        rw [entries_push_fresh valid (hasNodeId_fresh (plain item List.mem_cons_self) fresh), if_neg (by omega)]
      rw [pushItems, ih valid.push (fun other member => plain other (List.mem_cons_of_mem _ member)), pushed,
        stampedAll]
      · simp
      · rw [pushed]
        simpa [stamped] using distinct
      · rw [pushed, List.length_append, List.length_singleton]
        omega

/-- A transferred entry differs from its copy at most in the nat type, which is cut to one byte. -/
structure Copied (entry copy : BucketItem) : Prop where
  ipv4 : cstr entry.ipv4.toList = cstr copy.ipv4.toList
  port : entry.port = copy.port
  natType : copy.natType = (UInt8.ofInt entry.natType).toNat
  nodeId : idBytes entry.nodeId = idBytes copy.nodeId
  vlan : vlanOf entry = vlanOf copy

theorem CarriesOption.copied {entry item : BucketItem} (carries : CarriesOption (offered entry) item)
    (ipv4 : Canonical (cstr entry.ipv4.toList)) (vlan : Canonical (vlanOf entry)) (ctx : PushContext) :
    Copied entry (stamped ctx item) where
  ipv4 := (carries.ipv4.trans ipv4.inetNtoa_inetAddr).symm
  port := carries.port.symm
  natType := carries.natType
  nodeId := carries.nodeId.symm
  vlan := (carries.vlanIpv4.trans vlan.inetNtoa_inetAddr).symm

theorem Copied.agrees_iff {entry copy : BucketItem} (copied : Copied entry copy) :
    Agrees entry copy ↔ 0 ≤ entry.natType ∧ entry.natType ≤ 255 := by
  have cut : ((UInt8.ofInt entry.natType).toNat : Int) = entry.natType % 256 := by
    rw [UInt8.ofInt, UInt8.toNat_ofNat']
    omega
  constructor
  · intro agrees
    have same := agrees.natType
    rw [copied.natType, cut] at same
    omega
  · intro range
    refine ⟨copied.ipv4, copied.port, ?_, copied.nodeId⟩
    rw [copied.natType, cut]
    omega

/-- Decoded items have the ids of the entries that they copy. -/
theorem ids_of_carried {R : BucketItem → BucketItem → Prop} {entries items : List BucketItem}
    (ids : ∀ entry item, R entry item → idBytes item.nodeId = idBytes entry.nodeId)
    (carried : List.Forall₂ R entries items) :
    (items.map fun item => idBytes item.nodeId) = entries.map fun entry => idBytes entry.nodeId := by
  induction carried with
  | nil => rfl
  | cons head _ ih => rw [List.map_cons, List.map_cons, ids _ _ head, ih]

theorem forall₂_stampedAll {R S : BucketItem → BucketItem → Prop} {entries items : List BucketItem}
    (ctx : Nat → PushContext) (carried : List.Forall₂ R entries items)
    (keeps : ∀ entry ∈ entries, ∀ item ctx, R entry item → S entry (stamped ctx item)) :
    List.Forall₂ S entries (stampedAll ctx items) := by
  induction carried with
  | nil => exact .nil
  | cons head _ ih =>
      exact .cons (keeps _ List.mem_cons_self _ _ head)
        (ih fun other member => keeps other (List.mem_cons_of_mem _ member))

/-- Items with the different ids of some entries fill an empty bucket. -/
theorem entries_received {bkt : Bucket} {entries items : List BucketItem} (ctx : Nat → PushContext)
    (empty : bkt.top = -1)
    (ids : (items.map fun item => idBytes item.nodeId) = entries.map fun entry => idBytes entry.nodeId)
    (plain : ∀ entry ∈ entries, 0 ∉ idBytes entry.nodeId)
    (distinct : (entries.map fun entry => idBytes entry.nodeId).Nodup) (few : items.length ≤ 255) :
    (pushItems ctx bkt items).entries = stampedAll ctx items := by
  obtain ⟨table, none_left⟩ := Table.empty empty
  rw [entries_pushItems table.valid, none_left, List.nil_append]
  · intro item member
    have id : idBytes item.nodeId ∈ entries.map fun entry => idBytes entry.nodeId := by
      rw [← ids]
      exact List.mem_map_of_mem member
    obtain ⟨entry, inside, same⟩ := List.mem_map.mp id
    rw [← same]
    exact plain entry inside
  · rw [none_left, List.nil_append, ids]
    exact distinct
  · rw [none_left, List.length_nil, Nat.zero_add]
    exact few

/-- A response of at least one item is a header with the count and an option for each item. -/
theorem getPeersRsp_facts (host : ByteOrder) (old oldOption : Block) (targetId : CharArray 21)
    (items : Nat → BucketItem) (buf : Block) {size : Int} {list : List BucketItem}
    (listed : (List.range size.toNat).map items = list) (length : size = list.length) (positive : 0 < list.length)
    (few : list.length < 65536) :
    let built := pmpGetPeersRspPkt host (some old) (some oldOption) targetId items size buf
    built.1.toNat = 24 + 32 * list.length ∧ (word (built.2 2) (built.2 3)).toNat = list.length ∧
      ∀ i (inside : i < (list.map offered).length),
        optionInfo (pointer built.2 (24 + 32 * i)) = (list.map offered)[i] := by
  intro built
  let start := memcpy buf 0 (memcpy (store16 host (header old gPs rsp) 2 (htons host (UInt16.ofInt size))) 4
    targetId.memory (strlen targetId.toList)) 24
  have split : built = (((getPeersOptions host oldOption start 24 list).2 : Int),
      (getPeersOptions host oldOption start 24 list).1) := by
    simp only [built, pmpGetPeersRspPkt, if_neg (show ¬ size ≤ 0 by omega), listed, start]
  obtain ⟨total, before, options⟩ := getPeersOptions_facts host oldOption start 24 list
  rw [split]
  refine ⟨by rw [total]; rfl, ?_, ?_⟩
  · dsimp only
    rw [before 2 (by decide), before 3 (by decide)]
    have count : (UInt16.ofInt size).toNat = list.length := by
      rw [length, UInt16.ofInt, UInt16.toNat_ofNat']
      omega
    simp [start, memcpy, store16_htons, setByte, count]
  · intro i inside
    rw [List.getElem_map]
    exact options i (by simpa using inside)

theorem Offers.length_transferred {bkt : Bucket} (offers : Offers bkt) :
    0 < (transferred bkt).length ∧ (transferred bkt).length ≤ 10 := by
  have := List.length_pos_iff.mpr offers.nonempty
  simp only [transferred, List.length_take, List.length_reverse]
  omega

/-- The decoder of a peers response gets a copy of each item into an empty bucket. -/
theorem getPeersRspUnpack_copies (host senderHost : ByteOrder) (old oldOption : Block) (targetId : CharArray 21)
    (items : Nat → BucketItem) (buf : Block) {size : Int} {list : List BucketItem}
    (listed : (List.range size.toNat).map items = list) (length : size = list.length) (positive : 0 < list.length)
    (few : list.length ≤ 255) (plain : ∀ entry ∈ list, 0 ∉ idBytes entry.nodeId)
    (distinct : (list.map fun entry => idBytes entry.nodeId).Nodup)
    (ipv4 : ∀ entry ∈ list, Canonical (cstr entry.ipv4.toList)) (vlan : ∀ entry ∈ list, Canonical (vlanOf entry))
    (ctx : Nat → PushContext) (item : BucketItem) {bkt : Bucket} (empty : bkt.top = -1) (rest : Block) :
    let answer := sent (pmpGetPeersRspPkt senderHost (some old) (some oldOption) targetId items size buf)
    let unpacked := pmpGetPeersRspUnpack host ctx item bkt (block answer rest) answer.length
    0 < answer.length ∧ unpacked.1 = ok ∧ List.Forall₂ Copied list unpacked.2.entries := by
  intro answer unpacked
  obtain ⟨bytes, count, options⟩ :=
    getPeersRsp_facts senderHost old oldOption targetId items buf listed length positive (by omega)
  have total : answer.length = 24 + 32 * list.length := (length_bytesOf _ _).trans bytes
  have read (i : Nat) (inside : i < 24 + 32 * list.length) : block answer rest i =
      (pmpGetPeersRspPkt senderHost (some old) (some oldOption) targetId items size buf).2 i :=
    block_bytesOf (by rw [bytes]; exact inside)
  have received : sizeT (answer.length : Int) = 24 + 32 * list.length := by
    rw [total, sizeT_natCast (by omega)]
  have counted : (htons host (load16 host (block answer rest) 2)).toNat = list.length := by
    rw [htons_load16, read 2 (by omega), read 3 (by omega), count]
  have carried := forall₂_decodedItems (getPeersItem_carries host) 32 (block answer rest) (list.map offered) 24 item
    fun i inside => by
      rw [← options i inside]
      apply optionInfo_congr
      intro j small
      rw [List.length_map] at inside
      exact read _ (by omega)
  rw [List.length_map, List.forall₂_map_left_iff] at carried
  have copies : List.Forall₂ Copied list (stampedAll ctx _) :=
    forall₂_stampedAll ctx carried fun entry member _ ctx carries =>
      carries.copied (ipv4 entry member) (vlan entry member) ctx
  have ids := ids_of_carried (fun _ _ carries => carries.nodeId) carried
  have decoded : unpacked =
      (ok, pushItems ctx bkt (decodedItems (getPeersItem host) 32 (block answer rest) list.length 24 item)) := by
    simp only [unpacked, pmpGetPeersRspUnpack]
    rw [if_neg (by omega), counted, if_neg (by omega), getPeersOptionsUnpack_eq]
  refine ⟨by omega, by rw [decoded], ?_⟩
  rw [decoded, entries_received ctx empty ids plain distinct (by rw [length_decodedItems]; exact few)]
  exact copies

/-- The receiver gets a copy of each transferred entry, the newest one first. -/
theorem getPeers_copies (host senderHost : ByteOrder) {bkt : Bucket} (offers : Offers bkt) (old oldOption : Block)
    (targetId : CharArray 21) (items : Nat → BucketItem) (buf : Block) (receiver : MasterPeer)
    (empty : receiver.peerBkt.top = -1) (around : Surroundings) (rest : Block) :
    let top := getTopBucketItems bkt items 10
    let answer := sent (pmpGetPeersRspPkt senderHost (some old) (some oldOption) targetId top.2 top.1 buf)
    List.Forall₂ Copied (transferred bkt)
      (getPeers host around receiver (block answer rest) answer.length).peerBkt.entries := by
  intro top answer
  obtain ⟨positive, few⟩ := offers.length_transferred
  obtain ⟨length, listed⟩ := topItems_eq offers.valid items
  obtain ⟨bytes, _, copies⟩ := getPeersRspUnpack_copies host senderHost old oldOption targetId top.2 buf listed length
    positive (by omega) (fun entry member => offers.plain entry (mem_transferred member)) offers.distinct_transferred
    (fun entry member => offers.ipv4 entry (mem_transferred member))
    (fun entry member => offers.vlan entry (mem_transferred member)) around.push around.item empty rest
  rw [getPeers, if_pos (Int.natCast_pos.mpr bytes)]
  exact copies

/-- A string in an address field is terminated when it is a canonical address. -/
theorem terminated_vlan {entry : BucketItem} (canonical : Canonical (vlanOf entry)) :
    0 ∈ entry.vlanIpv4.toList ∧ (cstr entry.vlanIpv4.toList).length < 16 := by
  obtain ⟨address, text⟩ := canonical
  have short : (cstr entry.vlanIpv4.toList).length < 16 := by
    rw [show cstr entry.vlanIpv4.toList = _ from text]
    exact length_inetNtoa_lt address
  refine ⟨?_, short⟩
  by_contra absent
  rw [cstr_plain absent] at short
  simp at short

/-- The sender and the receiver look up the first and the last transferred claim. -/
theorem lookups_eq {sender receiver : Bucket} (offers : Offers sender)
    (copies : List.Forall₂ Copied (transferred sender) receiver.entries) {entry : BucketItem}
    (member : entry ∈ transferred sender) :
    ∃ first last copy, (transferred sender).find? (fun other => vlanOf other = vlanOf entry) = some first ∧
      DedupQueue.newest (fun other => vlanOf other = vlanOf entry) (transferred sender) = some last ∧ Copied last copy ∧
        ∀ past past' item,
          getItemByVlanIpv4 past sender entry.vlanIpv4.toList item = (ok, first) ∧
            getItemByVlanIpv4 past' receiver entry.vlanIpv4.toList item = (ok, copy) := by
  obtain ⟨string, fits⟩ := terminated_vlan (offers.vlan entry (mem_transferred member))
  obtain ⟨first, found⟩ : ∃ first,
      (transferred sender).find? (fun other => vlanOf other = vlanOf entry) = some first := by
    rw [← Option.isSome_iff_exists, List.find?_isSome]
    exact ⟨entry, member, by simp⟩
  obtain ⟨last, reversed⟩ : ∃ last,
      (transferred sender).reverse.find? (fun other => vlanOf other = vlanOf entry) = some last := by
    rw [← Option.isSome_iff_exists, List.find?_isSome]
    exact ⟨entry, List.mem_reverse.mpr member, by simp⟩
  obtain ⟨copy, copied, related⟩ :=
    DedupQueue.newest_forall₂ copies (fun a b copied => by rw [copied.vlan]) reversed
  have newest : DedupQueue.newest (fun other => vlanOf other = vlanOf entry) sender.entries = some first := by
    rw [DedupQueue.newest, ← List.take_append_drop 10 sender.entries.reverse, List.find?_append]
    simp [show (sender.entries.reverse.take 10).find? _ = _ from found]
  exact ⟨first, last, copy, found, reversed, related, fun past past' item =>
    ⟨getItemByVlanIpv4_found past sender item string fits newest,
      getItemByVlanIpv4_found past' receiver item string fits copied⟩⟩

/-- A transferred table keeps its lookups exactly when no two transferred entries claim one virtual address and
each nat type fits into one byte. -/
theorem transfer_keeps_lookups_iff (host senderHost : ByteOrder) (sender receiver : MasterPeer)
    (offers : Offers sender.peerBkt) (empty : receiver.peerBkt.top = -1) (old oldOption : Block)
    (targetId : CharArray 21) (items : Nat → BucketItem) (buf : Block) (around : Surroundings) (rest : Block) :
    let top := getTopBucketItems sender.peerBkt items 10
    let answer := sent (pmpGetPeersRspPkt senderHost (some old) (some oldOption) targetId top.2 top.1 buf)
    SameLookups sender.peerBkt (getPeers host around receiver (block answer rest) answer.length).peerBkt ↔
      ((transferred sender.peerBkt).map vlanOf).Nodup ∧
        ∀ entry ∈ transferred sender.peerBkt, 0 ≤ entry.natType ∧ entry.natType ≤ 255 := by
  intro top answer
  have copies := getPeers_copies host senderHost offers old oldOption targetId items buf receiver empty around rest
  have nodup := offers.distinct_transferred.of_map
  constructor
  · intro same
    have single : ∀ entry ∈ transferred sender.peerBkt, (0 ≤ entry.natType ∧ entry.natType ≤ 255) ∧
        ∀ other ∈ transferred sender.peerBkt, vlanOf other = vlanOf entry → other = entry := by
      intro entry member
      obtain ⟨first, last, copy, found, newest, copied, lookups⟩ := lookups_eq offers copies member
      obtain ⟨here, there⟩ := lookups (fun _ => false) (fun _ => false) entry
      have agrees := (same entry member (fun _ => false) (fun _ => false) entry).2.2
      rw [here, there] at agrees
      have equal : first = last := List.inj_on_of_nodup_map offers.distinct_transferred
        (List.mem_of_find?_eq_some found) (List.mem_reverse.mp (List.mem_of_find?_eq_some newest))
        (agrees.nodeId.trans copied.nodeId.symm)
      subst equal
      have only := DedupQueue.unique_of_newest_first nodup found newest
      obtain rfl := only entry member (by simp)
      exact ⟨copied.agrees_iff.mp agrees, fun other inside claims => only other inside (by simp [claims])⟩
    refine ⟨?_, fun entry member => (single entry member).1⟩
    rw [List.nodup_map_iff_inj_on nodup]
    intro other inside entry member claims
    exact (single entry member).2 other inside claims
  · rintro ⟨single, range⟩ entry member past past' item
    obtain ⟨first, last, copy, found, newest, copied, lookups⟩ := lookups_eq offers copies member
    obtain ⟨here, there⟩ := lookups past past' item
    have only (other : BucketItem) (inside : other ∈ transferred sender.peerBkt)
        (claims : vlanOf other = vlanOf entry) :
        other = entry := List.inj_on_of_nodup_map single inside member claims
    obtain rfl := only first (List.mem_of_find?_eq_some found) (by simpa using List.find?_some found)
    obtain rfl := only last (List.mem_reverse.mp (List.mem_of_find?_eq_some newest))
      (by simpa using List.find?_some newest)
    refine ⟨congrArg Prod.fst here, congrArg Prod.fst there, ?_⟩
    rw [here, show getItemByVlanIpv4 past' _ last.vlanIpv4.toList item = _ from there]
    exact copied.agrees_iff.mpr (range _ member)

def claimant (letter last : UInt8) (port : UInt16) : BucketItem :=
  { blankItem with
    port := port
    ipv4 := quad ⟨1, 2, 3, letter⟩
    nodeId := letterId letter
    vlanIpv4 := quad ⟨172, 16, 10, last⟩
    natType := 3 }

/-- Two peers claim virtual addresses with the given last bytes. -/
def twoClaims (older newer : UInt8) : MasterPeer :=
  { blankMaster with peerBkt := ⟨1, 0, fun i => if i = 0 then claimant 98 older 4000 else claimant 99 newer 5000⟩ }

/-- An empty master receives the table. -/
def afterTransfer (sender : MasterPeer) : MasterPeer :=
  let top := getTopBucketItems sender.peerBkt (fun _ => blankItem) 10
  let answer :=
    sent (pmpGetPeersRspPkt .little (some blankBlock) (some blankBlock) (letterId 97) top.2 top.1 blankBlock)
  getPeers .little blankSurroundings blankMaster (block answer blankBlock) answer.length

theorem twoClaims_offers (older newer : UInt8) : Offers (twoClaims older newer).peerBkt := by
  have entries : (twoClaims older newer).peerBkt.entries = [claimant 98 older 4000, claimant 99 newer 5000] := rfl
  have canonical (letter last : UInt8) (port : UInt16) : Canonical (cstr (claimant letter last port).ipv4.toList) ∧
      Canonical (vlanOf (claimant letter last port)) :=
    ⟨⟨_, cstr_setString_inetNtoa _ _⟩, ⟨_, cstr_setString_inetNtoa _ _⟩⟩
  refine ⟨⟨by simp [twoClaims], by simp [twoClaims]⟩, ?_, ?_, ?_, ?_, ?_⟩ <;> rw [entries]
  · simp
  · have plain : 0 ∉ idBytes (letterId 98) ∧ 0 ∉ idBytes (letterId 99) := by decide +kernel
    simpa [claimant] using plain
  · have distinct : [idBytes (letterId 98), idBytes (letterId 99)].Nodup := by decide +kernel
    exact distinct
  · simp [canonical]
  · simp [canonical]

/-- Two peers with different virtual addresses are found through the copied table. -/
theorem transfer_keeps_lookups_sample : Offers (twoClaims 98 99).peerBkt ∧
    (SameLookups (twoClaims 98 99).peerBkt (afterTransfer (twoClaims 98 99)).peerBkt ↔
      ((transferred (twoClaims 98 99).peerBkt).map vlanOf).Nodup ∧
        ∀ entry ∈ transferred (twoClaims 98 99).peerBkt, 0 ≤ entry.natType ∧ entry.natType ≤ 255) :=
  ⟨twoClaims_offers 98 99,
    transfer_keeps_lookups_iff .little .little (twoClaims 98 99) blankMaster (twoClaims_offers 98 99)
    rfl blankBlock blankBlock (letterId 97) (fun _ => blankItem) blankBlock blankSurroundings blankBlock⟩

/-- The copied table leads to the older of two peers with one virtual address. -/
theorem transfer_reverses_claims : Offers (twoClaims 98 98).peerBkt ∧
    ¬ SameLookups (twoClaims 98 98).peerBkt (afterTransfer (twoClaims 98 98)).peerBkt := by
  refine ⟨twoClaims_offers 98 98, fun same => ?_⟩
  have newer : claimant 99 98 5000 ∈ transferred (twoClaims 98 98).peerBkt := List.mem_cons_self
  have agrees := (same _ newer (fun _ => false) (fun _ => false) blankItem).2.2.port
  revert agrees
  decide +kernel

end Nose
