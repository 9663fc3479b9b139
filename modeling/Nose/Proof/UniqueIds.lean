import Nose.Proof.TableTransfer

namespace Nose

open CMemory DottedQuad

/-- A master changes its tables on a datagram at its socket and on the answers to its own requests. -/
inductive MasterInput where
  | request (delivery : Delivery)
  | discovered (around : Surroundings) (buf : Block) (len : Int)
  | peers (around : Surroundings) (buf : Block) (len : Int)

def masterStep (host : ByteOrder) (mstp : MasterPeer) : MasterInput → MasterPeer
  | .request delivery => deliver host mstp delivery
  | .discovered around buf len => discoveryProc host around mstp buf len
  | .peers around buf len => getPeers host around mstp buf len

/-- No two entries of the bucket agree on their twenty id bytes. -/
def UniqueIds (bkt : Bucket) : Prop := (bkt.entries.map fun entry => idBytes entry.nodeId).Nodup

instance (bkt : Bucket) : Decidable (UniqueIds bkt) := inferInstanceAs (Decidable (List.Nodup _))

/-- This is the local memory of the decoder that handles an input. -/
def MasterInput.around : MasterInput → Surroundings
  | .request delivery => delivery.around
  | .discovered around _ _ => around
  | .peers around _ _ => around

/-- These are the items that an input names for the table of masters. Only a discovery response names any. -/
def MasterInput.namedMasters (host : ByteOrder) : MasterInput → List BucketItem
  | .request _ => []
  | .discovered around buf len =>
      let count := (load16 host buf 2).toNat
      if 0 < len ∧ 44 ≤ sizeT len ∧ count * 28 + 24 ≤ sizeT len then
        decodedItems (discoveryItem host) 28 buf count 24 around.item
      else []
  | .peers _ _ _ => []

/-- These are the items that an input names for the table of peers. -/
def MasterInput.namedPeers (host : ByteOrder) : MasterInput → List BucketItem
  | .request delivery =>
      if IsRegistry delivery.datagram then [registryItem host delivery.around.item delivery.buffer] else []
  | .discovered _ _ _ => []
  | .peers around buf len =>
      let count := (htons host (load16 host buf 2)).toNat
      if 0 < len ∧ 24 + 32 * count ≤ sizeT len then decodedItems (getPeersItem host) 32 buf count 24 around.item
      else []

/-- The ids of an accepted response are terminated by the packet or by the last byte of the local item. -/
def MasterInput.Terminates (host : ByteOrder) : MasterInput → Prop
  | .request _ => True
  | .discovered around buf len =>
      0 < len → 44 ≤ sizeT len → (load16 host buf 2).toNat * 28 + 24 ≤ sizeT len →
        NamesTerminated around.item buf 32 28 (load16 host buf 2).toNat
  | .peers around buf len =>
      0 < len → 24 + 32 * (htons host (load16 host buf 2)).toNat ≤ sizeT len →
        NamesTerminated around.item buf 36 32 (htons host (load16 host buf 2)).toNat

/-- A step pushes the items that its input names. -/
theorem masterStep_eq (host : ByteOrder) (mstp : MasterPeer) (input : MasterInput) :
    masterStep host mstp input =
      { mstp with
        masterPeerBkt := pushItems input.around.push mstp.masterPeerBkt (input.namedMasters host)
        peerBkt := pushItems input.around.push mstp.peerBkt (input.namedPeers host) } := by
  cases input with
  | request delivery =>
      rw [masterStep, deliver_eq, MasterInput.namedMasters, MasterInput.namedPeers]
      split <;> rfl
  | discovered around buf len =>
      simp only [masterStep, discoveryProc, pmpDiscoveryRspUnpack, discoveryOptionsUnpack_eq, MasterInput.around,
        MasterInput.namedMasters, MasterInput.namedPeers, pushItems]
      by_cases positive : 0 < len
      · by_cases short : sizeT len < 44
        · have rejected : ¬ (0 < len ∧ 44 ≤ sizeT len ∧ (load16 host buf 2).toNat * 28 + 24 ≤ sizeT len) := by omega
          rw [if_pos positive, if_pos short, if_neg rejected]
          rfl
        · by_cases incomplete : sizeT len < (load16 host buf 2).toNat * 28 + 24
          · have rejected : ¬ (0 < len ∧ 44 ≤ sizeT len ∧ (load16 host buf 2).toNat * 28 + 24 ≤ sizeT len) := by omega
            rw [if_pos positive, if_neg short, if_pos incomplete, if_neg rejected]
            rfl
          · rw [if_pos positive, if_neg short, if_neg incomplete, if_pos ⟨positive, by omega, by omega⟩]
      · rw [if_neg positive, if_neg fun accepted => positive accepted.1]
        rfl
  | peers around buf len =>
      simp only [masterStep, getPeers, pmpGetPeersRspUnpack, getPeersOptionsUnpack_eq, MasterInput.around,
        MasterInput.namedMasters, MasterInput.namedPeers, pushItems]
      by_cases positive : 0 < len
      · by_cases incomplete : sizeT len < 24 + 32 * (htons host (load16 host buf 2)).toNat
        · have rejected : ¬ (0 < len ∧ 24 + 32 * (htons host (load16 host buf 2)).toNat ≤ sizeT len) := by omega
          rw [if_pos positive, if_pos incomplete, if_neg rejected]
          split <;> rfl
        · rw [if_pos positive, if_neg (by omega), if_neg incomplete, if_pos ⟨positive, by omega⟩]
      · rw [if_neg positive, if_neg fun accepted => positive accepted.1]
        rfl

/-- The items that an input names have terminated ids when the ids of its response are. -/
theorem MasterInput.Terminates.named {host : ByteOrder} {input : MasterInput} (terminates : input.Terminates host) :
    (∀ item ∈ input.namedMasters host, Terminated item) ∧ ∀ item ∈ input.namedPeers host, Terminated item := by
  cases input with
  | request delivery =>
      refine ⟨by simp [namedMasters], fun item member => ?_⟩
      rw [namedPeers] at member
      split at member
      · rw [List.mem_singleton.mp member]
        exact (registryItem_carries host _ _).terminated
      · cases member
  | discovered around buf len =>
      refine ⟨fun item member => ?_, by simp [namedPeers]⟩
      rw [namedMasters] at member
      split at member
      · rename_i accepted
        have names : NamesTerminated around.item buf (24 + 8) 28 (load16 host buf 2).toNat :=
          terminates accepted.1 accepted.2.1 accepted.2.2
        have copies (item : BucketItem) (opt : Block) :
            (discoveryItem host item opt).nodeId = item.nodeId.copy (pointer opt 8) 20 := rfl
        exact terminated_decodedItems 8 copies names item member
      · cases member
  | peers around buf len =>
      refine ⟨by simp [namedMasters], fun item member => ?_⟩
      rw [namedPeers] at member
      split at member
      · rename_i accepted
        have names : NamesTerminated around.item buf (24 + 12) 32 (htons host (load16 host buf 2)).toNat :=
          terminates accepted.1 accepted.2
        have copies (item : BucketItem) (opt : Block) :
            (getPeersItem host item opt).nodeId = item.nodeId.copy (pointer opt 12) 20 := rfl
        exact terminated_decodedItems 12 copies names item member
      · cases member

/-- A table whose ids are terminated and different in their twenty bytes. -/
structure UniqueTable (bkt : Bucket) : Prop extends Table bkt where
  unique : UniqueIds bkt

/-- Two terminated id fields with the same twenty bytes hold the same string. -/
theorem idOf_congr {first second : BucketItem} (left : Terminated first) (right : Terminated second)
    (same : idBytes first.nodeId = idBytes second.nodeId) : idOf first = idOf second := by
  rw [Terminated, toList_eq_idBytes] at left right
  rw [idOf, idOf, toList_eq_idBytes, toList_eq_idBytes, same]
  rw [same] at left
  by_cases inside : 0 ∈ idBytes second.nodeId
  · rw [cstr_append inside, cstr_append inside]
  · have first_last : first.nodeId.memory 20 = 0 := by simpa [inside, eq_comm] using left
    have second_last : second.nodeId.memory 20 = 0 := by simpa [inside, eq_comm] using right
    rw [first_last, second_last]

/-- A push of a terminated item keeps the ids different. -/
theorem UniqueTable.push {ctx : PushContext} {bkt : Bucket} {item : BucketItem} (table : UniqueTable bkt)
    (terminated : Terminated item) : UniqueTable (pushFrontBucket ctx bkt item) := by
  refine ⟨table.toTable.push terminated, ?_⟩
  have unique := table.unique
  rw [UniqueIds, List.Nodup, List.pairwise_map] at unique ⊢
  rw [entries_push _ table.valid terminated table.terminated]
  apply DedupQueue.pairwise_push unique
  intro old member different same
  exact different (idOf_congr terminated (table.terminated old member) same.symm)

theorem UniqueTable.pushItems {ctx : Nat → PushContext} {bkt : Bucket} {items : List BucketItem}
    (table : UniqueTable bkt) (terminated : ∀ item ∈ items, Terminated item) :
    UniqueTable (pushItems ctx bkt items) :=
  pushItems_keeps (fun _ _ item member unique => unique.push (terminated item member)) table

theorem copyItems_apply (b : Nat → BucketItem) (start : Nat) (items : List BucketItem) (k : Nat) :
    copyItems b start items k = if start ≤ k then items.getD (k - start) (b k) else b k := by
  induction items generalizing b start with
  | nil => simp [copyItems]
  | cons item rest ih =>
      rw [copyItems, ih]
      by_cases same : k = start
      · subst same
        simp
      · rw [Function.update_of_ne same]
        by_cases after : start < k
        · rw [if_pos (by omega), if_pos (by omega), show k - start = k - (start + 1) + 1 by omega, List.getD_cons_succ]
        · rw [if_neg (by omega), if_neg (by omega)]

/-- An initial bucket holds the given items, unless they are too many. -/
theorem initBucket_entries (bkt : Bucket) (items : List BucketItem) :
    (initBucket bkt (some items)).Valid ∧
      (initBucket bkt (some items)).entries = if items.length ≤ 255 then items else [] := by
  unfold initBucket maxBucketSize
  by_cases many : (items.length : Int) > 255
  · simp only [if_pos many, if_neg (show ¬ items.length ≤ 255 by omega)]
    exact ⟨⟨by simp, by simp⟩, rfl⟩
  · simp only [if_neg many, if_pos (show items.length ≤ 255 by omega)]
    refine ⟨⟨by simp only; omega, by simp only; omega⟩, ?_⟩
    apply List.ext_getElem
    · simp [Bucket.count]
    · intro i inside inside'
      rw [getElem_entries]
      change copyItems bkt.b 0 items i = _
      rw [copyItems_apply, if_pos (Nat.zero_le i), Nat.sub_zero]
      simp [inside']

/-- The tables of a new master have different ids when its items have. -/
theorem initMasterPeer_unique (ctx : Nat → PushContext) (mstp : MasterPeer) (ipv4 : CharArray 16) (port : Int)
    (items : List BucketItem) (terminated : ∀ item ∈ items, Terminated item)
    (distinct : (items.map fun item => idBytes item.nodeId).Nodup) :
    UniqueTable (initMasterPeer ctx mstp ipv4 port items).masterPeerBkt ∧
      UniqueTable (initMasterPeer ctx mstp ipv4 port items).peerBkt := by
  constructor
  · obtain ⟨valid, entries⟩ := initBucket_entries mstp.masterPeerBkt items
    refine UniqueTable.pushItems ⟨⟨valid, ?_⟩, ?_⟩ terminated
    · rw [entries]
      split
      · exact terminated
      · simp
    · rw [UniqueIds, entries]
      split
      · exact distinct
      · simp
  · obtain ⟨table, none_left⟩ := Table.empty (show (initBucket mstp.peerBkt none).top = -1 from rfl)
    refine ⟨table, ?_⟩
    change UniqueIds (initBucket mstp.peerBkt none)
    simp [UniqueIds, none_left]

theorem Bucket.Valid.pushItems {ctx : Nat → PushContext} {bkt : Bucket} {items : List BucketItem} (valid : bkt.Valid) :
    (pushItems ctx bkt items).Valid :=
  pushItems_keeps (fun _ _ _ _ inside => inside.push) valid

/-- A step keeps both tables inside their bounds. -/
theorem masterStep_valid (host : ByteOrder) (mstp : MasterPeer) (input : MasterInput)
    (masters : mstp.masterPeerBkt.Valid) (peers : mstp.peerBkt.Valid) :
    (masterStep host mstp input).masterPeerBkt.Valid ∧ (masterStep host mstp input).peerBkt.Valid := by
  rw [masterStep_eq]
  exact ⟨masters.pushItems, peers.pushItems⟩

/-- Both tables of a master stay inside their bounds in every run. -/
theorem tables_valid_run (host : ByteOrder) (ctx : Nat → PushContext) (mstp : MasterPeer) (ipv4 : CharArray 16)
    (port : Int) (items : List BucketItem) (inputs : List MasterInput) :
    let final := inputs.foldl (masterStep host) (initMasterPeer ctx mstp ipv4 port items)
    final.masterPeerBkt.Valid ∧ final.peerBkt.Valid := by
  have masters : (initMasterPeer ctx mstp ipv4 port items).masterPeerBkt.Valid :=
    (initBucket_entries mstp.masterPeerBkt items).1.pushItems
  have peers : (initMasterPeer ctx mstp ipv4 port items).peerBkt.Valid :=
    (Table.empty (show (initBucket mstp.peerBkt none).top = -1 from rfl)).1.valid
  exact inputs.foldlRecOn (motive := fun mstp => mstp.masterPeerBkt.Valid ∧ mstp.peerBkt.Valid) (masterStep host)
    ⟨masters, peers⟩ fun mstp valid input _ => masterStep_valid host mstp input valid.1 valid.2

/-- A step with terminated ids keeps the ids of both tables different. -/
theorem masterStep_unique (host : ByteOrder) (mstp : MasterPeer) (input : MasterInput)
    (terminates : input.Terminates host) (masters : UniqueTable mstp.masterPeerBkt) (peers : UniqueTable mstp.peerBkt) :
    UniqueTable (masterStep host mstp input).masterPeerBkt ∧ UniqueTable (masterStep host mstp input).peerBkt := by
  rw [masterStep_eq]
  exact ⟨masters.pushItems terminates.named.1, peers.pushItems terminates.named.2⟩

/-- A push of terminated items is a push of all of them on the abstract queue. -/
theorem entries_pushItems_queue {ctx : Nat → PushContext} {bkt : Bucket} {items : List BucketItem} (table : Table bkt)
    (terminated : ∀ item ∈ items, Terminated item) :
    (pushItems ctx bkt items).entries = DedupQueue.pushAll 255 idOf bkt.entries (stampedAll ctx items) := by
  induction items generalizing bkt with
  | nil => rfl
  | cons item rest ih =>
      have first := terminated item List.mem_cons_self
      rw [pushItems, ih (table.push first) fun other member => terminated other (List.mem_cons_of_mem _ member),
        entries_push _ table.valid first table.terminated, stampedAll]
      rfl

theorem Table.pushItems {ctx : Nat → PushContext} {bkt : Bucket} {items : List BucketItem} (table : Table bkt)
    (terminated : ∀ item ∈ items, Terminated item) : Table (pushItems ctx bkt items) :=
  pushItems_keeps (fun _ _ item member kept => kept.push (terminated item member)) table

theorem map_idOf_stampedAll (ctx : Nat → PushContext) (items : List BucketItem) :
    (stampedAll ctx items).map idOf = items.map idOf := by
  induction items with
  | nil => rfl
  | cons item rest ih => rw [stampedAll, List.map_cons, List.map_cons, ih, idOf_stamped]

/-- Pushes of known ids leave the bucket as it is. -/
theorem pushItems_known {ctx : Nat → PushContext} {bkt : Bucket} {items : List BucketItem} (table : Table bkt)
    (terminated : ∀ item ∈ items, Terminated item) (known : ∀ item ∈ items, idOf item ∈ bkt.entries.map idOf) :
    pushItems ctx bkt items = bkt := by
  induction items with
  | nil => rfl
  | cons item rest ih =>
      have first := (hasNodeId_eq_true (ctx rest.length) (terminated item List.mem_cons_self) table.terminated).mpr
        (known item List.mem_cons_self)
      rw [pushItems, pushFrontBucket_known first]
      exact ih (fun other member => terminated other (List.mem_cons_of_mem _ member))
        fun other member => known other (List.mem_cons_of_mem _ member)

/-- A table of different ids that are among the given ones. -/
structure TableWithin (ids : List (List UInt8)) (bkt : Bucket) : Prop extends Table bkt where
  distinct : (bkt.entries.map idOf).Nodup
  inside : ∀ entry ∈ bkt.entries, idOf entry ∈ ids

/-- The pushed bucket extends the old one by entries with new ids, and it has an entry for each pushed id. -/
structure Extends (items : List BucketItem) (old new : Bucket) : Prop where
  added : ∃ added, new.entries = old.entries ++ added ∧ ∀ entry ∈ added, idOf entry ∉ old.entries.map idOf
  present : ∀ item ∈ items, idOf item ∈ new.entries.map idOf

/-- Pushes of few ids extend the bucket. -/
theorem TableWithin.pushAll {ids : List (List UInt8)} {ctx : Nat → PushContext} {bkt : Bucket}
    {items : List BucketItem} (table : TableWithin ids bkt) (few : ids.length ≤ 255)
    (terminated : ∀ item ∈ items, Terminated item) (listed : ∀ item ∈ items, idOf item ∈ ids) :
    TableWithin ids (pushItems ctx bkt items) ∧ Extends items bkt (pushItems ctx bkt items) := by
  have stamped_id {item : BucketItem} (member : item ∈ stampedAll ctx items) : idOf item ∈ items.map idOf := by
    rw [← map_idOf_stampedAll ctx items]
    exact List.mem_map_of_mem member
  have listed' : ∀ item ∈ stampedAll ctx items, idOf item ∈ ids := by
    intro item member
    obtain ⟨source, named, same⟩ := List.mem_map.mp (stamped_id member)
    exact same ▸ listed source named
  obtain ⟨added, pushed, fresh, present⟩ :=
    DedupQueue.pushAll_of_few few table.distinct table.inside listed'
  have entries : (pushItems ctx bkt items).entries = bkt.entries ++ added :=
    (entries_pushItems_queue table.toTable terminated).trans pushed
  refine ⟨⟨table.toTable.pushItems terminated, ?_, ?_⟩, ⟨⟨added, entries, ?_⟩, ?_⟩⟩
  · rw [entries_pushItems_queue table.toTable terminated]
    exact DedupQueue.nodup_pushAll table.distinct
  · intro entry member
    rw [entries] at member
    rcases List.mem_append.mp member with member | member
    · exact table.inside entry member
    · exact listed' entry (fresh entry member).1
  · intro entry member
    exact (fresh entry member).2
  · intro item member
    have pushed_id : idOf item ∈ (stampedAll ctx items).map idOf := by
      rw [map_idOf_stampedAll]
      exact List.mem_map_of_mem member
    obtain ⟨copy, copied, same⟩ := List.mem_map.mp pushed_id
    rw [entries, ← same]
    exact present copy copied

theorem Extends.trans {items later : List BucketItem} {old middle new : Bucket} (first : Extends items old middle)
    (second : Extends later middle new) : Extends (items ++ later) old new := by
  obtain ⟨added, grown, fresh⟩ := first.added
  obtain ⟨added', grown', fresh'⟩ := second.added
  have kept {id : List UInt8} (member : id ∈ middle.entries.map idOf) : id ∈ new.entries.map idOf := by
    rw [grown', List.map_append]
    exact List.mem_append_left _ member
  refine ⟨⟨added ++ added', by rw [grown', grown, List.append_assoc], fun entry member => ?_⟩, fun item member => ?_⟩
  · rcases List.mem_append.mp member with member | member
    · exact fresh entry member
    · intro old_id
      apply fresh' entry member
      rw [grown, List.map_append]
      exact List.mem_append_left _ old_id
  · rcases List.mem_append.mp member with member | member
    · exact kept (first.present item member)
    · exact second.present item member

/-- A step that names few ids extends the table of peers. -/
theorem masterStep_within {host : ByteOrder} {ids : List (List UInt8)} {mstp : MasterPeer} {input : MasterInput}
    (table : TableWithin ids mstp.peerBkt) (few : ids.length ≤ 255) (terminates : input.Terminates host)
    (listed : ∀ item ∈ input.namedPeers host, idOf item ∈ ids) :
    TableWithin ids (masterStep host mstp input).peerBkt ∧
      Extends (input.namedPeers host) mstp.peerBkt (masterStep host mstp input).peerBkt := by
  rw [masterStep_eq]
  exact table.pushAll few terminates.named.2 listed

/-- A run that names few ids extends the table of peers. -/
theorem masterRun_within {host : ByteOrder} {ids : List (List UInt8)} {mstp : MasterPeer} {inputs : List MasterInput}
    (table : TableWithin ids mstp.peerBkt) (few : ids.length ≤ 255)
    (terminates : ∀ input ∈ inputs, input.Terminates host)
    (listed : ∀ item ∈ inputs.flatMap (MasterInput.namedPeers host), idOf item ∈ ids) :
    TableWithin ids (inputs.foldl (masterStep host) mstp).peerBkt ∧
      Extends (inputs.flatMap (MasterInput.namedPeers host)) mstp.peerBkt
        (inputs.foldl (masterStep host) mstp).peerBkt := by
  induction inputs generalizing mstp with
  | nil => exact ⟨table, ⟨⟨[], by simp⟩, by simp⟩⟩
  | cons input rest ih =>
      rw [List.flatMap_cons] at listed ⊢
      obtain ⟨step_within, step_extended⟩ := masterStep_within table few (terminates input List.mem_cons_self)
        fun item member => listed item (List.mem_append_left _ member)
      obtain ⟨within, extended⟩ := ih step_within
        (fun later member => terminates later (List.mem_cons_of_mem _ member))
        fun item member => listed item (List.mem_append_right _ member)
      exact ⟨within, step_extended.trans extended⟩

/-- These are the entries with the twenty bytes of an id. -/
def entriesOf (id : CharArray 21) (bkt : Bucket) : List BucketItem :=
  bkt.entries.filter fun entry => idBytes entry.nodeId = idBytes id

/-- An extended bucket has no new entry for a known id. -/
theorem Extends.entriesOf_eq {items : List BucketItem} {old new : Bucket} {known : BucketItem}
    (extended : Extends items old new) (table : Table new) (terminated : Terminated known)
    (present : idOf known ∈ old.entries.map idOf) : entriesOf known.nodeId new = entriesOf known.nodeId old := by
  obtain ⟨added, grown, fresh⟩ := extended.added
  rw [entriesOf, entriesOf, grown, List.filter_append, List.append_right_eq_self, List.filter_eq_nil_iff]
  intro entry member same
  have queued : entry ∈ new.entries := by
    rw [grown]
    exact List.mem_append_right _ member
  apply fresh entry member
  rw [idOf_congr (table.terminated entry queued) terminated (by simpa using same)]
  exact present

/-- The ids of decoded items are the bytes of the options. -/
theorem ids_decodedItems {decode : BucketItem → Block → BucketItem} (id : Nat) {stride : Nat}
    (copies : ∀ item opt, (decode item opt).nodeId = item.nodeId.copy (pointer opt id) 20) (buf : Block)
    (n offset : Nat) (item : BucketItem) :
    (decodedItems decode stride buf n offset item).map (fun item => idBytes item.nodeId) =
      (List.range n).map fun i => bytesOf (pointer (pointer buf (offset + stride * i)) id) 20 := by
  induction n generalizing offset item with
  | zero => rfl
  | succ n ih =>
      have shifted (i : Nat) : offset + stride * (i + 1) = offset + stride + stride * i := by ring
      rw [decodedItems, List.map_cons, ih, copies, idBytes_copy, List.range_succ_eq_map, List.map_cons, List.map_map]
      simp only [Function.comp_def, Nat.succ_eq_add_one, shifted, Nat.mul_zero, Nat.add_zero]

/-- The same response names the same ids, whatever the local item of the decoder holds. -/
theorem namedPeers_ids {host : ByteOrder} (around around' : Surroundings) {buf buf' : Block} {len : Int}
    (agree : ∀ i < sizeT len, buf' i = buf i) :
    ((MasterInput.peers around' buf' len).namedPeers host).map (fun item => idBytes item.nodeId) =
      ((MasterInput.peers around buf len).namedPeers host).map fun item => idBytes item.nodeId := by
  have copies (item : BucketItem) (opt : Block) :
      (getPeersItem host item opt).nodeId = item.nodeId.copy (pointer opt 12) 20 := rfl
  by_cases complete : 24 ≤ sizeT len
  · have number : load16 host buf' 2 = load16 host buf 2 :=
      load16_congr host (agree 2 (by omega)) (agree 3 (by omega))
    simp only [MasterInput.namedPeers, number]
    split
    · rename_i accepted
      rw [ids_decodedItems 12 copies, ids_decodedItems 12 copies]
      apply List.map_congr_left
      intro i member
      have small := List.mem_range.mp member
      apply bytesOf_congr
      intro j inside
      simp only [pointer]
      exact agree _ (by omega)
    · rfl
  · have rejected (block : Block) : ¬ (0 < len ∧ 24 + 32 * (htons host (load16 host block 2)).toNat ≤ sizeT len) := by
      omega
    rw [MasterInput.namedPeers, MasterInput.namedPeers, if_neg (rejected buf'), if_neg (rejected buf)]

/-- The table of peers has room for all ids that it holds and that the inputs name, so that they drop no entry. -/
def Roomy (host : ByteOrder) (mstp : MasterPeer) (inputs : List MasterInput) : Prop :=
  ((mstp.peerBkt.entries ++ inputs.flatMap (MasterInput.namedPeers host)).map idOf).dedup.length ≤ 255

instance (host : ByteOrder) (mstp : MasterPeer) (inputs : List MasterInput) : Decidable (Roomy host mstp inputs) :=
  inferInstanceAs (Decidable (_ ≤ _))

/-- The strings of the ids in the table of peers stay different. -/
theorem masterRun_distinct {host : ByteOrder} {mstp : MasterPeer} {inputs : List MasterInput}
    (table : Table mstp.peerBkt) (distinct : (mstp.peerBkt.entries.map idOf).Nodup)
    (terminates : ∀ input ∈ inputs, input.Terminates host) :
    Table (inputs.foldl (masterStep host) mstp).peerBkt ∧
      ((inputs.foldl (masterStep host) mstp).peerBkt.entries.map idOf).Nodup := by
  refine inputs.foldlRecOn (motive := fun mstp => Table mstp.peerBkt ∧ (mstp.peerBkt.entries.map idOf).Nodup)
    (masterStep host) ⟨table, distinct⟩ fun mstp before input member => ?_
  have named := (terminates input member).named.2
  rw [masterStep_eq]
  refine ⟨before.1.pushItems named, ?_⟩
  rw [entries_pushItems_queue before.1 named]
  exact DedupQueue.nodup_pushAll before.2

/-- A table with room is a table within the ids that it holds and the inputs name. -/
theorem Roomy.within {host : ByteOrder} {mstp : MasterPeer} {inputs : List MasterInput}
    (roomy : Roomy host mstp inputs) (table : Table mstp.peerBkt) (distinct : (mstp.peerBkt.entries.map idOf).Nodup) :
    ∃ ids : List (List UInt8), ids.length ≤ 255 ∧ TableWithin ids mstp.peerBkt ∧
      ∀ item ∈ inputs.flatMap (MasterInput.namedPeers host), idOf item ∈ ids := by
  refine ⟨_, roomy, ⟨table, distinct, fun entry member => ?_⟩, fun item member => ?_⟩
  · exact List.mem_dedup.mpr (List.mem_map_of_mem (List.mem_append_left _ member))
  · exact List.mem_dedup.mpr (List.mem_map_of_mem (List.mem_append_right _ member))

/-- After a run with room, a response adds no entry for a peer that the run named, and a response that the run has
seen changes nothing. -/
theorem getPeers_known {host : ByteOrder} {mstp : MasterPeer} {inputs : List MasterInput} {around : Surroundings}
    {buf : Block} {len : Int} (table : Table mstp.peerBkt) (distinct : (mstp.peerBkt.entries.map idOf).Nodup)
    (terminates : ∀ input ∈ inputs ++ [.peers around buf len], input.Terminates host)
    (roomy : Roomy host mstp (inputs ++ [.peers around buf len])) :
    let here := inputs.foldl (masterStep host) mstp
    let next := getPeers host around here buf len
    ∀ earlier ∈ inputs,
      (∀ known ∈ earlier.namedPeers host,
        entriesOf known.nodeId next.peerBkt = entriesOf known.nodeId here.peerBkt) ∧
      ∀ around' buf', earlier = .peers around' buf' len → (∀ i < sizeT len, buf' i = buf i) → next = here := by
  intro here next earlier member
  obtain ⟨ids, few, within, listed⟩ := roomy.within table distinct
  rw [List.flatMap_append] at listed
  have terminates' := terminates _ (List.mem_append_right _ (List.mem_singleton_self _))
  have earlier_terminates := terminates earlier (List.mem_append_left _ member)
  have next_eq : next = masterStep host here (.peers around buf len) := rfl
  obtain ⟨here_within, grown⟩ := masterRun_within within few
    (fun input queued => terminates input (List.mem_append_left _ queued))
    fun item named => listed item (List.mem_append_left _ named)
  have present {item : BucketItem} (named : item ∈ earlier.namedPeers host) :
      idOf item ∈ here.peerBkt.entries.map idOf :=
    grown.present item (List.mem_flatMap.mpr ⟨earlier, member, named⟩)
  constructor
  · intro known named
    obtain ⟨next_within, extended⟩ := masterStep_within here_within few terminates'
      fun item queued => listed item (List.mem_append_right _ (by simpa using queued))
    rw [next_eq]
    exact extended.entriesOf_eq next_within.toTable (earlier_terminates.named.2 known named) (present named)
  · intro around' buf' same agree
    have known : ∀ item ∈ (MasterInput.peers around buf len).namedPeers host,
        idOf item ∈ here.peerBkt.entries.map idOf := by
      intro item named
      have id_member : idBytes item.nodeId ∈
          ((MasterInput.peers around' buf' len).namedPeers host).map fun item => idBytes item.nodeId := by
        rw [namedPeers_ids around around' agree]
        exact List.mem_map_of_mem named
      obtain ⟨twin, named', equal⟩ := List.mem_map.mp id_member
      rw [← same] at named'
      rw [← idOf_congr (earlier_terminates.named.2 twin named') (terminates'.named.2 item named) equal]
      exact present named'
    rw [next_eq, masterStep_eq, pushItems_known here_within.toTable terminates'.named.2 known]
    rfl

/-- No run whose responses have terminated ids makes two entries of one bucket agree on their ids. A response adds no
entry for a peer that an earlier input named, and a repeated response changes nothing, if the table has room from the
earlier input on. -/
theorem unique_ids_run (host : ByteOrder) (ctx : Nat → PushContext) (mstp : MasterPeer) (ipv4 : CharArray 16)
    (port : Int) (items : List BucketItem) (inputs : List MasterInput)
    (terminated : ∀ item ∈ items, Terminated item) (distinct : (items.map fun item => idBytes item.nodeId).Nodup)
    (terminates : ∀ input ∈ inputs, input.Terminates host) :
    let reached := fun inputs => List.foldl (masterStep host) (initMasterPeer ctx mstp ipv4 port items) inputs
    (UniqueIds (reached inputs).masterPeerBkt ∧ UniqueIds (reached inputs).peerBkt) ∧
      ∀ before earlier between around buf len after,
        inputs = before ++ (earlier :: between ++ .peers around buf len :: after) →
          Roomy host (reached before) (earlier :: between ++ [.peers around buf len]) →
            let here := reached (before ++ earlier :: between)
            let next := getPeers host around here buf len
            (∀ known ∈ earlier.namedPeers host,
              entriesOf known.nodeId next.peerBkt = entriesOf known.nodeId here.peerBkt) ∧
            ∀ around' buf', earlier = .peers around' buf' len → (∀ i < sizeT len, buf' i = buf i) → next = here := by
  intro reached
  have unique (inputs : List MasterInput) (terminates : ∀ input ∈ inputs, input.Terminates host) :
      UniqueTable (reached inputs).masterPeerBkt ∧ UniqueTable (reached inputs).peerBkt :=
    inputs.foldlRecOn
      (motive := fun mstp => UniqueTable mstp.masterPeerBkt ∧ UniqueTable mstp.peerBkt) (masterStep host)
      (initMasterPeer_unique ctx mstp ipv4 port items terminated distinct) fun mstp tables input member =>
        masterStep_unique host mstp input (terminates input member) tables.1 tables.2
  refine ⟨⟨(unique inputs terminates).1.unique, (unique inputs terminates).2.unique⟩, ?_⟩
  intro before earlier between around buf len after whole roomy here next
  have terminates_before : ∀ input ∈ before, input.Terminates host := fun input member =>
    terminates input (by rw [whole]; exact List.mem_append_left _ member)
  have terminates_later : ∀ input ∈ earlier :: between ++ [.peers around buf len], input.Terminates host := by
    intro input member
    refine terminates input (whole ▸ List.mem_append_right _ ?_)
    rcases List.mem_append.mp member with member | member
    · exact List.mem_append_left _ member
    · exact List.mem_append_right _ (List.mem_cons.mpr (.inl (List.mem_singleton.mp member)))
  obtain ⟨table, none_left⟩ := Table.empty (show (initBucket mstp.peerBkt none).top = -1 from rfl)
  have start : Table (initMasterPeer ctx mstp ipv4 port items).peerBkt ∧
      ((initMasterPeer ctx mstp ipv4 port items).peerBkt.entries.map idOf).Nodup :=
    ⟨table, by simp [initMasterPeer, none_left]⟩
  obtain ⟨before_table, before_distinct⟩ := masterRun_distinct start.1 start.2 terminates_before
  have known := getPeers_known before_table before_distinct terminates_later roomy earlier List.mem_cons_self
  rw [← List.foldl_append] at known
  exact known

/-- Another master built this response. It names one peer. The given byte lies after the id in the local item of the
decoder. -/
def mergedResponse (last : UInt8) : MasterInput :=
  let answer := pmpGetPeersRspPkt .little (some blankBlock) (some blankBlock) (letterId 97)
    (fun _ => { blankItem with nodeId := letterId 98 }) 1 blankBlock
  .peers { blankSurroundings with item := { blankItem with nodeId := Vector.replicate 21 last } } answer.2 answer.1

/-- A peer registers and is named again by the response. -/
def mergedPeers (last : UInt8) : List MasterInput :=
  [.request (registering (samplePeer 98 4000)), mergedResponse last]

def knownMasters : List BucketItem := [{ blankItem with nodeId := letterId 99 }]

def knowingMaster : MasterPeer :=
  initMasterPeer (fun _ => ⟨0, fun _ => false⟩) blankMaster (quad ⟨127, 0, 0, 1⟩) 9998 knownMasters

/-- A zero after the id keeps the peer from being added again, and a repeated response changes nothing. -/
theorem unique_ids_run_sample :
    let reached := fun inputs => List.foldl (masterStep .little) knowingMaster inputs
    let run := mergedPeers 0 ++ [mergedResponse 0]
    (UniqueIds (reached run).masterPeerBkt ∧ UniqueIds (reached run).peerBkt) ∧
      (∀ known ∈ (MasterInput.request (registering (samplePeer 98 4000))).namedPeers .little,
        entriesOf known.nodeId (reached (mergedPeers 0)).peerBkt =
          entriesOf known.nodeId (reached ((mergedPeers 0).take 1)).peerBkt) ∧
        reached run = reached (mergedPeers 0) ∧ (entriesOf (letterId 98) (reached run).peerBkt).length = 1 := by
  intro reached run
  have terminates : ∀ input ∈ run, input.Terminates .little := by
    intro input member
    simp only [run, mergedPeers, List.cons_append, List.nil_append, List.mem_cons, List.not_mem_nil, or_false,
      or_self] at member
    rcases member with rfl | rfl
    · trivial
    · exact fun _ _ => .inl rfl
  obtain ⟨unique, later⟩ := unique_ids_run .little (fun _ => ⟨0, fun _ => false⟩) blankMaster (quad ⟨127, 0, 0, 1⟩)
    9998 knownMasters run (by decide +kernel) (by decide +kernel) terminates
  refine ⟨unique, ?_, ?_, by decide +kernel⟩
  · exact (later [] _ [] _ _ _ [mergedResponse 0] rfl (by decide +kernel)).1
  · exact (later [.request (registering (samplePeer 98 4000))] _ [] _ _ _ [] rfl (by decide +kernel)).2 _ _ rfl
      fun _ _ => rfl

/-- Another byte after the id makes the same peer enter the table twice. -/
theorem merged_peer_twice :
    (∀ item ∈ knownMasters, Terminated item) ∧ (knownMasters.map fun item => idBytes item.nodeId).Nodup ∧
      ¬ UniqueIds ((mergedPeers 7).foldl (masterStep .little) knowingMaster).peerBkt := by
  decide +kernel

end Nose
