import Nose.Proof.PmpCodec
import Nose.Source.MasterPeer

namespace Nose

open CMemory DottedQuad

@[simp] theorem respond_state (mstp : MasterPeer) (wlen : Int) (b : Block) : (respond mstp wlen b).1 = mstp := by
  unfold respond
  split <;> rfl

@[simp] theorem respond_unless (c : Prop) [Decidable c] (mstp : MasterPeer) (wlen : Int) (b : Block) :
    (if c then (mstp, none) else respond mstp wlen b).1 = mstp := by
  split
  · rfl
  · exact respond_state mstp wlen b

/-- A complete registry request pushes its item. -/
theorem udpRecvCb_registry (host : ByteOrder) (around : Surroundings) (mstp : MasterPeer) (b : Block) (rlen : Int)
    (registry : b 0 = rP) (request : b 1 = req) (complete : ¬ sizeT rlen < 56) :
    (udpRecvCb host around mstp b rlen).1 =
      { mstp with peerBkt := pushFrontBucket (around.push 0) mstp.peerBkt (registryItem host around.item b) } := by
  have notPing : rP ≠ ping := by decide
  have notDisc : rP ≠ disc := by decide
  have notGetPeers : rP ≠ gPs := by decide
  have long : sizeT rlen > 2 := by omega
  have unequal : ok ≠ error := by decide
  simp [udpRecvCb, long, request, notPing, notDisc, notGetPeers, registry, pmpPeerRegistryReqUnpack, complete, unequal]

/-- Every other receive leaves the master unchanged. -/
theorem udpRecvCb_quiet (host : ByteOrder) (around : Surroundings) (mstp : MasterPeer) (b : Block) (rlen : Int)
    (quiet : ¬ (b 0 = rP ∧ b 1 = req ∧ ¬ sizeT rlen < 56)) : (udpRecvCb host around mstp b rlen).1 = mstp := by
  unfold udpRecvCb
  by_cases long : sizeT rlen > 2
  · by_cases request : b 1 = req
    · simp only [if_pos long, if_pos request]
      split
      · exact respond_unless ..
      · split
        · exact respond_unless ..
        · split
          · exact respond_unless ..
          · split
            · rename_i registry
              have short : sizeT rlen < 56 := by
                by_contra complete
                exact quiet ⟨registry, request, complete⟩
              simp [pmpPeerRegistryReqUnpack, short]
            · split
              · exact respond_unless ..
              · exact respond_state ..
    · simp [long, request]
  · simp [long]

/-- A delivery is a datagram with what the callback finds around it. -/
structure Delivery where
  around : Surroundings
  stale : Block
  datagram : List UInt8

def deliver (host : ByteOrder) (mstp : MasterPeer) (delivery : Delivery) : MasterPeer :=
  (receive host delivery.around delivery.stale mstp delivery.datagram).1

/-- A master handles the deliveries one after the other. -/
def masterRun (host : ByteOrder) (mstp : MasterPeer) (deliveries : List Delivery) : MasterPeer :=
  deliveries.foldl (deliver host) mstp

/-- A complete request of the given type and size. -/
def IsRequest (type : UInt8) (size : Nat) (datagram : List UInt8) : Prop :=
  datagram.getD 0 0 = type ∧ datagram.getD 1 0 = req ∧ size ≤ datagram.length

instance (type : UInt8) (size : Nat) (datagram : List UInt8) : Decidable (IsRequest type size datagram) :=
  inferInstanceAs (Decidable (_ ∧ _ ∧ _))

abbrev IsRegistry : List UInt8 → Prop := IsRequest rP 56

abbrev IsFind : List UInt8 → Prop := IsRequest fP 48

/-- This is what a datagram says about a peer. -/
def infoOf (datagram : List UInt8) : PeerInfo := peerInfo (block datagram fun _ => 0)

/-- The buffer of a delivery starts with the received part of the datagram. -/
def Delivery.buffer (delivery : Delivery) : Block := block (delivery.datagram.take bufsiz) delivery.stale

theorem block_of_lt {bytes : List UInt8} {rest : Block} {i : Nat} (inside : i < bytes.length) :
    block bytes rest i = bytes.getD i 0 := by
  simp [block, inside]

theorem Delivery.buffer_eq {delivery : Delivery} {i : Nat} (inside : i < delivery.datagram.length)
    (fits : i < bufsiz) : delivery.buffer i = delivery.datagram.getD i 0 := by
  rw [buffer, block_of_lt (by simp [inside, fits])]
  simp [fits]

/-- The size that the callback compares is the size of the received part. -/
theorem sizeT_received (datagram : List UInt8) :
    sizeT ((datagram.take bufsiz).length : Int) = min 8192 datagram.length := by
  have bound : (datagram.take bufsiz).length = min 8192 datagram.length := List.length_take
  rw [bound, sizeT_natCast (by omega)]

/-- A complete datagram is seen by the callback with its header and size. -/
theorem Delivery.request_iff (delivery : Delivery) (type : UInt8) {size : Nat} (two : 2 ≤ size) (fits : size ≤ 8192) :
    delivery.buffer 0 = type ∧ delivery.buffer 1 = req ∧ ¬ sizeT ((delivery.datagram.take bufsiz).length : Int) < size ↔
      IsRequest type size delivery.datagram := by
  rw [sizeT_received]
  constructor
  · rintro ⟨first, second, complete⟩
    have long : size ≤ delivery.datagram.length := by omega
    rw [buffer_eq (by omega) (by decide)] at first second
    exact ⟨first, second, long⟩
  · rintro ⟨first, second, long⟩
    rw [buffer_eq (by omega) (by decide), buffer_eq (by omega) (by decide)]
    exact ⟨first, second, by omega⟩

/-- The callback reads the same about a peer as the datagram says. -/
theorem Delivery.peerInfo_buffer (delivery : Delivery) (long : 56 ≤ delivery.datagram.length) :
    peerInfo delivery.buffer = infoOf delivery.datagram :=
  peerInfo_congr fun i small => by
    rw [buffer_eq (by omega) (by unfold bufsiz; omega), block_of_lt (by omega)]

/-- The item that a registry request pushes. -/
def Delivery.registered (host : ByteOrder) (delivery : Delivery) : Option BucketItem :=
  if IsRegistry delivery.datagram then
    some (stamped (delivery.around.push 0) (registryItem host delivery.around.item delivery.buffer))
  else none

theorem Delivery.registered_carries {host : ByteOrder} {delivery : Delivery} {item : BucketItem}
    (pushed : delivery.registered host = some item) :
    IsRegistry delivery.datagram ∧ Carries item (infoOf delivery.datagram) := by
  unfold registered at pushed
  split at pushed
  · rename_i registry
    obtain rfl := Option.some.inj pushed
    refine ⟨registry, ?_⟩
    rw [← delivery.peerInfo_buffer registry.2.2]
    exact (registryItem_carries host _ _).stamped _
  · cases pushed

/-- A delivery pushes its item or leaves the master unchanged. -/
theorem deliver_eq (host : ByteOrder) (mstp : MasterPeer) (delivery : Delivery) :
    deliver host mstp delivery =
      if IsRegistry delivery.datagram then
        { mstp with
          peerBkt := pushFrontBucket (delivery.around.push 0) mstp.peerBkt
            (registryItem host delivery.around.item delivery.buffer) }
      else mstp := by
  have seen := delivery.request_iff rP (show 2 ≤ 56 by decide) (show 56 ≤ 8192 by decide)
  split
  · rename_i registry
    obtain ⟨type, code, complete⟩ := seen.mpr registry
    exact udpRecvCb_registry host _ mstp delivery.buffer _ type code complete
  · rename_i other
    exact udpRecvCb_quiet host _ mstp delivery.buffer _ (seen.not.mpr other)

/-- The table of peers keeps its bounds and its ids terminated. -/
structure Table (bkt : Bucket) : Prop where
  valid : bkt.Valid
  terminated : ∀ entry ∈ bkt.entries, Terminated entry

theorem Table.push {ctx : PushContext} {bkt : Bucket} {item : BucketItem} (table : Table bkt)
    (terminated : Terminated item) : Table (pushFrontBucket ctx bkt item) :=
  ⟨table.valid.push, terminated_push table.valid terminated table.terminated⟩

theorem Table.empty {bkt : Bucket} (empty : bkt.top = -1) : Table bkt ∧ bkt.entries = [] := by
  have none_left : bkt.entries = [] := by simp [Bucket.entries, Bucket.count, empty]
  exact ⟨⟨⟨by omega, by omega⟩, by simp [none_left]⟩, none_left⟩

/-- A run pushes the items of its registry requests in order. -/
theorem masterRun_entries (host : ByteOrder) (mstp : MasterPeer) (deliveries : List Delivery)
    (table : Table mstp.peerBkt) :
    Table (masterRun host mstp deliveries).peerBkt ∧
      (masterRun host mstp deliveries).peerBkt.entries =
        DedupQueue.pushAll 255 idOf mstp.peerBkt.entries (deliveries.filterMap (Delivery.registered host)) := by
  induction deliveries generalizing mstp with
  | nil => exact ⟨table, rfl⟩
  | cons delivery rest ih =>
      have continued := ih (deliver host mstp delivery)
      change Table (masterRun host (deliver host mstp delivery) rest).peerBkt ∧
        (masterRun host (deliver host mstp delivery) rest).peerBkt.entries = _
      rw [deliver_eq] at continued ⊢
      rw [List.filterMap_cons, Delivery.registered]
      by_cases registry : IsRegistry delivery.datagram
      · simp only [if_pos registry] at continued ⊢
        have terminated := (registryItem_carries host delivery.around.item delivery.buffer).terminated
        have pushed := continued (table.push terminated)
        rw [entries_push _ table.valid terminated table.terminated] at pushed
        exact pushed
      · simp only [if_neg registry] at continued ⊢
        exact continued table

end Nose
