import Nose.Proof.RegisteredPeer
import Nose.Proof.PeerOptions
import Nose.Source.PmpAccess

namespace Nose

open CMemory DottedQuad BoundedAccess

/-- The last byte of an id field lies inside the field. -/
theorem setChar_terminateId (id : CharArray 21) : setChar id 20 0 = some (terminateId id) :=
  setChar_eq (show 20 < 21 by decide)

theorem setString_address (field : CharArray 16) (address : InAddr) :
    setString field (inetNtoa address) = some (field.setString (inetNtoa address)) :=
  setString_eq (length_inetNtoa_lt address)

theorem loadAddr_window {buf : List UInt8} {offset : Nat} (inside : offset + 4 ≤ buf.length) (rest : Block) :
    loadAddr (window buf offset 4) 0 = loadAddr (block buf rest) offset := by
  simp only [loadAddr, Nat.zero_add, window_apply inside rest (show 0 < 4 by decide),
    window_apply inside rest (show 1 < 4 by decide), window_apply inside rest (show 2 < 4 by decide),
    window_apply inside rest (show 3 < 4 by decide), Nat.add_zero]

theorem load16_pointer (host : ByteOrder) (block : Block) (offset i : Nat) :
    load16 host (pointer block offset) i = load16 host block (offset + i) := by
  cases host <;> rfl

theorem loadAddr_pointer (block : Block) (offset i : Nat) :
    loadAddr (pointer block offset) i = loadAddr block (offset + i) := rfl

theorem pointer_pointer (block : Block) (offset i : Nat) :
    pointer (pointer block offset) i = fun j => block (offset + i + j) := by
  funext j
  rw [pointer, pointer, Nat.add_assoc]

section Decoders

variable (host : ByteOrder) (buf : List UInt8) (rest : Block)

theorem discoveryReqUnpack_checked (port : UInt16) (sourceId targetId : CharArray 21) (fits : buf.length ≤ bufsiz) :
    Checked.pmpDiscoveryReqUnpack host port sourceId targetId buf =
      some (pmpDiscoveryReqUnpack host port sourceId targetId (block buf rest) buf.length) := by
  have size : sizeT (buf.length : Int) = buf.length := sizeT_natCast (by unfold bufsiz at fits; omega)
  rw [Checked.pmpDiscoveryReqUnpack, pmpDiscoveryReqUnpack, size]
  by_cases short : buf.length < 44
  · rw [if_pos short, if_pos short]
  · have target : 4 + 20 ≤ buf.length := by omega
    have source : 24 + 20 ≤ buf.length := by omega
    have number : 2 + 2 ≤ buf.length := by omega
    rw [if_neg short, if_neg short, copyId, copyId]
    simp only [access_eq target, access_eq source, access_eq number, strncpy_eq (show 20 ≤ 21 by decide),
      setChar_terminateId, Option.bind_eq_bind, Option.bind_some, strncpy_window _ target rest,
      strncpy_window _ source rest, load16_window host number rest]
    rfl

theorem pingReqUnpack_checked (sourceId targetId : CharArray 21) (fits : buf.length ≤ bufsiz) :
    Checked.pmpPingReqUnpack sourceId targetId buf =
      some (pmpPingReqUnpack sourceId targetId (block buf rest) buf.length) := by
  have size : sizeT (buf.length : Int) = buf.length := sizeT_natCast (by unfold bufsiz at fits; omega)
  rw [Checked.pmpPingReqUnpack, pmpPingReqUnpack, size]
  by_cases short : buf.length < 44
  · rw [if_pos short, if_pos short]
  · have target : 4 + 20 ≤ buf.length := by omega
    have source : 24 + 20 ≤ buf.length := by omega
    rw [if_neg short, if_neg short, copyId, copyId]
    simp only [access_eq target, access_eq source, strncpy_eq (show 20 ≤ 21 by decide), setChar_terminateId,
      Option.bind_eq_bind, Option.bind_some, strncpy_window _ target rest, strncpy_window _ source rest]
    rfl

/-- The loop over the options of a discovery response stays inside a packet that holds them all. -/
theorem discoveryOptionsUnpack_checked (ctx : Nat → PushContext) (n offset : Nat) (item : BucketItem) (b : Bucket)
    (inside : offset + 28 * n ≤ buf.length) :
    Checked.discoveryOptionsUnpack host ctx buf n offset item b =
      some (discoveryOptionsUnpack host ctx (block buf rest) n offset item b) := by
  induction n generalizing offset item b with
  | zero => rfl
  | succ n ih =>
      have number : offset + 2 ≤ buf.length := by omega
      have id : offset + 8 + 20 ≤ buf.length := by omega
      have address : offset + 4 + 4 ≤ buf.length := by omega
      rw [Checked.discoveryOptionsUnpack, discoveryOptionsUnpack]
      simp only [access_eq number, access_eq id, access_eq address, copy_eq (show 20 ≤ 21 by decide),
        setString_address, Option.bind_eq_bind, Option.bind_some, load16_window host number rest,
        copy_window _ id rest, loadAddr_window address rest]
      rw [ih (offset + 28) _ _ (by omega)]
      simp only [discoveryItem, load16_pointer, loadAddr_pointer, pointer_pointer, Nat.add_zero]

theorem discoveryRspUnpack_checked (ctx : Nat → PushContext) (item : BucketItem) (b : Bucket)
    (fits : buf.length ≤ bufsiz) :
    Checked.pmpDiscoveryRspUnpack host ctx item b buf =
      some (pmpDiscoveryRspUnpack host ctx item b (block buf rest) buf.length) := by
  have size : sizeT (buf.length : Int) = buf.length := sizeT_natCast (by unfold bufsiz at fits; omega)
  rw [Checked.pmpDiscoveryRspUnpack, pmpDiscoveryRspUnpack, size]
  by_cases short : buf.length < 44
  · rw [if_pos short, if_pos short]
  · have number : 2 + 2 ≤ buf.length := by omega
    rw [if_neg short, if_neg short]
    simp only [access_eq number, Option.bind_eq_bind, Option.bind_some, load16_window host number rest]
    by_cases incomplete : buf.length < (load16 host (block buf rest) 2).toNat * 28 + 24
    · rw [if_pos incomplete, if_pos incomplete]
    · rw [if_neg incomplete, if_neg incomplete, discoveryOptionsUnpack_checked host buf rest ctx _ 24 item b (by omega)]
      rfl

/-- The loop over the options of a peers response stays inside a packet that holds them all. -/
theorem getPeersOptionsUnpack_checked (ctx : Nat → PushContext) (n offset : Nat) (item : BucketItem) (b : Bucket)
    (inside : offset + 32 * n ≤ buf.length) :
    Checked.getPeersOptionsUnpack host ctx buf n offset item b =
      some (getPeersOptionsUnpack host ctx (block buf rest) n offset item b) := by
  induction n generalizing offset item b with
  | zero => rfl
  | succ n ih =>
      have number : offset + 2 + 2 ≤ buf.length := by omega
      have type : offset + 1 ≤ buf.length := by omega
      have id : offset + 12 + 20 ≤ buf.length := by omega
      have address : offset + 4 + 4 ≤ buf.length := by omega
      have vlan : offset + 8 + 4 ≤ buf.length := by omega
      rw [Checked.getPeersOptionsUnpack, getPeersOptionsUnpack]
      simp only [access_eq number, access_eq type, access_eq id, access_eq address, access_eq vlan,
        copy_eq (show 20 ≤ 21 by decide), setString_address, Option.bind_eq_bind, Option.bind_some,
        load16_window host number rest, window_apply type rest (show 0 < 1 by decide), copy_window _ id rest,
        loadAddr_window address rest, loadAddr_window vlan rest]
      rw [ih (offset + 32) _ _ (by omega)]
      simp only [getPeersItem, load16_pointer, loadAddr_pointer, pointer_pointer]
      rfl

theorem getPeersRspUnpack_checked (ctx : Nat → PushContext) (item : BucketItem) (b : Bucket)
    (fits : buf.length ≤ bufsiz) :
    Checked.pmpGetPeersRspUnpack host ctx item b buf =
      some (pmpGetPeersRspUnpack host ctx item b (block buf rest) buf.length) := by
  have size : sizeT (buf.length : Int) = buf.length := sizeT_natCast (by unfold bufsiz at fits; omega)
  rw [Checked.pmpGetPeersRspUnpack, pmpGetPeersRspUnpack, size]
  by_cases short : buf.length < 24
  · rw [if_pos short, if_pos short]
  · have number : 2 + 2 ≤ buf.length := by omega
    rw [if_neg short, if_neg short]
    simp only [access_eq number, Option.bind_eq_bind, Option.bind_some, load16_window host number rest]
    by_cases incomplete : buf.length < 24 + 32 * (htons host (load16 host (block buf rest) 2)).toNat
    · rw [if_pos incomplete, if_pos incomplete]
    · rw [if_neg incomplete, if_neg incomplete, getPeersOptionsUnpack_checked host buf rest ctx _ 24 item b (by omega)]
      rfl

theorem peerRegistryReqUnpack_checked (ctx : PushContext) (item : BucketItem) (peerId : CharArray 21) (b : Bucket)
    (fits : buf.length ≤ bufsiz) :
    Checked.pmpPeerRegistryReqUnpack host ctx item peerId b buf =
      some (pmpPeerRegistryReqUnpack host ctx item peerId b (block buf rest) buf.length) := by
  have size : sizeT (buf.length : Int) = buf.length := sizeT_natCast (by unfold bufsiz at fits; omega)
  rw [Checked.pmpPeerRegistryReqUnpack, pmpPeerRegistryReqUnpack, size]
  by_cases short : buf.length < 56
  · rw [if_pos short, if_pos short]
  · have type : 2 + 2 ≤ buf.length := by omega
    have number : 6 + 2 ≤ buf.length := by omega
    have address : 8 + 4 ≤ buf.length := by omega
    have vlan : 12 + 4 ≤ buf.length := by omega
    have id : 36 + 20 ≤ buf.length := by omega
    rw [if_neg short, if_neg short]
    simp only [access_eq type, access_eq number, access_eq address, access_eq vlan, access_eq id,
      copy_eq (show 20 ≤ 21 by decide), setString_address, setChar_terminateId, Option.bind_eq_bind, Option.bind_some,
      load16_window host type rest, load16_window host number rest, loadAddr_window address rest,
      loadAddr_window vlan rest, copy_window _ id rest]
    rfl

theorem findPeerReqUnpack_checked (past : Nat → Bool) (peerId mstpId : CharArray 21) (b : Bucket) (item : BucketItem)
    (fits : buf.length ≤ bufsiz) :
    Checked.pmpFindPeerReqUnpack past peerId mstpId b item buf =
      let result := pmpFindPeerReqUnpack past peerId mstpId b item (block buf rest) buf.length
      some (result.1, result.2.1, result.2.2.1, result.2.2.2, b) := by
  have size : sizeT (buf.length : Int) = buf.length := sizeT_natCast (by unfold bufsiz at fits; omega)
  rw [Checked.pmpFindPeerReqUnpack, pmpFindPeerReqUnpack, size]
  by_cases short : buf.length < 48
  · rw [if_pos short, if_pos short]
  · have address : 4 + 4 ≤ buf.length := by omega
    have peer : 28 + 20 ≤ buf.length := by omega
    have master : 8 + 20 ≤ buf.length := by omega
    rw [if_neg short, if_neg short]
    simp only [access_eq address, access_eq peer, access_eq master, copy_eq (show 20 ≤ 21 by decide),
      setString_address, setChar_terminateId, Option.bind_eq_bind, Option.bind_some, loadAddr_window address rest,
      copy_window _ peer rest, copy_window _ master rest]
    rfl

end Decoders

/-- A decoder that does not return `ok` leaves the bucket as it is, and one that does pushes the items in order. -/
structure Atomic (ctx : Nat → PushContext) (status : Int) (before after : Bucket) (items : List BucketItem) : Prop where
  rejected : status ≠ ok → after = before
  accepted : status = ok → after = pushItems ctx before items

theorem Atomic.unchanged {ctx : Nat → PushContext} {status : Int} {b : Bucket} {items : List BucketItem}
    (rejects : status ≠ ok) : Atomic ctx status b b items :=
  ⟨fun _ => rfl, fun accepts => absurd accepts rejects⟩

theorem discoveryRspUnpack_atomic (host : ByteOrder) (ctx : Nat → PushContext) (item : BucketItem) (b : Bucket)
    (buf : Block) (size : Int) :
    Atomic ctx (pmpDiscoveryRspUnpack host ctx item b buf size).1 b (pmpDiscoveryRspUnpack host ctx item b buf size).2
      (decodedItems (discoveryItem host) 28 buf (load16 host buf 2).toNat 24 item) := by
  rw [pmpDiscoveryRspUnpack]
  dsimp only
  split
  · exact Atomic.unchanged (show error ≠ ok by decide)
  · split
    · exact Atomic.unchanged (show error ≠ ok by decide)
    · exact ⟨fun rejects => absurd rfl rejects, fun _ => discoveryOptionsUnpack_eq ..⟩

theorem getPeersRspUnpack_atomic (host : ByteOrder) (ctx : Nat → PushContext) (item : BucketItem) (b : Bucket)
    (buf : Block) (size : Int) :
    Atomic ctx (pmpGetPeersRspUnpack host ctx item b buf size).1 b (pmpGetPeersRspUnpack host ctx item b buf size).2
      (decodedItems (getPeersItem host) 32 buf (htons host (load16 host buf 2)).toNat 24 item) := by
  rw [pmpGetPeersRspUnpack]
  dsimp only
  split
  · exact Atomic.unchanged (show error ≠ ok by decide)
  · split
    · exact Atomic.unchanged (show error ≠ ok by decide)
    · exact ⟨fun rejects => absurd rfl rejects, fun _ => getPeersOptionsUnpack_eq ..⟩

theorem peerRegistryReqUnpack_atomic (host : ByteOrder) (ctx : Nat → PushContext) (item : BucketItem)
    (peerId : CharArray 21) (b : Bucket) (buf : Block) (size : Int) :
    Atomic ctx (pmpPeerRegistryReqUnpack host (ctx 0) item peerId b buf size).1 b
      (pmpPeerRegistryReqUnpack host (ctx 0) item peerId b buf size).2.2 [registryItem host item buf] := by
  rw [pmpPeerRegistryReqUnpack]
  split
  · exact Atomic.unchanged (show error ≠ ok by decide)
  · exact ⟨fun rejects => absurd rfl rejects, fun _ => rfl⟩

/-- On every packet of at most `bufsiz` bytes, whatever lies behind it, each of the six decoders reads inside the
packet, writes inside its fields and gives the result of the model. The bucket changes only by pushes of the decoded items,
and only when the decoder returns `ok`. -/
theorem decoders_stay_inside (host : ByteOrder) (ctx : Nat → PushContext) (past : Nat → Bool) (buf : List UInt8)
    (fits : buf.length ≤ bufsiz) (rest : Block) (port : UInt16) (firstId secondId : CharArray 21) (item : BucketItem)
    (b : Bucket) :
    Checked.pmpDiscoveryReqUnpack host port firstId secondId buf =
        some (pmpDiscoveryReqUnpack host port firstId secondId (block buf rest) buf.length) ∧
      Checked.pmpPingReqUnpack firstId secondId buf =
        some (pmpPingReqUnpack firstId secondId (block buf rest) buf.length) ∧
      (∃ status after, Checked.pmpDiscoveryRspUnpack host ctx item b buf = some (status, after) ∧
        pmpDiscoveryRspUnpack host ctx item b (block buf rest) buf.length = (status, after) ∧
        Atomic ctx status b after
          (decodedItems (discoveryItem host) 28 (block buf rest) (load16 host (block buf rest) 2).toNat 24 item)) ∧
      (∃ status after, Checked.pmpGetPeersRspUnpack host ctx item b buf = some (status, after) ∧
        pmpGetPeersRspUnpack host ctx item b (block buf rest) buf.length = (status, after) ∧
        Atomic ctx status b after (decodedItems (getPeersItem host) 32 (block buf rest)
          (htons host (load16 host (block buf rest) 2)).toNat 24 item)) ∧
      (∃ status peerId after, Checked.pmpPeerRegistryReqUnpack host (ctx 0) item firstId b buf =
          some (status, peerId, after) ∧
        pmpPeerRegistryReqUnpack host (ctx 0) item firstId b (block buf rest) buf.length = (status, peerId, after) ∧
        Atomic ctx status b after [registryItem host item (block buf rest)]) ∧
      ∃ status peerId mstpId found after, Checked.pmpFindPeerReqUnpack past firstId secondId b item buf =
          some (status, peerId, mstpId, found, after) ∧
        pmpFindPeerReqUnpack past firstId secondId b item (block buf rest) buf.length =
          (status, peerId, mstpId, found) ∧ after = b := by
  refine ⟨discoveryReqUnpack_checked host buf rest port firstId secondId fits,
    pingReqUnpack_checked buf rest firstId secondId fits, ?_, ?_, ?_, ?_⟩
  · exact ⟨_, _, discoveryRspUnpack_checked host buf rest ctx item b fits, rfl, discoveryRspUnpack_atomic ..⟩
  · exact ⟨_, _, getPeersRspUnpack_checked host buf rest ctx item b fits, rfl, getPeersRspUnpack_atomic ..⟩
  · exact ⟨_, _, _, peerRegistryReqUnpack_checked host buf rest (ctx 0) item firstId b fits, rfl,
      peerRegistryReqUnpack_atomic ..⟩
  · exact ⟨_, _, _, _, _, findPeerReqUnpack_checked buf rest past firstId secondId b item fits, rfl, rfl⟩

/-- A peers response that declares 65535 peers and carries none. -/
def overcounted : List UInt8 := [gPs, rsp, 255, 255] ++ List.replicate 20 0

/-- The decoder of peers responses stays inside a packet that declares more than it carries. -/
theorem decoders_stay_inside_sample : ∃ status after,
    Checked.pmpGetPeersRspUnpack .little blankSurroundings.push blankItem blankBucket overcounted = some (status, after) ∧
      pmpGetPeersRspUnpack .little blankSurroundings.push blankItem blankBucket (block overcounted blankBlock)
        overcounted.length = (status, after) ∧
      Atomic blankSurroundings.push status blankBucket after (decodedItems (getPeersItem .little) 32
        (block overcounted blankBlock) (htons .little (load16 .little (block overcounted blankBlock) 2)).toNat 24
          blankItem) :=
  (decoders_stay_inside .little blankSurroundings.push (fun _ => false) overcounted (by decide) blankBlock 0
    (letterId 97) (letterId 98) blankItem blankBucket).2.2.2.1

end Nose
