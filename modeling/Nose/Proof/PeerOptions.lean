import Nose.Proof.PmpCodec
import Nose.Source.MasterPeer

namespace Nose

open CMemory DottedQuad

/-- What every push of a listed item keeps holds after all of them. -/
theorem pushItems_keeps {motive : Bucket → Prop} {ctx : Nat → PushContext} {bkt : Bucket} {items : List BucketItem}
    (push : ∀ ctx bkt, ∀ item ∈ items, motive bkt → motive (pushFrontBucket ctx bkt item)) (holds : motive bkt) :
    motive (pushItems ctx bkt items) := by
  induction items generalizing bkt with
  | nil => exact holds
  | cons item rest ih =>
      have rest_pushes : ∀ ctx bkt, ∀ other ∈ rest, motive bkt → motive (pushFrontBucket ctx bkt other) := by
        intro ctx bkt other member
        exact push ctx bkt other (List.mem_cons_of_mem _ member)
      exact ih rest_pushes (push _ bkt item List.mem_cons_self holds)

/-- These are the items that a decoder fills one after the other from the options of a response. -/
def decodedItems (decode : BucketItem → Block → BucketItem) (stride : Nat) (buf : Block) :
    Nat → Nat → BucketItem → List BucketItem
  | 0, _, _ => []
  | n + 1, offset, item =>
      let item := decode item (pointer buf offset)
      item :: decodedItems decode stride buf n (offset + stride) item

@[simp] theorem length_decodedItems (decode : BucketItem → Block → BucketItem) (stride : Nat) (buf : Block)
    (n offset : Nat) (item : BucketItem) : (decodedItems decode stride buf n offset item).length = n := by
  induction n generalizing offset item with
  | zero => rfl
  | succ n ih => simp [decodedItems, ih]

/-- The decoder of a peers response pushes its items in order. -/
theorem getPeersOptionsUnpack_eq (host : ByteOrder) (ctx : Nat → PushContext) (buf : Block) (n offset : Nat)
    (item : BucketItem) (b : Bucket) : getPeersOptionsUnpack host ctx buf n offset item b =
      pushItems ctx b (decodedItems (getPeersItem host) 32 buf n offset item) := by
  induction n generalizing offset item b with
  | zero => rfl
  | succ n ih => simp [getPeersOptionsUnpack, decodedItems, pushItems, ih]

/-- The decoder of a discovery response pushes its items in order. -/
theorem discoveryOptionsUnpack_eq (host : ByteOrder) (ctx : Nat → PushContext) (buf : Block) (n offset : Nat)
    (item : BucketItem) (b : Bucket) : discoveryOptionsUnpack host ctx buf n offset item b =
      pushItems ctx b (decodedItems (discoveryItem host) 28 buf n offset item) := by
  induction n generalizing offset item b with
  | zero => rfl
  | succ n ih => simp [discoveryOptionsUnpack, decodedItems, pushItems, ih]

/-- Each id is terminated when the last byte of the local item is zero, or the packet terminates the id. -/
def NamesTerminated (stack : BucketItem) (buf : Block) (offset stride count : Nat) : Prop :=
  stack.nodeId.memory 20 = 0 ∨ ∀ i < count, 0 ∈ bytesOf (pointer buf (offset + stride * i)) 20

/-- The items of a response are terminated under that condition. -/
theorem terminated_decodedItems {decode : BucketItem → Block → BucketItem} (id : Nat) {stride : Nat} {buf : Block}
    {n offset : Nat} {stack : BucketItem}
    (copies : ∀ item opt, (decode item opt).nodeId = item.nodeId.copy (pointer opt id) 20)
    (names : NamesTerminated stack buf (offset + id) stride n) :
    ∀ item ∈ decodedItems decode stride buf n offset stack, Terminated item := by
  induction n generalizing offset stack with
  | zero => simp [decodedItems]
  | succ n ih =>
      have kept : (decode stack (pointer buf offset)).nodeId.memory 20 = stack.nodeId.memory 20 := by
        rw [copies, memory_copy_last]
      have field : (decode stack (pointer buf offset)).nodeId.toList =
          bytesOf (pointer buf (offset + id)) 20 ++ [stack.nodeId.memory 20] := by
        have moved : bytesOf (pointer (pointer buf offset) id) 20 = bytesOf (pointer buf (offset + id)) 20 :=
          bytesOf_congr fun i _ => by simp [pointer, Nat.add_assoc]
        rw [toList_eq_idBytes, kept, copies, idBytes_copy, moved]
      rw [decodedItems]
      intro item member
      rcases List.mem_cons.mp member with rfl | member
      · rw [Terminated, field]
        rcases names with cleared | inside
        · simp [cleared]
        · exact List.mem_append_left _ (by simpa using inside 0 (by omega))
      · refine ih ?_ item member
        rcases names with cleared | inside
        · exact .inl (kept.trans cleared)
        · refine .inr fun i small => ?_
          have later := inside (i + 1) (by omega)
          rwa [show offset + id + stride * (i + 1) = offset + stride + id + stride * i by ring] at later

/-- This is what an option of a peers response says about a peer. -/
structure OptionInfo where
  natType : UInt8
  port : UInt16
  ipv4 : InAddr
  vlanIpv4 : InAddr
  id : List UInt8

def optionInfo (opt : Block) : OptionInfo :=
  ⟨opt 0, word (opt 2) (opt 3), loadAddr opt 4, loadAddr opt 8, bytesOf (pointer opt 12) 20⟩

/-- This is what the encoder of a peers response takes from an item. -/
def offered (item : BucketItem) : OptionInfo :=
  ⟨UInt8.ofInt item.natType, item.port, inetAddr (cstr item.ipv4.toList), inetAddr (cstr item.vlanIpv4.toList),
    idBytes item.nodeId⟩

theorem optionInfo_congr {first second : Block} (agree : ∀ i < 32, first i = second i) :
    optionInfo first = optionInfo second := by
  have ids : bytesOf (pointer first 12) 20 = bytesOf (pointer second 12) 20 :=
    bytesOf_congr fun i inside => agree (12 + i) (by omega)
  simp only [optionInfo, loadAddr, ids, agree 0 (by decide), agree 2 (by decide), agree 3 (by decide),
    agree 4 (by decide), agree 5 (by decide), agree 6 (by decide), agree 7 (by decide), agree 8 (by decide),
    agree 9 (by decide), agree 10 (by decide), agree 11 (by decide), Nat.reduceAdd]

/-- The scratch option holds the item after the stores of the encoder. -/
theorem optionInfo_stored (host : ByteOrder) (opt : Block) (item : BucketItem) :
    optionInfo (store16 host (setByte (storeAddr (storeAddr (memcpy opt 12 item.nodeId.memory 20) 4
      (inetAddr (cstr item.ipv4.toList))) 8 (inetAddr (cstr item.vlanIpv4.toList))) 0 (UInt8.ofInt item.natType)) 2
        (htons host item.port)) = offered item := by
  have ids : bytesOf (pointer (store16 host (setByte (storeAddr (storeAddr (memcpy opt 12 item.nodeId.memory 20) 4
      (inetAddr (cstr item.ipv4.toList))) 8 (inetAddr (cstr item.vlanIpv4.toList))) 0 (UInt8.ofInt item.natType)) 2
        (htons host item.port)) 12) 20 = idBytes item.nodeId := by
    apply bytesOf_congr
    intro i inside
    rw [pointer, store16_other (by omega), setByte_other (by omega)]
    simp only [storeAddr]
    rw [setByte_other (by omega), setByte_other (by omega), setByte_other (by omega), setByte_other (by omega),
      setByte_other (by omega), setByte_other (by omega), setByte_other (by omega), setByte_other (by omega),
      memcpy_inside (by omega) (by omega)]
    congr 1
    omega
  rw [optionInfo, ids, offered]
  simp [store16_htons, storeAddr, loadAddr, setByte]

/-- Both response encoders fill one scratch option for each item and append it to the packet. -/
def appendOptions (fill : Block → BucketItem → Block) (stride : Nat) :
    Block → Block → Nat → List BucketItem → Block × Nat
  | _, buf, len, [] => (buf, len)
  | opt, buf, len, item :: rest =>
      let opt := fill opt item
      appendOptions fill stride opt (memcpy buf len opt stride) (len + stride) rest

/-- An encoder appends one option for each item and changes nothing before them. -/
theorem appendOptions_facts {Info : Type} {fill : Block → BucketItem → Block} {stride : Nat} {describe : Block → Info}
    {told : BucketItem → Info}
    (congruent : ∀ first second : Block, (∀ i < stride, first i = second i) → describe first = describe second)
    (stored : ∀ opt item, describe (fill opt item) = told item) (opt buf : Block) (size : Nat)
    (items : List BucketItem) :
    (appendOptions fill stride opt buf size items).2 = size + stride * items.length ∧
      (∀ i < size, (appendOptions fill stride opt buf size items).1 i = buf i) ∧
        ∀ i (inside : i < items.length),
          describe (pointer (appendOptions fill stride opt buf size items).1 (size + stride * i)) = told items[i] := by
  induction items generalizing opt buf size with
  | nil => simp [appendOptions]
  | cons item rest ih =>
      rw [appendOptions]
      obtain ⟨length, before, options⟩ := ih (fill opt item) (memcpy buf size (fill opt item) stride) (size + stride)
      refine ⟨?_, ?_, ?_⟩
      · rw [length, List.length_cons]
        ring
      · intro i small
        rw [before i (by omega), memcpy_outside (.inl small)]
      · intro i inside
        cases i with
        | zero =>
            rw [List.getElem_cons_zero, ← stored opt item]
            apply congruent
            intro i small
            rw [pointer, before _ (by omega), memcpy_inside (by omega) (by omega)]
            congr 1
            omega
        | succ i =>
            rw [List.getElem_cons_succ, ← options i (by simpa using inside)]
            congr 2
            ring

theorem getPeersOptions_eq (host : ByteOrder) (opt buf : Block) (size : Nat) (items : List BucketItem) :
    getPeersOptions host opt buf size items = appendOptions (fun opt item =>
      store16 host (setByte (storeAddr (storeAddr (memcpy opt 12 item.nodeId.memory 20) 4
        (inetAddr (cstr item.ipv4.toList))) 8 (inetAddr (cstr item.vlanIpv4.toList))) 0 (UInt8.ofInt item.natType)) 2
          (htons host item.port)) 32 opt buf size items := by
  induction items generalizing opt buf size with
  | nil => rfl
  | cons item rest ih => rw [getPeersOptions, appendOptions, ih]

theorem getPeersOptions_facts (host : ByteOrder) (opt buf : Block) (size : Nat) (items : List BucketItem) :
    (getPeersOptions host opt buf size items).2 = size + 32 * items.length ∧
      (∀ i < size, (getPeersOptions host opt buf size items).1 i = buf i) ∧
        ∀ i (inside : i < items.length),
          optionInfo (pointer (getPeersOptions host opt buf size items).1 (size + 32 * i)) = offered items[i] := by
  rw [getPeersOptions_eq]
  exact appendOptions_facts (fun _ _ agree => optionInfo_congr agree) (optionInfo_stored host) opt buf size items

/-- A decoded item says the same as its option, whatever the last byte of its id field is. -/
structure CarriesOption (info : OptionInfo) (item : BucketItem) : Prop where
  natType : item.natType = info.natType.toNat
  port : item.port = info.port
  ipv4 : cstr item.ipv4.toList = inetNtoa info.ipv4
  vlanIpv4 : vlanOf item = inetNtoa info.vlanIpv4
  nodeId : idBytes item.nodeId = info.id

theorem getPeersItem_carries (host : ByteOrder) (item : BucketItem) (opt : Block) :
    CarriesOption (optionInfo opt) (getPeersItem host item opt) where
  natType := rfl
  port := by simp only [getPeersItem, optionInfo, htons_load16]
  ipv4 := cstr_setString_inetNtoa _ _
  vlanIpv4 := cstr_setString_inetNtoa _ _
  nodeId := idBytes_copy _ _

/-- The decoded items follow the options of the response. -/
theorem forall₂_decodedItems {Info : Type} {describe : Block → Info} {decode : BucketItem → Block → BucketItem}
    {R : Info → BucketItem → Prop} (carries : ∀ item opt, R (describe opt) (decode item opt)) (stride : Nat)
    (buf : Block) (infos : List Info) (offset : Nat) (item : BucketItem)
    (options : ∀ i (inside : i < infos.length), describe (pointer buf (offset + stride * i)) = infos[i]) :
    List.Forall₂ R infos (decodedItems decode stride buf infos.length offset item) := by
  induction infos generalizing offset item with
  | nil => exact .nil
  | cons info rest ih =>
      refine .cons ?_ (ih _ _ fun i inside => ?_)
      · have first : describe (pointer buf offset) = info := options 0 (by simp)
        rw [← first]
        exact carries item _
      · have later := options (i + 1) (by simpa using inside)
        rwa [show offset + stride * (i + 1) = offset + stride + stride * i by ring] at later

end Nose
