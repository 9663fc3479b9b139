import Nose.Library.TypeLengthValue
import Nose.Proof.DecoderAccess
import Nose.Source.NatTestAccess

namespace Nose

open CMemory DottedQuad BoundedAccess TypeLengthValue

/-- The decoder reads an address in these attributes. -/
def addressTypes : List UInt16 := [mappedAddr, srcAddr, changeAddr, xorMappedAddr]

/-- The address of the attribute lies inside the datagram. -/
def ReadableAt (buf : List UInt8) (place : Place) : Prop :=
  place.type ∈ addressTypes → place.index + 12 ≤ buf.length

instance (buf : List UInt8) (place : Place) : Decidable (ReadableAt buf place) := inferInstanceAs (Decidable (_ → _))

/-- This is the address that the bytes of an attribute hold, whatever its length is. -/
def addressAt (buf : List UInt8) (place : Place) : InAddr := loadAddr (block buf fun _ => 0) (place.index + 8)

def portAt (buf : List UInt8) (place : Place) : UInt16 :=
  word (buf.getD (place.index + 6) 0) (buf.getD (place.index + 7) 0)

/-- A mapped address replaces the external address and port. -/
def assign (buf : List UInt8) (external : CharArray 16 × Int) (place : Place) : CharArray 16 × Int :=
  if place.type = mappedAddr then
    (external.1.setString (inetNtoa (addressAt buf place)), ((portAt buf place).toNat : Int))
  else external

section Attribute

variable (host : ByteOrder) {buf : List UInt8} {index : Nat}

/-- A word of the datagram has its high byte first. -/
theorem htons_window {offset : Nat} (inside : offset + 2 ≤ buf.length) :
    htons host (load16 host (window buf offset 2) 0) = word (buf.getD offset 0) (buf.getD (offset + 1) 0) := by
  rw [load16_window host inside fun _ => 0, htons_load16]
  rfl

/-- The length of an attribute lies behind its type. -/
theorem length_window (inside : index + 2 + 2 ≤ buf.length) :
    (htons host (load16 host (window buf (index + 2) 2) 0)).toNat = (placeAt buf index).length := by
  rw [htons_window host inside]
  rfl

theorem mem_addressTypes (type : UInt16) :
    type ∈ addressTypes ↔ type = mappedAddr ∨ type = srcAddr ∨ type = changeAddr ∨ type = xorMappedAddr := by
  simp [addressTypes]

/-- An attribute with an address is handled when its address can be read, also when the address is printed only. -/
theorem stunAttribute_address (inside : index + 2 ≤ buf.length) (address : (placeAt buf index).type ∈ addressTypes)
    (external : CharArray 16 × Int) :
    Checked.stunAttribute host buf index external =
      (access buf (index + 8) 4).map fun _ => assign buf external (placeAt buf index) := by
  have type : htons host (load16 host (window buf index 2) 0) = (placeAt buf index).type := htons_window host inside
  rw [Checked.stunAttribute, access_eq inside, Option.bind_eq_bind, Option.bind_some, type]
  by_cases mapped : (placeAt buf index).type = mappedAddr
  · simp only [assign, if_pos mapped]
    by_cases readable : index + 8 + 4 ≤ buf.length
    · have port : index + 6 + 2 ≤ buf.length := by omega
      simp only [access_eq readable, access_eq port, Option.bind_eq_bind, Option.bind_some, setString_address,
        loadAddr_window readable fun _ => 0, htons_window host port]
      rfl
    · have beyond : access buf (index + 8) 4 = none := if_neg readable
      rw [beyond]
      rfl
  · have printed := ((mem_addressTypes _).mp address).resolve_left mapped
    simp only [assign, if_neg mapped, if_pos printed]
    cases access buf (index + 8) 4 <;> rfl

/-- An attribute without an address changes nothing. Only a server name is read. -/
theorem stunAttribute_other (inside : (placeAt buf index).next ≤ buf.length)
    (other : (placeAt buf index).type ∉ addressTypes) (external : CharArray 16 × Int) :
    Checked.stunAttribute host buf index external = some external := by
  have shape : (placeAt buf index).next = index + 4 + (placeAt buf index).length := rfl
  have first : index + 2 ≤ buf.length := by omega
  have second : index + 2 + 2 ≤ buf.length := by omega
  have type : htons host (load16 host (window buf index 2) 0) = (placeAt buf index).type := htons_window host first
  obtain ⟨unmapped, printed⟩ := not_or.mp (mt (mem_addressTypes _).mpr other)
  rw [Checked.stunAttribute, access_eq first, Option.bind_eq_bind, Option.bind_some, type, if_neg unmapped,
    if_neg printed]
  split
  · rw [access_eq second]
    simp only [Option.bind_some, length_window host second]
    rw [accessString_eq (by omega)]
    rfl
  · rfl

/-- An attribute inside the datagram is handled exactly when its address lies inside the datagram. -/
theorem stunAttribute_eq (inside : (placeAt buf index).next ≤ buf.length) (external : CharArray 16 × Int) :
    Checked.stunAttribute host buf index external =
      if ReadableAt buf (placeAt buf index) then some (assign buf external (placeAt buf index)) else none := by
  have shape : (placeAt buf index).next = index + 4 + (placeAt buf index).length := rfl
  by_cases address : (placeAt buf index).type ∈ addressTypes
  · rw [stunAttribute_address host (by omega) address, access]
    by_cases readable : index + 8 + 4 ≤ buf.length
    · have reads : ReadableAt buf (placeAt buf index) := fun _ => readable
      rw [if_pos readable, if_pos reads]
      rfl
    · have beyond : ¬ ReadableAt buf (placeAt buf index) := fun reads => readable (reads address)
      rw [if_neg readable, if_neg beyond]
      rfl
  · have reads : ReadableAt buf (placeAt buf index) := fun member => absurd member address
    have unmapped : (placeAt buf index).type ≠ mappedAddr := fun same => address ((mem_addressTypes _).mpr (.inl same))
    rw [stunAttribute_other host inside address, if_pos reads, assign, if_neg unmapped]

end Attribute

section Walk

variable (host : ByteOrder) {buf : List UInt8} {stop index : Nat}

/-- The loop handles the attributes that fill the message in order, when their addresses lie inside the datagram. -/
theorem stunAttributes_tiles {places : List Place} (tiles : Tiles buf stop index places) (fits : stop ≤ buf.length)
    {attributes : Nat} (enough : places.length ≤ attributes) (external : CharArray 16 × Int) :
    Checked.stunAttributes host buf stop attributes index external =
      if ∀ place ∈ places, ReadableAt buf place then some (places.foldl (assign buf) external) else none := by
  induction tiles generalizing attributes external with
  | done =>
      rw [if_pos (by simp)]
      cases attributes with
      | zero => rfl
      | succ attributes => rw [Checked.stunAttributes, if_neg (Nat.lt_irrefl stop), List.foldl_nil]
  | @record index rest inside tail ih =>
      rw [List.length_cons] at enough
      obtain ⟨attributes, rfl⟩ : ∃ n, attributes = n + 1 := ⟨attributes - 1, by omega⟩
      have shape : (placeAt buf index).next = index + 4 + (placeAt buf index).length := rfl
      have field : index + 2 + 2 ≤ buf.length := by omega
      rw [Checked.stunAttributes, if_pos (by omega), stunAttribute_eq host (by omega)]
      by_cases readable : ReadableAt buf (placeAt buf index)
      · simp only [access_eq field, Option.bind_eq_bind, Option.bind_some, length_window host field, ← shape,
          List.forall_mem_cons, readable, true_and, List.foldl_cons]
        exact ih (by omega) _
      · rw [if_neg readable, if_neg fun all => readable (all _ List.mem_cons_self)]
        rfl

/-- An attribute that is handled inside the datagram is handled the same way without the checks. -/
theorem stunAttribute_unchecked {external after : CharArray 16 × Int} (rest : Block)
    (handled : Checked.stunAttribute host buf index external = some after) :
    after =
      if htons host (load16 host (block buf rest) index) = mappedAddr then
        (external.1.setString (inetNtoa (loadAddr (block buf rest) (index + 8))),
          ((htons host (load16 host (block buf rest) (index + 6))).toNat : Int))
      else external := by
  rw [Checked.stunAttribute, Option.bind_eq_bind, Option.bind_eq_some_iff] at handled
  obtain ⟨bytes, read, handled⟩ := handled
  obtain ⟨first, rfl⟩ := access_eq_some_iff.mp read
  rw [load16_window host first rest] at handled
  by_cases mapped : htons host (load16 host (block buf rest) index) = mappedAddr
  · rw [if_pos mapped, Option.bind_eq_bind, Option.bind_eq_some_iff] at handled
    obtain ⟨bytes, read, handled⟩ := handled
    obtain ⟨address, rfl⟩ := access_eq_some_iff.mp read
    have port : index + 6 + 2 ≤ buf.length := by omega
    simp only [setString_address, access_eq port, Option.bind_some, loadAddr_window address rest,
      load16_window host port rest] at handled
    rw [if_pos mapped]
    exact (Option.some.inj handled).symm
  · rw [if_neg mapped] at handled
    rw [if_neg mapped]
    split at handled
    · obtain ⟨_, _, same⟩ := Option.bind_eq_some_iff.mp handled
      exact (Option.some.inj same).symm
    · split at handled
      · obtain ⟨_, _, handled⟩ := Option.bind_eq_some_iff.mp handled
        obtain ⟨_, _, same⟩ := Option.bind_eq_some_iff.mp handled
        exact (Option.some.inj same).symm
      · exact (Option.some.inj handled).symm

theorem stunAttributes_unchecked {attributes : Nat} {external after : CharArray 16 × Int} (rest : Block)
    (handled : Checked.stunAttributes host buf stop attributes index external = some after) :
    stunAttributes host (block buf rest) stop attributes index external = after := by
  induction attributes generalizing index external with
  | zero => exact Option.some.inj handled
  | succ attributes ih =>
      rw [Checked.stunAttributes] at handled
      rw [stunAttributes]
      by_cases more : index < stop
      · rw [if_pos more, Option.bind_eq_bind, Option.bind_eq_some_iff] at handled
        obtain ⟨next, first, handled⟩ := handled
        obtain ⟨bytes, read, handled⟩ := Option.bind_eq_some_iff.mp handled
        obtain ⟨field, rfl⟩ := access_eq_some_iff.mp read
        rw [load16_window host field rest] at handled
        rw [if_pos more]
        dsimp only
        rw [← stunAttribute_unchecked host rest first]
        exact ih handled
      · rw [if_neg more] at handled
        rw [if_neg more]
        exact Option.some.inj handled

/-- A decoder that stays inside the datagram does what the decoder without the checks does, whatever lies behind. -/
theorem stunRspUnpack_unchecked {external : CharArray 16 × Int} {result : Int × CharArray 16 × Int} (rest : Block)
    (small : buf.length < 2 ^ 64) (handled : Checked.stunRspUnpack host buf external = some result) :
    stunRspUnpack host (block buf rest) buf.length external = result := by
  have size : sizeT (buf.length : Int) = buf.length := sizeT_natCast small
  rw [Checked.stunRspUnpack] at handled
  rw [stunRspUnpack]
  by_cases short : sizeT (buf.length : Int) < 20
  · rw [if_pos short] at handled
    rw [if_pos short]
    exact Option.some.inj handled
  · have field : 2 + 2 ≤ buf.length := by omega
    rw [if_neg short, access_eq field, Option.bind_eq_bind, Option.bind_some, load16_window host field rest] at handled
    rw [if_neg short]
    dsimp only at handled ⊢
    split at handled
    · rename_i incomplete
      rw [if_pos incomplete]
      exact Option.some.inj handled
    · rename_i complete
      obtain ⟨after, walked, same⟩ := Option.bind_eq_some_iff.mp handled
      rw [if_neg complete, stunAttributes_unchecked host rest walked]
      exact Option.some.inj same

end Walk

/-- This is the length field of the message header. -/
def messageLength (buf : List UInt8) : Nat := (word (buf.getD 2 0) (buf.getD 3 0)).toNat

def mapped (place : Place) : Bool := place.type = mappedAddr

/-- A datagram that ends before its message is rejected. The attributes of any other datagram are handled. -/
theorem stunRspUnpack_eq (host : ByteOrder) {buf : List UInt8} (small : buf.length < 2 ^ 64)
    (external : CharArray 16 × Int) :
    Checked.stunRspUnpack host buf external =
      if buf.length < 20 + messageLength buf then some (error, external)
      else (Checked.stunAttributes host buf (20 + messageLength buf) (20 + messageLength buf) 20 external).map
        fun after => (ok, after) := by
  have size : sizeT (buf.length : Int) = buf.length := sizeT_natCast small
  rw [Checked.stunRspUnpack, size]
  by_cases short : buf.length < 20
  · rw [if_pos short, if_pos (by omega)]
  · have field : 2 + 2 ≤ buf.length := by omega
    have stop : (htons host (load16 host (window buf 2 2) 0)).toNat = messageLength buf := by
      rw [htons_window host field]
      rfl
    rw [if_neg short, access_eq field, Option.bind_eq_bind, Option.bind_some]
    dsimp only
    rw [stop]
    split
    · rfl
    · exact Option.map_eq_bind.symm

/-- A complete message whose attributes fill it is handled by its attributes in order. -/
theorem stunRspUnpack_tiles (host : ByteOrder) {buf : List UInt8} {places : List Place}
    (tiles : Tiles buf (20 + messageLength buf) 20 places) (complete : 20 + messageLength buf ≤ buf.length)
    (small : buf.length < 2 ^ 64) (external : CharArray 16 × Int) :
    Checked.stunRspUnpack host buf external =
      if ∀ place ∈ places, ReadableAt buf place then some (ok, places.foldl (assign buf) external) else none := by
  have enough := tiles.length_le
  rw [stunRspUnpack_eq host small, if_neg (Nat.not_lt.mpr complete),
    stunAttributes_tiles host tiles complete (by omega)]
  split <;> rfl

/-- The last mapped address decides. -/
theorem foldl_assign (buf : List UInt8) {places : List Place} {last : Place}
    (found : places.reverse.find? mapped = some last) (external : CharArray 16 × Int) :
    cstr (places.foldl (assign buf) external).1.toList = inetNtoa (addressAt buf last) ∧
      (places.foldl (assign buf) external).2 = (portAt buf last).toNat := by
  induction places using List.reverseRecOn with
  | nil => cases found
  | append_singleton places place ih =>
      rw [List.reverse_append, List.reverse_singleton, List.singleton_append, List.find?_cons] at found
      rw [List.foldl_append, List.foldl_cons, List.foldl_nil, assign]
      cases own : mapped place with
      | true =>
          rw [own] at found
          obtain rfl := Option.some.inj found
          rw [if_pos (by simpa [mapped] using own)]
          exact ⟨cstr_setString_inetNtoa _ _, rfl⟩
      | false =>
          rw [own] at found
          rw [if_neg (by simpa [mapped] using own)]
          exact ih found

/-- An attribute with an address has a value of eight bytes. -/
structure StunAttribute extends Record where
  sized : type ∈ addressTypes → value.length = 8

def StunAttribute.address (attr : StunAttribute) : InAddr :=
  loadAddr (block attr.value fun _ => 0) 4

def StunAttribute.port (attr : StunAttribute) : UInt16 :=
  word (attr.value.getD 2 0) (attr.value.getD 3 0)

/-- The header has a type, the length of the attributes and a transaction id. -/
def stunMessage (type : UInt16) (transactionId : Vector UInt8 16) (attributes : List StunAttribute) : List UInt8 :=
  let body := encodeAll (attributes.map StunAttribute.toRecord)
  [high type, low type, high (UInt16.ofNat body.length), low (UInt16.ofNat body.length)] ++ transactionId.toList ++ body

/-- The attributes of a message fill it, and each lies at its place. -/
theorem stunMessage_tiles (type : UInt16) (transactionId : Vector UInt8 16) (attributes : List StunAttribute)
    (trailing : List UInt8) (fits : (stunMessage type transactionId attributes).length ≤ bufsiz) :
    let datagram := stunMessage type transactionId attributes ++ trailing
    20 + messageLength datagram = (stunMessage type transactionId attributes).length ∧
      ∃ places, Tiles datagram (20 + messageLength datagram) 20 places ∧
        List.Forall₂ (fun attr place => Holds datagram (StunAttribute.toRecord attr) place) attributes
          places := by
  intro datagram
  set body := encodeAll (attributes.map StunAttribute.toRecord) with body_eq
  have total : (stunMessage type transactionId attributes).length = 20 + body.length := by
    simp only [stunMessage, List.length_append, List.length_cons, List.length_nil, Vector.length_toList, ← body_eq]
  have field : messageLength datagram = body.length := by
    have short : body.length % 65536 = body.length := by
      unfold bufsiz at fits
      omega
    change (word (high (UInt16.ofNat body.length)) (low (UInt16.ofNat body.length))).toNat = body.length
    rw [word_high_low, UInt16.toNat_ofNat']
    exact short
  refine ⟨by rw [field, total], ?_⟩
  obtain ⟨places, tiles, holds⟩ := tiles_encodeAll
    ([high type, low type, high (UInt16.ofNat body.length), low (UInt16.ofNat body.length)] ++ transactionId.toList)
    (attributes.map StunAttribute.toRecord) trailing
  have start : ([high type, low type, high (UInt16.ofNat body.length), low (UInt16.ofNat body.length)] ++
      transactionId.toList).length = 20 := by simp
  have shape : ([high type, low type, high (UInt16.ofNat body.length), low (UInt16.ofNat body.length)] ++
      transactionId.toList) ++ (body ++ trailing) = datagram := by
    simp only [datagram, stunMessage, ← body_eq, List.append_assoc]
  rw [← body_eq, shape, start] at tiles
  rw [← body_eq, shape, List.forall₂_map_left_iff] at holds
  rw [field]
  exact ⟨places, tiles, holds⟩

/-- An attribute inside the datagram can be read, since an address fits into its value. -/
theorem readableAt_of_holds {buf : List UInt8} {attr : StunAttribute} {place : Place}
    (holds : Holds buf attr.toRecord place) (inside : place.next ≤ buf.length) : ReadableAt buf place := by
  intro address
  have length : place.length = 8 := by
    rw [holds.length]
    exact attr.sized (holds.type ▸ address)
  rw [Place.next] at inside
  omega

/-- The bytes at the place of an attribute give its address and its port. -/
theorem external_of_holds {buf : List UInt8} {attr : StunAttribute} {place : Place}
    (holds : Holds buf attr.toRecord place) (address : attr.type ∈ addressTypes) :
    addressAt buf place = attr.address ∧ portAt buf place = attr.port := by
  have read (i : Nat) (inside : i < 8) : buf.getD (place.index + 4 + i) 0 = attr.value.getD i 0 :=
    holds.read (by rw [attr.sized address]; exact inside)
  constructor
  · simp only [addressAt, StunAttribute.address, loadAddr, block]
    rw [← read 4 (by decide), ← read 5 (by decide), ← read 6 (by decide), ← read 7 (by decide)]
  · rw [portAt, StunAttribute.port, ← read 2 (by decide), ← read 3 (by decide)]

/-- The decoder accepts a message whose attributes fill it, and takes the last mapped address among them, whatever the
other attributes and the bytes behind the message are. A larger bound on the number of attributes changes nothing. -/
theorem stun_takes_last_mapped (host : ByteOrder) (type : UInt16) (transactionId : Vector UInt8 16)
    (attributes : List StunAttribute) (trailing : List UInt8) (rest : Block) (external : CharArray 16 × Int)
    (last : StunAttribute) (fits : (stunMessage type transactionId attributes).length ≤ bufsiz)
    (small : (stunMessage type transactionId attributes ++ trailing).length < 2 ^ 31)
    (found : attributes.reverse.find? (fun attr => attr.type = mappedAddr) = some last) :
    let datagram := stunMessage type transactionId attributes ++ trailing
    let stop := (stunMessage type transactionId attributes).length
    let result := stunRspUnpack host (block datagram rest) datagram.length external
    result.1 = ok ∧ cstr result.2.1.toList = inetNtoa last.address ∧ result.2.2 = last.port.toNat ∧
      ∀ more, stunAttributes host (block datagram rest) stop (stop + more) 20 external = result.2 := by
  intro datagram stop result
  obtain ⟨length, places, tiles, holds⟩ := stunMessage_tiles type transactionId attributes trailing fits
  have complete : 20 + messageLength datagram ≤ datagram.length := by
    rw [length, List.length_append]
    exact Nat.le_add_right _ _
  have readable : ∀ place ∈ places, ReadableAt datagram place := by
    intro place member
    obtain ⟨i, inside, rfl⟩ := List.mem_iff_getElem.mp member
    exact readableAt_of_holds (holds.get (holds.length_eq ▸ inside) inside) ((tiles.next_le _ member).trans complete)
  have same (attr : StunAttribute) (place : Place) (held : Holds datagram attr.toRecord place) :
      decide (attr.type = mappedAddr) = mapped place := by rw [mapped, held.type]
  obtain ⟨place, newest, held⟩ := DedupQueue.newest_forall₂ holds same found
  have type : last.type = mappedAddr := by simpa using List.find?_some found
  obtain ⟨address, port⟩ := external_of_holds held (by rw [type]; exact List.mem_cons_self)
  obtain ⟨externalIp, externalPort⟩ := foldl_assign datagram newest external
  have size : datagram.length < 2 ^ 64 := lt_trans small (by decide)
  have checked := stunRspUnpack_tiles host tiles complete size external
  rw [if_pos readable] at checked
  have handled : result = (ok, places.foldl (assign datagram) external) :=
    stunRspUnpack_unchecked host rest size checked
  rw [handled]
  refine ⟨rfl, by rw [externalIp, address], by rw [externalPort, port], fun more => ?_⟩
  have whole : stop = 20 + messageLength datagram := length.symm
  have enough : 20 + 4 * places.length ≤ 20 + messageLength datagram := tiles.length_le
  have walked : Checked.stunAttributes host datagram (20 + messageLength datagram)
      (20 + messageLength datagram + more) 20 external = some (places.foldl (assign datagram) external) := by
    rw [stunAttributes_tiles host tiles complete (by omega), if_pos readable]
  rw [whole]
  exact stunAttributes_unchecked host rest walked

def mappedAttribute (address : InAddr) (port : UInt16) : StunAttribute where
  type := mappedAddr
  value := [0, 1, high port, low port, address.first, address.second, address.third, address.fourth]
  short := by simp
  sized _ := rfl

/-- The type is one that the decoder does not know. -/
def emptyAttribute : StunAttribute where
  type := changeReq
  value := []
  short := by simp
  sized address := absurd address (by decide)

/-- The second of two mapped addresses is taken, before an empty attribute and three trailing bytes. -/
theorem stun_takes_last_mapped_sample :
    let attributes := [mappedAttribute ⟨1, 2, 3, 4⟩ 4000, mappedAttribute ⟨1, 2, 3, 5⟩ 5000, emptyAttribute]
    let datagram := stunMessage bindRsp (Vector.replicate 16 7) attributes ++ [1, 2, 3]
    let stop := (stunMessage bindRsp (Vector.replicate 16 7) attributes).length
    let result := stunRspUnpack .little (block datagram blankBlock) datagram.length (Vector.replicate 16 0, 0)
    result.1 = ok ∧ cstr result.2.1.toList = inetNtoa (mappedAttribute ⟨1, 2, 3, 5⟩ 5000).address ∧
      result.2.2 = (mappedAttribute ⟨1, 2, 3, 5⟩ 5000).port.toNat ∧
        ∀ more, stunAttributes .little (block datagram blankBlock) stop (stop + more) 20 (Vector.replicate 16 0, 0) =
          result.2 :=
  stun_takes_last_mapped .little bindRsp (Vector.replicate 16 7)
    [mappedAttribute ⟨1, 2, 3, 4⟩ 4000, mappedAttribute ⟨1, 2, 3, 5⟩ 5000, emptyAttribute] [1, 2, 3] blankBlock
    (Vector.replicate 16 0, 0) (mappedAttribute ⟨1, 2, 3, 5⟩ 5000) (by decide) (by decide) rfl

end Nose
