import Nose.Proof.StunWalk

namespace Nose

open CMemory DottedQuad BoundedAccess TypeLengthValue

/-- The value of a complete mapped address has its eight bytes. -/
structure CompleteMapped (place : Place) : Prop where
  type : place.type = mappedAddr
  value : 8 ≤ place.length

/-- The datagram is a binding response whose attributes fill it, and a complete mapped address among them gives the
external address and port. -/
structure GenuineResponse (buf : List UInt8) (externalIp : List UInt8) (externalPort : Int) : Prop where
  type : word (buf.getD 0 0) (buf.getD 1 0) = bindRsp
  mapped : ∃ places, Tiles buf (20 + messageLength buf) 20 places ∧ ∃ place ∈ places, CompleteMapped place ∧
    externalIp = inetNtoa (addressAt buf place) ∧ externalPort = (portAt buf place).toNat

/-- The decoder reads no byte behind the datagram, accepts genuine responses only, and leaves the external address and
port of a datagram that it rejects. -/
def ReadsGenuine (host : ByteOrder) (buf : List UInt8) (external : CharArray 16 × Int) : Prop :=
  ∃ result, Checked.stunRspUnpack host buf external = some result ∧
    (result.1 = ok → GenuineResponse buf (cstr result.2.1.toList) result.2.2) ∧
      (result.1 = error → result.2 = external)

/-- The datagram ends before its message does. -/
def Incomplete (buf : List UInt8) : Prop := buf.length < 20 + messageLength buf

/-- The datagram is a binding response whose attributes fill it, the addresses of its attributes lie inside it, and its
last mapped address equals a complete one. -/
structure WellFormedResponse (buf : List UInt8) : Prop where
  type : word (buf.getD 0 0) (buf.getD 1 0) = bindRsp
  attributes : ∃ places, Tiles buf (20 + messageLength buf) 20 places ∧ (∀ place ∈ places, ReadableAt buf place) ∧
    ∃ last, places.reverse.find? mapped = some last ∧ ∃ place ∈ places, CompleteMapped place ∧
      addressAt buf place = addressAt buf last ∧ portAt buf place = portAt buf last

/-- An incomplete datagram is rejected without a read behind it. -/
theorem stunRspUnpack_incomplete (host : ByteOrder) {buf : List UInt8} (small : buf.length < 2 ^ 64)
    (incomplete : Incomplete buf) (external : CharArray 16 × Int) :
    Checked.stunRspUnpack host buf external = some (error, external) := by
  rw [stunRspUnpack_eq host small]
  exact if_pos incomplete

/-- A complete datagram is accepted, or the decoder reads behind it. -/
theorem stunRspUnpack_complete (host : ByteOrder) {buf : List UInt8} (small : buf.length < 2 ^ 64)
    (complete : ¬ Incomplete buf) {external : CharArray 16 × Int} {result : Int × CharArray 16 × Int}
    (handled : Checked.stunRspUnpack host buf external = some result) : result.1 = ok := by
  rw [Incomplete] at complete
  rw [stunRspUnpack_eq host small, if_neg complete] at handled
  obtain ⟨_, _, rfl⟩ := Option.map_eq_some_iff.mp handled
  rfl

/-- The decoder reads a datagram as a genuine response or not at all exactly when the datagram is incomplete or a well
formed response. -/
theorem reads_genuine_iff (host : ByteOrder) (buf : List UInt8) (external : CharArray 16 × Int)
    (received : buf.length ≤ bufsiz) :
    ReadsGenuine host buf external ↔ Incomplete buf ∨ WellFormedResponse buf := by
  have small : buf.length < 2 ^ 64 := by
    unfold bufsiz at received
    omega
  by_cases incomplete : Incomplete buf
  · refine iff_of_true ⟨_, stunRspUnpack_incomplete host small incomplete external, ?_, fun _ => rfl⟩ (.inl incomplete)
    exact fun accepted => absurd accepted (show error ≠ ok by decide)
  · have complete : 20 + messageLength buf ≤ buf.length := Nat.le_of_not_lt incomplete
    constructor
    · rintro ⟨result, handled, genuine, _⟩
      have accepted := genuine (stunRspUnpack_complete host small incomplete handled)
      obtain ⟨places, tiles, place, member, whole, externalIp, externalPort⟩ := accepted.mapped
      rw [stunRspUnpack_tiles host tiles complete small] at handled
      split at handled
      · rename_i readable
        obtain rfl := Option.some.inj handled
        obtain ⟨last, found⟩ : ∃ last, places.reverse.find? mapped = some last := by
          rw [← Option.isSome_iff_exists, List.find?_isSome]
          exact ⟨place, List.mem_reverse.mpr member, by simpa [mapped] using whole.type⟩
        obtain ⟨lastIp, lastPort⟩ := foldl_assign buf found external
        refine .inr ⟨accepted.type, places, tiles, readable, last, found, place, member, whole, ?_, ?_⟩
        · exact inetNtoa_injective (externalIp.symm.trans lastIp)
        · apply UInt16.toNat_inj.mp
          exact_mod_cast externalPort.symm.trans lastPort
      · cases handled
    · rintro (impossible | ⟨type, places, tiles, readable, last, found, place, member, whole, address, port⟩)
      · exact absurd impossible incomplete
      · have handled := stunRspUnpack_tiles host tiles complete small external
        rw [if_pos readable] at handled
        obtain ⟨lastIp, lastPort⟩ := foldl_assign buf found external
        refine ⟨_, handled, fun _ => ⟨type, places, tiles, place, member, whole, ?_, ?_⟩, fun rejected => ?_⟩
        · rw [lastIp, address]
        · rw [lastPort, port]
        · exact absurd rejected (show ok ≠ error by decide)

/-- A binding response with one mapped address. -/
def sampleResponse : List UInt8 :=
  stunMessage bindRsp (Vector.replicate 16 7) [mappedAttribute ⟨1, 2, 3, 4⟩ 4000]

theorem reads_genuine_sample : ReadsGenuine .little sampleResponse (Vector.replicate 16 0, 0) ↔
    Incomplete sampleResponse ∨ WellFormedResponse sampleResponse :=
  reads_genuine_iff .little sampleResponse (Vector.replicate 16 0, 0) (by decide)

/-- A header without attributes and of another type is accepted, and the header of an attribute is read behind a
datagram whose message has one byte. -/
theorem stun_reads_wrong_datagrams :
    ¬ ReadsGenuine .little (List.replicate 20 0) (Vector.replicate 16 0, 0) ∧
      ¬ ReadsGenuine .little ([1, 1, 0, 1] ++ List.replicate 17 0) (Vector.replicate 16 0, 0) := by
  constructor
  · rintro ⟨result, handled, genuine, _⟩
    have complete : ¬ Incomplete (List.replicate 20 0) := by
      rw [Incomplete]
      decide
    have accepted := genuine (stunRspUnpack_complete .little (by decide) complete handled)
    exact absurd accepted.type (by decide)
  · rintro ⟨result, handled, _⟩
    have beyond : Checked.stunRspUnpack .little ([1, 1, 0, 1] ++ List.replicate 17 0) (Vector.replicate 16 0, 0) =
        none := rfl
    rw [beyond] at handled
    cases handled

end Nose
