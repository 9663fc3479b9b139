import Nose.Source.Auth

namespace Nose

open CMemory

variable {host : AuthHost}

/-- The printed hash starts with a digit. -/
theorem genSha256_cons (host : AuthHost) (input : Block) (len : Nat) :
    ∃ digit rest, digit ≠ 0 ∧ genSha256 host input len = digit :: rest := by
  have length : (host.sha256 (bytesOf input len)).toList.length = 32 := Vector.length_toList
  rw [genSha256]
  cases bytes : (host.sha256 (bytesOf input len)).toList with
  | nil => simp [bytes] at length
  | cons byte rest =>
      refine ⟨hexDigit (byte.toNat / 16), _, ?_, rfl⟩
      have small : byte.toNat / 16 < 16 := Nat.div_lt_of_lt_mul byte.toNat_lt
      interval_cases byte.toNat / 16 <;> decide

/-- The builder writes nothing behind the header. -/
theorem authRequestPkt_behind {mallocHeader mallocPkt : Option Block} {id challenge : Int} {sKey : List UInt8}
    {buffer written : Block} {len : Int}
    (built : authRequestPkt host mallocHeader mallocPkt id challenge sKey buffer = some (len, written)) {i : Nat}
    (behind : vpnProtoHeaderLen ≤ i) : written i = buffer i := by
  cases mallocHeader with
  | none =>
      cases built
      rfl
  | some header =>
      have outside : i < 0 ∨ 0 + vpnProtoHeaderLen ≤ i := Or.inr (by simpa using behind)
      cases mallocPkt with
      | none =>
          cases built
          exact memcpy_outside outside
      | some pkt =>
          obtain ⟨⟨ret, serChallId⟩, _, same⟩ := Option.map_eq_some_iff.mp built
          dsimp only at same
          split at same
          · cases same
            exact memcpy_outside outside
          · cases same
            exact memcpy_outside outside

/-- The hash field of an accepted request holds a printed hash. -/
theorem authRequestValidate_hash {buffer : Block} {size : Nat} {key : List UInt8}
    (accepted : authRequestValidate host buffer size key = some ok) :
    ∃ input len, strcmp false (genSha256 host input len) (bytesOf (pointer buffer 12) 65) = true := by
  rw [authRequestValidate] at accepted
  split at accepted
  · cases accepted
  · split at accepted
    · cases accepted
    · obtain ⟨⟨ret, serChallId⟩, _, compared⟩ := Option.map_eq_some_iff.mp accepted
      refine ⟨serChallId, ret.toNat, ?_⟩
      have field : pointer (pointer buffer vpnProtoHeaderLen) 4 = pointer buffer 12 := by
        funext i
        rw [pointer, pointer, pointer, vpnProtoHeaderLen, ← Nat.add_assoc]
      dsimp only at compared
      rw [field] at compared
      split at compared
      · cases compared
      · split at compared
        · assumption
        · cases compared

/-- A built request is accepted only for a hash that the buffer held before. -/
theorem authRequestPkt_left_over {mallocHeader mallocPkt : Option Block} {id challenge : Int}
    {sKey key : List UInt8} {buffer written : Block} {len : Int} {size : Nat}
    (built : authRequestPkt host mallocHeader mallocPkt id challenge sKey buffer = some (len, written))
    (accepted : authRequestValidate host written size key = some ok) :
    ∃ input len, strcmp false (genSha256 host input len) (bytesOf (pointer buffer 12) 65) = true := by
  obtain ⟨input, len, same⟩ := authRequestValidate_hash accepted
  refine ⟨input, len, ?_⟩
  have unchanged : bytesOf (pointer written 12) 65 = bytesOf (pointer buffer 12) 65 :=
    bytesOf_congr fun i _ => authRequestPkt_behind built (le_trans (by decide) (Nat.le_add_right 12 i))
  rwa [unchanged] at same

/-- No request is accepted when the buffer was cleared before. -/
theorem authRequestPkt_cleared {mallocHeader mallocPkt : Option Block} {id challenge : Int}
    {sKey key : List UInt8} {written : Block} {len : Int} {size : Nat}
    (built : authRequestPkt host mallocHeader mallocPkt id challenge sKey (fun _ => 0) = some (len, written)) :
    authRequestValidate host written size key ≠ some ok := by
  intro accepted
  obtain ⟨input, len, same⟩ := authRequestPkt_left_over built accepted
  obtain ⟨digit, rest, nonzero, printed⟩ := genSha256_cons host input len
  rw [printed, bytesOf_succ, strcmp, pointer, if_pos nonzero] at same
  cases same

/-- The hash of a request is the one of the secret, the challenge and the id, both with the high byte first. -/
def authDigest (host : AuthHost) (secret : List UInt8) (challenge id : Int) : Vector UInt8 32 :=
  let challenge := UInt16.ofInt challenge
  let id := UInt16.ofInt id
  host.sha256 (secret ++ [high challenge, low challenge] ++ [high id, low id])

/-- A secret is a string of at most 32 characters. -/
def Secret (secret : List UInt8) : Prop := secret.length ≤ 32 ∧ 0 ∉ secret

/-- Whatever the buffer held, the request is accepted with its secret and not with one that hashes differently. -/
def AuthRoundTrip (host : AuthHost) (mallocHeader mallocPkt : Option Block) (id challenge : Int)
    (secret : List UInt8) : Prop :=
  ∀ buffer, ∃ written,
    authRequestPkt host mallocHeader mallocPkt id challenge secret buffer = some ((authReqLen : Int), written) ∧
      authRequestValidate host written authReqLen secret = some ok ∧
        ∀ other, Secret other → authDigest host other challenge id ≠ authDigest host secret challenge id →
          authRequestValidate host written authReqLen other ≠ some ok

/-- A request never goes round, because the buffer could have been cleared before. -/
theorem auth_never_round_trips (mallocHeader mallocPkt : Option Block) (id challenge : Int) (secret : List UInt8) :
    ¬ AuthRoundTrip host mallocHeader mallocPkt id challenge secret := by
  intro round
  obtain ⟨written, built, accepted, _⟩ := round fun _ => 0
  exact authRequestPkt_cleared built accepted

/-- The read addresses are mapped here, and still the request of a one-letter secret is refused. -/
theorem auth_request_refused :
    ¬ AuthRoundTrip ⟨.little, fun _ => Vector.replicate 32 0, fun _ => some 0⟩ (some fun _ => 0) (some fun _ => 0) 1 2
      [115] := by
  intro round
  obtain ⟨written, built, accepted, _⟩ := round fun _ => 0
  exact authRequestPkt_cleared built accepted

end Nose
