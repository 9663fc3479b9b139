import Nose.Library.RoundRobin
import Nose.Proof.SocketCount

namespace Nose

open CMemory LoggedRun RoundRobin

/-- A ping takes the next entry. Between the pings, entries are pushed. -/
inductive PingOp where
  | next
  | push (ctx : PushContext) (item : BucketItem)

/-- A ping logs its slot with the size of the bucket. A push does not evict an entry. -/
def pingStep (bkt : Bucket) : PingOp → Option (Bucket × List Turn)
  | .next => (getNextBucketItem bkt).map fun (slot, after) => (after, [⟨slot, bucketSize bkt⟩])
  | .push ctx item =>
      if hasNodeId ctx bkt item ∨ bkt.top + 1 ≠ maxBucketSize then some (pushFrontBucket ctx bkt item, []) else none

/-- The callback takes the slot that such a step logs. -/
theorem pingPeer_pingStep {host : ByteOrder} {around : Surroundings} {net : UdpOutcomes} {mstp after : MasterPeer}
    {report : Report} (pinged : (mstp.pingPeer host around net).1 = some (after, report)) :
    ∃ turn, pingStep mstp.masterPeerBkt .next = some (after.masterPeerBkt, [turn]) := by
  rw [MasterPeer.pingPeer] at pinged
  cases chosen : getNextBucketItem mstp.masterPeerBkt with
  | none =>
      rw [chosen] at pinged
      cases pinged
  | some result =>
      rw [chosen] at pinged
      obtain ⟨rfl, rfl⟩ := Prod.mk.inj (Option.some.inj pinged)
      exact ⟨⟨result.1, bucketSize mstp.masterPeerBkt⟩, by rw [pingStep, chosen]; rfl⟩

/-- The cursor of a bucket that is not empty is behind the slot of the last turn, and the turns follow each other. -/
structure Circulates (bkt : Bucket) (turns : List Turn) : Prop where
  nonempty : 0 ≤ bkt.top
  lower : 0 ≤ bkt.visited
  upper : bkt.visited ≤ bkt.top + 1
  chain : turns.IsChain Follows
  inside : ∀ turn ∈ turns, turn.Inside
  last : ∀ turn ∈ turns.getLast?, turn.slot + 1 = bkt.visited ∧ turn.size ≤ bkt.top + 1

section Steps

variable {bkt : Bucket} {turns : List Turn}

/-- The slot is the cursor, or the lowest slot when the cursor is behind the highest one. -/
theorem getNextBucketItem_eq (nonempty : 0 ≤ bkt.top) (lower : 0 ≤ bkt.visited) :
    getNextBucketItem bkt =
      some (bkt.visited % (bkt.top + 1), { bkt with visited := bkt.visited % (bkt.top + 1) + 1 }) := by
  rw [getNextBucketItem, if_neg (by omega), Int.tmod_eq_emod_of_nonneg lower]

/-- A push that does not evict leaves the cursor and does not take a slot away. -/
theorem pushFrontBucket_grows {ctx : PushContext} {item : BucketItem}
    (room : hasNodeId ctx bkt item ∨ bkt.top + 1 ≠ maxBucketSize) :
    (pushFrontBucket ctx bkt item).visited = bkt.visited ∧ bkt.top ≤ (pushFrontBucket ctx bkt item).top := by
  rw [pushFrontBucket]
  split
  · exact ⟨rfl, le_rfl⟩
  · rename_i new
    rw [if_neg (room.resolve_left new)]
    exact ⟨rfl, by simp only; omega⟩

/-- The next turn follows the last one. -/
theorem Circulates.next (circulates : Circulates bkt turns) :
    Circulates { bkt with visited := bkt.visited % (bkt.top + 1) + 1 }
      (turns ++ [⟨bkt.visited % (bkt.top + 1), bkt.top + 1⟩]) := by
  have nonempty := circulates.nonempty
  have lower : 0 ≤ bkt.visited % (bkt.top + 1) := Int.emod_nonneg bkt.visited (by omega)
  have upper : bkt.visited % (bkt.top + 1) < bkt.top + 1 := Int.emod_lt_of_pos bkt.visited (by omega)
  constructor
  case nonempty => exact nonempty
  case lower =>
    simp only
    omega
  case upper =>
    simp only
    omega
  case chain =>
    apply circulates.chain.append (List.isChain_singleton _)
    intro turn is_last next is_next
    obtain rfl := Option.some.inj is_next
    obtain ⟨behind, grown⟩ := circulates.last turn is_last
    refine ⟨⟨lower, upper⟩, grown, ?_⟩
    rcases circulates.upper.lt_or_eq with below | ended
    · exact .inl (by rw [behind]; exact Int.emod_eq_of_lt circulates.lower below)
    · exact .inr ⟨by rw [ended]; exact Int.emod_self, by rw [behind]; exact ended⟩
  case inside =>
    intro turn member
    rcases List.mem_append.mp member with earlier | new
    · exact circulates.inside turn earlier
    · obtain rfl := List.mem_singleton.mp new
      exact ⟨lower, upper⟩
  case last =>
    intro turn is_last
    rw [List.getLast?_concat] at is_last
    obtain rfl := Option.some.inj is_last
    exact ⟨rfl, le_rfl⟩

/-- Each step keeps the cursor behind the last turn. -/
theorem Circulates.step {op : PingOp} {next : Bucket} {new : List Turn} (circulates : Circulates bkt turns)
    (stepped : pingStep bkt op = some (next, new)) : Circulates next (turns ++ new) := by
  cases op with
  | next =>
      rw [pingStep, getNextBucketItem_eq circulates.nonempty circulates.lower] at stepped
      obtain ⟨rfl, rfl⟩ := Prod.mk.inj (Option.some.inj stepped)
      exact circulates.next
  | push ctx item =>
      rw [pingStep] at stepped
      split at stepped
      · rename_i room
        obtain ⟨rfl, rfl⟩ := Prod.mk.inj (Option.some.inj stepped)
        obtain ⟨cursor, grown⟩ := pushFrontBucket_grows room
        have nonempty := circulates.nonempty
        have upper := circulates.upper
        rw [List.append_nil]
        refine ⟨by omega, cursor ▸ circulates.lower, by omega, circulates.chain, circulates.inside, ?_⟩
        intro turn is_last
        obtain ⟨behind, size⟩ := circulates.last turn is_last
        exact ⟨by omega, by omega⟩
      · cases stepped

/-- Pings without a push between them take the slots in rotation. -/
theorem run_next (n : Nat) (bkt : Bucket) (nonempty : 0 ≤ bkt.top) (lower : 0 ≤ bkt.visited) :
    ∃ last turns, run pingStep bkt (List.replicate n .next) = some (last, turns) ∧
      turns.map Turn.slot = rotation bkt.visited (bkt.top + 1) n := by
  induction n generalizing bkt with
  | zero => exact ⟨bkt, [], rfl, rfl⟩
  | succ n ih =>
      have cursor : 0 ≤ bkt.visited % (bkt.top + 1) := Int.emod_nonneg bkt.visited (by omega)
      obtain ⟨last, turns, continued, slots⟩ :=
        ih { bkt with visited := bkt.visited % (bkt.top + 1) + 1 } nonempty (by simp only; omega)
      refine ⟨last, ⟨bkt.visited % (bkt.top + 1), bkt.top + 1⟩ :: turns, ?_, ?_⟩
      · rw [List.replicate_succ, run_cons]
        refine ⟨_, [⟨bkt.visited % (bkt.top + 1), bkt.top + 1⟩], turns, ?_, continued, rfl⟩
        rw [pingStep, getNextBucketItem_eq nonempty lower]
        rfl
      · rw [List.map_cons, slots, rotation_succ]

end Steps

/-- Between two turns of a slot, each other slot that was there has one turn, and a slot that was added has one turn at
most. As many pings as there are entries give each slot one turn. -/
structure FairPings (bkt : Bucket) (turns : List Turn) : Prop where
  between : ∀ before first between second after, turns = before ++ first :: (between ++ second :: after) →
    second.slot = first.slot → (∀ turn ∈ between, turn.slot ≠ first.slot) →
      (∀ i, 0 ≤ i → i < first.size → i ≠ first.slot → (between.map Turn.slot).count i = 1) ∧
        ∀ i, first.size ≤ i → (between.map Turn.slot).count i ≤ 1
  round : ∃ last turns, run pingStep bkt (List.replicate (bkt.top + 1).toNat .next) = some (last, turns) ∧
    ∀ i, 0 ≤ i → i ≤ bkt.top → (turns.map Turn.slot).count i = 1

theorem Circulates.fair {bkt : Bucket} {turns : List Turn} (circulates : Circulates bkt turns) :
    FairPings bkt turns := by
  constructor
  case between =>
    intro before first between second after split same apart
    have lap : first :: (between ++ [second]) <:+: turns := ⟨before, after, by simp [split]⟩
    have chain : (first :: (between ++ [second])).IsChain Follows := List.IsChain.infix circulates.chain lap
    exact turns_between chain (circulates.inside first (by simp [split])) same apart
  case round =>
    obtain ⟨last, turns, reached, slots⟩ :=
      run_next (bkt.top + 1).toNat bkt circulates.nonempty circulates.lower
    refine ⟨last, turns, reached, fun i lower upper => ?_⟩
    rw [slots]
    exact count_rotation lower (by omega)

/-- The pings of a bucket are fair in every run. -/
theorem pings_fair (bkt : Bucket) (nonempty : 0 ≤ bkt.top) (start : bkt.visited = 0) (ops : List PingOp)
    (final : Bucket) (turns : List Turn) (reached : run pingStep bkt ops = some (final, turns)) :
    FairPings final turns := by
  have begun : Circulates bkt [] :=
    ⟨nonempty, by omega, by omega, List.isChain_nil, fun _ member => absurd member List.not_mem_nil, nofun⟩
  exact (run_invariant Circulates (fun _ _ _ _ _ known stepped => known.step stepped) begun reached).fair

def samplePings : List PingOp := [.next, .push ⟨7, fun _ => false⟩ (claimant 99 99 9998), .next, .next]

/-- A second entry is pushed between two pings of the first one. -/
theorem pings_fair_sample : ∃ final turns,
    run pingStep samplePinger.masterPeerBkt samplePings = some (final, turns) ∧
      turns.map Turn.slot = [0, 1, 0] ∧ FairPings final turns := by
  have slots : (run pingStep samplePinger.masterPeerBkt samplePings).map (fun result => result.2.map Turn.slot) =
      some [0, 1, 0] := by decide +kernel
  obtain ⟨⟨final, turns⟩, reached, same⟩ := Option.map_eq_some_iff.mp slots
  exact ⟨final, turns, reached, same, pings_fair samplePinger.masterPeerBkt (by decide) rfl _ _ _ reached⟩

end Nose
