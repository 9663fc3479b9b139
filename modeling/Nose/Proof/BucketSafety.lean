import Nose.Library.LoggedRun
import Nose.Proof.BucketEntries
import Nose.Proof.BucketRefinement
import Nose.Source.BucketAccess

namespace Nose

open CMemory

section Accesses

variable {b : Nat → BucketItem} {item : BucketItem} {i : Nat}

theorem slot_eq (inside : i < 255) : CheckedBucket.slot b i = some (b i) := by
  rw [CheckedBucket.slot, if_pos (by unfold maxBucketSize; omega), Int.toNat_natCast]

theorem setSlot_eq (inside : i < 255) : CheckedBucket.setSlot b i item = some (Function.update b i item) := by
  rw [CheckedBucket.setSlot, if_pos (by unfold maxBucketSize; omega), Int.toNat_natCast]

/-- The copy loop of an initial bucket counts the items that it has copied. -/
theorem copyItems_checked (bkt : Bucket) (i : Nat) (items : List BucketItem) (fits : i + items.length ≤ 255) :
    CheckedBucket.copyItems bkt i items =
      some { bkt with top := bkt.top + items.length, b := copyItems bkt.b i items } := by
  induction items generalizing bkt i with
  | nil => simp [CheckedBucket.copyItems, copyItems]
  | cons item rest ih =>
      rw [List.length_cons] at fits
      have next : (i : Int) + 1 = ((i + 1 : Nat) : Int) := by omega
      have top : bkt.top + 1 + (rest.length : Int) = bkt.top + ((item :: rest).length : Int) := by
        rw [List.length_cons]
        omega
      rw [CheckedBucket.copyItems, setSlot_eq (by omega), Option.bind_eq_bind, Option.bind_some, next,
        ih _ (i + 1) (by omega)]
      simp only [top, copyItems]

/-- An initial bucket stays inside its array. -/
theorem initBucket_checked (bkt : Bucket) (initItems : Option (List BucketItem)) :
    CheckedBucket.initBucket bkt initItems = some (initBucket bkt initItems) := by
  cases initItems with
  | none => rfl
  | some items =>
      rw [CheckedBucket.initBucket, initBucket]
      dsimp only
      by_cases many : (items.length : Int) > maxBucketSize
      · rw [if_pos many, if_pos many]
      · have few : 0 + items.length ≤ 255 := by
          unfold maxBucketSize at many
          omega
        rw [if_neg many, if_neg many]
        exact copyItems_checked { bkt with top := -1, visited := 0 } 0 items few

variable {bkt : Bucket}

/-- The search for an id reads entries only. -/
theorem hasNodeId_checked (ctx : PushContext) (item : BucketItem) (n i : Nat) (fits : i + n ≤ 255) :
    CheckedBucket.hasNodeId ctx bkt item n i = some ((List.range' i n).any fun k =>
      strcmp (ctx.past k) item.nodeId.toList (bkt.b k).nodeId.toList) := by
  induction n generalizing i with
  | zero => rfl
  | succ n ih =>
      rw [CheckedBucket.hasNodeId, slot_eq (by omega), Option.bind_eq_bind, Option.bind_some, List.range'_succ,
        List.any_cons]
      split
      · rename_i equal
        rw [equal, Bool.true_or]
        rfl
      · rename_i different
        rw [Bool.not_eq_true] at different
        rw [ih (i + 1) (by omega), different, Bool.false_or]

/-- The shifting loop stays between the first and the last entry. -/
theorem shiftDown_checked (b : Nat → BucketItem) (n k : Nat) (fits : k + n ≤ 254) :
    CheckedBucket.shiftDown n (k + 1) (shiftDown b k) = some (shiftDown b (k + n)) := by
  induction n generalizing k with
  | zero => rfl
  | succ n ih =>
      have entry : (k : Int) + 1 = ((k + 1 : Nat) : Int) := by omega
      have before : ((k + 1 : Nat) : Int) - 1 = k := by omega
      have later := ih (k + 1) (by omega)
      rw [shiftDown, Nat.add_right_comm] at later
      rw [CheckedBucket.shiftDown, entry, slot_eq (by omega), Option.bind_eq_bind, Option.bind_some, before,
        setSlot_eq (by omega), Option.bind_eq_bind, Option.bind_some]
      exact later

/-- Dropping the back of a valid bucket stays inside its array, also when the bucket is empty. -/
theorem popBackBucket_checked (valid : bkt.Valid) : CheckedBucket.popBackBucket bkt = some (popBackBucket bkt) := by
  have upper := valid.upper
  have shifted := shiftDown_checked bkt.b bkt.top.toNat 0 (by omega)
  rw [Nat.zero_add] at shifted
  rw [CheckedBucket.popBackBucket]
  change (CheckedBucket.shiftDown bkt.top.toNat 1 bkt.b).bind _ = _
  rw [show CheckedBucket.shiftDown bkt.top.toNat 1 bkt.b = some (shiftDown bkt.b bkt.top.toNat) from shifted]
  rfl

/-- A push into a valid bucket stays inside its array. -/
theorem pushFrontBucket_checked (ctx : PushContext) (item : BucketItem) (valid : bkt.Valid) :
    CheckedBucket.pushFrontBucket ctx bkt item = some (pushFrontBucket ctx bkt item) := by
  have lower := valid.lower
  have upper := valid.upper
  have count := valid.count_eq
  have search : CheckedBucket.hasNodeId ctx bkt item bkt.count 0 = some (hasNodeId ctx bkt item) := by
    rw [hasNodeId_checked ctx item bkt.count 0 (by omega), ← List.range_eq_range', hasNodeId]
  rw [CheckedBucket.pushFrontBucket, search, Option.bind_eq_bind, Option.bind_some, pushFrontBucket]
  split
  · rfl
  · unfold maxBucketSize
    by_cases full : bkt.top + 1 = 255
    · have behind : (popBackBucket bkt).top + 1 = ((bkt.top.toNat : Nat) : Int) := by
        simp only [popBackBucket]
        omega
      rw [if_pos full, if_pos full, popBackBucket_checked valid]
      simp only [Option.bind_eq_bind, Option.bind_some, behind, Int.toNat_natCast]
      rw [setSlot_eq (by omega)]
      rfl
    · have behind : bkt.top + 1 = ((bkt.count : Nat) : Int) := by omega
      rw [if_neg full, if_neg full]
      simp only [Option.bind_eq_bind, Option.bind_some, behind, Int.toNat_natCast]
      rw [setSlot_eq (by omega)]
      rfl

theorem searchDown_checked (past : Nat → Bool) (b : Nat → BucketItem) (vlanIpv4 : List UInt8) (n : Nat)
    (fits : n ≤ 255) : CheckedBucket.searchDown past b vlanIpv4 n = some (searchDown past b vlanIpv4 n) := by
  induction n with
  | zero => rfl
  | succ n ih =>
      rw [CheckedBucket.searchDown, slot_eq (by omega), Option.bind_eq_bind, Option.bind_some, searchDown]
      split
      · rfl
      · exact ih (by omega)

/-- A search by virtual address reads entries only. -/
theorem getItemByVlanIpv4_checked (past : Nat → Bool) (vlanIpv4 : List UInt8) (item : BucketItem)
    (valid : bkt.Valid) :
    CheckedBucket.getItemByVlanIpv4 past bkt vlanIpv4 item = some (getItemByVlanIpv4 past bkt vlanIpv4 item) := by
  have count := valid.count_eq
  have upper := valid.upper
  rw [CheckedBucket.getItemByVlanIpv4, searchDown_checked past bkt.b vlanIpv4 bkt.count (by omega), getItemByVlanIpv4]
  cases searchDown past bkt.b vlanIpv4 bkt.count <;> rfl

end Accesses

/-- These are the calls of the functions of a bucket after `init_bucket`. -/
inductive ApiCall where
  | pushFront (ctx : PushContext) (item : BucketItem)
  | popFront
  | popBack
  | getFront
  | getBack
  | getNext
  | getItemByVlanIpv4 (past : Nat → Bool) (vlanIpv4 : List UInt8) (item : BucketItem)
  | size
  | isEmpty

/-- A call answers with a pointer, which is null or leads to a slot, with a number, or with a status and an item. -/
inductive ApiAnswer where
  | done
  | pointer (slot : Option Int)
  | size (value : Int)
  | isEmpty (is : Int)
  | found (status : Int) (item : BucketItem)

/-- A call that leaves an array or divides by zero has no result. -/
def ApiCall.perform (bkt : Bucket) : ApiCall → Option (Bucket × ApiAnswer)
  | .pushFront ctx item => (CheckedBucket.pushFrontBucket ctx bkt item).map fun after => (after, .done)
  | .popFront => some (popFrontBucket bkt, .done)
  | .popBack => (CheckedBucket.popBackBucket bkt).map fun after => (after, .done)
  | .getFront => some (bkt, .pointer (getFrontBucket bkt))
  | .getBack => some (bkt, .pointer (some (getBackBucket bkt)))
  | .getNext => (getNextBucketItem bkt).map fun (slot, after) => (after, .pointer (some slot))
  | .getItemByVlanIpv4 past vlanIpv4 item =>
      (CheckedBucket.getItemByVlanIpv4 past bkt vlanIpv4 item).map fun (status, found) => (bkt, .found status found)
  | .size => some (bkt, .size (bucketSize bkt))
  | .isEmpty => some (bkt, .isEmpty (isEmptyBucket bkt))

/-- The entries fit into the array, and the cursor of the pings is not negative. -/
structure Bucket.Bounded (bkt : Bucket) : Prop extends bkt.Valid where
  visited : 0 ≤ bkt.visited

/-- A pointer is null exactly when the bucket is empty, and leads to an entry otherwise. A size is not negative. -/
def ApiAnswer.Fits (bkt : Bucket) : ApiAnswer → Prop
  | .pointer slot => (slot = none ↔ bkt.top = -1) ∧ ∀ i ∈ slot, 0 ≤ i ∧ i ≤ bkt.top
  | .size value => 0 ≤ value
  | _ => True

/-- The call has a result, which keeps the bounds and has a fitting answer. -/
def ApiCall.Safe (bkt : Bucket) (call : ApiCall) : Prop :=
  ∃ after answer, call.perform bkt = some (after, answer) ∧ after.Bounded ∧ answer.Fits after

/-- These calls need an entry. -/
def ApiCall.NeedsEntry : ApiCall → Prop
  | .popBack | .getBack | .getNext => True
  | _ => False

section Calls

variable {bkt : Bucket} (bounded : bkt.Bounded)

include bounded

theorem pushFrontBucket_bounded (ctx : PushContext) (item : BucketItem) : (pushFrontBucket ctx bkt item).Bounded := by
  refine ⟨bounded.toValid.push, ?_⟩
  rw [pushFrontBucket]
  split
  · exact bounded.visited
  · dsimp only
    split <;> exact bounded.visited

theorem popFrontBucket_bounded : (popFrontBucket bkt).Bounded := by
  refine ⟨bounded.toValid.popFront, ?_⟩
  rw [popFrontBucket]
  split <;> exact bounded.visited

/-- The cursor leads to an entry of a bucket that is not empty. -/
theorem getNextBucketItem_bounded (nonempty : 0 ≤ bkt.top) :
    ∃ slot after, getNextBucketItem bkt = some (slot, after) ∧ after.Bounded ∧ after.top = bkt.top ∧ 0 ≤ slot ∧
      slot ≤ bkt.top := by
  have lower : 0 ≤ bkt.visited.tmod (bkt.top + 1) := Int.tmod_nonneg (bkt.top + 1) bounded.visited
  have upper : bkt.visited.tmod (bkt.top + 1) < bkt.top + 1 := Int.tmod_lt_of_pos bkt.visited (by omega)
  refine ⟨_, _, if_neg (by omega), ⟨⟨bounded.lower, bounded.upper⟩, ?_⟩, rfl, lower, by omega⟩
  change 0 ≤ bkt.visited.tmod (bkt.top + 1) + 1
  omega

/-- A call with the entry that it needs is safe. -/
theorem ApiCall.safe_of_entry {call : ApiCall} (entry : call.NeedsEntry → bkt.top ≠ -1) : call.Safe bkt := by
  have lower := bounded.lower
  have upper := bounded.upper
  cases call with
  | pushFront ctx item =>
      refine ⟨pushFrontBucket ctx bkt item, .done, ?_, pushFrontBucket_bounded bounded ctx item, trivial⟩
      rw [perform, pushFrontBucket_checked ctx item bounded.toValid]
      rfl
  | popFront => exact ⟨_, .done, rfl, popFrontBucket_bounded bounded, trivial⟩
  | popBack =>
      have nonempty : 0 ≤ bkt.top := by
        have := entry trivial
        omega
      refine ⟨popBackBucket bkt, .done, ?_, ⟨bounded.toValid.popBack nonempty, bounded.visited⟩, trivial⟩
      rw [perform, popBackBucket_checked bounded.toValid]
      rfl
  | getFront =>
      refine ⟨bkt, _, rfl, bounded, ?_, ?_⟩
      · by_cases empty : bkt.top = -1 <;> simp [getFrontBucket, empty]
      · intro i leads
        rw [getFrontBucket] at leads
        split at leads
        · cases leads
        · obtain rfl := Option.some.inj leads
          omega
  | getBack =>
      have nonempty := entry trivial
      refine ⟨bkt, _, rfl, bounded, iff_of_false (Option.some_ne_none (0 : Int)) nonempty, ?_⟩
      intro i leads
      obtain rfl : (0 : Int) = i := Option.some.inj leads
      omega
  | getNext =>
      have nonempty : 0 ≤ bkt.top := by
        have := entry trivial
        omega
      obtain ⟨slot, after, next, kept, same, first, last⟩ := getNextBucketItem_bounded bounded nonempty
      refine ⟨after, .pointer (some slot), ?_, kept, iff_of_false (Option.some_ne_none slot) (by omega), ?_⟩
      · rw [perform, next]
        rfl
      · intro i leads
        obtain rfl := Option.some.inj leads
        omega
  | getItemByVlanIpv4 past vlanIpv4 item =>
      have found := getItemByVlanIpv4_checked past vlanIpv4 item bounded.toValid
      refine ⟨bkt, .found (Nose.getItemByVlanIpv4 past bkt vlanIpv4 item).1
        (Nose.getItemByVlanIpv4 past bkt vlanIpv4 item).2, ?_, bounded, trivial⟩
      rw [perform, found]
      rfl
  | size =>
      refine ⟨bkt, _, rfl, bounded, ?_⟩
      change 0 ≤ bkt.top + 1
      omega
  | isEmpty => exact ⟨bkt, _, rfl, bounded, trivial⟩

omit bounded in
/-- A call without the entry that it needs is not safe: it takes the top below the empty bucket, or returns a pointer to
no entry, or divides by zero. -/
theorem ApiCall.not_safe_of_empty {call : ApiCall} (needs : call.NeedsEntry) (empty : bkt.top = -1) :
    ¬ call.Safe bkt := by
  rintro ⟨after, answer, performed, kept, fits⟩
  cases call with
  | popBack =>
      have valid : bkt.Valid := ⟨by omega, by omega⟩
      rw [perform, popBackBucket_checked valid] at performed
      obtain ⟨rfl, rfl⟩ := Prod.mk.inj (Option.some.inj performed)
      have lower : -1 ≤ bkt.top - 1 := kept.lower
      omega
  | getBack =>
      obtain ⟨rfl, rfl⟩ := Prod.mk.inj (Option.some.inj performed)
      exact Option.some_ne_none (0 : Int) (fits.1.mpr empty)
  | getNext =>
      have divided : getNextBucketItem bkt = none := if_pos (by omega)
      rw [perform, divided] at performed
      cases performed
  | _ => exact needs.elim

theorem ApiCall.safe_iff (call : ApiCall) : call.Safe bkt ↔ (call.NeedsEntry → bkt.top ≠ -1) :=
  ⟨fun safe needs empty => not_safe_of_empty needs empty safe, safe_of_entry bounded⟩

end Calls

/-- A call without a result leaves no state. -/
def apiStep (state : Option Bucket) (call : ApiCall) : Option (Option Bucket × List ApiAnswer) :=
  state.map fun bkt =>
    match call.perform bkt with
    | some (after, answer) => (some after, [answer])
    | none => (none, [])

def BoundedState (state : Option Bucket) : Prop := ∀ bkt ∈ state, bkt.Bounded

def SafeCall (state : Option Bucket) (call : ApiCall) : Prop := ∀ bkt ∈ state, call.Safe bkt

/-- A call that needs an entry finds one. -/
def FindsEntry (state : Option Bucket) (call : ApiCall) : Prop := ∀ bkt ∈ state, call.NeedsEntry → bkt.top ≠ -1

/-- The bucket starts in its bounds, and every call is safe in the state that it finds. -/
structure ApiSafe (bkt : Bucket) (initItems : Option (List BucketItem)) (calls : List ApiCall) : Prop where
  start : ∃ start, CheckedBucket.initBucket bkt initItems = some start ∧ start.Bounded
  calls : LoggedRun.EveryStep apiStep SafeCall (CheckedBucket.initBucket bkt initItems) calls

theorem initBucket_bounded (bkt : Bucket) (initItems : Option (List BucketItem)) :
    (initBucket bkt initItems).Bounded := by
  cases initItems with
  | none => exact ⟨⟨le_rfl, by simp [initBucket]⟩, le_rfl⟩
  | some items =>
      rw [initBucket]
      dsimp only
      split
      · exact ⟨⟨le_rfl, by simp⟩, le_rfl⟩
      · rename_i few
        unfold maxBucketSize at few
        exact ⟨⟨by simp only; omega, by simp only; omega⟩, le_rfl⟩

theorem safeCall_iff {state : Option Bucket} (bounded : BoundedState state) (call : ApiCall) :
    SafeCall state call ↔ FindsEntry state call := by
  apply forall₂_congr
  intro bkt member
  exact call.safe_iff (bounded bkt member)

theorem apiStep_bounded {state next : Option Bucket} {call : ApiCall} {answers : List ApiAnswer}
    (safe : SafeCall state call) (stepped : apiStep state call = some (next, answers)) : BoundedState next := by
  intro after member
  obtain ⟨bkt, rfl, same⟩ := Option.map_eq_some_iff.mp stepped
  obtain ⟨reached, answer, performed, kept, _⟩ := safe bkt rfl
  rw [performed] at same
  obtain ⟨rfl, rfl⟩ := Prod.mk.inj same
  rwa [← Option.some.inj member]

/-- The functions of a bucket are safe in a run exactly when no call of `pop_back_bucket`, `get_back_bucket` or
`get_next_bucket_item` finds an empty bucket. -/
theorem api_safe_iff (bkt : Bucket) (initItems : Option (List BucketItem)) (calls : List ApiCall) :
    ApiSafe bkt initItems calls ↔
      LoggedRun.EveryStep apiStep FindsEntry (some (initBucket bkt initItems)) calls := by
  have begun := initBucket_checked bkt initItems
  have bounded := initBucket_bounded bkt initItems
  have start : BoundedState (some (initBucket bkt initItems)) := fun after member => Option.some.inj member ▸ bounded
  have runs : LoggedRun.EveryStep apiStep SafeCall (some (initBucket bkt initItems)) calls ↔
      LoggedRun.EveryStep apiStep FindsEntry (some (initBucket bkt initItems)) calls :=
    LoggedRun.everyStep_congr BoundedState (fun _ call known => safeCall_iff known call)
      (fun _ _ _ _ _ safe stepped => apiStep_bounded safe stepped) start
  rw [← runs, ← begun]
  exact ⟨ApiSafe.calls, fun every => ⟨⟨_, begun, bounded⟩, every⟩⟩

/-- Each of the three functions is not safe in the empty bucket. -/
theorem empty_bucket_unsafe : ¬ ApiSafe blankBucket none [.popBack] ∧ ¬ ApiSafe blankBucket none [.getBack] ∧
    ¬ ApiSafe blankBucket none [.getNext] := by
  have unsafe_call (call : ApiCall) (needs : call.NeedsEntry) : ¬ ApiSafe blankBucket none [call] := by
    rw [api_safe_iff]
    intro every
    exact (every _ _ rfl).1 _ rfl needs rfl
  exact ⟨unsafe_call .popBack trivial, unsafe_call .getBack trivial, unsafe_call .getNext trivial⟩

end Nose
