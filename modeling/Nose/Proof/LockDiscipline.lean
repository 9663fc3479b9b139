import Nose.Library.LoggedRun
import Nose.Proof.BucketRefinement
import Nose.Proof.MasterRun
import Nose.Source.BucketLock

namespace Nose

open CMemory ThreadLock

/-- These are the calls of the functions of a bucket. A pointer argument is there or null. -/
inductive LockOp where
  | init (initItems : Option (List BucketItem))
  | push (ctx : PushContext) (item : BucketItem)
  | popFront
  | popBack
  | top (items : Option (Nat → BucketItem)) (wanted : Int)
  | front
  | back
  | next
  | lookup (past : Nat → Bool) (vlanIpv4 : Option (List UInt8)) (item : Option BucketItem)
  | size
  | isEmpty

/-- A call runs on the bucket and leaves a bucket when it returns. -/
def LockOp.perform (bkt : Bucket) : LockOp → Locked Bucket
  | .init initItems => Locked.initBucket bkt initItems
  | .push ctx item => Locked.pushFrontBucket ctx bkt item
  | .popFront => Locked.popFrontBucket bkt
  | .popBack => Locked.popBackBucket bkt
  | .top items wanted => do
      let _ ← Locked.getTopBucketItems bkt items wanted
      return bkt
  | .front => do
      let _ ← Locked.getFrontBucket bkt
      return bkt
  | .back => do
      let _ ← Locked.getBackBucket bkt
      return bkt
  | .next => do
      let result ← Locked.getNextBucketItem bkt
      return result.2
  | .lookup past vlanIpv4 item => do
      let _ ← Locked.getItemByVlanIpv4 past bkt vlanIpv4 item
      return bkt
  | .size => do
      let _ ← Locked.bucketSize bkt
      return bkt
  | .isEmpty => do
      let _ ← Locked.isEmptyBucket bkt
      return bkt

/-- The call does not get to the function that locks twice. -/
def LockOp.Releases (bkt : Bucket) : LockOp → Prop
  | .push ctx item => hasNodeId ctx bkt item = true ∨ bkt.top + 1 ≠ maxBucketSize
  | .popBack => False
  | _ => True

/-- A push of a known id, and a push into a bucket with room, returns what the function without a mutex gives. -/
theorem pushFrontBucket_returned {ctx : PushContext} {bkt : Bucket} {item : BucketItem}
    (room : hasNodeId ctx bkt item = true ∨ bkt.top + 1 ≠ maxBucketSize) :
    Locked.pushFrontBucket ctx bkt item false = .returned (pushFrontBucket ctx bkt item) false := by
  simp only [Locked.pushFrontBucket, pushFrontBucket, bind_apply, mutexLock_free, next_returned]
  by_cases known : hasNodeId ctx bkt item = true
  · rw [if_pos known, if_pos known]
    rfl
  · rw [if_neg known, if_neg known, if_neg (room.resolve_left known), if_neg (room.resolve_left known)]
    rfl

/-- A push of a new id into a full bucket waits for ever. -/
theorem pushFrontBucket_blocked {ctx : PushContext} {bkt : Bucket} {item : BucketItem}
    (fresh : hasNodeId ctx bkt item = false) (full : bkt.top + 1 = maxBucketSize) :
    Locked.pushFrontBucket ctx bkt item false = .blocked := by
  simp only [Locked.pushFrontBucket, bind_apply, mutexLock_free, next_returned, fresh, Bool.false_eq_true, if_false]
  rw [if_pos full]
  rfl

/-- This is what the functions without a mutex leave. There is nothing after a division by zero. -/
def LockOp.after (bkt : Bucket) : LockOp → Option Bucket
  | .init initItems => some (initBucket bkt initItems)
  | .push ctx item => some (pushFrontBucket ctx bkt item)
  | .popFront => some (popFrontBucket bkt)
  | .popBack => some (popBackBucket bkt)
  | .next => (getNextBucketItem bkt).map Prod.snd
  | _ => some bkt

/-- A call that does not get to the function that locks twice leaves what the function without a mutex leaves. -/
theorem LockOp.perform_releases {bkt : Bucket} {op : LockOp} (releases : op.Releases bkt) :
    op.perform bkt false = (op.after bkt).elim .crashed fun after => .returned after false := by
  cases op with
  | init initItems => cases initItems <;> rfl
  | push ctx item => exact pushFrontBucket_returned releases
  | popBack => exact releases.elim
  | top items wanted => cases items <;> rfl
  | next =>
      simp only [LockOp.perform, LockOp.after, Locked.getNextBucketItem, bind_apply, mutexLock_free, next_returned]
      cases getNextBucketItem bkt <;> rfl
  | lookup past vlanIpv4 item =>
      cases vlanIpv4 with
      | none => rfl
      | some vlanIpv4 =>
          cases item with
          | none => rfl
          | some item =>
              simp only [LockOp.perform, Locked.getItemByVlanIpv4, bind_apply, mutexLock_free, next_returned]
              cases searchDown past bkt.b vlanIpv4 bkt.count <;> rfl
  | _ => rfl

theorem LockOp.perform_blocked {bkt : Bucket} {op : LockOp} (locks : ¬ op.Releases bkt) :
    op.perform bkt false = .blocked := by
  cases op with
  | push ctx item =>
      rw [LockOp.Releases, not_or, Bool.not_eq_true, not_not] at locks
      exact pushFrontBucket_blocked locks.1 locks.2
  | popBack => rfl
  | _ => exact absurd trivial locks

/-- A call keeps to the mutex exactly when it does not get to the function that locks twice. -/
theorem LockOp.keepsLock_iff (bkt : Bucket) (op : LockOp) : KeepsLock (op.perform bkt) ↔ op.Releases bkt := by
  constructor
  · intro keeps
    by_contra locks
    exact not_keepsLock_of_blocked (perform_blocked locks) keeps
  · intro releases
    have performed := perform_releases releases
    cases result : op.after bkt with
    | none => exact keepsLock_of_crashed (by rw [performed, result, Option.elim_none])
    | some after => exact keepsLock_of_returned (by rw [performed, result, Option.elim_some])

/-- A thread goes on after a call that returned. -/
def lockStep : Outcome Bucket → LockOp → Option (Outcome Bucket × List Unit)
  | .returned bkt held, op => some (op.perform bkt held, [])
  | _, _ => none

/-- The thread does not wait for its own mutex, and the mutex is free after each call that returned. -/
def Disciplined : Outcome Bucket → Prop
  | .returned _ held => held = false
  | .blocked => False
  | .crashed => True

def ReleasesIn : Outcome Bucket → LockOp → Prop
  | .returned bkt _, op => op.Releases bkt
  | _, _ => True

theorem disciplined_iff_keepsLock {bkt : Bucket} (code : Bucket → Locked Bucket) :
    Disciplined (code bkt false) ↔ KeepsLock (code bkt) := by
  unfold KeepsLock
  cases code bkt false <;> simp [Disciplined]

/-- The thread stays disciplined at a call exactly when the call does not get to the function that locks twice. -/
theorem lockStep_disciplined_iff {state next : Outcome Bucket} {op : LockOp} {new : List Unit}
    (disciplined : Disciplined state) (stepped : lockStep state op = some (next, new)) :
    Disciplined next ↔ ReleasesIn state op := by
  cases state with
  | returned bkt held =>
      obtain ⟨rfl, rfl⟩ := Prod.mk.inj (Option.some.inj stepped)
      obtain rfl : held = false := disciplined
      rw [disciplined_iff_keepsLock fun bkt => op.perform bkt, LockOp.keepsLock_iff, ReleasesIn]
  | blocked => cases stepped
  | crashed => cases stepped

/-- A thread pushes items one after the other. -/
def pushes (items : List (PushContext × BucketItem)) : List LockOp := items.map fun (ctx, item) => .push ctx item

/-- A full bucket has 255 entries. -/
theorem full_iff {bkt : Bucket} (valid : bkt.Valid) : bkt.top + 1 = maxBucketSize ↔ bkt.entries.length = 255 := by
  have count := valid.count_eq
  rw [length_entries]
  unfold maxBucketSize
  omega

/-- A push that returns is followed by the rest of its run. -/
theorem everyStep_push_iff {bkt : Bucket} {ctx : PushContext} {item : BucketItem} {ops : List LockOp}
    (releases : LockOp.Releases bkt (.push ctx item)) :
    LoggedRun.EveryStep lockStep ReleasesIn (.returned bkt false) (.push ctx item :: ops) ↔
      LoggedRun.EveryStep lockStep ReleasesIn (.returned (pushFrontBucket ctx bkt item) false) ops := by
  have stepped : lockStep (.returned bkt false) (.push ctx item) =
      some (.returned (pushFrontBucket ctx bkt item) false, []) :=
    congrArg (fun outcome => some (outcome, [])) (LockOp.perform_releases releases)
  constructor
  · intro every
    exact (every _ _ stepped).2
  · intro every next new taken
    obtain ⟨rfl, rfl⟩ := Prod.mk.inj (Option.some.inj (stepped.symm.trans taken))
    exact ⟨releases, every⟩

/-- A bucket takes new ids without a stop as long as it has room for them. -/
theorem everyStep_pushes_iff {bkt : Bucket} {items : List (PushContext × BucketItem)} (table : Table bkt)
    (terminated : ∀ item ∈ items, Terminated item.2)
    (distinct : (bkt.entries.map idOf ++ items.map fun item => idOf item.2).Nodup) :
    LoggedRun.EveryStep lockStep ReleasesIn (.returned bkt false) (pushes items) ↔
      bkt.entries.length + items.length ≤ 255 := by
  induction items generalizing bkt with
  | nil =>
      refine iff_of_true trivial ?_
      have count := table.valid.count_eq
      have upper := table.valid.upper
      rw [length_entries, List.length_nil]
      omega
  | cons item rest ih =>
      obtain ⟨ctx, item⟩ := item
      have known : hasNodeId ctx bkt item = false := by
        rw [← Bool.not_eq_true, hasNodeId_eq_true ctx (terminated _ List.mem_cons_self) table.terminated]
        intro member
        exact List.disjoint_of_nodup_append distinct member (by simp)
      by_cases full : bkt.top + 1 = maxBucketSize
      · refine iff_of_false (fun every => ?_) (by rw [(full_iff table.valid).mp full, List.length_cons]; omega)
        have releases : LockOp.Releases bkt (.push ctx item) := (every _ _ rfl).1
        exact releases.elim (fun member => by simp [known] at member) fun room => room full
      · have room : bkt.entries.length ≠ 255 := mt (full_iff table.valid).mpr full
        have entries : (pushFrontBucket ctx bkt item).entries = bkt.entries ++ [stamped ctx item] := by
          rw [entries_push_fresh table.valid known, if_neg room]
        have pushed : Table (pushFrontBucket ctx bkt item) := table.push (terminated _ List.mem_cons_self)
        have later := ih pushed (fun other member => terminated other (List.mem_cons_of_mem _ member))
          (by rw [entries]; simpa using distinct)
        rw [entries, List.length_append, List.length_singleton] at later
        have total : bkt.entries.length + (rest.length + 1) = bkt.entries.length + 1 + rest.length := by omega
        rw [List.length_cons, total]
        exact (everyStep_push_iff (.inr full)).trans later

theorem always_disciplined_iff (bkt : Bucket) (ops : List LockOp) :
    LoggedRun.Always lockStep Disciplined (.returned bkt false) ops ↔
      LoggedRun.EveryStep lockStep ReleasesIn (.returned bkt false) ops :=
  LoggedRun.always_iff_everyStep (fun _ => True) (fun _ _ _ _ _ _ _ => trivial)
    (fun _ _ _ _ _ disciplined stepped => lockStep_disciplined_iff disciplined stepped) trivial rfl

/-- A thread keeps to the mutex in a run exactly when no call of it gets to the function that locks twice. In
particular it pushes different ids into an empty bucket without a stop exactly when they are at most 255. -/
theorem lock_discipline_iff (bkt : Bucket) (ops : List LockOp) :
    (LoggedRun.Always lockStep Disciplined (.returned bkt false) ops ↔
      LoggedRun.EveryStep lockStep ReleasesIn (.returned bkt false) ops) ∧
      ∀ items : List (PushContext × BucketItem), bkt.top = -1 →
        (∀ item ∈ items, Terminated item.2) → (items.map fun item => idOf item.2).Nodup →
          (LoggedRun.Always lockStep Disciplined (.returned bkt false) (pushes items) ↔ items.length ≤ 255) := by
  refine ⟨always_disciplined_iff bkt ops, fun items empty terminated distinct => ?_⟩
  obtain ⟨table, none_left⟩ := Table.empty empty
  rw [always_disciplined_iff, everyStep_pushes_iff table terminated (by simpa [none_left] using distinct), none_left,
    List.length_nil, Nat.zero_add]

/-- Two pushes of different ids into an empty bucket return. -/
theorem lock_discipline_sample :
    LoggedRun.Always lockStep Disciplined (.returned blankBucket false)
        (pushes [(⟨0, fun _ => false⟩, { blankItem with nodeId := letterId 98 }),
          (⟨1, fun _ => false⟩, { blankItem with nodeId := letterId 99 })]) ↔ 2 ≤ 255 :=
  (lock_discipline_iff blankBucket []).2 [(⟨0, fun _ => false⟩, { blankItem with nodeId := letterId 98 }),
    (⟨1, fun _ => false⟩, { blankItem with nodeId := letterId 99 })] rfl (by decide +kernel) (by decide +kernel)

/-- The id of the item has two characters for its number. -/
def numberedId (n : Nat) : List UInt8 := [UInt8.ofNat (1 + n / 16), UInt8.ofNat (1 + n % 16)]

def numberedPush (n : Nat) : PushContext × BucketItem :=
  (⟨n, fun _ => false⟩, { blankItem with nodeId := CharArray.setString (Vector.replicate 21 0) (numberedId n) })

theorem idOf_numberedPush {n : Nat} (small : n < 256) : idOf (numberedPush n).2 = numberedId n := by
  apply CharArray.cstr_setString _ _ (show 2 < 21 by decide)
  intro zero
  simp only [numberedId, List.mem_cons, List.not_mem_nil, or_false, ← UInt8.toNat_inj, UInt8.toNat_ofNat',
    UInt8.toNat_zero] at zero
  omega

theorem numberedId_injective {n k : Nat} (small : n < 256) (small' : k < 256) (same : numberedId n = numberedId k) :
    n = k := by
  simp only [numberedId, List.cons.injEq, and_true, ← UInt8.toNat_inj, UInt8.toNat_ofNat'] at same
  omega

theorem always_numberedPushes_iff {count : Nat} (few : count ≤ 256) :
    LoggedRun.Always lockStep Disciplined (.returned blankBucket false)
      (pushes ((List.range count).map numberedPush)) ↔ count ≤ 255 := by
  obtain ⟨table, none_left⟩ := Table.empty (show blankBucket.top = -1 from rfl)
  have small (n : Nat) (member : n ∈ List.range count) : n < 256 := by
    have := List.mem_range.mp member
    omega
  have terminated : ∀ item ∈ (List.range count).map numberedPush, Terminated item.2 := by
    intro item member
    obtain ⟨n, _, rfl⟩ := List.mem_map.mp member
    exact CharArray.zero_mem_setString _ _ (show 2 < 21 by decide)
  have ids : ((List.range count).map numberedPush).map (fun item => idOf item.2) =
      (List.range count).map numberedId := by
    rw [List.map_map, List.map_inj_left]
    intro n member
    rw [Function.comp_apply, idOf_numberedPush (small n member)]
  have distinct : ((List.range count).map numberedId).Nodup :=
    List.Nodup.map_on (fun n inside k inside' same => numberedId_injective (small n inside) (small k inside') same)
      List.nodup_range
  rw [always_disciplined_iff, everyStep_pushes_iff table terminated (by rw [ids, none_left]; simpa using distinct),
    none_left, List.length_nil, Nat.zero_add, List.length_map, List.length_range]

/-- Dropping the back of a bucket waits for ever, and so does the push of the 256th different id. -/
theorem lock_taken_twice :
    ¬ LoggedRun.Always lockStep Disciplined (.returned blankBucket false) [.popBack] ∧
      ¬ LoggedRun.Always lockStep Disciplined (.returned blankBucket false)
        (pushes ((List.range 256).map numberedPush)) := by
  constructor
  · rw [always_disciplined_iff]
    exact fun every => (every _ _ rfl).1
  · rw [always_numberedPushes_iff (Nat.le_refl 256)]
    decide

end Nose
