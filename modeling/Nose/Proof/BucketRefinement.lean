import Nose.Library.LoggedRun
import Nose.Proof.BucketEntries

namespace Nose

open CMemory

/-- These are the operations that a user of a bucket can take. -/
inductive BucketOp where
  | push (ctx : PushContext) (item : BucketItem)
  | popFront
  | popBack
  | front
  | size
  | lookup (past : Nat → Bool) (vlanIpv4 : List UInt8) (item : BucketItem)

/-- An operation answers with the item at the returned pointer, a size, or a status and an item. -/
inductive BucketReply where
  | front (item : Option BucketItem)
  | size (value : Int)
  | found (status : Int) (item : BucketItem)
  deriving DecidableEq

instance (item : BucketItem) : Decidable (Terminated item) := inferInstanceAs (Decidable (_ ∈ _))

/-- The user pushes terminated ids, pops the back of non-empty buckets only, and searches for a
string that fits into an address field. -/
def bucketStep (bkt : Bucket) : BucketOp → Option (Bucket × List BucketReply)
  | .push ctx item => if Terminated item then some (pushFrontBucket ctx bkt item, []) else none
  | .popFront => some (popFrontBucket bkt, [])
  | .popBack => if isEmptyBucket bkt = 0 then some (popBackBucket bkt, []) else none
  | .front => some (bkt, [.front ((getFrontBucket bkt).map fun slot => bkt.b slot.toNat)])
  | .size => some (bkt, [.size (bucketSize bkt)])
  | .lookup past vlanIpv4 item =>
      if 0 ∈ vlanIpv4 ∧ (cstr vlanIpv4).length < 16 then
        let result := getItemByVlanIpv4 past bkt vlanIpv4 item
        some (bkt, [.found result.1 result.2])
      else none

/-- The reference list takes the same operations on a bounded queue with one item for each id. -/
def queueStep (queue : List BucketItem) : BucketOp → Option (List BucketItem × List BucketReply)
  | .push ctx item =>
      if Terminated item then some (DedupQueue.push 255 idOf queue (stamped ctx item), []) else none
  | .popFront => some (queue.dropLast, [])
  | .popBack => if queue ≠ [] then some (queue.tail, []) else none
  | .front => some (queue, [.front queue.getLast?])
  | .size => some (queue, [.size queue.length])
  | .lookup _ vlanIpv4 item =>
      if 0 ∈ vlanIpv4 ∧ (cstr vlanIpv4).length < 16 then
        match DedupQueue.newest (fun entry => vlanOf entry = cstr vlanIpv4) queue with
        | some found => some (queue, [.found ok found])
        | none => some (queue, [.found failed item])
      else none

/-- The simulation relates a bucket in its bounds to its entries, whose ids are terminated and different. -/
structure Simulates (bkt : Bucket) (queue : List BucketItem) : Prop where
  entries : queue = bkt.entries
  valid : bkt.Valid
  terminated : ∀ entry ∈ bkt.entries, Terminated entry
  distinct : (bkt.entries.map idOf).Nodup

theorem entries_initBucket (bkt : Bucket) : (initBucket bkt none).entries = [] := rfl

theorem simulates_init (bkt : Bucket) : Simulates (initBucket bkt none) [] where
  entries := (entries_initBucket bkt).symm
  valid := ⟨by simp [initBucket], by simp [initBucket]⟩
  terminated := by simp [entries_initBucket]
  distinct := by simp [entries_initBucket]

/-- Some entries of a bucket keep the facts about the ids. -/
theorem Simulates.sublist {bkt next : Bucket} {queue : List BucketItem} (related : Simulates bkt queue)
    (valid : next.Valid) (sublist : next.entries.Sublist bkt.entries) : Simulates next next.entries where
  entries := rfl
  valid := valid
  terminated := fun entry member => related.terminated entry (sublist.subset member)
  distinct := related.distinct.sublist (sublist.map idOf)

/-- The front pointer leads to the newest entry. -/
theorem front_entries {bkt : Bucket} (valid : bkt.Valid) :
    (getFrontBucket bkt).map (fun slot => bkt.b slot.toNat) = bkt.entries.getLast? := by
  have count := valid.count_eq
  have lower := valid.lower
  unfold getFrontBucket Bucket.entries
  by_cases empty : bkt.top = -1
  · have zero : bkt.count = 0 := by omega
    simp [empty, zero]
  · have succ : bkt.count = bkt.top.toNat + 1 := by omega
    simp [empty, succ, List.range_succ]

/-- Each operation of the bucket is matched by the reference list. -/
theorem bucketStep_simulated {bkt next : Bucket} {queue : List BucketItem} {op : BucketOp}
    {replies : List BucketReply} (related : Simulates bkt queue)
    (stepped : bucketStep bkt op = some (next, replies)) :
    ∃ after, queueStep queue op = some (after, replies) ∧ Simulates next after := by
  have valid := related.valid
  have count := valid.count_eq
  obtain rfl := related.entries
  cases op with
  | push ctx item =>
      simp only [bucketStep] at stepped
      split at stepped
      · rename_i terminated
        obtain ⟨rfl, rfl⟩ := Prod.mk.inj (Option.some.inj stepped)
        have pushed := entries_push ctx valid terminated related.terminated
        refine ⟨_, by rw [queueStep, if_pos terminated], pushed.symm, valid.push,
          terminated_push valid terminated related.terminated, ?_⟩
        rw [pushed]
        exact DedupQueue.nodup_push related.distinct
      · cases stepped
  | popFront =>
      obtain ⟨rfl, rfl⟩ := Prod.mk.inj (Option.some.inj stepped)
      refine ⟨_, by rw [queueStep, ← entries_popFront valid], related.sublist valid.popFront ?_⟩
      rw [entries_popFront valid]
      exact List.dropLast_sublist _
  | popBack =>
      have lower := valid.lower
      by_cases empty : bkt.top = -1
      · simp [bucketStep, isEmptyBucket, empty] at stepped
      · simp only [bucketStep, isEmptyBucket, if_neg empty, if_true] at stepped
        obtain ⟨rfl, rfl⟩ := Prod.mk.inj (Option.some.inj stepped)
        have top : 0 ≤ bkt.top := by omega
        have some_entry : bkt.entries ≠ [] := by
          apply List.ne_nil_of_length_pos
          rw [length_entries]
          omega
        refine ⟨_, by rw [queueStep, if_pos some_entry, ← entries_popBack top],
          related.sublist (valid.popBack top) ?_⟩
        rw [entries_popBack top]
        exact List.tail_sublist _
  | front =>
      obtain ⟨rfl, rfl⟩ := Prod.mk.inj (Option.some.inj stepped)
      exact ⟨_, by rw [queueStep, front_entries valid], related⟩
  | size =>
      obtain ⟨rfl, rfl⟩ := Prod.mk.inj (Option.some.inj stepped)
      exact ⟨_, by rw [queueStep, length_entries, count, bucketSize], related⟩
  | lookup past vlanIpv4 item =>
      simp only [bucketStep] at stepped
      split at stepped
      · rename_i string
        obtain ⟨rfl, rfl⟩ := Prod.mk.inj (Option.some.inj stepped)
        refine ⟨bkt.entries, ?_, related⟩
        rw [queueStep, if_pos string, getItemByVlanIpv4_eq past bkt item string.1 string.2]
        cases DedupQueue.newest (fun entry => vlanOf entry = cstr vlanIpv4) bkt.entries <;> rfl
      · cases stepped

/-- Every run of bucket operations is a run of the reference list with the same answers, in bounds. -/
theorem bucket_refines_queue (bkt final : Bucket) (ops : List BucketOp) (replies : List BucketReply)
    (reached : LoggedRun.run bucketStep (initBucket bkt none) ops = some (final, replies)) :
    LoggedRun.run queueStep [] ops = some (final.entries, replies) ∧
      -1 ≤ final.top ∧ final.top ≤ 254 ∧ (final.entries.map idOf).Nodup := by
  obtain ⟨queue, completed, related⟩ := LoggedRun.run_refines
    (fun _ _ _ _ _ => bucketStep_simulated) (simulates_init bkt) reached
  obtain rfl := related.entries
  exact ⟨completed, related.valid.lower, related.valid.upper, related.distinct⟩

def blankItem : BucketItem := ⟨0, Vector.replicate 16 0, Vector.replicate 21 0, 0, Vector.replicate 16 0, 0⟩

def blankBucket : Bucket := ⟨-1, 0, fun _ => blankItem⟩

/-- An id repeats one letter, as in the configuration examples. -/
def letterId (letter : UInt8) : CharArray 21 := terminateId (Vector.replicate 21 letter)

/-- Pushes of two ids, one of them twice, with searches before and after the older entry is popped. -/
def sampleOps : List BucketOp :=
  let ctx : PushContext := ⟨7, fun _ => false⟩
  let text (letter : UInt8) : CharArray 16 := (Vector.replicate 16 0).set 0 letter
  let item (letter : UInt8) : BucketItem := { blankItem with nodeId := letterId letter, vlanIpv4 := text 49 }
  [.push ctx (item 97), .push ctx (item 98), .push ctx (item 97), .size, .lookup (fun _ => false) [49, 0] blankItem,
    .popFront, .front, .popBack, .front, .lookup (fun _ => false) [49, 0] blankItem]

/-- The newest entry is found, and an emptied bucket leaves the caller's item untouched. -/
theorem bucket_refines_queue_sample : ∃ final replies,
    LoggedRun.run bucketStep (initBucket blankBucket none) sampleOps = some (final, replies) ∧
      (LoggedRun.run queueStep [] sampleOps = some (final.entries, replies) ∧
        -1 ≤ final.top ∧ final.top ≤ 254 ∧ (final.entries.map idOf).Nodup) := by
  have completes : (LoggedRun.run bucketStep (initBucket blankBucket none) sampleOps).isSome = true := by
    decide +kernel
  obtain ⟨⟨final, replies⟩, reached⟩ := Option.isSome_iff_exists.mp completes
  exact ⟨final, replies, reached, bucket_refines_queue blankBucket final sampleOps replies reached⟩

end Nose
