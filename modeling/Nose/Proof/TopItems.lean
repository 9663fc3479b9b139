import Nose.Proof.BucketRefinement
import Nose.Source.BucketAccess

namespace Nose

open CMemory

/-- The array of a caller holds its items. Behind them it holds items that nobody reads. -/
def arrayOf (items : List BucketItem) : Nat → BucketItem := fun j => items.getD j blankItem

theorem arrayOf_set {items : List BucketItem} {j : Nat} (item : BucketItem) (inside : j < items.length) :
    arrayOf (items.set j item) = Function.update (arrayOf items) j item := by
  funext k
  rw [arrayOf, Function.update_apply, arrayOf, List.getD_eq_getElem?_getD, List.getD_eq_getElem?_getD,
    List.getElem?_set]
  by_cases same : j = k
  · subst same
    simp [inside]
  · rw [if_neg same, if_neg (Ne.symm same)]

section Copy

variable {n j : Nat} (memory : CheckedBucket.TopItems)

/-- A copy that fits into the array of the caller leaves the bucket as it is and writes what the copy without the checks
writes. -/
theorem copyDown_checked (fits : j + n ≤ memory.items.length) :
    ∃ after, CheckedBucket.copyDown n j memory = some after ∧ after.bkt = memory.bkt ∧
      after.items.length = memory.items.length ∧
        ∀ k < memory.items.length, after.items[k]? = some (copyDown memory.bkt.b n j (arrayOf memory.items) k) := by
  induction n generalizing j memory with
  | zero =>
      refine ⟨memory, rfl, rfl, rfl, fun k inside => ?_⟩
      simp [copyDown, arrayOf, inside]
  | succ n ih =>
      have inside : j < memory.items.length := by omega
      have stored : memory.store j (memory.bkt.b n) =
          some { memory with items := memory.items.set j (memory.bkt.b n) } := if_pos inside
      obtain ⟨after, copied, bucket, length, slots⟩ :=
        ih { memory with items := memory.items.set j (memory.bkt.b n) }
          (show j + 1 + n ≤ (memory.items.set j (memory.bkt.b n)).length by rw [List.length_set]; omega)
      rw [List.length_set] at length slots
      refine ⟨after, ?_, bucket, length, fun k small => ?_⟩
      · rw [CheckedBucket.copyDown, stored]
        exact copied
      · rw [slots k small, copyDown, arrayOf_set _ inside]

/-- A longer copy writes behind the array. -/
theorem copyDown_overrun (start : j ≤ memory.items.length) (long : memory.items.length < j + n) :
    CheckedBucket.copyDown n j memory = none := by
  induction n generalizing j memory with
  | zero => omega
  | succ n ih =>
      rw [CheckedBucket.copyDown, CheckedBucket.TopItems.store]
      by_cases inside : j < memory.items.length
      · rw [if_pos inside]
        exact ih _ (by rw [List.length_set]; omega) (by rw [List.length_set]; omega)
      · rw [if_neg inside]
        rfl

end Copy

/-- The function returns the smaller one of its size and the size of the bucket, stores that many entries, newest first,
writes no slot behind the array of its caller, and leaves the bucket as it is. -/
def RespectsSize (bkt : Bucket) (items : List BucketItem) : Prop :=
  ∃ count after, CheckedBucket.getTopBucketItems ⟨bkt, items⟩ items.length = some (count, after) ∧
    count = min (items.length : Int) (bkt.top + 1) ∧ after.bkt = bkt ∧ after.items.length = items.length ∧
      ∀ j : Nat, (j : Int) < count → after.items[j]? = some (bkt.b (bkt.top - j).toNat)

/-- The function respects its size exactly when it is asked for the whole bucket at least. -/
theorem respects_size_iff (bkt : Bucket) (items : List BucketItem) (lower : -1 ≤ bkt.top) :
    RespectsSize bkt items ↔ bkt.top + 1 ≤ items.length := by
  have count : (bkt.count : Int) = bkt.top + 1 := by
    unfold Bucket.count
    omega
  constructor
  · rintro ⟨wanted, after, copied, _⟩
    by_contra small
    have overrun : CheckedBucket.copyDown bkt.count 0 ⟨bkt, items⟩ = none :=
      copyDown_overrun ⟨bkt, items⟩ (Nat.zero_le _) (show items.length < 0 + bkt.count by omega)
    simp [CheckedBucket.getTopBucketItems, overrun] at copied
  · intro enough
    obtain ⟨after, copied, bucket, length, slots⟩ :=
      copyDown_checked ⟨bkt, items⟩ (show 0 + bkt.count ≤ items.length by omega)
    have size : (if (items.length : Int) > 1 + bkt.top then bkt.top + 1 else (items.length : Int)) =
        min (items.length : Int) (bkt.top + 1) := by
      split <;> omega
    refine ⟨_, after, ?_, size, bucket, length, fun j inside => ?_⟩
    · rw [CheckedBucket.getTopBucketItems, copied]
      rfl
    · rw [size] at inside
      rw [slots j (show j < items.length by omega), copyDown_apply, if_pos (by omega)]
      congr 2
      omega

/-- Two entries are copied into an array of three items. -/
theorem respects_size_sample :
    RespectsSize ⟨1, 0, fun i => { blankItem with port := UInt16.ofNat i }⟩ (List.replicate 3 blankItem) ↔
      (1 : Int) + 1 ≤ (List.replicate 3 blankItem).length :=
  respects_size_iff ⟨1, 0, fun i => { blankItem with port := UInt16.ofNat i }⟩ (List.replicate 3 blankItem) (by decide)

/-- Of a bucket with eleven entries, the eleventh one is written behind an array of ten items. -/
theorem top_items_overrun : ¬ RespectsSize ⟨10, 0, fun _ => blankItem⟩ (List.replicate 10 blankItem) := by
  rw [respects_size_iff _ _ (by decide)]
  decide

end Nose
