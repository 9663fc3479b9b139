import Nose.Source.Bucket
import Nose.Library.DedupQueue

namespace Nose

open CMemory

/-- The abstract queue of a bucket lists its entries from the oldest to the newest. -/
def Bucket.entries (bkt : Bucket) : List BucketItem := (List.range bkt.count).map bkt.b

/-- The entries of a valid bucket fit into its array. -/
structure Bucket.Valid (bkt : Bucket) : Prop where
  lower : -1 ≤ bkt.top
  upper : bkt.top ≤ 254

/-- The id of an item is the string in its id field. -/
def idOf (item : BucketItem) : List UInt8 := cstr item.nodeId.toList

/-- The virtual address of an item is the string in its address field. -/
def vlanOf (item : BucketItem) : List UInt8 := cstr item.vlanIpv4.toList

/-- The id field of the item holds a terminated string. -/
def Terminated (item : BucketItem) : Prop := 0 ∈ item.nodeId.toList

/-- A pushed item carries the time of its push. -/
def stamped (ctx : PushContext) (item : BucketItem) : BucketItem := { item with joinTimestap := ctx.now }

@[simp] theorem idOf_stamped (ctx : PushContext) (item : BucketItem) : idOf (stamped ctx item) = idOf item := rfl

@[simp] theorem length_entries (bkt : Bucket) : bkt.entries.length = bkt.count := by simp [Bucket.entries]

theorem getElem_entries (bkt : Bucket) (i : Nat) (inside : i < bkt.entries.length) :
    bkt.entries[i] = bkt.b i := by simp [Bucket.entries]

theorem mem_entries {bkt : Bucket} {item : BucketItem} :
    item ∈ bkt.entries ↔ ∃ i < bkt.count, bkt.b i = item := by
  simp [Bucket.entries]

/-- The count of a valid bucket is the index after its newest entry. -/
theorem Bucket.Valid.count_eq {bkt : Bucket} (valid : bkt.Valid) : (bkt.count : Int) = bkt.top + 1 := by
  have := valid.lower
  unfold Bucket.count
  omega

/-- The shifting loop moves each of the first slots one place down. -/
theorem shiftDown_apply (b : Nat → BucketItem) (n i : Nat) :
    shiftDown b n i = if i < n then b (i + 1) else b i := by
  induction n generalizing i with
  | zero => rfl
  | succ n ih =>
      rw [shiftDown, Function.update_apply, ih, ih]
      by_cases same : i = n
      · simp [same]
      · have order : i < n + 1 ↔ i < n := by omega
        simp [same, order]

theorem Bucket.Valid.popBack {bkt : Bucket} (valid : bkt.Valid) (nonempty : 0 ≤ bkt.top) :
    (popBackBucket bkt).Valid :=
  ⟨by simp only [popBackBucket]; omega, by have := valid.upper; simp only [popBackBucket]; omega⟩

/-- Popping the back drops the oldest entry. -/
theorem entries_popBack {bkt : Bucket} (nonempty : 0 ≤ bkt.top) :
    (popBackBucket bkt).entries = bkt.entries.tail := by
  have count : (popBackBucket bkt).count = bkt.count - 1 := by
    simp only [Bucket.count, popBackBucket]
    omega
  apply List.ext_getElem
  · simp [count]
  · intro i inside inside'
    rw [length_entries, count] at inside
    rw [List.getElem_tail, getElem_entries, getElem_entries]
    change shiftDown bkt.b bkt.top.toNat i = _
    rw [shiftDown_apply, if_pos]
    unfold Bucket.count at inside
    omega

theorem Bucket.Valid.popFront {bkt : Bucket} (valid : bkt.Valid) : (popFrontBucket bkt).Valid := by
  have := valid.lower
  have := valid.upper
  unfold popFrontBucket
  split
  · exact ⟨by simp only; omega, by simp only; omega⟩
  · exact valid

/-- Popping the front drops the newest entry. -/
theorem entries_popFront {bkt : Bucket} (valid : bkt.Valid) :
    (popFrontBucket bkt).entries = bkt.entries.dropLast := by
  have lower := valid.lower
  unfold popFrontBucket
  split
  · have count : bkt.count = bkt.top.toNat + 1 := by
      unfold Bucket.count
      omega
    have after : ({ bkt with top := bkt.top - 1 } : Bucket).count = bkt.top.toNat := by
      unfold Bucket.count
      simp only
      omega
    unfold Bucket.entries
    rw [count, after, List.range_succ, List.map_append, List.map_singleton, List.dropLast_concat]
  · have count : bkt.count = 0 := by
      unfold Bucket.count
      omega
    simp [Bucket.entries, count]

theorem pushFrontBucket_known {ctx : PushContext} {bkt : Bucket} {item : BucketItem}
    (known : hasNodeId ctx bkt item = true) : pushFrontBucket ctx bkt item = bkt := if_pos known

/-- Appending after the newest entry appends to the queue. -/
theorem entries_append {bkt : Bucket} (valid : bkt.Valid) (item : BucketItem) :
    ({ bkt with top := bkt.top + 1, b := Function.update bkt.b (bkt.top + 1).toNat item } : Bucket).entries =
      bkt.entries ++ [item] := by
  have count : ({ bkt with top := bkt.top + 1, b := Function.update bkt.b (bkt.top + 1).toNat item } :
      Bucket).count = bkt.count + 1 := by
    have := valid.lower
    simp only [Bucket.count]
    omega
  unfold Bucket.entries
  rw [count, List.range_succ, List.map_append, List.map_singleton]
  congr 1
  · apply List.map_congr_left
    intro i member
    have different : i ≠ (bkt.top + 1).toNat := Nat.ne_of_lt (List.mem_range.mp member)
    simp [Function.update_of_ne different]
  · simp [Bucket.count]

theorem Bucket.Valid.push {ctx : PushContext} {bkt : Bucket} {item : BucketItem} (valid : bkt.Valid) :
    (pushFrontBucket ctx bkt item).Valid := by
  have lower := valid.lower
  have upper := valid.upper
  unfold pushFrontBucket maxBucketSize
  split
  · exact valid
  · split
    · exact ⟨by simp only [popBackBucket]; omega, by simp only [popBackBucket]; omega⟩
    · exact ⟨by simp only; omega, by simp only; omega⟩

/-- A push of a new id appends the stamped item, after the oldest entry of a full bucket is dropped. -/
theorem entries_push_fresh {ctx : PushContext} {bkt : Bucket} {item : BucketItem} (valid : bkt.Valid)
    (fresh : hasNodeId ctx bkt item = false) :
    (pushFrontBucket ctx bkt item).entries =
      (if bkt.entries.length = 255 then bkt.entries.tail else bkt.entries) ++ [stamped ctx item] := by
  have count := valid.count_eq
  have lower := valid.lower
  unfold pushFrontBucket maxBucketSize
  rw [if_neg (by simp [fresh]), length_entries]
  by_cases full : bkt.top + 1 = 255
  · rw [if_pos full, if_pos (by omega), ← entries_popBack (show 0 ≤ bkt.top by omega)]
    exact entries_append (valid.popBack (by omega)) _
  · rw [if_neg full, if_neg (by omega)]
    exact entries_append valid _

/-- The duplicate test of terminated ids asks whether the id is in the queue. -/
theorem hasNodeId_eq_true (ctx : PushContext) {bkt : Bucket} {item : BucketItem}
    (terminated : Terminated item) (all : ∀ entry ∈ bkt.entries, Terminated entry) :
    hasNodeId ctx bkt item = true ↔ idOf item ∈ bkt.entries.map idOf := by
  have compare (i : Nat) (inside : i < bkt.count) :
      strcmp (ctx.past i) item.nodeId.toList (bkt.b i).nodeId.toList = true ↔ idOf item = idOf (bkt.b i) :=
    strcmp_eq_true _ _ _ (all _ (mem_entries.mpr ⟨i, inside, rfl⟩)) (.inl terminated)
  unfold hasNodeId
  rw [List.any_eq_true]
  constructor
  · rintro ⟨i, member, equal⟩
    have inside := List.mem_range.mp member
    exact List.mem_map.mpr ⟨_, mem_entries.mpr ⟨i, inside, rfl⟩, ((compare i inside).mp equal).symm⟩
  · intro member
    obtain ⟨entry, inside, equal⟩ := List.mem_map.mp member
    obtain ⟨i, small, rfl⟩ := mem_entries.mp inside
    exact ⟨i, List.mem_range.mpr small, (compare i small).mpr equal.symm⟩

/-- A push of a terminated item is a push on the abstract queue. -/
theorem entries_push (ctx : PushContext) {bkt : Bucket} {item : BucketItem} (valid : bkt.Valid)
    (terminated : Terminated item) (all : ∀ entry ∈ bkt.entries, Terminated entry) :
    (pushFrontBucket ctx bkt item).entries = DedupQueue.push 255 idOf bkt.entries (stamped ctx item) := by
  have test := hasNodeId_eq_true ctx terminated all
  cases known : hasNodeId ctx bkt item with
  | true =>
      rw [pushFrontBucket_known known, DedupQueue.push_known (by simpa using test.mp known)]
  | false =>
      have absent : idOf item ∉ bkt.entries.map idOf := by
        rw [← test, known]
        decide
      rw [entries_push_fresh valid known, DedupQueue.push, idOf_stamped, if_neg absent]

/-- A push keeps the ids terminated. -/
theorem terminated_push {ctx : PushContext} {bkt : Bucket} {item : BucketItem} (valid : bkt.Valid)
    (terminated : Terminated item) (all : ∀ entry ∈ bkt.entries, Terminated entry) :
    ∀ entry ∈ (pushFrontBucket ctx bkt item).entries, Terminated entry := by
  intro entry member
  rw [entries_push ctx valid terminated all] at member
  rcases DedupQueue.mem_of_mem_push member with old | rfl
  · exact all entry old
  · exact terminated

/-- The search finds the newest entry with the given virtual address. -/
theorem searchDown_eq (past : Nat → Bool) (b : Nat → BucketItem) (vlanIpv4 : List UInt8) (n : Nat)
    (string : 0 ∈ vlanIpv4) (fits : (cstr vlanIpv4).length < 16) :
    searchDown past b vlanIpv4 n =
      DedupQueue.newest (fun item => vlanOf item = cstr vlanIpv4) ((List.range n).map b) := by
  unfold DedupQueue.newest
  induction n with
  | zero => rfl
  | succ n ih =>
      have compare : strcmp (past n) (b n).vlanIpv4.toList vlanIpv4 = true ↔ vlanOf (b n) = cstr vlanIpv4 :=
        strcmp_eq_true _ _ _ string (.inr (by simpa using fits))
      rw [searchDown, List.range_succ, List.map_append, List.map_singleton, List.reverse_append,
        List.reverse_singleton, List.singleton_append, List.find?_cons, ih]
      by_cases equal : vlanOf (b n) = cstr vlanIpv4
      · simp [compare.mpr equal, equal]
      · simp [compare.not.mpr equal, equal]

theorem getItemByVlanIpv4_eq (past : Nat → Bool) (bkt : Bucket) {vlanIpv4 : List UInt8} (item : BucketItem)
    (string : 0 ∈ vlanIpv4) (fits : (cstr vlanIpv4).length < 16) :
    getItemByVlanIpv4 past bkt vlanIpv4 item =
      match DedupQueue.newest (fun entry => vlanOf entry = cstr vlanIpv4) bkt.entries with
      | some found => (ok, found)
      | none => (failed, item) := by
  rw [getItemByVlanIpv4, searchDown_eq past bkt.b vlanIpv4 _ string fits]
  rfl

theorem getItemByVlanIpv4_found (past : Nat → Bool) (bkt : Bucket) {vlanIpv4 : List UInt8} {found : BucketItem}
    (item : BucketItem) (string : 0 ∈ vlanIpv4) (fits : (cstr vlanIpv4).length < 16)
    (newest : DedupQueue.newest (fun entry => vlanOf entry = cstr vlanIpv4) bkt.entries = some found) :
    getItemByVlanIpv4 past bkt vlanIpv4 item = (ok, found) := by
  rw [getItemByVlanIpv4_eq past bkt item string fits, newest]

/-- The copy loop puts the newest entry first. -/
theorem copyDown_apply (b : Nat → BucketItem) (n j k : Nat) (items : Nat → BucketItem) :
    copyDown b n j items k = if j ≤ k ∧ k < j + n then b (n - 1 - (k - j)) else items k := by
  induction n generalizing j items with
  | zero =>
      rw [copyDown, if_neg (by omega)]
  | succ n ih =>
      rw [copyDown, ih]
      by_cases same : k = j
      · subst same
        rw [if_neg (by omega), if_pos (by omega), Function.update_self]
        congr 1
        omega
      · rw [Function.update_of_ne same]
        by_cases inside : j ≤ k ∧ k < j + (n + 1)
        · rw [if_pos (by omega), if_pos inside]
          congr 1
          omega
        · rw [if_neg (by omega), if_neg inside]

end Nose
