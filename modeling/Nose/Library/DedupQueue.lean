import Mathlib.Data.List.Perm.Subperm
import Mathlib.Tactic

/-
This file gives a bounded queue that keeps one item for each key.
-/

namespace DedupQueue

variable {Item Key : Type} [DecidableEq Key]

/-- A push drops an item with a known key. Otherwise the oldest item of a full queue makes room. -/
def push (capacity : Nat) (key : Item → Key) (queue : List Item) (item : Item) : List Item :=
  if key item ∈ queue.map key then queue
  else (if queue.length = capacity then queue.tail else queue) ++ [item]

def pushAll (capacity : Nat) (key : Item → Key) (queue items : List Item) : List Item :=
  items.foldl (push capacity key) queue

/-- The newest item that satisfies a predicate. -/
def newest (test : Item → Bool) (queue : List Item) : Option Item := queue.reverse.find? test

theorem push_known {capacity : Nat} {key : Item → Key} {queue : List Item} {item : Item}
    (known : key item ∈ queue.map key) : push capacity key queue item = queue := if_pos known

theorem push_fresh {capacity : Nat} {key : Item → Key} {queue : List Item} {item : Item}
    (fresh : key item ∉ queue.map key) (room : queue.length < capacity) :
    push capacity key queue item = queue ++ [item] := by
  rw [push, if_neg fresh, if_neg (Nat.ne_of_lt room)]

theorem mem_of_mem_push {capacity : Nat} {key : Item → Key} {queue : List Item} {item other : Item}
    (member : other ∈ push capacity key queue item) : other ∈ queue ∨ other = item := by
  unfold push at member
  split at member
  · exact .inl member
  · rcases List.mem_append.mp member with member | member
    · split at member
      · exact .inl (List.mem_of_mem_tail member)
      · exact .inl member
    · exact .inr (List.mem_singleton.mp member)

/-- A push keeps a relation between the items when it holds between items with different keys. -/
theorem pairwise_push {capacity : Nat} {key : Item → Key} {queue : List Item} {item : Item}
    {R : Item → Item → Prop} (pairs : queue.Pairwise R)
    (new : ∀ old ∈ queue, key item ≠ key old → R old item) : (push capacity key queue item).Pairwise R := by
  unfold push
  split
  · exact pairs
  · rename_i fresh
    rw [List.pairwise_append]
    refine ⟨?_, List.pairwise_singleton .., ?_⟩
    · split
      · exact pairs.sublist (List.tail_sublist queue)
      · exact pairs
    · intro old member last same
      rw [List.mem_singleton] at same
      subst same
      have member' : old ∈ queue := by
        split at member
        · exact List.mem_of_mem_tail member
        · exact member
      exact new old member' fun equal => fresh (equal ▸ List.mem_map_of_mem member')

/-- The keys of a queue stay different. -/
theorem nodup_push {capacity : Nat} {key : Item → Key} {queue : List Item} {item : Item}
    (nodup : (queue.map key).Nodup) : ((push capacity key queue item).map key).Nodup := by
  rw [List.Nodup, List.pairwise_map] at nodup ⊢
  exact pairwise_push nodup fun old _ different equal => different equal.symm

omit [DecidableEq Key] in
/-- A queue of few different keys has room for one more key. -/
theorem length_lt_of_fresh {capacity : Nat} {key : Item → Key} {queue : List Item} {item : Item}
    {keys : List Key} (few : keys.length ≤ capacity) (nodup : (queue.map key).Nodup)
    (inside : ∀ old ∈ queue, key old ∈ keys) (listed : key item ∈ keys)
    (fresh : key item ∉ queue.map key) : queue.length < capacity := by
  have distinct : (key item :: queue.map key).Nodup := List.nodup_cons.mpr ⟨fresh, nodup⟩
  have included : key item :: queue.map key ⊆ keys := by
    intro value member
    rcases List.mem_cons.mp member with rfl | member
    · exact listed
    · obtain ⟨old, queued, rfl⟩ := List.mem_map.mp member
      exact inside old queued
  have bound := (distinct.subperm included).length_le
  simp only [List.length_cons, List.length_map] at bound
  omega

/-- The keys of a queue stay different over pushes. -/
theorem nodup_pushAll {capacity : Nat} {key : Item → Key} {queue items : List Item}
    (nodup : (queue.map key).Nodup) : ((pushAll capacity key queue items).map key).Nodup := by
  induction items generalizing queue with
  | nil => exact nodup
  | cons item rest ih => exact ih (nodup_push nodup)

/-- Pushes of few keys drop nothing. They append items with new keys, and then every pushed key is in the queue. -/
theorem pushAll_of_few {capacity : Nat} {key : Item → Key} {queue items : List Item} {keys : List Key}
    (few : keys.length ≤ capacity) (nodup : (queue.map key).Nodup) (inside : ∀ old ∈ queue, key old ∈ keys)
    (listed : ∀ item ∈ items, key item ∈ keys) :
    ∃ added, pushAll capacity key queue items = queue ++ added ∧
      (∀ item ∈ added, item ∈ items ∧ key item ∉ queue.map key) ∧
        ∀ item ∈ items, key item ∈ (queue ++ added).map key := by
  induction items generalizing queue with
  | nil => exact ⟨[], (List.append_nil queue).symm, by simp, by simp⟩
  | cons item rest ih =>
      have listed' : ∀ other ∈ rest, key other ∈ keys := fun other member =>
        listed other (List.mem_cons_of_mem _ member)
      by_cases known : key item ∈ queue.map key
      · have same : push capacity key queue item = queue := push_known known
        obtain ⟨added, pushed, fresh, present⟩ := ih nodup inside listed'
        refine ⟨added, ?_, fun other member => ?_, fun other member => ?_⟩
        · rw [pushAll, List.foldl_cons, same]
          exact pushed
        · exact ⟨List.mem_cons_of_mem _ (fresh other member).1, (fresh other member).2⟩
        · rcases List.mem_cons.mp member with rfl | member
          · rw [List.map_append]
            exact List.mem_append_left _ known
          · exact present other member
      · have listed_item := listed item List.mem_cons_self
        have appended : push capacity key queue item = queue ++ [item] :=
          push_fresh known (length_lt_of_fresh few nodup inside listed_item known)
        have nodup' : ((queue ++ [item]).map key).Nodup := appended ▸ nodup_push nodup
        have inside' : ∀ old ∈ queue ++ [item], key old ∈ keys := by
          intro old member
          rcases List.mem_append.mp member with member | member
          · exact inside old member
          · rwa [List.mem_singleton.mp member]
        obtain ⟨added, pushed, fresh, present⟩ := ih nodup' inside' listed'
        refine ⟨item :: added, ?_, fun other member => ?_, fun other member => ?_⟩
        · rw [pushAll, List.foldl_cons, appended]
          simpa [pushAll] using pushed
        · rcases List.mem_cons.mp member with rfl | member
          · exact ⟨List.mem_cons_self, known⟩
          · obtain ⟨pushed_later, new⟩ := fresh other member
            rw [List.map_append] at new
            exact ⟨List.mem_cons_of_mem _ pushed_later, fun old => new (List.mem_append_left _ old)⟩
        · rcases List.mem_cons.mp member with rfl | member
          · simp
          · simpa using present other member

/-- Pushing items of few keys keeps the first item of each key. -/
theorem pushAll_first {capacity : Nat} {key : Item → Key} {items : List Item} {keys : List Key}
    (few : keys.length ≤ capacity) (inside : ∀ item ∈ items, key item ∈ keys) :
    ((pushAll capacity key [] items).map key).Nodup ∧
      ∀ item, item ∈ pushAll capacity key [] items ↔
        items.find? (fun other => key other = key item) = some item := by
  induction items using List.reverseRecOn with
  | nil => simp [pushAll]
  | append_singleton items last ih =>
      obtain ⟨nodup, first⟩ := ih fun item member => inside item (List.mem_append_left _ member)
      have earlier : ∀ old ∈ pushAll capacity key [] items, old ∈ items := fun old member =>
        List.mem_of_find?_eq_some ((first old).mp member)
      have unfolded : pushAll capacity key [] (items ++ [last]) =
          push capacity key (pushAll capacity key [] items) last := by
        simp [pushAll, List.foldl_append]
      rw [unfolded]
      refine ⟨nodup_push nodup, fun item => ?_⟩
      rw [List.find?_append]
      by_cases known : key last ∈ (pushAll capacity key [] items).map key
      · rw [push_known known, first item]
        cases found : items.find? (fun other => key other = key item) with
        | some other => simp
        | none =>
            have absent : key last ≠ key item := by
              intro equal
              obtain ⟨old, member, same⟩ := List.mem_map.mp known
              have missing := List.find?_eq_none.mp found old (earlier old member)
              simp [same, equal] at missing
            simp [absent]
      · have room := length_lt_of_fresh few nodup
          (fun old member => inside old (List.mem_append_left _ (earlier old member)))
          (inside last (by simp)) known
        rw [push_fresh known room, List.mem_append, List.mem_singleton, first item]
        cases found : items.find? (fun other => key other = key item) with
        | some other =>
            have other_key : key other = key item := by simpa using List.find?_some found
            have kept : other ∈ pushAll capacity key [] items := by
              rw [first other, other_key]
              exact found
            constructor
            · rintro (equal | rfl)
              · simpa using equal
              · exact absurd (List.mem_map.mpr ⟨other, kept, other_key⟩) known
            · intro equal
              exact .inl (by simpa using equal)
        | none =>
            constructor
            · rintro (equal | rfl)
              · cases equal
              · simp
            · intro equal
              by_cases same : key last = key item
              · exact .inr (by simpa [same, eq_comm] using equal)
              · simp [same] at equal

/-- The only item that satisfies a predicate is the newest one. -/
theorem newest_unique {test : Item → Bool} {queue : List Item} {item : Item} (member : item ∈ queue)
    (passes : test item = true) (only : ∀ other ∈ queue, test other = true → other = item) :
    newest test queue = some item := by
  unfold newest
  cases found : queue.reverse.find? test with
  | none =>
      have fails := List.find?_eq_none.mp found item (List.mem_reverse.mpr member)
      exact absurd passes fails
  | some other =>
      have inside := List.mem_reverse.mp (List.mem_of_find?_eq_some found)
      rw [only other inside (List.find?_some found)]

theorem newest_eq_none {test : Item → Bool} {queue : List Item} :
    newest test queue = none ↔ ∀ item ∈ queue, test item = false := by
  simp [newest]

/-- Searches of related lists for related tests find related items. -/
theorem find?_forall₂ {Other : Type} {R : Item → Other → Prop} {first : List Item} {second : List Other}
    {test : Item → Bool} {test' : Other → Bool} {found : Item} (related : List.Forall₂ R first second)
    (same : ∀ a b, R a b → test a = test' b) (search : first.find? test = some found) :
    ∃ other, second.find? test' = some other ∧ R found other := by
  induction related with
  | nil => simp at search
  | @cons a b _ _ head _ ih =>
      rw [List.find?_cons] at search ⊢
      rw [← same a b head]
      by_cases passes : test a = true
      · have equal : a = found := by simpa [passes] using search
        subst equal
        exact ⟨b, by simp [passes], head⟩
      · obtain ⟨other, later, copied⟩ := ih (by simpa [passes] using search)
        exact ⟨other, by simpa [passes] using later, copied⟩

theorem newest_forall₂ {Other : Type} {R : Item → Other → Prop} {queue : List Item} {others : List Other}
    {test : Item → Bool} {test' : Other → Bool} {found : Item} (related : List.Forall₂ R queue others)
    (same : ∀ a b, R a b → test a = test' b) (search : newest test queue = some found) :
    ∃ other, newest test' others = some other ∧ R found other :=
  find?_forall₂ (List.forall₂_reverse_iff.mpr related) same search

/-- An item that is both the first and the newest one to pass a test is the only one. -/
theorem unique_of_newest_first {test : Item → Bool} {queue : List Item} {item : Item} (nodup : queue.Nodup)
    (first : queue.find? test = some item) (last : newest test queue = some item) :
    ∀ other ∈ queue, test other = true → other = item := by
  unfold newest at last
  induction queue with
  | nil => simp
  | cons head rest ih =>
      obtain ⟨absent, nodup'⟩ := List.nodup_cons.mp nodup
      rw [List.reverse_cons, List.find?_append] at last
      rw [List.find?_cons] at first
      by_cases passes : test head = true
      · have same : head = item := by simpa [passes] using first
        subst same
        have none_later : rest.reverse.find? test = none := by
          cases found : rest.reverse.find? test with
          | none => rfl
          | some other =>
              have equal : other = head := by simpa [found] using last
              have member := List.mem_reverse.mp (List.mem_of_find?_eq_some found)
              exact absurd (equal ▸ member) absent
        intro other member passes'
        rcases List.mem_cons.mp member with rfl | member
        · rfl
        · exact absurd passes' (List.find?_eq_none.mp none_later other (List.mem_reverse.mpr member))
      · have first' : rest.find? test = some item := by simpa [passes] using first
        have last' : rest.reverse.find? test = some item := by simpa [passes] using last
        intro other member passes'
        rcases List.mem_cons.mp member with rfl | member
        · exact absurd passes' passes
        · exact ih nodup' first' last' other member passes'

/-- After pushes of few keys, the newest item that passes a test made by one key only is the first item
of that key, when it passes. -/
theorem newest_pushAll {capacity : Nat} {key : Item → Key} {items : List Item} {keys : List Key} {owner : Key}
    {test : Item → Bool} (few : keys.length ≤ capacity) (inside : ∀ item ∈ items, key item ∈ keys)
    (owned : ∀ item ∈ items, test item = true → key item = owner) :
    newest test (pushAll capacity key [] items) = (items.find? fun item => key item = owner).filter test := by
  obtain ⟨_, first⟩ := pushAll_first few inside
  have earlier : ∀ item ∈ pushAll capacity key [] items, item ∈ items := fun item member =>
    List.mem_of_find?_eq_some ((first item).mp member)
  have only : ∀ item ∈ pushAll capacity key [] items, test item = true →
      items.find? (fun other => key other = owner) = some item := by
    intro item member passes
    rw [← owned item (earlier item member) passes]
    exact (first item).mp member
  cases found : items.find? (fun item => key item = owner) with
  | none =>
      rw [Option.filter_none, newest_eq_none]
      intro item member
      by_contra passes
      have := only item member (by simpa using passes)
      simp [found] at this
  | some item =>
      have item_key : key item = owner := by simpa using List.find?_some found
      by_cases passes : test item = true
      · have member : item ∈ pushAll capacity key [] items := by
          rw [first item, item_key]
          exact found
        rw [Option.filter_some, if_pos passes]
        apply newest_unique member passes
        intro other queued passes'
        have same := only other queued passes'
        rw [found] at same
        exact (Option.some.inj same).symm
      · rw [Option.filter_some, if_neg passes, newest_eq_none]
        intro other queued
        by_contra passes'
        have same := only other queued (by simpa using passes')
        rw [found] at same
        obtain rfl := Option.some.inj same
        exact passes' (by simpa using passes)

end DedupQueue
