import Nose.Proof.HashTable

/-
This file shows that the hash table is a table whose newest entry for a key hides the older ones, and that its index
list reaches every entry once.
-/

namespace Nose

section Refinement

variable {Key Value : Type} [DecidableEq Key]

/-- A table of limited size answers the calls from its entries. An index is answered below the number of the entries. -/
def shadowStep (capacity : Nat) (entries : ShadowTable.Entries Key Value) :
    FastHashCall Key Value → Option (ShadowTable.Entries Key Value × List (FastHashResult Value))
  | .insert key value =>
      if entries.length < capacity then some ((key, value) :: entries, [.code 1]) else some (entries, [.code (-1)])
  | .remove key =>
      some (ShadowTable.remove entries key, [.code (if (ShadowTable.lookup entries key).isSome then 1 else -1)])
  | .lookup key => some (entries, [.value (ShadowTable.lookup entries key)])
  | .store key value =>
      some (ShadowTable.store key value entries, [.flag (ShadowTable.lookup entries key).isSome])
  | .exist key => some (entries, [.flag (ShadowTable.lookup entries key).isSome])
  | .lookupByIndex index => some (entries, [.flag (decide (index < entries.length))])
  | .size => some (entries, [.size entries.length])
  | .reset => some ([], [])

/-- The table has the capacity and holds the entries. -/
def Refines (hash : Key → Nat) (capacity : Nat) (entries : ShadowTable.Entries Key Value)
    (table : FastHashBase Key Value) : Prop :=
  table.fsize = capacity ∧ ∃ live free, table.Represents hash live free ∧ table.entries live = entries

variable {hash : Key → Nat} {capacity : Nat} {entries : ShadowTable.Entries Key Value}
  {table : FastHashBase Key Value} {live free : List Nat}

open ArrayLists FastHashBase

omit [DecidableEq Key] in
theorem keys_entries {key : Key} (absent : ∀ node ∈ live, (table.nodes node).1 ≠ key) :
    ∀ entry ∈ table.entries live, entry.1 ≠ key := by
  intro entry member
  obtain ⟨node, inside, rfl⟩ := List.mem_map.mp member
  exact absent node inside

omit [DecidableEq Key] in
theorem Refines.length_eq (refines : Refines hash capacity entries table) : table.size = entries.length := by
  obtain ⟨-, live, free, represents, rfl⟩ := refines
  rw [represents.counted, FastHashBase.entries, List.length_map]

omit [DecidableEq Key] in
theorem Refines.insert (refines : Refines hash capacity entries table) (key : Key) (value : Value) :
    (entries.length < capacity ∧ (table.insert hash key value).1 = 1 ∧
        Refines hash capacity ((key, value) :: entries) (table.insert hash key value).2) ∨
      (entries.length = capacity ∧ table.insert hash key value = (-1, table)) := by
  have count := refines.length_eq
  obtain ⟨rfl, live, free, represents, rfl⟩ := refines
  have total := represents.lengths
  rw [represents.counted] at count
  cases free with
  | nil =>
      right
      rw [List.length_nil, Nat.zero_add] at total
      exact ⟨count.symm.trans total, insert_full represents key value⟩
  | cons node free =>
      left
      rw [List.length_cons] at total
      rw [represents.insert_eq]
      exact ⟨by omega, rfl, rfl, node :: live, free, represents.inserted key value,
        entries_inserted (represents.disjoint List.mem_cons_self) key value⟩

theorem Refines.lookup (refines : Refines hash capacity entries table) (key : Key) :
    ∃ found, table.lookup hash key = some found ∧ found.map table.load = ShadowTable.lookup entries key := by
  obtain ⟨-, live, free, represents, rfl⟩ := refines
  exact ⟨_, represents.lookup_eq key, lookup_entries key⟩

theorem Refines.exist (refines : Refines hash capacity entries table) (key : Key) :
    table.exist hash key = some (ShadowTable.lookup entries key).isSome := by
  obtain ⟨-, live, free, represents, rfl⟩ := refines
  rw [FastHashBase.exist, represents.find_eq, Option.map_some, isSome_entries]

theorem Refines.remove (refines : Refines hash capacity entries table) (key : Key) :
    ∃ table', table.remove hash key =
        some (if (ShadowTable.lookup entries key).isSome then 1 else -1, table') ∧
      Refines hash capacity (ShadowTable.remove entries key) table' := by
  obtain ⟨rfl, live, free, represents, rfl⟩ := refines
  rw [← isSome_entries]
  cases found : live.find? (table.holds key) with
  | none =>
      have absent : ∀ node ∈ live, (table.nodes node).1 ≠ key := by simpa [holds] using found
      refine ⟨table, remove_absent represents found, rfl, live, free, represents, ?_⟩
      exact (ShadowTable.remove_absent (keys_entries absent)).symm
  | some node =>
      obtain ⟨holder, newer, older, rfl, fresh⟩ := split_live found
      obtain ⟨table', removed, nodes, fsize, -, represents'⟩ := represents.remove holder fresh
      refine ⟨table', removed, fsize, newer ++ older, node :: free, represents', ?_⟩
      rw [FastHashBase.entries, FastHashBase.entries, nodes, List.map_append, List.map_append, List.map_cons]
      have shape : table.nodes node = (key, (table.nodes node).2) := by rw [← holder]
      rw [shape]
      exact (ShadowTable.remove_split (keys_entries fresh)).symm

theorem Refines.store (refines : Refines hash capacity entries table) (key : Key) (value : Value) :
    (ShadowTable.lookup entries key = none ∧ table.lookup hash key = some none ∧
        ShadowTable.store key value entries = entries) ∨
      ∃ pValue, (ShadowTable.lookup entries key).isSome ∧ table.lookup hash key = some (some pValue) ∧
        Refines hash capacity (ShadowTable.store key value entries) (table.store pValue value) := by
  obtain ⟨rfl, live, free, represents, rfl⟩ := refines
  rw [represents.lookup_eq]
  cases found : live.find? (table.holds key) with
  | none =>
      left
      have absent : ∀ node ∈ live, (table.nodes node).1 ≠ key := by simpa [holds] using found
      exact ⟨ShadowTable.lookup_eq_none_iff.mpr (keys_entries absent), rfl,
        ShadowTable.store_absent (keys_entries absent)⟩
  | some node =>
      right
      obtain ⟨holder, newer, older, rfl, fresh⟩ := split_live found
      refine ⟨node, by rw [← isSome_entries, found, Option.isSome_some], rfl, rfl, newer ++ node :: older, free,
        represents.store value, ?_⟩
      have shape : table.nodes node = (key, (table.nodes node).2) := by rw [← holder]
      rw [entries_store represents.nodup_live holder]
      rw [FastHashBase.entries, FastHashBase.entries, FastHashBase.entries, List.map_append, List.map_cons, shape]
      exact (ShadowTable.store_split (keys_entries fresh)).symm

omit [DecidableEq Key] in
theorem Refines.reset (refines : Refines hash capacity entries table) : Refines hash capacity [] table.reset := by
  obtain ⟨rfl, live, free, represents, rfl⟩ := refines
  exact ⟨rfl, [], List.range table.fsize, represents_reset hash represents.capacity represents.width, rfl⟩

omit [DecidableEq Key] in
/-- A lookup by index answers below the number of the entries. The entries stay. -/
theorem Refines.lookupByIndex (refines : Refines hash capacity entries table) (index : Nat) :
    ∃ found table', table.lookupByIndex index = some (found, table') ∧
      found.isSome = decide (index < entries.length) ∧ Refines hash capacity entries table' := by
  have count := refines.length_eq
  by_cases inside : index < table.size
  · obtain ⟨rfl, live, free, represents, rfl⟩ := refines
    obtain ⟨table', same, valid, nodes, fsize, size, represents'⟩ := represents.validate (by omega)
    have answered := (same index inside).trans (lookupByIndex_valid valid (by omega))
    refine ⟨_, table', answered, ?_, fsize, live, free, represents', ?_⟩
    · rw [Option.isSome_some, ← count, decide_eq_true inside]
    · rw [FastHashBase.entries, nodes]
      rfl
  · have past : table.lookupByIndex index = some (none, table) := if_pos (by omega)
    refine ⟨none, table, past, ?_, refines⟩
    rw [Option.isSome_none, ← count, decide_eq_false inside]

/-- Every call on the table is matched by the call on its entries. -/
theorem fastHashStep_refines (hash : Key → Nat) (capacity : Nat) (entries : ShadowTable.Entries Key Value)
    (table : FastHashBase Key Value) (call : FastHashCall Key Value) (next : ShadowTable.Entries Key Value)
    (results : List (FastHashResult Value)) (refines : Refines hash capacity entries table)
    (stepped : shadowStep capacity entries call = some (next, results)) :
    ∃ table', fastHashStep hash table call = some (table', results) ∧ Refines hash capacity next table' := by
  cases call with
  | insert key value =>
      rw [shadowStep] at stepped
      rcases refines.insert key value with ⟨room, code, kept⟩ | ⟨full, same⟩
      · rw [if_pos room] at stepped
        obtain ⟨rfl, rfl⟩ := Prod.mk.inj (Option.some.inj stepped)
        exact ⟨_, by rw [fastHashStep, code], kept⟩
      · rw [if_neg (by omega)] at stepped
        obtain ⟨rfl, rfl⟩ := Prod.mk.inj (Option.some.inj stepped)
        exact ⟨table, by rw [fastHashStep, same], refines⟩
  | remove key =>
      obtain ⟨rfl, rfl⟩ := Prod.mk.inj (Option.some.inj stepped)
      obtain ⟨table', removed, kept⟩ := refines.remove key
      exact ⟨table', by rw [fastHashStep, removed]; rfl, kept⟩
  | lookup key =>
      obtain ⟨rfl, rfl⟩ := Prod.mk.inj (Option.some.inj stepped)
      obtain ⟨found, answered, value⟩ := refines.lookup key
      exact ⟨table, by rw [fastHashStep, answered, ← value]; rfl, refines⟩
  | store key value =>
      obtain ⟨rfl, rfl⟩ := Prod.mk.inj (Option.some.inj stepped)
      rcases refines.store key value with ⟨absent, missed, same⟩ | ⟨pValue, present, found, kept⟩
      · rw [same, absent]
        exact ⟨table, by rw [fastHashStep, missed]; rfl, refines⟩
      · exact ⟨_, by rw [fastHashStep, found, present]; rfl, kept⟩
  | exist key =>
      obtain ⟨rfl, rfl⟩ := Prod.mk.inj (Option.some.inj stepped)
      have answered := refines.exist key
      exact ⟨table, by rw [fastHashStep, answered]; rfl, refines⟩
  | lookupByIndex index =>
      obtain ⟨rfl, rfl⟩ := Prod.mk.inj (Option.some.inj stepped)
      obtain ⟨found, table', answered, flag, kept⟩ := refines.lookupByIndex index
      exact ⟨table', by rw [fastHashStep, answered, ← flag]; rfl, kept⟩
  | size =>
      obtain ⟨rfl, rfl⟩ := Prod.mk.inj (Option.some.inj stepped)
      exact ⟨table, by rw [fastHashStep, refines.length_eq], refines⟩
  | reset =>
      obtain ⟨rfl, rfl⟩ := Prod.mk.inj (Option.some.inj stepped)
      exact ⟨_, rfl, refines.reset⟩

omit [DecidableEq Key] in
/-- A table without entries is matched by any arrays. -/
theorem refines_init (hash : Key → Nat) {fsize tsize : Nat} (capacity : 0 < fsize) (width : 0 < tsize)
    (nodelist : Nat → Key × Value) (itemnodelist : Nat → ItemNode) (lookuptable : Nat → Option Nat)
    (indexlist : Nat → Nat) :
    Refines hash fsize [] (FastHashBase.init fsize tsize nodelist itemnodelist lookuptable indexlist) :=
  ⟨rfl, [], List.range fsize, represents_reset hash capacity width, rfl⟩

/-- The entries answer every call. -/
theorem shadow_total (capacity : Nat) (calls : List (FastHashCall Key Value))
    (entries : ShadowTable.Entries Key Value) :
    ∃ final results, LoggedRun.run (shadowStep capacity) entries calls = some (final, results) := by
  induction calls generalizing entries with
  | nil => exact ⟨entries, [], rfl⟩
  | cons call rest ih =>
      obtain ⟨next, new, stepped⟩ : ∃ next new, shadowStep capacity entries call = some (next, new) := by
        cases call with
        | insert key value =>
            by_cases room : entries.length < capacity
            · exact ⟨_, _, if_pos room⟩
            · exact ⟨_, _, if_neg room⟩
        | _ => exact ⟨_, _, rfl⟩
      obtain ⟨final, later, reached⟩ := ih next
      exact ⟨final, new ++ later, LoggedRun.run_cons.mpr ⟨next, new, later, stepped, reached, rfl⟩⟩

/-- Every run of calls ends with a table that holds the entries of the same run on the entries, with the same results. -/
theorem fastHash_run (hash : Key → Nat) {fsize tsize : Nat} (capacity : 0 < fsize) (width : 0 < tsize)
    (nodelist : Nat → Key × Value) (itemnodelist : Nat → ItemNode) (lookuptable : Nat → Option Nat)
    (indexlist : Nat → Nat) (calls : List (FastHashCall Key Value)) :
    ∃ table entries results,
      LoggedRun.run (fastHashStep hash) (FastHashBase.init fsize tsize nodelist itemnodelist lookuptable indexlist) calls =
          some (table, results) ∧
        LoggedRun.run (shadowStep fsize) [] calls = some (entries, results) ∧ Refines hash fsize entries table := by
  obtain ⟨entries, results, reached⟩ := shadow_total fsize calls ([] : ShadowTable.Entries Key Value)
  obtain ⟨table, matched, refines⟩ := LoggedRun.run_refines (fastHashStep_refines hash fsize)
    (refines_init hash capacity width nodelist itemnodelist lookuptable indexlist) reached
  exact ⟨table, entries, results, matched, reached, refines⟩

/-- A caller reads the entries at some indexes in order. -/
def visit (table : FastHashBase Key Value) :
    List Nat → Option (List (Option (Key × Value)) × FastHashBase Key Value)
  | [] => some ([], table)
  | index :: rest =>
      (table.lookupByIndex index).bind fun first =>
        (visit first.2 rest).map fun last => (first.1 :: last.1, last.2)

omit [DecidableEq Key] in
/-- A valid index list answers at every index from one list of entries. -/
theorem visit_valid (valid : table.fIndexValid = true) {indexes : List Nat}
    (inside : ∀ index ∈ indexes, index < table.size) :
    visit table indexes = some (indexes.map fun index =>
      some (table.nodes (table.indexlist ((table.indexStart + index) % table.fsize))), table) := by
  induction indexes with
  | nil => rfl
  | cons index rest ih =>
      rw [visit, lookupByIndex_valid valid (inside index List.mem_cons_self), Option.bind_some,
        ih fun other member => inside other (List.mem_cons_of_mem _ member)]
      rfl

omit [DecidableEq Key] in
/-- The first lookup makes the index list valid for the later ones. -/
theorem Refines.visit (refines : Refines hash capacity entries table) {indexes : List Nat}
    (all : indexes.Perm (List.range table.size)) :
    ∃ (items : List (Key × Value)) (table' : FastHashBase Key Value),
      Nose.visit table indexes = some (items.map some, table') ∧ items.Perm entries := by
  obtain ⟨rfl, live, free, represents, rfl⟩ := refines
  cases indexes with
  | nil =>
      have empty : table.size = 0 := by simpa using all.length_eq.symm
      have dead : live = [] := List.length_eq_zero_iff.mp (represents.counted.symm.trans empty)
      exact ⟨[], table, rfl, by rw [dead]; exact List.Perm.refl _⟩
  | cons index rest =>
      have inside : ∀ other ∈ index :: rest, other < table.size := fun other member =>
        List.mem_range.mp (all.mem_iff.mp member)
      have first := inside index List.mem_cons_self
      obtain ⟨table', same, valid, nodes, -, size, represents'⟩ := represents.validate (by omega)
      have visited : Nose.visit table (index :: rest) = Nose.visit table' (index :: rest) := by
        rw [Nose.visit, Nose.visit, same index first]
      rw [visited, visit_valid valid (by rwa [size])]
      refine ⟨(index :: rest).map fun index =>
        table'.nodes (table'.indexlist ((table'.indexStart + index) % table'.fsize)), table', ?_, ?_⟩
      · rw [List.map_map]
        rfl
      · have reached := represents'.items valid
        rw [size] at reached
        have moved := (all.map fun index =>
          table'.nodes (table'.indexlist ((table'.indexStart + index) % table'.fsize))).trans reached
        have unchanged : table'.entries live = table.entries live := by
          rw [FastHashBase.entries, FastHashBase.entries, nodes]
        rwa [unchanged] at moved

/-- In every run of calls the table gives the results of a list whose newest entry for a key hides the older ones. Its
loops end, and its nodes are shared out between the free list and the buckets. -/
theorem fastHash_refines_shadowTable (hash : Key → Nat) {fsize tsize : Nat} (capacity : 0 < fsize) (width : 0 < tsize)
    (nodelist : Nat → Key × Value) (itemnodelist : Nat → ItemNode) (lookuptable : Nat → Option Nat)
    (indexlist : Nat → Nat) (calls : List (FastHashCall Key Value)) :
    ∃ table entries results live free,
      LoggedRun.run (fastHashStep hash) (FastHashBase.init fsize tsize nodelist itemnodelist lookuptable indexlist) calls =
          some (table, results) ∧
        LoggedRun.run (shadowStep fsize) [] calls = some (entries, results) ∧
          table.Represents hash live free ∧ table.entries live = entries := by
  obtain ⟨table, entries, results, reached, matched, -, live, free, represents, same⟩ :=
    fastHash_run hash capacity width nodelist itemnodelist lookuptable indexlist calls
  exact ⟨table, entries, results, live, free, reached, matched, represents, same⟩

/-- A table of four entries whose hashes share two lists. -/
def sampleTable : FastHashBase Nat Nat :=
  FastHashBase.init 4 2 (fun _ => (0, 0)) (fun _ => ⟨0, none⟩) (fun _ => none) fun _ => 0

/-- A second entry hides the first one until it is removed. Then another key is removed and the table is filled up. -/
def sampleTableCalls : List (FastHashCall Nat Nat) :=
  [.insert 5 6, .insert 7 8, .insert 5 9, .lookup 5, .remove 5, .lookup 5, .remove 7, .insert 4 1, .insert 3 2,
    .insert 2 3, .insert 1 4, .lookup 7, .lookup 3]

theorem fastHash_refines_shadowTable_sample :
    ∃ table entries results live free,
      LoggedRun.run (fastHashStep id) sampleTable sampleTableCalls = some (table, results) ∧
        LoggedRun.run (shadowStep 4) [] sampleTableCalls = some (entries, results) ∧
          table.Represents id live free ∧ table.entries live = entries ∧ entries.length = 4 := by
  obtain ⟨table, entries, results, live, free, reached, matched, represents, same⟩ :=
    fastHash_refines_shadowTable id (show 0 < 4 by decide) (show 0 < 2 by decide) (fun _ => (0, 0))
      (fun _ => ⟨0, none⟩) (fun _ => none) (fun _ => 0) sampleTableCalls
  refine ⟨table, entries, results, live, free, reached, matched, represents, same, ?_⟩
  have outcome : (LoggedRun.run (shadowStep 4) [] sampleTableCalls).map (fun result => result.1.length) = some 4 := by
    decide +kernel
  rw [matched] at outcome
  simpa using outcome

/-- After every run of calls the indexes below the size, in any order, reach every entry once. -/
theorem fastHash_visit_all (hash : Key → Nat) {fsize tsize : Nat} (capacity : 0 < fsize) (width : 0 < tsize)
    (nodelist : Nat → Key × Value) (itemnodelist : Nat → ItemNode) (lookuptable : Nat → Option Nat)
    (indexlist : Nat → Nat) (calls : List (FastHashCall Key Value)) :
    ∃ table entries results,
      LoggedRun.run (fastHashStep hash) (FastHashBase.init fsize tsize nodelist itemnodelist lookuptable indexlist) calls =
          some (table, results) ∧
        LoggedRun.run (shadowStep fsize) [] calls = some (entries, results) ∧
          ∀ indexes, indexes.Perm (List.range table.size) →
            ∃ (items : List (Key × Value)) (table' : FastHashBase Key Value),
              visit table indexes = some (items.map some, table') ∧ items.Perm entries := by
  obtain ⟨table, entries, results, reached, matched, refines⟩ :=
    fastHash_run hash capacity width nodelist itemnodelist lookuptable indexlist calls
  exact ⟨table, entries, results, reached, matched, fun indexes all => refines.visit all⟩

/-- The removals leave the index to be rebuilt, and four indexes in another order reach all entries. -/
theorem fastHash_visit_all_sample :
    ∃ table entries results, LoggedRun.run (fastHashStep id) sampleTable sampleTableCalls = some (table, results) ∧
      LoggedRun.run (shadowStep 4) [] sampleTableCalls = some (entries, results) ∧
        ∃ (items : List (Nat × Nat)) (table' : FastHashBase Nat Nat),
          visit table [2, 0, 3, 1] = some (items.map some, table') ∧ items.Perm entries := by
  obtain ⟨table, entries, results, reached, matched, visits⟩ :=
    fastHash_visit_all id (show 0 < 4 by decide) (show 0 < 2 by decide) (fun _ => (0, 0))
      (fun _ => ⟨0, none⟩) (fun _ => none) (fun _ => 0) sampleTableCalls
  have outcome : (LoggedRun.run (fastHashStep id) sampleTable sampleTableCalls).map (fun result => result.1.size) =
      some 4 := by decide +kernel
  rw [sampleTable, reached] at outcome
  have size : table.size = 4 := by simpa using outcome
  exact ⟨table, entries, results, reached, matched, visits [2, 0, 3, 1] (by rw [size]; decide)⟩

end Refinement

end Nose
