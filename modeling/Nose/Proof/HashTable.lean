import Nose.Source.FastHash

/-
This file shows that the calls of the hash table keep its chains, its free list and its index list in order.
-/

namespace Nose

open ArrayLists

namespace FastHashBase

variable {Key Value : Type}

def links (table : FastHashBase Key Value) (node : Nat) : Option Nat := (table.itemnodes node).pNext

/-- The bucket that the key of a node belongs to. -/
def home (hash : Key → Nat) (table : FastHashBase Key Value) (node : Nat) : Nat :=
  hash (table.nodes node).1 % table.tsize

def bucket (hash : Key → Nat) (table : FastHashBase Key Value) (live : List Nat) (t : Nat) : List Nat :=
  live.filter fun node => table.home hash node = t

def indexed (table : FastHashBase Key Value) : List Nat :=
  window table.indexlist table.fsize table.indexStart table.size

/-- The arrays hold the live nodes, the newest first, and the free nodes. -/
structure Represents (hash : Key → Nat) (table : FastHashBase Key Value) (live free : List Nat) : Prop where
  capacity : 0 < table.fsize
  width : 0 < table.tsize
  positions : ∀ node < table.fsize, (table.itemnodes node).index = node
  freeChain : Chain table.links table.freelist free
  bucketChain : ∀ t < table.tsize, Chain table.links (table.lookuptable t) (table.bucket hash live t)
  partition : (free ++ live).Perm (List.range table.fsize)
  counted : table.size = live.length
  listed : table.fIndexValid = true → table.indexed.Perm live
  started : table.indexStart < table.fsize

/-- A node with another successor changes the links there only. -/
theorem links_update (itemnodes : Nat → ItemNode) (node : Nat) (pNext : Option Nat) :
    (fun other => (Function.update itemnodes node { itemnodes node with pNext := pNext } other).pNext) =
      Function.update (fun other => (itemnodes other).pNext) node pNext := by
  funext other
  by_cases same : other = node
  · rw [same, Function.update_self, Function.update_self]
  · rw [Function.update_of_ne same, Function.update_of_ne same]

theorem index_update (itemnodes : Nat → ItemNode) (node : Nat) (pNext : Option Nat) (other : Nat) :
    (Function.update itemnodes node { itemnodes node with pNext := pNext } other).index = (itemnodes other).index := by
  by_cases same : other = node
  · rw [same, Function.update_self]
  · rw [Function.update_of_ne same]

section Represented

variable {hash : Key → Nat} {table : FastHashBase Key Value} {live free : List Nat}

theorem Represents.nodup (represents : table.Represents hash live free) : (free ++ live).Nodup :=
  represents.partition.nodup_iff.mpr List.nodup_range

theorem Represents.nodup_live (represents : table.Represents hash live free) : live.Nodup :=
  represents.nodup.of_append_right

theorem Represents.disjoint (represents : table.Represents hash live free) {node : Nat} (member : node ∈ free) :
    node ∉ live := fun other => List.disjoint_of_nodup_append represents.nodup member other

theorem Represents.inside (represents : table.Represents hash live free) {node : Nat} (member : node ∈ free ++ live) :
    node < table.fsize := List.mem_range.mp (represents.partition.mem_iff.mp member)

theorem Represents.inside_live (represents : table.Represents hash live free) {node : Nat} (member : node ∈ live) :
    node < table.fsize := represents.inside (List.mem_append_right free member)

theorem Represents.index_live (represents : table.Represents hash live free) {node : Nat} (member : node ∈ live) :
    (table.itemnodes node).index = node := represents.positions node (represents.inside_live member)

theorem Represents.lengths (represents : table.Represents hash live free) :
    free.length + live.length = table.fsize := by
  have total := represents.partition.length_eq
  rwa [List.length_append, List.length_range] at total

theorem Represents.home_lt (represents : table.Represents hash live free) (node : Nat) :
    table.home hash node < table.tsize := Nat.mod_lt _ represents.width

theorem length_bucket_le (hash : Key → Nat) (table : FastHashBase Key Value) (live : List Nat) (t : Nat) :
    (table.bucket hash live t).length ≤ live.length := List.length_filter_le ..

/-- The buckets share the live nodes out. -/
theorem Represents.buckets (represents : table.Represents hash live free) :
    ((List.range table.tsize).flatMap (table.bucket hash live)).Perm live := by
  have all : (live.filter fun node => table.home hash node < table.tsize) = live :=
    List.filter_eq_self.mpr fun node _ => decide_eq_true (represents.home_lt node)
  have shared := flatMap_buckets (table.home hash) live table.tsize
  rwa [all] at shared

end Represented

section Reset

variable {hash : Key → Nat} {table : FastHashBase Key Value}

/-- The free list of a cleared table starts anywhere below its end. -/
theorem chain_reset {start count : Nat} (positive : 0 < count) (stop : start + count = table.fsize) :
    Chain table.reset.links (some start) (List.range' start count) := by
  induction count generalizing start with
  | zero => omega
  | succ count ih =>
      rw [List.range'_succ, chain_cons]
      refine ⟨rfl, ?_⟩
      have inside : start < table.fsize := by omega
      cases count with
      | zero =>
          have last : start = table.fsize - 1 := by omega
          have some_node : 0 < table.fsize := by omega
          simp [links, reset, last, some_node]
      | succ count =>
          have inner : ¬ start = table.fsize - 1 := by omega
          have next : table.reset.links start = some (start + 1) := by simp [links, reset, inside, inner]
          rw [next]
          exact ih (by omega) (by omega)

/-- A cleared table holds nothing, whatever its arrays held before. -/
theorem represents_reset (hash : Key → Nat) (capacity : 0 < table.fsize) (width : 0 < table.tsize) :
    table.reset.Represents hash [] (List.range table.fsize) where
  capacity := capacity
  width := width
  positions := by
    intro node inside
    have small : node < table.fsize := inside
    simp [reset, small]
  freeChain := by
    have chain : Chain table.reset.links (some 0) (List.range' 0 table.fsize) :=
      chain_reset capacity (Nat.zero_add _)
    rw [List.range_eq_range']
    have first : table.reset.freelist = some 0 := if_neg (by omega)
    rwa [first]
  bucketChain := by
    intro t inside
    have small : t < table.tsize := inside
    simp [bucket, reset, small]
  partition := by
    rw [List.append_nil]
    exact List.Perm.refl _
  counted := rfl
  listed := fun _ => List.Perm.refl _
  started := capacity

end Reset

section Find

variable [DecidableEq Key] {hash : Key → Nat} {table : FastHashBase Key Value} {live free : List Nat}

/-- The node holds the key. -/
def holds (table : FastHashBase Key Value) (key : Key) (node : Nat) : Bool := (table.nodes node).1 = key

@[simp] theorem holds_iff {key : Key} {node : Nat} : table.holds key node = true ↔ (table.nodes node).1 = key := by
  simp [holds]

/-- The loop stops at the first node of the key and remembers the node before it. -/
theorem findLoop_eq {key : Key} {fuel : Nat} {pPrev pProbe : Option Nat} {nodes : List Nat}
    (chain : Chain table.links pProbe nodes) (enough : nodes.length < fuel)
    (positions : ∀ node ∈ nodes, (table.itemnodes node).index = node) :
    table.findLoop key fuel pPrev pProbe =
      some (nodes.find? (table.holds key), ((nodes.takeWhile fun node => !table.holds key node).getLast?).or pPrev) := by
  induction nodes generalizing fuel pPrev pProbe with
  | nil =>
      obtain ⟨fuel, rfl⟩ : ∃ n, fuel = n + 1 := ⟨fuel - 1, by simp at enough; omega⟩
      rw [chain_nil.mp chain, findLoop]
      rfl
  | cons node rest ih =>
      obtain ⟨fuel, rfl⟩ : ∃ n, fuel = n + 1 := ⟨fuel - 1, by simp at enough; omega⟩
      obtain ⟨rfl, tail⟩ := chain
      rw [findLoop, positions node List.mem_cons_self]
      by_cases found : (table.nodes node).1 = key
      · have hit : table.holds key node = true := holds_iff.mpr found
        rw [if_pos found, List.find?_cons_of_pos hit, List.takeWhile_cons_of_neg (by simp [hit])]
        rfl
      · have miss : table.holds key node = false := by simpa [holds] using found
        have shorter : rest.length < fuel := by simpa using enough
        have rest_positions : ∀ other ∈ rest, (table.itemnodes other).index = other := fun other member =>
          positions other (List.mem_cons_of_mem _ member)
        have later := @ih fuel (some node) _ tail shorter rest_positions
        rw [if_neg found, List.find?_cons_of_neg (by simp [miss]), List.takeWhile_cons_of_pos (by simp [miss])]
        rw [links] at later
        rw [later, List.getLast?_cons]
        cases (rest.takeWhile fun node => !table.holds key node).getLast? <;> rfl

/-- A search in the bucket of the key is a search among all live nodes. -/
theorem Represents.find_eq (represents : table.Represents hash live free) (key : Key) :
    table.find hash key =
      some (live.find? (table.holds key),
        ((table.bucket hash live (hash key % table.tsize)).takeWhile fun node => !table.holds key node).getLast?) := by
  have small : (table.bucket hash live (hash key % table.tsize)).length < table.fsize + 1 := by
    have bound := length_bucket_le hash table live (hash key % table.tsize)
    have total := represents.lengths
    omega
  have chain := represents.bucketChain (hash key % table.tsize) (Nat.mod_lt _ represents.width)
  rw [find, findLoop_eq chain small fun node member => represents.index_live (List.mem_of_mem_filter member),
    Option.or_none, bucket, List.find?_filter]
  congr 3
  funext node
  by_cases same : (table.nodes node).1 = key <;> simp [holds, home, same]

/-- The found node splits the live nodes behind the newer ones. -/
theorem split_live {key : Key} {node : Nat} (found : live.find? (table.holds key) = some node) :
    (table.nodes node).1 = key ∧
      ∃ newer older, live = newer ++ node :: older ∧ ∀ other ∈ newer, (table.nodes other).1 ≠ key := by
  obtain ⟨hit, newer, older, split, misses⟩ := List.find?_eq_some_iff_append.mp found
  refine ⟨holds_iff.mp hit, newer, older, split, fun other member same => ?_⟩
  have miss := misses other member
  rw [holds_iff.mpr same] at miss
  simp at miss

/-- The search finds the visible value. -/
theorem Represents.lookup_eq (represents : table.Represents hash live free) (key : Key) :
    table.lookup hash key = some (live.find? (table.holds key)) := by
  rw [lookup, represents.find_eq, Option.map_some]
  congr 1
  cases found : live.find? (table.holds key) with
  | none => rfl
  | some node => rw [Option.map_some, represents.index_live (List.mem_of_find?_eq_some found)]

/-- The entries of a table, the newest first. -/
def entries (table : FastHashBase Key Value) (live : List Nat) : ShadowTable.Entries Key Value := live.map table.nodes

theorem lookup_entries (key : Key) :
    (live.find? (table.holds key)).map table.load = ShadowTable.lookup (table.entries live) key := by
  rw [ShadowTable.lookup, entries, List.find?_map, Option.map_map]
  rfl

theorem isSome_entries (key : Key) :
    (live.find? (table.holds key)).isSome = (ShadowTable.lookup (table.entries live) key).isSome := by
  rw [← lookup_entries, Option.isSome_map]

end Find

section Insert

variable {hash : Key → Nat} {table : FastHashBase Key Value} {live free : List Nat} {node : Nat}

/-- A new node is written, becomes the first of its bucket and goes behind the window of the index list. -/
def inserted (hash : Key → Nat) (table : FastHashBase Key Value) (node : Nat) (key : Key) (value : Value) :
    FastHashBase Key Value where
  fsize := table.fsize
  tsize := table.tsize
  nodes := Function.update table.nodes node (key, value)
  itemnodes :=
    Function.update table.itemnodes node
      { table.itemnodes node with pNext := table.lookuptable (hash key % table.tsize) }
  freelist := table.links node
  lookuptable := Function.update table.lookuptable (hash key % table.tsize) (some node)
  indexlist :=
    if table.fIndexValid ∧ table.size < table.fsize then
      Function.update table.indexlist ((table.indexStart + table.size) % table.fsize) node
    else table.indexlist
  fIndexValid := table.fIndexValid
  indexStart := table.indexStart
  size := table.size + 1

theorem Represents.insert_eq (represents : table.Represents hash live (node :: free)) (key : Key) (value : Value) :
    table.insert hash key value = (1, table.inserted hash node key value) := by
  have first : table.freelist = some node := represents.freeChain.head
  have index : (table.itemnodes node).index = node := represents.positions node (represents.inside (by simp))
  rw [insert, first]
  dsimp only
  rw [updateIndexWithAdd, inserted]
  dsimp only
  rw [index, Function.update_self, Nat.add_comm table.size table.indexStart]
  by_cases room : table.fIndexValid ∧ table.size < table.fsize
  · rw [if_pos room, if_pos room]
    rfl
  · rw [if_neg room, if_neg room]
    rfl

theorem insert_full (represents : table.Represents hash live []) (key : Key) (value : Value) :
    table.insert hash key value = (-1, table) := by
  have none_left : table.freelist = none := represents.freeChain.head
  rw [insert, none_left]

/-- The buckets of the old nodes do not change. -/
theorem bucket_inserted (outside : node ∉ live) (key : Key) (value : Value) (t : Nat) :
    (table.inserted hash node key value).bucket hash (node :: live) t =
      if hash key % table.tsize = t then node :: table.bucket hash live t else table.bucket hash live t := by
  have old : ((table.inserted hash node key value).bucket hash live t) = table.bucket hash live t := by
    apply List.filter_congr
    intro other member
    have different : other ≠ node := by
      rintro rfl
      exact outside member
    have same : (table.inserted hash node key value).home hash other = table.home hash other := by
      simp [home, inserted, Function.update_of_ne different]
    rw [same]
  have new : (table.inserted hash node key value).home hash node = hash key % table.tsize := by
    simp [home, inserted]
  rw [bucket, List.filter_cons, new, ← old]
  simp only [decide_eq_true_eq]
  rfl

theorem Represents.inserted (represents : table.Represents hash live (node :: free)) (key : Key) (value : Value) :
    (table.inserted hash node key value).Represents hash (node :: live) free := by
  have outside : node ∉ live := represents.disjoint List.mem_cons_self
  have fresh : node ∉ free := (List.nodup_cons.mp represents.nodup.of_append_left).1
  have links_eq : (table.inserted hash node key value).links =
      Function.update table.links node (table.lookuptable (hash key % table.tsize)) := links_update ..
  have index : (table.itemnodes node).index = node := represents.positions node (represents.inside (by simp))
  have room : table.size < table.fsize := by
    have total := represents.lengths
    rw [List.length_cons] at total
    rw [represents.counted]
    omega
  refine ⟨represents.capacity, represents.width, ?_, ?_, ?_, ?_, ?_, ?_, represents.started⟩
  · intro other inside
    exact (index_update ..).trans (represents.positions other inside)
  · rw [links_eq]
    exact (chain_cons.mp represents.freeChain).2.update fresh _
  · intro t small
    have old : Chain table.links (table.lookuptable t) (table.bucket hash live t) := represents.bucketChain t small
    have away : node ∉ table.bucket hash live t := fun member => outside (List.mem_of_mem_filter member)
    rw [links_eq, bucket_inserted outside]
    by_cases here : hash key % table.tsize = t
    · subst here
      have first : (table.inserted hash node key value).lookuptable (hash key % table.tsize) = some node :=
        Function.update_self ..
      rw [if_pos rfl, first]
      exact old.push away
    · have same : (table.inserted hash node key value).lookuptable t = table.lookuptable t :=
        Function.update_of_ne (fun equal => here equal.symm) ..
      rw [if_neg here, same]
      exact old.update away _
  · exact List.perm_middle.trans represents.partition
  · exact congrArg (· + 1) represents.counted
  · intro valid
    have written : (table.inserted hash node key value).indexlist =
        Function.update table.indexlist ((table.indexStart + table.size) % table.fsize) node := if_pos ⟨valid, room⟩
    have wider : (table.inserted hash node key value).indexed = table.indexed ++ [node] := by
      rw [indexed, written]
      change window _ table.fsize table.indexStart (table.size + 1) = _
      rw [window_succ_back, window_update room, Function.update_self]
      rfl
    rw [wider]
    exact (List.perm_append_singleton node table.indexed).trans ((represents.listed valid).cons node)

theorem entries_inserted (outside : node ∉ live) (key : Key) (value : Value) :
    (table.inserted hash node key value).entries (node :: live) = (key, value) :: table.entries live := by
  rw [entries, List.map_cons, entries]
  congr 1
  · exact Function.update_self ..
  · apply List.map_congr_left
    intro other member
    apply Function.update_of_ne
    rintro rfl
    exact outside member

end Insert

section Remove

variable {hash : Key → Nat} {table : FastHashBase Key Value} {live free newer older : List Nat} {node : Nat}

/-- The node before the removed node, or the bucket, takes over the next node. -/
def unlinked (hash : Key → Nat) (table : FastHashBase Key Value) (key : Key) (pPrev : Option Nat) (node : Nat) :
    FastHashBase Key Value :=
  match pPrev with
  | none => { table with lookuptable := Function.update table.lookuptable (hash key % table.tsize) (table.links node) }
  | some prev =>
      { table with
        itemnodes := Function.update table.itemnodes prev { table.itemnodes prev with pNext := table.links node } }

/-- A removed node becomes the first free node. -/
def freed (table : FastHashBase Key Value) (node : Nat) : FastHashBase Key Value :=
  { table with
    itemnodes := Function.update table.itemnodes node { table.itemnodes node with pNext := table.freelist }
    freelist := some node
    size := table.size - 1 }

/-- A removal keeps the index list when its first or its last node goes, and clears it with the last node of all. -/
theorem updateIndexWithRemove_eq (index : (table.itemnodes node).index = node)
    (counted : table.size = (newer ++ node :: older).length) (started : table.indexStart < table.fsize)
    (listed : table.fIndexValid = true → table.indexed.Perm (newer ++ node :: older)) :
    ∃ valid start, table.updateIndexWithRemove node = { table with fIndexValid := valid, indexStart := start } ∧
      start < table.fsize ∧
        (valid = true → (window table.indexlist table.fsize start (table.size - 1)).Perm (newer ++ older)) := by
  obtain ⟨size, total⟩ : ∃ n, table.size = n + 1 := ⟨newer.length + older.length, by simp at counted; omega⟩
  have shorter : size = (newer ++ older).length := by
    simp only [List.length_append, List.length_cons] at counted ⊢
    omega
  have less : table.size - 1 = size := by omega
  rw [updateIndexWithRemove, index, less]
  by_cases stale : 1 < table.size ∧ table.fIndexValid = false
  · rw [if_pos (Or.inr stale)]
    exact ⟨table.fIndexValid, table.indexStart, rfl, started, by simp [stale.2]⟩
  rw [if_neg (not_or.mpr ⟨by omega, stale⟩)]
  by_cases last : size = 0
  · rw [if_pos (by omega)]
    subst last
    refine ⟨true, 0, rfl, by omega, fun _ => ?_⟩
    rw [List.length_eq_zero_iff.mp shorter.symm]
    exact List.Perm.refl _
  have valid : table.fIndexValid = true := by
    by_contra invalid
    exact stale ⟨by omega, by simpa using invalid⟩
  have members := listed valid
  rw [indexed, total] at members
  have without := members.trans List.perm_middle
  rw [if_neg (by omega)]
  by_cases front : node = table.indexlist table.indexStart
  · rw [if_pos front]
    refine ⟨table.fIndexValid, (table.indexStart + 1) % table.fsize, rfl, Nat.mod_lt _ (by omega), fun _ => ?_⟩
    rw [window_succ_front started, ← front] at without
    exact without.cons_inv
  rw [if_neg front]
  by_cases back : node = table.indexlist ((table.indexStart + size) % table.fsize)
  · rw [if_pos back]
    refine ⟨table.fIndexValid, table.indexStart, rfl, started, fun _ => ?_⟩
    rw [window_succ_back, ← back] at without
    exact ((List.perm_append_singleton _ _).symm.trans without).cons_inv
  · rw [if_neg back]
    exact ⟨false, table.indexStart, rfl, started, by simp⟩

/-- The bucket of a removed node keeps its other nodes. -/
theorem bucket_split (t : Nat) : table.bucket hash (newer ++ node :: older) t =
    table.bucket hash newer t ++ if table.home hash node = t then node :: table.bucket hash older t
      else table.bucket hash older t := by
  rw [bucket, List.filter_append, List.filter_cons]
  simp only [decide_eq_true_eq]
  rfl

theorem bucket_append (t : Nat) :
    table.bucket hash (newer ++ older) t = table.bucket hash newer t ++ table.bucket hash older t := List.filter_append ..

/-- The chains without the removed node, and the free list, are as before. -/
theorem Represents.unlinked [DecidableEq Key] {key : Key} (represents : table.Represents hash live free)
    (split : live = newer ++ node :: older) (home : table.home hash node = hash key % table.tsize) :
    let table' := table.unlinked hash key (table.bucket hash newer (hash key % table.tsize)).getLast? node
    Chain table'.links table'.freelist free ∧
      ∀ t < table.tsize, Chain table'.links (table'.lookuptable t) (table.bucket hash (newer ++ older) t) := by
  intro table'
  subst split
  have nodup := represents.nodup_live
  have chains := represents.bucketChain
  rcases List.eq_nil_or_concat (table.bucket hash newer (hash key % table.tsize)) with first | ⟨front, prev, shape⟩
  · have same : table' = { table with
        lookuptable := Function.update table.lookuptable (hash key % table.tsize) (table.links node) } := by
      simp only [table', first]
      rfl
    rw [same]
    refine ⟨represents.freeChain, fun t small => ?_⟩
    have old := chains t small
    rw [bucket_split] at old
    rw [bucket_append]
    by_cases here : table.home hash node = t
    · have bucketed : hash key % table.tsize = t := home.symm.trans here
      subst bucketed
      rw [first, if_pos here] at old
      rw [first]
      dsimp only
      rw [Function.update_self]
      exact (chain_cons.mp old).2
    · rw [if_neg here] at old
      dsimp only
      rw [Function.update_of_ne (by rw [← home]; exact fun equal => here equal.symm)]
      exact old
  · have same : table' = { table with
        itemnodes := Function.update table.itemnodes prev { table.itemnodes prev with pNext := table.links node } } := by
      simp only [table', shape, List.concat_eq_append, List.getLast?_append, List.getLast?_singleton]
      rfl
    have inBucket : prev ∈ table.bucket hash newer (hash key % table.tsize) := by simp [shape]
    have prevHome : table.home hash prev = hash key % table.tsize := by simpa using (List.mem_filter.mp inBucket).2
    have prevLive : prev ∈ newer ++ node :: older := List.mem_append_left _ (List.mem_of_mem_filter inBucket)
    have links_eq : table'.links = Function.update table.links prev (table.links node) := by
      rw [same]
      exact links_update ..
    have lookups : table'.lookuptable = table.lookuptable := by rw [same]
    have frees : table'.freelist = table.freelist := by rw [same]
    rw [links_eq, lookups, frees]
    refine ⟨represents.freeChain.update (fun member => represents.disjoint member prevLive) _, fun t small => ?_⟩
    have old := chains t small
    have distinct : (table.bucket hash (newer ++ node :: older) t).Nodup := nodup.filter _
    rw [bucket_split] at old distinct
    rw [bucket_append]
    by_cases here : table.home hash node = t
    · have bucketed : hash key % table.tsize = t := home.symm.trans here
      subst bucketed
      rw [if_pos here, shape, List.concat_eq_append, List.append_assoc, List.singleton_append] at old distinct
      rw [shape, List.concat_eq_append, List.append_assoc, List.singleton_append]
      exact old.unlink distinct
    · rw [if_neg here] at old
      refine old.update (fun member => here ?_) _
      rw [← bucket_append] at member
      have other : table.home hash prev = t := by simpa using (List.mem_filter.mp member).2
      rw [home, ← prevHome, other]

variable [DecidableEq Key]

/-- The node before the found node is the last newer node of the bucket. -/
theorem prev_eq (hash : Key → Nat) (older : List Nat) {key : Key} (holder : (table.nodes node).1 = key)
    (fresh : ∀ other ∈ newer, (table.nodes other).1 ≠ key) :
    ((table.bucket hash (newer ++ node :: older) (hash key % table.tsize)).takeWhile fun other =>
      !table.holds key other) = table.bucket hash newer (hash key % table.tsize) := by
  have here : table.home hash node = hash key % table.tsize := by rw [home, holder]
  have hit : table.holds key node = true := holds_iff.mpr holder
  rw [bucket_split, if_pos here, List.takeWhile_append_of_pos, List.takeWhile_cons_of_neg (by simp [hit]),
    List.append_nil]
  intro other member
  simpa [holds] using fresh other (List.mem_of_mem_filter member)

theorem remove_absent (represents : table.Represents hash live free) {key : Key}
    (absent : live.find? (table.holds key) = none) : table.remove hash key = some (-1, table) := by
  rw [remove, represents.find_eq, Option.map_some, absent]

/-- A removal takes the newest node of the key. -/
theorem Represents.remove (represents : table.Represents hash (newer ++ node :: older) free) {key : Key}
    (holder : (table.nodes node).1 = key) (fresh : ∀ other ∈ newer, (table.nodes other).1 ≠ key) :
    ∃ table', table.remove hash key = some (1, table') ∧ table'.nodes = table.nodes ∧
      table'.fsize = table.fsize ∧ table'.tsize = table.tsize ∧
        table'.Represents hash (newer ++ older) (node :: free) := by
  have here : table.home hash node = hash key % table.tsize := by rw [home, holder]
  have member : node ∈ newer ++ node :: older := by simp
  have index : (table.itemnodes node).index = node := represents.index_live member
  have found : (newer ++ node :: older).find? (table.holds key) = some node := by
    rw [List.find?_eq_some_iff_append]
    exact ⟨holds_iff.mpr holder, newer, older, rfl, fun other member => by simpa [holds] using fresh other member⟩
  have prev := congrArg List.getLast? (prev_eq hash older holder fresh)
  obtain ⟨freeChain, chains⟩ := represents.unlinked rfl here
  set first := table.unlinked hash key (table.bucket hash newer (hash key % table.tsize)).getLast? node with unlinkedTable
  have kept : first.fsize = table.fsize ∧ first.tsize = table.tsize ∧ first.nodes = table.nodes ∧
      first.size = table.size ∧ first.indexStart = table.indexStart ∧ first.fIndexValid = table.fIndexValid ∧
        first.indexlist = table.indexlist ∧ first.freelist = table.freelist ∧
          ∀ other, (first.itemnodes other).index = (table.itemnodes other).index := by
    rw [unlinkedTable]
    unfold FastHashBase.unlinked
    cases (table.bucket hash newer (hash key % table.tsize)).getLast? with
    | none => exact ⟨rfl, rfl, rfl, rfl, rfl, rfl, rfl, rfl, fun _ => rfl⟩
    | some before => exact ⟨rfl, rfl, rfl, rfl, rfl, rfl, rfl, rfl, fun other => index_update ..⟩
  obtain ⟨fsize, tsize, nodes, size, start, valid, list, frees, indexes⟩ := kept
  have listed : first.fIndexValid = true → first.indexed.Perm (newer ++ node :: older) := by
    rw [valid, indexed, list, fsize, start, size]
    exact represents.listed
  have startedFirst : first.indexStart < first.fsize := by
    rw [start, fsize]
    exact represents.started
  obtain ⟨valid', start', updated, started, members⟩ := updateIndexWithRemove_eq ((indexes node).trans index)
    (size.trans represents.counted) startedFirst listed
  refine ⟨{ first with fIndexValid := valid', indexStart := start' }.freed node, ?_, nodes, fsize, tsize, ?_⟩
  · rw [FastHashBase.remove, represents.find_eq, Option.map_some, found, prev]
    change some (1, (first.updateIndexWithRemove node).freed node) = _
    rw [updated]
  have nodup := represents.nodup
  have outside : node ∉ free := fun other => represents.disjoint other member
  have gone : node ∉ newer ++ older := (List.nodup_cons.mp (List.perm_middle.nodup_iff.mp represents.nodup_live)).1
  have links_eq : ({ first with fIndexValid := valid', indexStart := start' }.freed node).links =
      Function.update first.links node first.freelist := links_update ..
  have buckets (t : Nat) : ({ first with fIndexValid := valid', indexStart := start' }.freed node).bucket hash
      (newer ++ older) t = table.bucket hash (newer ++ older) t := by
    apply List.filter_congr
    intro other _
    have same : ({ first with fIndexValid := valid', indexStart := start' }.freed node).home hash other =
        table.home hash other := by
      change hash (first.nodes other).1 % first.tsize = _
      rw [nodes, tsize]
      rfl
    rw [same]
  have width : 0 < first.tsize := tsize ▸ represents.width
  refine ⟨fsize ▸ represents.capacity, width, ?_, ?_, ?_, ?_, ?_, members, started⟩
  · intro other inside
    have small : other < table.fsize := fsize ▸ inside
    exact (index_update ..).trans ((indexes other).trans (represents.positions other small))
  · rw [links_eq]
    exact freeChain.push outside
  · intro t small
    rw [links_eq, buckets]
    exact (chains t (tsize ▸ small)).update (fun other => gone (List.mem_of_mem_filter other)) _
  · have moved : (node :: free ++ (newer ++ older)).Perm (free ++ (newer ++ node :: older)) := by
      rw [List.cons_append]
      exact List.perm_middle.symm.trans (List.perm_middle.symm.append_left free)
    change (node :: free ++ (newer ++ older)).Perm (List.range first.fsize)
    rw [fsize]
    exact moved.trans represents.partition
  · change first.size - 1 = _
    rw [size, represents.counted]
    simp

end Remove

section Store

variable {hash : Key → Nat} {table : FastHashBase Key Value} {live free newer older : List Nat} {node : Nat}

theorem nodes_store (value : Value) :
    (table.store node value).nodes = Function.update table.nodes node ((table.nodes node).1, value) := rfl

/-- A write through a pointer leaves the keys as they are. -/
theorem key_store (value : Value) (other : Nat) : ((table.store node value).nodes other).1 = (table.nodes other).1 := by
  rw [nodes_store]
  by_cases same : other = node
  · rw [same, Function.update_self]
  · rw [Function.update_of_ne same]

theorem Represents.store (represents : table.Represents hash live free) (value : Value) :
    (table.store node value).Represents hash live free := by
  have homes (other : Nat) : (table.store node value).home hash other = table.home hash other := by
    rw [home, key_store]
    rfl
  have buckets (t : Nat) : (table.store node value).bucket hash live t = table.bucket hash live t := by
    apply List.filter_congr
    intro other _
    rw [homes]
  refine ⟨represents.capacity, represents.width, represents.positions, represents.freeChain, fun t small => ?_,
    represents.partition, represents.counted, represents.listed, represents.started⟩
  rw [buckets]
  exact represents.bucketChain t small

theorem entries_store {key : Key} (distinct : (newer ++ node :: older).Nodup) (holder : (table.nodes node).1 = key)
    (value : Value) : (table.store node value).entries (newer ++ node :: older) =
      table.entries newer ++ (key, value) :: table.entries older := by
  have others (nodes : List Nat) (outside : node ∉ nodes) :
      (table.store node value).entries nodes = table.entries nodes := by
    apply List.map_congr_left
    intro other member
    apply Function.update_of_ne
    rintro rfl
    exact outside member
  have apart := List.nodup_cons.mp (List.perm_middle.nodup_iff.mp distinct)
  rw [List.mem_append, not_or] at apart
  rw [entries, List.map_append, List.map_cons]
  congr 1
  · exact others newer apart.1.1
  · congr 1
    · rw [nodes_store, Function.update_self, holder]
    · exact others older apart.1.2

end Store

section Index

variable {hash : Key → Nat} {table : FastHashBase Key Value} {live free : List Nat}

/-- The inner loop writes the nodes of one chain behind the nodes that are written already. -/
theorem reIndexChain_eq {fuel : Nat} {start : Option Nat} {nodes : List Nat} (chain : Chain table.links start nodes)
    (enough : nodes.length < fuel) (positions : ∀ node ∈ nodes, (table.itemnodes node).index = node)
    (indexlist : Nat → Nat) (index : Nat) :
    table.reIndexChain fuel start (indexlist, index) = some (writeAll indexlist index nodes, index + nodes.length) := by
  induction nodes generalizing fuel start indexlist index with
  | nil =>
      obtain ⟨fuel, rfl⟩ : ∃ n, fuel = n + 1 := ⟨fuel - 1, by simp at enough; omega⟩
      rw [chain_nil.mp chain]
      rfl
  | cons node rest ih =>
      obtain ⟨fuel, rfl⟩ : ∃ n, fuel = n + 1 := ⟨fuel - 1, by simp at enough; omega⟩
      obtain ⟨rfl, tail⟩ := chain
      have shorter : rest.length < fuel := by simpa using enough
      rw [reIndexChain, positions node List.mem_cons_self]
      have later := ih tail shorter (fun other member => positions other (List.mem_cons_of_mem _ member))
        (Function.update indexlist index node) (index + 1)
      rw [links] at later
      rw [later, writeAll, List.length_cons]
      congr 2
      omega

/-- The outer loop writes the nodes of all the buckets. -/
theorem reIndexAll_eq (represents : table.Represents hash live free) (buckets : List Nat)
    (inside : ∀ t ∈ buckets, t < table.tsize) (indexlist : Nat → Nat) (index : Nat) :
    buckets.foldlM (fun written t => table.reIndexChain (table.fsize + 1) (table.lookuptable t) written)
        (indexlist, index) =
      some (writeAll indexlist index (buckets.flatMap (table.bucket hash live)),
        index + (buckets.flatMap (table.bucket hash live)).length) := by
  induction buckets generalizing indexlist index with
  | nil => rfl
  | cons t rest ih =>
      have small : (table.bucket hash live t).length < table.fsize + 1 := by
        have bound := length_bucket_le hash table live t
        have total := represents.lengths
        omega
      have chain := represents.bucketChain t (inside t List.mem_cons_self)
      rw [List.foldlM_cons, reIndexChain_eq chain small fun node member =>
        represents.index_live (List.mem_of_mem_filter member)]
      rw [Option.bind_eq_bind, Option.bind_some, ih fun t member => inside t (List.mem_cons_of_mem _ member),
        List.flatMap_cons, writeAll_append, List.length_append, Nat.add_assoc]

def relisted (table : FastHashBase Key Value) (indexlist : Nat → Nat) : FastHashBase Key Value :=
  { table with indexlist := indexlist, fIndexValid := true, indexStart := 0 }

/-- A rebuilt index list holds the live nodes. -/
theorem Represents.reIndex (represents : table.Represents hash live free) (some_entry : table.size ≠ 0) :
    ∃ indexlist, table.reIndex = some (table.relisted indexlist) ∧
      (table.relisted indexlist).Represents hash live free := by
  set nodes := (List.range table.tsize).flatMap (table.bucket hash live) with all
  have members : nodes.Perm live := represents.buckets
  have count : nodes.length = table.size := members.length_eq.trans represents.counted.symm
  have fits : nodes.length ≤ table.fsize := by
    have total := represents.lengths
    rw [count, represents.counted]
    omega
  refine ⟨writeAll table.indexlist 0 nodes, ?_, represents.capacity, represents.width, represents.positions,
    represents.freeChain, represents.bucketChain, represents.partition, represents.counted, fun _ => ?_,
    represents.capacity⟩
  · have written := reIndexAll_eq represents (List.range table.tsize) (fun t => List.mem_range.mp) table.indexlist 0
    rw [FastHashBase.reIndex, if_neg some_entry, written]
    rfl
  · change (window (writeAll table.indexlist 0 nodes) table.fsize 0 table.size).Perm live
    rw [← count, window_writeAll table.indexlist nodes fits]
    exact members

/-- A valid index list answers for every entry and stays as it is. -/
theorem lookupByIndex_valid (valid : table.fIndexValid = true) {index : Nat} (inside : index < table.size) :
    table.lookupByIndex index =
      some (some (table.nodes (table.indexlist ((table.indexStart + index) % table.fsize))), table) := by
  rw [lookupByIndex, if_neg (by omega), if_pos valid, Option.map_some, if_pos valid]

/-- The table with an index list that is valid. -/
theorem Represents.validate (represents : table.Represents hash live free) (some_entry : table.size ≠ 0) :
    ∃ table' : FastHashBase Key Value,
      (∀ index < table.size, table.lookupByIndex index = table'.lookupByIndex index) ∧
      table'.fIndexValid = true ∧ table'.nodes = table.nodes ∧ table'.fsize = table.fsize ∧
        table'.size = table.size ∧ table'.Represents hash live free := by
  by_cases valid : table.fIndexValid = true
  · exact ⟨table, fun _ _ => rfl, valid, rfl, rfl, rfl, represents⟩
  · obtain ⟨indexlist, rebuilt, represents'⟩ := represents.reIndex some_entry
    refine ⟨table.relisted indexlist, fun index inside => ?_, rfl, rfl, rfl, rfl, represents'⟩
    have answered : (table.relisted indexlist).lookupByIndex index = _ := lookupByIndex_valid rfl inside
    rw [answered, FastHashBase.lookupByIndex, if_neg (by omega), if_neg valid, rebuilt, Option.map_some]
    rfl

/-- The indexes of a valid list reach the entries once each. -/
theorem Represents.items (represents : table.Represents hash live free) (valid : table.fIndexValid = true) :
    ((List.range table.size).map fun index =>
      table.nodes (table.indexlist ((table.indexStart + index) % table.fsize))).Perm (table.entries live) := by
  have reached : ((List.range table.size).map fun index =>
      table.nodes (table.indexlist ((table.indexStart + index) % table.fsize))) = table.indexed.map table.nodes := by
    rw [indexed, window, List.map_map]
    rfl
  rw [reached]
  exact (represents.listed valid).map table.nodes

end Index

end FastHashBase

end Nose
