import Mathlib.Data.List.Nodup
import Mathlib.Tactic

/-
This file gives lists that live in arrays. They are linked through the successors of their nodes, or they are a window
of a circular array.
-/

namespace ArrayLists

variable {Address : Type}

/-- The successors lead from the start through the nodes to the end. -/
def Chain (next : Address → Option Address) : Option Address → List Address → Prop
  | start, [] => start = none
  | start, node :: rest => start = some node ∧ Chain next (next node) rest

variable {next other : Address → Option Address} {start : Option Address} {nodes : List Address}

@[simp] theorem chain_nil : Chain next start [] ↔ start = none := Iff.rfl

@[simp] theorem chain_cons {node : Address} {rest : List Address} :
    Chain next start (node :: rest) ↔ start = some node ∧ Chain next (next node) rest := Iff.rfl

/-- A chain depends on the successors of its own nodes only. -/
theorem Chain.congr (chain : Chain next start nodes) (agree : ∀ node ∈ nodes, other node = next node) :
    Chain other start nodes := by
  induction nodes generalizing start with
  | nil => exact chain
  | cons node rest ih =>
      obtain ⟨first, tail⟩ := chain
      refine ⟨first, ?_⟩
      rw [agree node List.mem_cons_self]
      exact ih tail fun other member => agree other (List.mem_cons_of_mem _ member)

/-- The start of a chain is its first node. -/
theorem Chain.head (chain : Chain next start nodes) : start = nodes.head? := by
  cases nodes with
  | nil => exact chain
  | cons node rest => exact chain.1

section Update

variable [DecidableEq Address]

/-- A node outside a chain can get another successor. -/
theorem Chain.update (chain : Chain next start nodes) {node : Address} (outside : node ∉ nodes)
    (successor : Option Address) : Chain (Function.update next node successor) start nodes := by
  apply chain.congr
  intro other member
  have different : other ≠ node := by
    rintro rfl
    exact outside member
  exact Function.update_of_ne different ..

/-- A node in front of a chain links to its start. -/
theorem Chain.push (chain : Chain next start nodes) {node : Address} (outside : node ∉ nodes) :
    Chain (Function.update next node start) (some node) (node :: nodes) := by
  refine ⟨rfl, ?_⟩
  rw [Function.update_self]
  exact chain.update outside start

/-- The node before a removed node takes over its successor. -/
theorem Chain.unlink {front rest : List Address} {before node : Address}
    (chain : Chain next start (front ++ before :: node :: rest))
    (nodup : (front ++ before :: node :: rest).Nodup) :
    Chain (Function.update next before (next node)) start (front ++ before :: rest) := by
  induction front generalizing start with
  | nil =>
      rw [List.nil_append] at chain nodup ⊢
      obtain ⟨first, second, tail⟩ := chain
      obtain ⟨fresh, -⟩ := List.nodup_cons.mp nodup
      refine ⟨first, ?_⟩
      rw [Function.update_self]
      exact tail.update (fun member => fresh (List.mem_cons_of_mem _ member)) _
  | cons head front ih =>
      obtain ⟨first, tail⟩ := chain
      obtain ⟨fresh, nodup⟩ := List.nodup_cons.mp nodup
      refine ⟨first, ?_⟩
      have different : head ≠ before := fun same => fresh (by simp [same])
      rw [Function.update_of_ne different]
      exact ih tail nodup

end Update

section Window

variable {Value : Type}

/-- The window of a circular array starts anywhere and wraps around at the end of the array. -/
def window (array : Nat → Value) (size start count : Nat) : List Value :=
  (List.range count).map fun i => array ((start + i) % size)

variable {array : Nat → Value} {size start count : Nat}

@[simp] theorem length_window : (window array size start count).length = count := by simp [window]

/-- The first value of a window lies at its start. -/
theorem window_succ_front (inside : start < size) :
    window array size start (count + 1) = array start :: window array size ((start + 1) % size) count := by
  rw [window, List.range_succ_eq_map, List.map_cons, Nat.add_zero, Nat.mod_eq_of_lt inside, List.map_map, window]
  congr 1
  apply List.map_congr_left
  intro i member
  rw [Function.comp_apply, Nat.mod_add_mod]
  congr 2
  omega

/-- The last value of a window lies before its end. -/
theorem window_succ_back :
    window array size start (count + 1) = window array size start count ++ [array ((start + count) % size)] := by
  rw [window, List.range_succ, List.map_append, List.map_singleton, window]

/-- The place behind a window that leaves room is outside of it. -/
theorem window_update (room : count < size) (value : Value) :
    window (Function.update array ((start + count) % size) value) size start count = window array size start count := by
  apply List.map_congr_left
  intro i member
  have inside : i < count := List.mem_range.mp member
  apply Function.update_of_ne
  intro same
  have equal : i % size = count % size := Nat.ModEq.add_left_cancel' start same
  rw [Nat.mod_eq_of_lt (by omega), Nat.mod_eq_of_lt room] at equal
  omega

/-- The values go to consecutive places. -/
def writeAll (array : Nat → Value) (index : Nat) : List Value → Nat → Value
  | [] => array
  | value :: rest => writeAll (Function.update array index value) (index + 1) rest

theorem writeAll_append (array : Nat → Value) (index : Nat) (first second : List Value) :
    writeAll array index (first ++ second) = writeAll (writeAll array index first) (index + first.length) second := by
  induction first generalizing array index with
  | nil => rfl
  | cons value rest ih =>
      rw [List.cons_append, writeAll, writeAll, ih, List.length_cons, Nat.add_right_comm, Nat.add_assoc]

theorem writeAll_before (array : Nat → Value) (index : Nat) (values : List Value) {i : Nat} (before : i < index) :
    writeAll array index values i = array i := by
  induction values generalizing array index with
  | nil => rfl
  | cons value rest ih => rw [writeAll, ih _ _ (by omega), Function.update_of_ne (by omega)]

theorem writeAll_inside (array : Nat → Value) (index : Nat) (values : List Value) {i : Nat} (inside : i < values.length) :
    writeAll array index values (index + i) = values[i] := by
  induction values generalizing array index i with
  | nil => simp at inside
  | cons value rest ih =>
      rw [writeAll]
      cases i with
      | zero =>
          change writeAll (Function.update array index value) (index + 1) rest index = value
          rw [writeAll_before _ _ rest (Nat.lt_add_one index), Function.update_self]
      | succ i =>
          have shifted : index + (i + 1) = index + 1 + i := by omega
          rw [shifted, ih _ _ (by simpa using inside), List.getElem_cons_succ]

/-- The values that were written from the start of the array are its first window. -/
theorem window_writeAll (array : Nat → Value) (values : List Value) (fits : values.length ≤ size) :
    window (writeAll array 0 values) size 0 values.length = values := by
  apply List.ext_getElem
  · simp
  · intro i inside inside'
    have small : i < size := by omega
    have read := writeAll_inside array 0 values inside'
    rw [Nat.zero_add] at read
    simp only [window, List.getElem_map, List.getElem_range, Nat.zero_add, Nat.mod_eq_of_lt small, read]

end Window

/-- The members of all buckets are the members of the list. -/
theorem flatMap_buckets {Member : Type} (home : Member → Nat) (members : List Member) (width : Nat) :
    ((List.range width).flatMap fun t => members.filter fun member => home member = t).Perm
      (members.filter fun member => home member < width) := by
  induction width with
  | zero => simp
  | succ width ih =>
      rw [List.range_succ, List.flatMap_append, List.flatMap_singleton]
      have lower : (members.filter fun member => home member < width + 1).filter (fun member => home member < width) =
          members.filter fun member => home member < width := by
        rw [List.filter_filter]
        apply List.filter_congr
        intro member _
        simp
        omega
      have top : (members.filter fun member => home member < width + 1).filter
          (fun member => !decide (home member < width)) = members.filter fun member => home member = width := by
        rw [List.filter_filter]
        apply List.filter_congr
        intro member _
        rw [Bool.eq_iff_iff]
        simp
        omega
      have split := List.filter_append_perm (fun member => decide (home member < width))
        (members.filter fun member => home member < width + 1)
      rw [lower, top] at split
      exact (ih.append_right _).trans split

end ArrayLists
