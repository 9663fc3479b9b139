import Mathlib.Data.Int.ModEq
import Mathlib.Data.Int.Range
import Mathlib.Data.List.Chain
import Mathlib.Tactic

/-
This file gives the turns of slots that are in a circle, to which slots may be added.
-/

namespace RoundRobin

/-- This is a turn of a slot, with the number of slots at that time. -/
structure Turn where
  slot : Int
  size : Int
  deriving DecidableEq, Repr

/-- The slot of the turn is one of the slots. -/
structure Turn.Inside (turn : Turn) : Prop where
  lower : 0 ≤ turn.slot
  upper : turn.slot < turn.size

/-- The next turn is that of the slot above, or of the lowest slot when there is no slot above. -/
structure Follows (turn next : Turn) : Prop where
  inside : next.Inside
  grown : turn.size ≤ next.size
  moved : next.slot = turn.slot + 1 ∨ next.slot = 0 ∧ turn.slot + 1 = next.size

theorem range_eq_cons {m n : Int} (nonempty : m < n) : Int.range m n = m :: Int.range (m + 1) n := by
  have length : (n - m).toNat = (n - (m + 1)).toNat + 1 := by omega
  rw [Int.range, Int.range, length, List.range_succ_eq_map, List.map_cons, List.map_map]
  congr 1
  · simp
  · apply List.map_congr_left
    intro k _
    simp only [Function.comp_apply, Nat.succ_eq_add_one, Nat.cast_add, Nat.cast_one]
    ring

theorem range_eq_nil {m n : Int} (empty : n ≤ m) : Int.range m n = [] := by
  have length : (n - m).toNat = 0 := by omega
  rw [Int.range, length]
  rfl

theorem count_range (m n i : Int) : (Int.range m n).count i = if m ≤ i ∧ i < n then 1 else 0 := by
  have distinct : (Int.range m n).Nodup := by
    apply List.Nodup.map _ List.nodup_range
    intro k k' same
    simpa using same
  rw [distinct.count]
  exact if_congr Int.mem_range_iff rfl rfl

section Laps

variable {turn last : Turn} {between : List Turn}

/-- From a turn below a slot, the turns go up to that slot. -/
theorem slots_below (chain : (turn :: (between ++ [last])).IsChain Follows) (lower : 0 ≤ turn.slot)
    (below : turn.slot < last.slot) (room : last.slot < turn.size) (apart : ∀ t ∈ between, t.slot ≠ last.slot) :
    between.map Turn.slot = Int.range (turn.slot + 1) last.slot := by
  induction between generalizing turn with
  | nil =>
      have step : Follows turn last := (List.isChain_cons_cons.mp chain).1
      rw [range_eq_nil]
      · rfl
      · have := step.moved
        omega
  | cons t rest ih =>
      obtain ⟨step, chain⟩ := List.isChain_cons_cons.mp chain
      have different := apart t List.mem_cons_self
      have grown := step.grown
      have moved : t.slot = turn.slot + 1 := by
        have := step.moved
        omega
      have above := ih chain step.inside.lower (by omega) (by omega)
        (fun other member => apart other (List.mem_cons_of_mem t member))
      rw [List.map_cons, above, moved, ← range_eq_cons]
      omega

/-- From a turn not below a slot, the turns go up to the end of the circle, and then from its start up to that slot. -/
theorem slots_above (chain : (turn :: (between ++ [last])).IsChain Follows) (lower : 0 ≤ last.slot)
    (above : last.slot ≤ turn.slot) (room : last.slot < turn.size) (apart : ∀ t ∈ between, t.slot ≠ last.slot) :
    ∃ size, turn.size ≤ size ∧ turn.slot < size ∧
      between.map Turn.slot = Int.range (turn.slot + 1) size ++ Int.range 0 last.slot := by
  induction between generalizing turn with
  | nil =>
      have step : Follows turn last := (List.isChain_cons_cons.mp chain).1
      have moved := step.moved
      have grown := step.grown
      refine ⟨turn.slot + 1, by omega, by omega, ?_⟩
      rw [range_eq_nil le_rfl, range_eq_nil (by omega)]
      rfl
  | cons t rest ih =>
      obtain ⟨step, chain⟩ := List.isChain_cons_cons.mp chain
      have different := apart t List.mem_cons_self
      have others (other : Turn) (member : other ∈ rest) := apart other (List.mem_cons_of_mem t member)
      have grown := step.grown
      rcases step.moved with moved | ⟨wrapped, ended⟩
      · obtain ⟨size, larger, inside, slots⟩ := ih chain (by omega) (by omega) others
        refine ⟨size, by omega, by omega, ?_⟩
        rw [List.map_cons, slots, moved, ← List.cons_append, ← range_eq_cons]
        omega
      · have slots := slots_below chain (by omega) (by omega) (by omega) others
        refine ⟨turn.slot + 1, by omega, by omega, ?_⟩
        rw [List.map_cons, slots, wrapped, range_eq_nil le_rfl, List.nil_append, ← range_eq_cons]
        omega

end Laps

/-- Between two turns of a slot, each other slot that was there has one turn, and no slot has more. -/
theorem turns_between {first second : Turn} {between : List Turn}
    (chain : (first :: (between ++ [second])).IsChain Follows) (inside : first.Inside)
    (same : second.slot = first.slot) (apart : ∀ t ∈ between, t.slot ≠ first.slot) :
    (∀ i, 0 ≤ i → i < first.size → i ≠ first.slot → (between.map Turn.slot).count i = 1) ∧
      ∀ i, first.size ≤ i → (between.map Turn.slot).count i ≤ 1 := by
  have lower := inside.lower
  have upper := inside.upper
  obtain ⟨size, larger, _, slots⟩ := slots_above chain (by omega) (by omega) (by omega)
    (fun t member => same ▸ apart t member)
  rw [slots, same]
  constructor
  · intro i first_slot last_slot other
    rw [List.count_append, count_range, count_range]
    split <;> split <;> omega
  · intro i added
    rw [List.count_append, count_range, count_range]
    split <;> split <;> omega

/-- These are the slots of the given number of turns while no slot is added. -/
def rotation (start size : Int) (n : Nat) : List Int := (List.range n).map fun (k : Nat) => (start + k) % size

theorem rotation_succ (start size : Int) (n : Nat) :
    rotation start size (n + 1) = start % size :: rotation (start % size + 1) size n := by
  rw [rotation, List.range_succ_eq_map, List.map_cons, List.map_map, rotation]
  congr 1
  · simp
  · apply List.map_congr_left
    intro k _
    rw [Function.comp_apply, Nat.succ_eq_add_one, add_assoc (start % size), Int.emod_add_emod]
    congr 1
    push_cast
    ring

/-- Each slot has one turn in a rotation of all the slots. -/
theorem count_rotation {start size i : Int} (lower : 0 ≤ i) (upper : i < size) :
    (rotation start size size.toNat).count i = 1 := by
  have positive : 0 < size := by omega
  have distinct : (rotation start size size.toNat).Nodup := by
    apply List.Nodup.map_on _ List.nodup_range
    intro k inside k' inside' same
    rw [List.mem_range] at inside inside'
    have equal : (k : Int) % size = k' % size := Int.emod_add_cancel_left.mp same
    rw [Int.emod_eq_of_lt (by omega) (by omega), Int.emod_eq_of_lt (by omega) (by omega)] at equal
    exact_mod_cast equal
  have member : i ∈ rotation start size size.toNat := by
    have first := Int.emod_nonneg (i - start) positive.ne'
    have last := Int.emod_lt_of_pos (i - start) positive
    refine List.mem_map.mpr ⟨((i - start) % size).toNat, List.mem_range.mpr (by omega), ?_⟩
    rw [Int.toNat_of_nonneg first, Int.add_emod_emod, add_sub_cancel, Int.emod_eq_of_lt lower upper]
  exact List.nodup_iff_count_eq_one.mp distinct i member

end RoundRobin
