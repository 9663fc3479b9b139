import Nose.Library.CMemory

/-
This file gives the bytes that a sequence of stores determines, whatever the memory held before.
-/

namespace CMemory

/-- The stores determine the written bytes and keep all others. -/
structure Overwrites (write : Block → Block) (written : Set Nat) : Prop where
  determined : ∀ first second : Block, ∀ i ∈ written, write first i = write second i
  kept : ∀ old : Block, ∀ i ∉ written, write old i = old i

theorem overwrites_nothing : Overwrites id ∅ := ⟨fun _ _ _ member => member.elim, fun _ _ _ => rfl⟩

section Stores

variable {write : Block → Block} {written : Set Nat}

theorem Overwrites.setByte (stores : Overwrites write written) (offset : Nat) (value : UInt8) :
    Overwrites (fun old => CMemory.setByte (write old) offset value) (insert offset written) where
  determined first second i member := by
    rcases Set.mem_insert_iff.mp member with rfl | before
    · simp [CMemory.setByte]
    · simp only [CMemory.setByte, Function.update_apply, stores.determined first second i before]
  kept old i outside := by
    rw [Set.mem_insert_iff, not_or] at outside
    rw [setByte_other outside.1, stores.kept old i outside.2]

/-- A copy from memory that is not among the old bytes determines its target. -/
theorem Overwrites.memcpy (stores : Overwrites write written) (offset : Nat) (src : Block) (count : Nat) :
    Overwrites (fun old => CMemory.memcpy (write old) offset src count)
      (Set.Ico offset (offset + count) ∪ written) where
  determined first second i member := by
    by_cases inside : offset ≤ i ∧ i < offset + count
    · rw [memcpy_inside inside.1 inside.2, memcpy_inside inside.1 inside.2]
    · have before : i ∈ written := member.resolve_left inside
      rw [memcpy_outside (by omega), memcpy_outside (by omega), stores.determined first second i before]
  kept old i outside := by
    rw [Set.mem_union, not_or, Set.mem_Ico] at outside
    rw [memcpy_outside (by omega), stores.kept old i outside.2]

theorem Overwrites.store16 (stores : Overwrites write written) (host : ByteOrder) (offset : Nat) (value : UInt16) :
    Overwrites (fun old => CMemory.store16 host (write old) offset value)
      (insert offset (insert (offset + 1) written)) := by
  cases host with
  | little =>
      rw [Set.insert_comm]
      exact (stores.setByte offset (low value)).setByte (offset + 1) (high value)
  | big =>
      rw [Set.insert_comm]
      exact (stores.setByte offset (high value)).setByte (offset + 1) (low value)

/-- Two memories give the same first bytes exactly when the stores write all of them. -/
theorem Overwrites.bytesOf_iff (stores : Overwrites write written) (count : Nat) :
    (∀ first second, bytesOf (write first) count = bytesOf (write second) count) ↔ ∀ i < count, i ∈ written := by
  constructor
  · intro same i inside
    by_contra outside
    have byte := congrArg (fun bytes : List UInt8 => bytes.getD i 0) (same (fun _ => 0) (fun _ => 1))
    simp only [getD_bytesOf inside, stores.kept _ i outside] at byte
    exact absurd byte (by decide)
  · intro covers first second
    exact bytesOf_congr fun i inside => stores.determined first second i (covers i inside)

end Stores

end CMemory
