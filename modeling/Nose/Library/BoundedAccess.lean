import Nose.Library.CMemory

/-
This file gives reads and writes that fail when they leave their buffer or their array.
-/

namespace BoundedAccess

open CMemory

/-- Some bytes of a buffer, and nothing else of it. -/
def window (buf : List UInt8) (offset count : Nat) : Block := fun i => ((buf.drop offset).take count).getD i 0

/-- A read succeeds when all of its bytes lie inside the buffer. -/
def access (buf : List UInt8) (offset count : Nat) : Option Block :=
  if offset + count ≤ buf.length then some (window buf offset count) else none

/-- A read of a string stops at its terminator. -/
def accessString (buf : List UInt8) (offset count : Nat) : Option Block :=
  if offset + count ≤ buf.length ∨ 0 ∈ buf.drop offset then some (window buf offset count) else none

def copy {size : Nat} (array : CharArray size) (src : Block) (count : Nat) : Option (CharArray size) :=
  if count ≤ size then some (array.copy src count) else none

def strncpy {size : Nat} (array : CharArray size) (src : Block) (count : Nat) : Option (CharArray size) :=
  if count ≤ size then some (array.strncpy src count) else none

/-- A string is written with its terminator. -/
def setString {size : Nat} (array : CharArray size) (text : List UInt8) : Option (CharArray size) :=
  if text.length < size then some (array.setString text) else none

def setChar {size : Nat} (array : CharArray size) (i : Nat) (value : UInt8) : Option (CharArray size) :=
  if inside : i < size then some (array.set i value inside) else none

theorem access_eq {buf : List UInt8} {offset count : Nat} (inside : offset + count ≤ buf.length) :
    access buf offset count = some (window buf offset count) := if_pos inside

theorem access_eq_some_iff {buf : List UInt8} {offset count : Nat} {bytes : Block} :
    access buf offset count = some bytes ↔ offset + count ≤ buf.length ∧ window buf offset count = bytes := by
  simp [access]

theorem accessString_eq {buf : List UInt8} {offset count : Nat} (inside : offset + count ≤ buf.length) :
    accessString buf offset count = some (window buf offset count) := if_pos (.inl inside)

theorem copy_eq {size : Nat} {array : CharArray size} {src : Block} {count : Nat} (fits : count ≤ size) :
    copy array src count = some (array.copy src count) := if_pos fits

theorem strncpy_eq {size : Nat} {array : CharArray size} {src : Block} {count : Nat} (fits : count ≤ size) :
    strncpy array src count = some (array.strncpy src count) := if_pos fits

theorem setString_eq {size : Nat} {array : CharArray size} {text : List UInt8} (fits : text.length < size) :
    setString array text = some (array.setString text) := if_pos fits

theorem setChar_eq {size : Nat} {array : CharArray size} {i : Nat} {value : UInt8} (inside : i < size) :
    setChar array i value = some (array.set i value inside) := dif_pos inside

section Window

variable {buf : List UInt8} {offset count : Nat}

/-- A read inside the buffer gives its bytes, whatever lies behind the buffer. -/
theorem window_apply (inside : offset + count ≤ buf.length) (rest : Block) {i : Nat} (small : i < count) :
    window buf offset count i = block buf rest (offset + i) := by
  have within : offset + i < buf.length := by omega
  simp [window, block, small, within]

theorem load16_window (host : ByteOrder) (inside : offset + 2 ≤ buf.length) (rest : Block) :
    load16 host (window buf offset 2) 0 = load16 host (block buf rest) offset := by
  have first := window_apply inside rest (show 0 < 2 by decide)
  have second := window_apply inside rest (show 1 < 2 by decide)
  cases host <;> simp only [load16, Nat.zero_add, first, second, Nat.add_zero]

/-- A copy uses only the bytes that it counts. -/
theorem copy_window {size : Nat} (array : CharArray size) (inside : offset + count ≤ buf.length) (rest : Block) :
    array.copy (window buf offset count) count = array.copy (fun i => block buf rest (offset + i)) count := by
  ext i small : 1
  rw [CharArray.getElem_copy, CharArray.getElem_copy]
  split
  · rename_i counted
    exact window_apply inside rest counted
  · rfl

theorem strncpy_window {size : Nat} (array : CharArray size) (inside : offset + count ≤ buf.length) (rest : Block) :
    array.strncpy (window buf offset count) count = array.strncpy (fun i => block buf rest (offset + i)) count := by
  ext i small : 1
  simp only [CharArray.strncpy, Vector.getElem_ofFn]
  by_cases counted : i < count
  · have before : ((List.range i).all fun j => decide (window buf offset count j ≠ 0)) =
        (List.range i).all fun j => decide (block buf rest (offset + j) ≠ 0) := by
      rw [Bool.eq_iff_iff, List.all_eq_true, List.all_eq_true]
      apply forall₂_congr
      intro j member
      rw [window_apply inside rest (Nat.lt_trans (List.mem_range.mp member) counted)]
    rw [if_pos counted, if_pos counted, before, window_apply inside rest counted]
  · rw [if_neg counted, if_neg counted]

end Window

end BoundedAccess
