import Mathlib.Tactic

/-
This file gives the memory of a C program as far as byte copies, words and strings need it.
-/

namespace CMemory

/-- The host stores the low byte or the high byte of a word first. -/
inductive ByteOrder where
  | little
  | big
  deriving DecidableEq, Repr

/-- A block of memory holds one byte at each offset. -/
abbrev Block := Nat → UInt8

def memcpy (dst : Block) (offset : Nat) (src : Block) (count : Nat) : Block := fun i =>
  if offset ≤ i ∧ i < offset + count then src (i - offset) else dst i

def memset (dst : Block) (value : UInt8) (count : Nat) : Block := fun i => if i < count then value else dst i

def setByte (dst : Block) (offset : Nat) (value : UInt8) : Block :=
  Function.update dst offset value

/-- A copied byte is read at its new place. -/
theorem memcpy_inside {dst src : Block} {offset count i : Nat}
    (lower : offset ≤ i) (upper : i < offset + count) :
    memcpy dst offset src count i = src (i - offset) := if_pos ⟨lower, upper⟩

/-- A copy leaves the bytes before and after it unchanged. -/
theorem memcpy_outside {dst src : Block} {offset count i : Nat}
    (outside : i < offset ∨ offset + count ≤ i) :
    memcpy dst offset src count i = dst i := if_neg (by omega)

theorem setByte_other {dst : Block} {offset i : Nat} {value : UInt8} (different : i ≠ offset) :
    setByte dst offset value i = dst i := Function.update_of_ne different ..

/-- The high byte of a word. -/
def high (value : UInt16) : UInt8 := UInt8.ofNat (value.toNat / 256)

/-- The low byte of a word. -/
def low (value : UInt16) : UInt8 := UInt8.ofNat (value.toNat % 256)

/-- The word with the given high and low bytes. -/
def word (first second : UInt8) : UInt16 := UInt16.ofNat (256 * first.toNat + second.toNat)

def load16 (host : ByteOrder) (block : Block) (offset : Nat) : UInt16 :=
  match host with
  | .little => word (block (offset + 1)) (block offset)
  | .big => word (block offset) (block (offset + 1))

theorem load16_congr (host : ByteOrder) {first second : Block} {offset : Nat} (left : first offset = second offset)
    (right : first (offset + 1) = second (offset + 1)) : load16 host first offset = load16 host second offset := by
  cases host <;> simp only [load16, left, right]

def store16 (host : ByteOrder) (block : Block) (offset : Nat) (value : UInt16) : Block :=
  match host with
  | .little => setByte (setByte block offset (low value)) (offset + 1) (high value)
  | .big => setByte (setByte block offset (high value)) (offset + 1) (low value)

/-- The conversion swaps the bytes on a little-endian host only. -/
def htons (host : ByteOrder) (value : UInt16) : UInt16 :=
  match host with
  | .little => word (low value) (high value)
  | .big => value

/-- The upper half of a double word. -/
def upper (value : UInt32) : UInt16 := UInt16.ofNat (value.toNat / 2 ^ 16)

/-- The lower half of a double word. -/
def lower (value : UInt32) : UInt16 := UInt16.ofNat (value.toNat % 2 ^ 16)

def store32 (host : ByteOrder) (block : Block) (offset : Nat) (value : UInt32) : Block :=
  match host with
  | .little => store16 host (store16 host block offset (lower value)) (offset + 2) (upper value)
  | .big => store16 host (store16 host block offset (upper value)) (offset + 2) (lower value)

/-- The double word with the given halves. -/
def dword (upper lower : UInt16) : UInt32 := UInt32.ofNat (2 ^ 16 * upper.toNat + lower.toNat)

def load32 (host : ByteOrder) (block : Block) (offset : Nat) : UInt32 :=
  match host with
  | .little => dword (load16 host block (offset + 2)) (load16 host block offset)
  | .big => dword (load16 host block offset) (load16 host block (offset + 2))

/-- The conversion swaps the bytes on a little-endian host only. -/
def htonl (host : ByteOrder) (value : UInt32) : UInt32 :=
  match host with
  | .little => UInt32.ofNat (2 ^ 16 * (htons host (lower value)).toNat + (htons host (upper value)).toNat)
  | .big => value

@[simp] theorem high_word (first second : UInt8) : high (word first second) = first := by
  apply UInt8.toNat_inj.mp
  have bound := first.toNat_lt
  have rest := second.toNat_lt
  simp only [high, word, UInt16.toNat_ofNat', UInt8.toNat_ofNat']
  omega

@[simp] theorem low_word (first second : UInt8) : low (word first second) = second := by
  apply UInt8.toNat_inj.mp
  have bound := first.toNat_lt
  have rest := second.toNat_lt
  simp only [low, word, UInt16.toNat_ofNat', UInt8.toNat_ofNat']
  omega

@[simp] theorem word_high_low (value : UInt16) : word (high value) (low value) = value := by
  apply UInt16.toNat_inj.mp
  have bound := value.toNat_lt
  simp only [high, low, word, UInt16.toNat_ofNat', UInt8.toNat_ofNat']
  omega

/-- The conversion is its own inverse. -/
theorem htons_htons (host : ByteOrder) (value : UInt16) : htons host (htons host value) = value := by
  cases host <;> simp [htons]

/-- A loaded and converted word has its high byte first in memory. -/
theorem htons_load16 (host : ByteOrder) (block : Block) (offset : Nat) :
    htons host (load16 host block offset) = word (block offset) (block (offset + 1)) := by
  cases host <;> simp [htons, load16]

@[simp] theorem upper_dword (first second : UInt16) : upper (dword first second) = first := by
  apply UInt16.toNat_inj.mp
  have bound := first.toNat_lt
  have rest := second.toNat_lt
  simp only [upper, dword, UInt32.toNat_ofNat', UInt16.toNat_ofNat']
  omega

@[simp] theorem lower_dword (first second : UInt16) : lower (dword first second) = second := by
  apply UInt16.toNat_inj.mp
  have bound := first.toNat_lt
  have rest := second.toNat_lt
  simp only [lower, dword, UInt32.toNat_ofNat', UInt16.toNat_ofNat']
  omega

@[simp] theorem dword_upper_lower (value : UInt32) : dword (upper value) (lower value) = value := by
  apply UInt32.toNat_inj.mp
  have bound := value.toNat_lt
  simp only [upper, lower, dword, UInt32.toNat_ofNat', UInt16.toNat_ofNat']
  omega

/-- A loaded and converted double word has its high bytes first in memory. -/
theorem htonl_load32 (host : ByteOrder) (block : Block) (offset : Nat) :
    htonl host (load32 host block offset) =
      dword (word (block offset) (block (offset + 1))) (word (block (offset + 2)) (block (offset + 3))) := by
  cases host with
  | little =>
      change dword (htons .little (lower (load32 .little block offset)))
        (htons .little (upper (load32 .little block offset))) = _
      rw [load32, upper_dword, lower_dword, htons_load16, htons_load16]
  | big => rfl

/-- A converted word is stored with its high byte first on every host. -/
theorem store16_htons (host : ByteOrder) (block : Block) (offset : Nat) (value : UInt16) :
    store16 host block offset (htons host value) =
      setByte (setByte block offset (high value)) (offset + 1) (low value) := by
  cases host <;> simp [htons, store16]

/-- A store changes only the two bytes of its word. -/
theorem store16_other {host : ByteOrder} {block : Block} {offset i : Nat} {value : UInt16}
    (outside : i < offset ∨ offset + 2 ≤ i) : store16 host block offset value i = block i := by
  cases host <;> simp only [store16] <;>
    rw [setByte_other (by omega), setByte_other (by omega)]

/-- A block that starts with the given bytes. -/
def block (bytes : List UInt8) (rest : Block) : Block := fun i => bytes.getD i (rest i)

/-- The first bytes of a block, as a datagram carries them. -/
def bytesOf (contents : Block) (count : Nat) : List UInt8 := (List.range count).map contents

@[simp] theorem length_bytesOf (contents : Block) (count : Nat) :
    (bytesOf contents count).length = count := by simp [bytesOf]

theorem getElem_bytesOf (contents : Block) (count i : Nat) (inside : i < (bytesOf contents count).length) :
    (bytesOf contents count)[i] = contents i := by simp [bytesOf]

theorem getD_bytesOf {contents : Block} {count i : Nat} (inside : i < count) :
    (bytesOf contents count).getD i 0 = contents i := by
  simp [bytesOf, inside]

theorem bytesOf_succ (contents : Block) (count : Nat) :
    bytesOf contents (count + 1) = contents 0 :: bytesOf (fun i => contents (i + 1)) count := by
  rw [bytesOf, List.range_succ_eq_map, List.map_cons, List.map_map]
  rfl

/-- A converted word is sent with its high byte first. -/
@[simp] theorem bytesOf_store16_htons (host : ByteOrder) (contents : Block) (value : UInt16) :
    bytesOf (store16 host contents 0 (htons host value)) 2 = [high value, low value] := by
  rw [store16_htons]
  rfl

/-- A converted double word is sent with its high bytes first. -/
@[simp] theorem bytesOf_store32_htonl (host : ByteOrder) (contents : Block) (value : UInt32) :
    bytesOf (store32 host contents 0 (htonl host value)) 4 =
      [high (upper value), low (upper value), high (lower value), low (lower value)] := by
  cases host with
  | little =>
      change bytesOf (store32 .little contents 0 (dword (htons .little (lower value)) (htons .little (upper value)))) 4 = _
      rw [store32, upper_dword, lower_dword, store16_htons, store16_htons]
      rfl
  | big => rfl

/-- Two blocks give the same datagram exactly when they agree on its length. -/
theorem bytesOf_congr {first second : Block} {count : Nat}
    (agree : ∀ i < count, first i = second i) : bytesOf first count = bytesOf second count := by
  apply List.map_congr_left
  intro i member
  exact agree i (List.mem_range.mp member)

/-- A received datagram starts the receive buffer. -/
theorem block_bytesOf {contents rest : Block} {count i : Nat} (inside : i < count) :
    block (bytesOf contents count) rest i = contents i := by
  simp [block, bytesOf, inside]

/-- A character array of fixed size, with or without a terminator. -/
abbrev CharArray (size : Nat) := Vector UInt8 size

/-- The memory an array occupies. The zero past its end is never read by a copy within its size. -/
def CharArray.memory {size : Nat} (array : CharArray size) : Block := fun i => array.toList.getD i 0

/-- A copy into the first bytes of an array. -/
def CharArray.copy {size : Nat} (array : CharArray size) (src : Block) (count : Nat) : CharArray size :=
  Vector.ofFn fun i => if i.val < count then src i.val else array[i]

/-- A copy of a string stops at its terminator and clears the rest of the count. -/
def CharArray.strncpy {size : Nat} (array : CharArray size) (src : Block) (count : Nat) : CharArray size :=
  Vector.ofFn fun i =>
    if i.val < count then
      if (List.range i.val).all fun j => src j ≠ 0 then src i.val else 0
    else array[i]

/-- A string with its terminator, over the start of an array. -/
def CharArray.setString {size : Nat} (array : CharArray size) (text : List UInt8) : CharArray size :=
  Vector.ofFn fun i =>
    if i.val < text.length then text.getD i.val 0 else if i.val = text.length then 0 else array[i]

/-- The characters before the first terminator. -/
def cstr (bytes : List UInt8) : List UInt8 := bytes.takeWhile (· ≠ 0)

def strlen (bytes : List UInt8) : Nat := (cstr bytes).length

/-- The comparison of two strings for equality. A comparison that leaves the two arrays without
a difference or a terminator reads foreign memory, and `past` is what it finds there. -/
def strcmp (past : Bool) : List UInt8 → List UInt8 → Bool
  | a :: first, b :: second => if a ≠ b then false else if a = 0 then true else strcmp past first second
  | _, _ => past

theorem cstr_cons (a : UInt8) (rest : List UInt8) :
    cstr (a :: rest) = if a = 0 then [] else a :: cstr rest := by
  by_cases zero : a = 0 <;> simp [cstr, zero]

theorem length_cstr_le (bytes : List UInt8) : (cstr bytes).length ≤ bytes.length :=
  (List.takeWhile_sublist _).length_le

/-- The string of bytes with a terminator is shorter than they are. -/
theorem length_cstr_lt {bytes : List UInt8} (terminated : 0 ∈ bytes) : (cstr bytes).length < bytes.length := by
  induction bytes with
  | nil => simp at terminated
  | cons a rest ih =>
      rw [cstr_cons]
      split
      · simp
      · rename_i letter
        have later := ih ((List.mem_cons.mp terminated).resolve_left fun same => letter same.symm)
        simpa using later

theorem cstr_terminated (text rest : List UInt8) (plain : 0 ∉ text) : cstr (text ++ 0 :: rest) = text := by
  induction text with
  | nil => simp [cstr_cons]
  | cons a text ih =>
      rw [List.mem_cons, not_or] at plain
      rw [List.cons_append, cstr_cons, if_neg (Ne.symm plain.1), ih plain.2]

/-- An array without a terminator is read as a whole. -/
theorem cstr_plain {bytes : List UInt8} (plain : 0 ∉ bytes) : cstr bytes = bytes := by
  induction bytes with
  | nil => rfl
  | cons a rest ih =>
      rw [List.mem_cons, not_or] at plain
      rw [cstr_cons, if_neg (Ne.symm plain.1), ih plain.2]

/-- Bytes after a terminator do not change a string. -/
theorem cstr_append {bytes : List UInt8} (terminated : 0 ∈ bytes) (tail : List UInt8) :
    cstr (bytes ++ tail) = cstr bytes := by
  obtain ⟨start, rest, rfl⟩ := List.append_of_mem terminated
  clear terminated
  induction start with
  | nil => simp [cstr_cons]
  | cons a start ih => rw [List.cons_append, List.cons_append, cstr_cons, cstr_cons, ih]

/-- Two byte lists that agree up to the terminator are the same string. -/
theorem cstr_congr {first second : List UInt8} (length : first.length = second.length)
    (agree : ∀ i < second.length, (∀ j < i, second.getD j 0 ≠ 0) → first.getD i 0 = second.getD i 0) :
    cstr first = cstr second := by
  induction second generalizing first with
  | nil => rw [List.length_eq_zero_iff.mp length]
  | cons b second ih =>
      cases first with
      | nil => simp at length
      | cons a first =>
          have head : a = b := by simpa using agree 0 (by simp) (fun j impossible => absurd impossible (by omega))
          rw [cstr_cons, cstr_cons, head]
          by_cases zero : b = 0
          · rw [if_pos zero, if_pos zero]
          · rw [if_neg zero, if_neg zero, ih (by simpa using length)]
            intro i inside before
            have later := agree (i + 1) (by simpa using inside) fun j small => ?_
            · simpa using later
            · cases j with
              | zero => simpa using zero
              | succ j => simpa using before j (by omega)

/-- A terminated array is never the string of an array that goes on. -/
theorem strcmp_unterminated (past : Bool) {first second : List UInt8} (terminated : 0 ∈ first) (plain : 0 ∉ second)
    (length : first.length ≤ second.length) : strcmp past first second = false := by
  induction first generalizing second with
  | nil => simp at terminated
  | cons a first ih =>
      cases second with
      | nil => simp at length
      | cons b second =>
          rw [List.mem_cons, not_or] at plain
          rw [strcmp]
          by_cases equal : a = b
          · subst equal
            have later : 0 ∈ first := by simpa [plain.1] using terminated
            rw [if_neg (by simp), if_neg (Ne.symm plain.1), ih later plain.2 (by simpa using length)]
          · rw [if_pos equal]

/-- The comparison with a terminated string reads the characters only, when the array is terminated
or longer than that string. -/
theorem strcmp_eq_true (past : Bool) (first second : List UInt8) (right : 0 ∈ second)
    (ends : 0 ∈ first ∨ (cstr second).length < first.length) :
    strcmp past first second = true ↔ cstr first = cstr second := by
  induction first generalizing second with
  | nil => simp at ends
  | cons a first ih =>
      cases second with
      | nil => simp at right
      | cons b second =>
          rw [strcmp, cstr_cons, cstr_cons]
          by_cases equal : a = b
          · subst equal
            by_cases zero : a = 0
            · simp [zero]
            · have right' : 0 ∈ second := by simpa [Ne.symm zero] using right
              have ends' : 0 ∈ first ∨ (cstr second).length < first.length := by
                simpa [cstr_cons, zero, Ne.symm zero] using ends
              simp [zero, ih second right' ends']
          · by_cases zero : a = 0
            · subst zero
              simp [equal, Ne.symm equal]
            · by_cases zero' : b = 0
              · simp [zero, zero']
              · simp [equal, zero, zero']

/-- Two arrays that start with different plain texts of one length are different strings. -/
theorem strcmp_different (past : Bool) (first second left right : List UInt8)
    (same : first.length = second.length) (plain : 0 ∉ first) (different : first ≠ second) :
    strcmp past (first ++ left) (second ++ right) = false := by
  induction first generalizing second with
  | nil => exact absurd (List.length_eq_zero_iff.mp same.symm).symm different
  | cons a first ih =>
      cases second with
      | nil => simp at same
      | cons b second =>
          rw [List.mem_cons, not_or] at plain
          rw [List.cons_append, List.cons_append, strcmp]
          by_cases equal : a = b
          · subst equal
            have tails : first ≠ second := fun tail => different (by rw [tail])
            rw [if_neg (by simp), if_neg (Ne.symm plain.1)]
            exact ih second (by simpa using same) plain.2 tails
          · rw [if_pos equal]

@[simp] theorem CharArray.getElem_copy {size : Nat} (array : CharArray size) (src : Block) (count i : Nat)
    (inside : i < size) : (array.copy src count)[i] = if i < count then src i else array[i] := by
  simp [copy]

/-- The memory of an array agrees with its elements. -/
theorem CharArray.memory_apply {size : Nat} (array : CharArray size) {i : Nat} (inside : i < size) :
    array.memory i = array[i] := by
  simp [memory, inside]

theorem CharArray.toList_setString {size : Nat} (array : CharArray size) (text : List UInt8)
    (fits : text.length < size) :
    (array.setString text).toList = text ++ 0 :: array.toList.drop (text.length + 1) := by
  apply List.ext_getElem
  · simp
    omega
  · intro i inside inside'
    simp only [Vector.getElem_toList, setString, Vector.getElem_ofFn]
    by_cases before : i < text.length
    · simp [before]
    · by_cases same : i = text.length
      · subst same
        simp
      · have after : text.length < i := by omega
        rw [if_neg before, if_neg same, List.getElem_append_right (by omega)]
        obtain ⟨k, rfl⟩ : ∃ k, i = text.length + 1 + k := ⟨i - text.length - 1, by omega⟩
        simp [show text.length + 1 + k - text.length = k + 1 by omega]

/-- The string that was set is the string that is read. -/
theorem CharArray.cstr_setString {size : Nat} (array : CharArray size) (text : List UInt8)
    (fits : text.length < size) (plain : 0 ∉ text) : cstr (array.setString text).toList = text := by
  rw [array.toList_setString text fits]
  exact cstr_terminated text _ plain

/-- A string that is copied into a cleared array is read from it. -/
theorem CharArray.cstr_strncpy_zeros {size : Nat} (text : List UInt8) (rest : Block) (fits : text.length < size)
    (plain : 0 ∉ text) :
    cstr (CharArray.strncpy (Vector.replicate size 0) (block text rest) text.length).toList = text := by
  have contents : (CharArray.strncpy (Vector.replicate size 0) (block text rest) text.length).toList =
      text ++ List.replicate (size - text.length) 0 := by
    apply List.ext_getElem
    · simp
      omega
    · intro i inside inside'
      simp only [Vector.getElem_toList, strncpy, Vector.getElem_ofFn]
      by_cases before : i < text.length
      · have nonzero : (List.range i).all (fun j => decide (block text rest j ≠ 0)) = true := by
          rw [List.all_eq_true]
          intro j member
          have earlier : j < text.length := lt_trans (List.mem_range.mp member) before
          have same : block text rest j = text[j] := by simp [block, earlier]
          exact decide_eq_true fun zero => plain (zero ▸ same ▸ List.getElem_mem earlier)
        rw [if_pos before, if_pos nonzero, List.getElem_append_left before]
        simp [block, before]
      · rw [if_neg before, List.getElem_append_right (by omega)]
        simp
  obtain ⟨zeros, more⟩ : ∃ zeros, size - text.length = zeros + 1 := ⟨size - text.length - 1, by omega⟩
  rw [contents, more, List.replicate_succ]
  exact cstr_terminated text _ plain

/-- A string that is copied with its terminator is read from the array. -/
theorem CharArray.cstr_strncpy {size count : Nat} (array : CharArray size) (text tail : List UInt8) (rest : Block)
    (fits : text.length < count) (inside : count ≤ size) (plain : 0 ∉ text) :
    cstr (array.strncpy (block (text ++ 0 :: tail) rest) count).toList = text := by
  have letter (i : Nat) (before : i < text.length) : block (text ++ 0 :: tail) rest i = text[i] := by
    rw [block, List.getD_eq_getElem?_getD, List.getElem?_append_left before]
    simp [before]
  have terminator : block (text ++ 0 :: tail) rest text.length = 0 := by simp [block]
  have copied : (array.strncpy (block (text ++ 0 :: tail) rest) count).toList.take (text.length + 1) =
      text ++ [0] := by
    apply List.ext_getElem
    · simp
      omega
    · intro i bound bound'
      have before : i < text.length + 1 := by simpa using bound'
      have nonzero : (List.range i).all (fun j => decide (block (text ++ 0 :: tail) rest j ≠ 0)) = true := by
        rw [List.all_eq_true]
        intro j member
        have earlier : j < text.length := by
          have := List.mem_range.mp member
          omega
        exact decide_eq_true fun zero => plain (zero ▸ letter j earlier ▸ List.getElem_mem earlier)
      simp only [List.getElem_take, Vector.getElem_toList, strncpy, Vector.getElem_ofFn]
      rw [if_pos (by omega), if_pos nonzero]
      by_cases inner : i < text.length
      · rw [letter i inner, List.getElem_append_left inner]
      · obtain rfl : i = text.length := by omega
        simp [terminator]
  rw [← List.take_append_drop (text.length + 1) (array.strncpy (block (text ++ 0 :: tail) rest) count).toList, copied,
    List.append_assoc]
  exact cstr_terminated text _ plain

/-- A set string is terminated. -/
theorem CharArray.zero_mem_setString {size : Nat} (array : CharArray size) (text : List UInt8)
    (fits : text.length < size) : 0 ∈ (array.setString text).toList := by
  rw [array.toList_setString text fits]
  simp

end CMemory
