import Mathlib.Data.List.TakeWhile
import Mathlib.Tactic

/-
This file gives the conversions between an IPv4 address and its text.
-/

namespace DottedQuad

/-- An address holds its four bytes in memory order, which is network order on every host. -/
structure InAddr where
  first : UInt8
  second : UInt8
  third : UInt8
  fourth : UInt8
  deriving DecidableEq, Repr

/-- A failed conversion gives the address `255.255.255.255`. -/
def inaddrNone : InAddr := ⟨255, 255, 255, 255⟩

/-- The value of a digit character in the largest base. -/
def digit (character : UInt8) : Option Nat :=
  let code := character.toNat
  if 48 ≤ code ∧ code ≤ 57 then some (code - 48)
  else if 97 ≤ code ∧ code ≤ 102 then some (code - 87)
  else if 65 ≤ code ∧ code ≤ 70 then some (code - 55)
  else none

def number (base : Nat) : List UInt8 → Nat → Option Nat
  | [], value => some value
  | character :: rest, value =>
      match digit character with
      | some next => if next < base then number base rest (base * value + next) else none
      | none => none

/-- A part is hexadecimal after `0x`, octal after `0` and decimal otherwise. -/
def part : List UInt8 → Option Nat
  | [] => none
  | 48 :: mark :: character :: rest =>
      if mark = 120 ∨ mark = 88 then number 16 (character :: rest) 0
      else number 8 (mark :: character :: rest) 0
  | 48 :: rest => number 8 rest 0
  | character :: rest => number 10 (character :: rest) 0

/-- The address whose last bytes are the given number. -/
def fromNumber (value : Nat) : InAddr :=
  ⟨UInt8.ofNat (value / 2 ^ 24), UInt8.ofNat (value / 2 ^ 16), UInt8.ofNat (value / 2 ^ 8), UInt8.ofNat value⟩

/-- The last part fills all the bytes that the parts before it leave. -/
def fromParts : List (Option Nat) → Option InAddr
  | [some a] => if a < 2 ^ 32 then some (fromNumber a) else none
  | [some a, some b] =>
      if a < 256 ∧ b < 2 ^ 24 then some (fromNumber (a * 2 ^ 24 + b)) else none
  | [some a, some b, some c] =>
      if a < 256 ∧ b < 256 ∧ c < 2 ^ 16 then some (fromNumber (a * 2 ^ 24 + b * 2 ^ 16 + c)) else none
  | [some a, some b, some c, some d] =>
      if a < 256 ∧ b < 256 ∧ c < 256 ∧ d < 256 then
        some ⟨UInt8.ofNat a, UInt8.ofNat b, UInt8.ofNat c, UInt8.ofNat d⟩
      else none
  | _ => none

def isSpace (character : UInt8) : Bool := character = 32 ∨ (9 ≤ character ∧ character ≤ 13)

/-- The text up to the first white space is read. -/
def inetAddr (text : List UInt8) : InAddr :=
  (fromParts (((text.takeWhile fun character => !isSpace character).splitOn 46).map part)).getD inaddrNone

/-- The decimal form of one byte. -/
def octet (value : UInt8) : List UInt8 :=
  let n := value.toNat
  if n < 10 then [UInt8.ofNat (48 + n)]
  else if n < 100 then [UInt8.ofNat (48 + n / 10), UInt8.ofNat (48 + n % 10)]
  else [UInt8.ofNat (48 + n / 100), UInt8.ofNat (48 + n / 10 % 10), UInt8.ofNat (48 + n % 10)]

def inetNtoa (address : InAddr) : List UInt8 :=
  [46].intercalate [octet address.first, octet address.second, octet address.third, octet address.fourth]

/-- A canonical dotted quad is the text of an address. -/
def Canonical (text : List UInt8) : Prop := ∃ address, text = inetNtoa address

set_option maxRecDepth 4000 in
theorem octet_table : ∀ n : Fin 256, part (octet (UInt8.ofNat n.val)) = some n.val ∧
    (octet (UInt8.ofNat n.val)).length ≤ 3 ∧
      (octet (UInt8.ofNat n.val)).all fun character =>
        character ≠ 46 ∧ character ≠ 0 ∧ isSpace character = false := by
  decide +kernel

theorem octet_facts (value : UInt8) : part (octet value) = some value.toNat ∧ (octet value).length ≤ 3 ∧
    ∀ character ∈ octet value, character ≠ 46 ∧ character ≠ 0 ∧ isSpace character = false := by
  have facts := octet_table ⟨value.toNat, value.toNat_lt⟩
  simpa only [UInt8.ofNat_toNat, List.all_eq_true, decide_eq_true_eq] using facts

/-- The text of an address joins its octets with dots. -/
theorem inetNtoa_eq (address : InAddr) : inetNtoa address =
    octet address.first ++
      46 :: (octet address.second ++ 46 :: (octet address.third ++ 46 :: octet address.fourth)) := by
  simp [inetNtoa, List.intercalate]

/-- The text of an address has neither a terminator nor white space. -/
theorem inetNtoa_plain (address : InAddr) :
    ∀ character ∈ inetNtoa address, character ≠ 0 ∧ isSpace character = false := by
  intro character member
  rw [inetNtoa_eq] at member
  simp only [List.mem_append, List.mem_cons] at member
  rcases member with member | rfl | member | rfl | member | rfl | member
  · exact ((octet_facts _).2.2 character member).2
  · decide
  · exact ((octet_facts _).2.2 character member).2
  · decide
  · exact ((octet_facts _).2.2 character member).2
  · decide
  · exact ((octet_facts _).2.2 character member).2

theorem zero_notMem_inetNtoa (address : InAddr) : 0 ∉ inetNtoa address := fun member =>
  (inetNtoa_plain address 0 member).1 rfl

/-- The text of an address and its terminator fit into sixteen characters. -/
theorem length_inetNtoa_lt (address : InAddr) : (inetNtoa address).length < 16 := by
  rw [inetNtoa_eq]
  have first := (octet_facts address.first).2.1
  have second := (octet_facts address.second).2.1
  have third := (octet_facts address.third).2.1
  have fourth := (octet_facts address.fourth).2.1
  simp only [List.length_append, List.length_cons]
  omega

/-- Reading the text of an address gives the address. -/
@[simp] theorem inetAddr_inetNtoa (address : InAddr) : inetAddr (inetNtoa address) = address := by
  have whole : (inetNtoa address).takeWhile (fun character => !isSpace character) = inetNtoa address := by
    apply List.takeWhile_eq_self_iff.mpr
    intro character member
    simp [(inetNtoa_plain address character member).2]
  have undotted (value : UInt8) : 46 ∉ octet value := fun member =>
    ((octet_facts value).2.2 46 member).1 rfl
  have split : (inetNtoa address).splitOn 46 =
      [octet address.first, octet address.second, octet address.third, octet address.fourth] := by
    apply List.splitOn_intercalate
    · intro text member
      simp only [List.mem_cons, List.not_mem_nil, or_false] at member
      rcases member with rfl | rfl | rfl | rfl <;> exact undotted _
    · simp
  have bound (value : UInt8) : value.toNat < 256 := value.toNat_lt
  rw [inetAddr, whole, split]
  simp only [List.map_cons, List.map_nil, (octet_facts _).1, fromParts, bound, and_self, ↓reduceIte,
    UInt8.ofNat_toNat, Option.getD_some]

/-- Two addresses with one text are equal. -/
theorem inetNtoa_injective : Function.Injective inetNtoa := by
  intro first second equal
  rw [← inetAddr_inetNtoa first, equal, inetAddr_inetNtoa]

/-- Writing the address of a canonical text gives the text. -/
theorem Canonical.inetNtoa_inetAddr {text : List UInt8} (canonical : Canonical text) :
    inetNtoa (inetAddr text) = text := by
  obtain ⟨address, rfl⟩ := canonical
  rw [inetAddr_inetNtoa]

end DottedQuad
