import Nose.Proof.Tunnel

namespace Nose

open CMemory

/-- The old contents of the memory that an encryption and the decryption of its result find: the local array `input`,
the bytes behind the plain text, and both output buffers. -/
structure CipherMemory where
  input : Block
  behind : Block
  cipherText : Block
  plainText : Block

section Seals

variable (lib : Libraries) (key : CharArray 34) (plain : List UInt8) (memory : CipherMemory)

def encrypted : Int × Block :=
  encryptByAes256 lib memory.input (block plain memory.behind) plain.length memory.cipherText key

/-- These are the bytes that the encryption returns. -/
def cipherBytes : List UInt8 := bytesOf (encrypted lib key plain memory).2 (encrypted lib key plain memory).1.toNat

def decrypted : Int × Block :=
  decryptByAes256 lib (encrypted lib key plain memory).2 (encrypted lib key plain memory).1 memory.plainText key

/-- The plain text is followed by zeros up to a length. -/
def zeroFilled (plain : List UInt8) (length : Nat) : List UInt8 :=
  plain ++ List.replicate (length - plain.length) 0

/-- The encryption returns the least number of bytes in whole blocks that hold the plain text, and the cipher text of
the plain text and zeros. The decryption gives both back. -/
structure Seals : Prop where
  least : IsLeast {length : Int | 16 ∣ length ∧ (plain.length : Int) ≤ length} (encrypted lib key plain memory).1
  cipher : cipherBytes lib key plain memory =
    lib.cbcEncrypt (keyBytes key) iv (zeroFilled plain (encrypted lib key plain memory).1.toNat)
  opened : (decrypted lib key plain memory).1 = (encrypted lib key plain memory).1 ∧
    bytesOf (decrypted lib key plain memory).2 (decrypted lib key plain memory).1.toNat =
      zeroFilled plain (encrypted lib key plain memory).1.toNat

/-- Two encryptions that find different memory return the same bytes. -/
def Repeatable : Prop :=
  ∀ first second : CipherMemory, cipherBytes lib key plain first = cipherBytes lib key plain second

end Seals

theorem least_blocks (length : Nat) : IsLeast {n : Int | 16 ∣ n ∧ (length : Int) ≤ n} (blocks length) := by
  unfold blocks
  constructor
  · constructor <;> omega
  · rintro n ⟨whole, enough⟩
    omega

/-- A plain text of whole blocks needs no padding. -/
theorem blocks_eq_iff (length : Nat) : blocks length = length ↔ 16 ∣ length := by
  unfold blocks
  omega

/-- The padding of the last block is the old contents of the local array. -/
theorem paddedText_eq_append (stack : Block) (plain : List UInt8) :
    paddedText stack plain = plain ++ (List.range' plain.length (blocks plain.length - plain.length)).map stack := by
  have enough := le_blocks plain.length
  apply List.ext_getElem
  · rw [length_paddedText, List.length_append, List.length_map, List.length_range']
    omega
  · intro i inside inside'
    rw [length_paddedText] at inside
    rw [List.getElem_append]
    split
    · rename_i within
      simp [paddedText, bytesOf, block, within]
    · rename_i beyond
      simp only [paddedText, bytesOf, block, List.getElem_map, List.getElem_range, List.getElem_range', Nat.one_mul]
      rw [List.getD_eq_getElem?_getD, List.getElem?_eq_none (by omega), Option.getD_none]
      congr 1
      omega

/-- The last block is filled up with zeros exactly when the local array held zeros there. -/
theorem paddedText_eq_zeroFilled_iff (stack : Block) (plain : List UInt8) :
    paddedText stack plain = zeroFilled plain (blocks plain.length) ↔
      ∀ i, plain.length ≤ i → i < blocks plain.length → stack i = 0 := by
  rw [paddedText_eq_append, zeroFilled, List.append_cancel_left_eq, List.eq_replicate_iff, List.length_map,
    List.length_range', eq_self_iff_true, true_and, List.forall_mem_map]
  apply forall_congr'
  intro i
  rw [List.mem_range'_1]
  constructor
  · intro zero lower upper
    exact zero ⟨lower, by omega⟩
  · rintro zero ⟨lower, upper⟩
    exact zero lower (by omega)

/-- Whole blocks are encrypted whatever the local array held. -/
theorem paddedText_whole (stack : Block) {plain : List UInt8} (whole : 16 ∣ plain.length) :
    paddedText stack plain = plain := by
  rw [paddedText, (blocks_eq_iff plain.length).mpr whole, bytesOf_block]

section Cipher

variable {lib : Libraries} (lawful : lib.Lawful) (key : CharArray 34) {plain : List UInt8}

include lawful

/-- The cipher of whole blocks loses nothing. -/
theorem cbcEncrypt_inj {first second : List UInt8} (whole : 16 ∣ first.length) (whole' : 16 ∣ second.length)
    (same : lib.cbcEncrypt (keyBytes key) iv first = lib.cbcEncrypt (keyBytes key) iv second) : first = second := by
  calc first = lib.cbcDecrypt (keyBytes key) iv (lib.cbcEncrypt (keyBytes key) iv first) :=
        (lawful.decrypt_encrypt _ _ _ whole).symm
    _ = lib.cbcDecrypt (keyBytes key) iv (lib.cbcEncrypt (keyBytes key) iv second) := by rw [same]
    _ = second := lawful.decrypt_encrypt _ _ _ whole'

theorem cipherBytes_eq (memory : CipherMemory) (small : plain.length < 2 ^ 31) :
    (encrypted lib key plain memory).1 = blocks plain.length ∧
      cipherBytes lib key plain memory = lib.cbcEncrypt (keyBytes key) iv (paddedText memory.input plain) := by
  have fits : plain.length < 2 ^ 64 := lt_trans small (by decide)
  have length := length_cbcEncrypt lawful memory.input key plain
  rw [cipherBytes, encrypted, encryptByAes256_eq _ _ _ _ _ _ fits]
  refine ⟨rfl, ?_⟩
  dsimp only
  rw [Int.toNat_natCast, ← length, bytesOf_block]

/-- The decryption of an encrypted plain text gives its padded text. -/
theorem decrypted_eq (memory : CipherMemory) (small : plain.length < 2 ^ 31) :
    (decrypted lib key plain memory).1 = blocks plain.length ∧
      bytesOf (decrypted lib key plain memory).2 (blocks plain.length) = paddedText memory.input plain := by
  have fits : plain.length < 2 ^ 64 := lt_trans small (by decide)
  have whole := sixteen_dvd_paddedText memory.input plain
  have length := length_cbcEncrypt lawful memory.input key plain
  have multiple : ¬ ((lib.cbcEncrypt (keyBytes key) iv (paddedText memory.input plain)).length : Int) % 16 ≠ 0 := by
    rw [length_paddedText] at whole
    rw [length]
    omega
  rw [decrypted, encrypted, encryptByAes256_eq _ _ _ _ _ _ fits]
  dsimp only
  rw [← length, decryptByAes256_eq, if_neg multiple, lawful.decrypt_encrypt _ _ _ whole]
  refine ⟨rfl, ?_⟩
  dsimp only
  rw [length, ← length_paddedText memory.input plain, bytesOf_block]

/-- A run seals its plain text exactly when the rest of the last block was zero before. -/
theorem seals_iff (memory : CipherMemory) (small : plain.length < 2 ^ 31) :
    Seals lib key plain memory ↔ ∀ i, plain.length ≤ i → i < blocks plain.length → memory.input i = 0 := by
  obtain ⟨length, bytes⟩ := cipherBytes_eq lawful key memory small
  obtain ⟨length', text⟩ := decrypted_eq lawful key memory small
  rw [← paddedText_eq_zeroFilled_iff]
  constructor
  · intro seals
    have opened := seals.opened.2
    rwa [length, length', Int.toNat_natCast, text] at opened
  · intro filled
    constructor
    · rw [length]
      exact least_blocks plain.length
    · rw [length, bytes, Int.toNat_natCast, filled]
    · rw [length, length', Int.toNat_natCast, text, filled]
      exact ⟨rfl, rfl⟩

/-- Every run seals the plain text exactly when it has whole blocks. -/
theorem seals_always_iff (small : plain.length < 2 ^ 31) :
    (∀ memory, Seals lib key plain memory) ↔ 16 ∣ plain.length := by
  constructor
  · intro seals
    have zero := (seals_iff lawful key ⟨fun _ => 1, fun _ => 0, fun _ => 0, fun _ => 0⟩ small).mp (seals _)
    rw [← blocks_eq_iff]
    by_contra partial_block
    have room : plain.length < blocks plain.length := (le_blocks plain.length).lt_of_ne (Ne.symm partial_block)
    exact absurd (zero plain.length le_rfl room) (show (1 : UInt8) ≠ 0 by decide)
  · intro whole memory
    rw [seals_iff lawful key memory small, (blocks_eq_iff plain.length).mpr whole]
    intro i lower upper
    omega

/-- Encryptions return the same bytes whatever they find exactly when the plain text has whole blocks. -/
theorem repeatable_iff (small : plain.length < 2 ^ 31) : Repeatable lib key plain ↔ 16 ∣ plain.length := by
  constructor
  · intro repeatable
    have bytes (memory : CipherMemory) := (cipherBytes_eq lawful key memory small).2
    have padded (first second : CipherMemory) : paddedText first.input plain = paddedText second.input plain := by
      have same := repeatable first second
      rw [bytes, bytes] at same
      exact cbcEncrypt_inj lawful key (sixteen_dvd_paddedText _ _) (sixteen_dvd_paddedText _ _) same
    apply (seals_always_iff lawful key small).mp
    intro memory
    rw [seals_iff lawful key memory small, ← paddedText_eq_zeroFilled_iff,
      padded memory ⟨fun _ => 0, fun _ => 0, fun _ => 0, fun _ => 0⟩, paddedText_eq_zeroFilled_iff]
    exact fun i _ _ => rfl
  · intro whole first second
    rw [(cipherBytes_eq lawful key first small).2, (cipherBytes_eq lawful key second small).2,
      paddedText_whole first.input whole, paddedText_whole second.input whole]

end Cipher

/-- The cipher text of a packet carries nothing else exactly when the packet has whole blocks. A single run whose array
has an int as its size carries nothing else exactly when the array held zeros behind the packet. -/
theorem carries_packet_only_iff (lib : Libraries) (lawful : lib.Lawful) (key : CharArray 34) (plain : List UInt8)
    (small : plain.length < 2 ^ 31) :
    ((∀ memory, Seals lib key plain memory) ∧ Repeatable lib key plain ↔ 16 ∣ plain.length) ∧
      (Repeatable lib key plain ↔ 16 ∣ plain.length) ∧
        (blocks plain.length < 2 ^ 31 → ∀ memory, Seals lib key plain memory ↔
          ∀ i, plain.length ≤ i → i < blocks plain.length → memory.input i = 0) := by
  refine ⟨?_, repeatable_iff lawful key small, fun _ memory => seals_iff lawful key memory small⟩
  rw [repeatable_iff lawful key small, seals_always_iff lawful key small, and_self_iff]

theorem carries_packet_only_sample :
    ((∀ memory, Seals sampleLibraries samplePr.key samplePacket memory) ∧
        Repeatable sampleLibraries samplePr.key samplePacket ↔ 16 ∣ samplePacket.length) ∧
      (Repeatable sampleLibraries samplePr.key samplePacket ↔ 16 ∣ samplePacket.length) ∧
        (blocks samplePacket.length < 2 ^ 31 → ∀ memory, Seals sampleLibraries samplePr.key samplePacket memory ↔
          ∀ i, samplePacket.length ≤ i → i < blocks samplePacket.length → memory.input i = 0) :=
  carries_packet_only_iff sampleLibraries sampleLibraries_lawful samplePr.key samplePacket (by decide)

/-- Twelve old bytes of the stack are encrypted behind the twenty bytes of the packet. -/
theorem stack_is_encrypted : sampleLibraries.Lawful ∧
    ¬ Repeatable sampleLibraries samplePr.key samplePacket ∧
      ¬ Seals sampleLibraries samplePr.key samplePacket ⟨fun _ => 83, blankBlock, blankBlock, blankBlock⟩ := by
  have small : samplePacket.length < 2 ^ 31 := by decide
  refine ⟨sampleLibraries_lawful, ?_, ?_⟩
  · rw [repeatable_iff sampleLibraries_lawful samplePr.key small]
    decide
  · rw [seals_iff sampleLibraries_lawful samplePr.key _ small]
    intro zero
    exact absurd (zero 20 (by decide) (by decide)) (show (83 : UInt8) ≠ 0 by decide)

end Nose
