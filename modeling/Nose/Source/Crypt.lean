import Nose.Source.Pmp

/-
This file gives the encryption from `crypt.c` and the calls of zlib. What the two libraries compute is a
parameter.
-/

namespace Nose

open CMemory

/-- These are the functions of zlib and mbedtls on whole byte strings. A failed `inflate` has no result. -/
structure Libraries where
  deflate (text : List UInt8) : List UInt8
  inflate (packed : List UInt8) : Option (List UInt8)
  cbcEncrypt (key iv text : List UInt8) : List UInt8
  cbcDecrypt (key iv text : List UInt8) : List UInt8

/-- The libraries lose nothing, the ciphers keep whole blocks, and long runs of one byte shrink. -/
structure Libraries.Lawful (lib : Libraries) : Prop where
  inflate_deflate : ∀ text, lib.inflate (lib.deflate text) = some text
  decrypt_encrypt : ∀ key iv text, 16 ∣ text.length → lib.cbcDecrypt key iv (lib.cbcEncrypt key iv text) = text
  encrypt_decrypt : ∀ key iv text, 16 ∣ text.length → lib.cbcEncrypt key iv (lib.cbcDecrypt key iv text) = text
  length_encrypt : ∀ key iv text, 16 ∣ text.length → (lib.cbcEncrypt key iv text).length = text.length
  length_decrypt : ∀ key iv text, 16 ∣ text.length → (lib.cbcDecrypt key iv text).length = text.length
  deflate_run : ∀ n byte, 512 ≤ n → 4 * (lib.deflate (List.replicate n byte)).length < n

/-- The call returns `Z_OK` and its output when the output fits. -/
def compress (lib : Libraries) (destLen : Nat) (source : List UInt8) : Option (List UInt8) :=
  if (lib.deflate source).length ≤ destLen then some (lib.deflate source) else none

def uncompress (lib : Libraries) (destLen : Nat) (source : List UInt8) : Option (List UInt8) :=
  (lib.inflate source).filter fun text => text.length ≤ destLen

/-- The call fails on a partial block. -/
def mbedtlsAesCryptCbc (crypt : List UInt8 → List UInt8) (length : Int) (input output : Block) : Option Block :=
  if length % 16 ≠ 0 then none else some (block (crypt (bytesOf input length.toNat)) output)

def iv : List UInt8 := [14, 31, 6, 126, 18, 12, 36, 70, 100, 9, 42, 51, 111, 84, 3, 25]

/-- The cipher reads 256 bits of the key field. -/
def keyBytes (key : CharArray 34) : List UInt8 := bytesOf key.memory 32

/-- The last block is filled up with the old bytes of the local input. -/
def encryptByAes256 (lib : Libraries) (input plainText : Block) (plainTextLen : Int) (cipherText : Block)
    (key : CharArray 34) : Int × Block :=
  let outputLen := if plainTextLen % 16 = 0 then plainTextLen else (plainTextLen / 16 + 1) * 16
  let input := memset input 0 (sizeT plainTextLen)
  let input := memcpy input 0 plainText (sizeT plainTextLen)
  match mbedtlsAesCryptCbc (lib.cbcEncrypt (keyBytes key) iv) outputLen input cipherText with
  | none => (error, cipherText)
  | some cipherText => (outputLen, cipherText)

def decryptByAes256 (lib : Libraries) (cipherText : Block) (cipherTextLen : Int) (plainText : Block)
    (key : CharArray 34) : Int × Block :=
  if cipherTextLen % 16 ≠ 0 then (error, plainText)
  else
    match mbedtlsAesCryptCbc (lib.cbcDecrypt (keyBytes key) iv) cipherTextLen cipherText plainText with
    | none => (error, plainText)
    | some plainText => (cipherTextLen, plainText)

end Nose
