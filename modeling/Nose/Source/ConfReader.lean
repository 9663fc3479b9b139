import Nose.Source.Pmp

/-
This file gives the reader of configuration files from `conf-reader.c`, and the values that `main` takes from it.
The tests for null pointers and the opening of the file are left out.
-/

namespace Nose

open CMemory

/-- The size of the line buffer, of a key, of a value and of the array of items. -/
def maxConf : Nat := 1024

/-- The fields of an item are cleared before they are filled, so that they hold strings. -/
structure ConfItem where
  key : List UInt8
  value : List UInt8
  deriving DecidableEq, Repr

/-- The number of items is the length of the list. -/
structure ConfReader where
  items : List ConfItem
  deriving DecidableEq, Repr

/-- These are the copies of the reader, with their counts and where they begin. -/
inductive ConfCopy where
  | key (count : Nat)
  | value (offset count : Nat)
  | item (slot : Nat)
  | out (capacity count : Nat)
  deriving DecidableEq, Repr

def newline : UInt8 := 10

def equals : UInt8 := 61

/-- A read of at most `count` bytes stops after a newline. The third result is true when it met the end of the file. -/
def fgetsLoop : Nat → List UInt8 → List UInt8 × List UInt8 × Bool
  | 0, file => ([], file, false)
  | _ + 1, [] => ([], [], true)
  | count + 1, c :: file =>
      if c = newline then ([c], file, false)
      else
        let result := fgetsLoop count file
        (c :: result.1, result.2)

/-- The last byte of the buffer is kept for the terminator. -/
def fgets (size : Nat) (file : List UInt8) : List UInt8 × List UInt8 × Bool := fgetsLoop (size - 1) file

/-- These are the contents of the line buffer, until a read meets the end of the file. Every other read takes at least
one byte. -/
def confReads : Nat → List UInt8 → List (List UInt8)
  | 0, _ => []
  | reads + 1, file =>
      let result := fgets maxConf file
      if result.2.2 then [result.1] else result.1 :: confReads reads result.2.1

/-- The place of the first equals sign, or the length of the line. -/
def splitPos (tmp : List UInt8) : Nat := (tmp.takeWhile (· ≠ equals)).length

/-- Nothing is known about the rest of the program after bytes were written outside of a buffer. -/
def parseLine (reader : ConfReader) (buffer : List UInt8) : Option ConfReader × List ConfCopy :=
  let tmp := cstr buffer
  if tmp.length = 0 then (some reader, [])
  else
    let split := splitPos tmp
    let count := sizeT (tmp.length - split - 2)
    let copies := [ConfCopy.key split, .value (split + 1) count]
    if maxConf < count then (none, copies)
    else
      let copies := copies ++ [.item reader.items.length]
      if maxConf ≤ reader.items.length then (none, copies)
      else (some ⟨reader.items ++ [⟨tmp.take split, (tmp.drop (split + 1)).take count⟩]⟩, copies)

def parseLines : ConfReader → List (List UInt8) → Option ConfReader × List ConfCopy
  | reader, [] => (some reader, [])
  | reader, buffer :: rest =>
      let first := parseLine reader buffer
      match first.1 with
      | none => first
      | some reader =>
          let last := parseLines reader rest
          (last.1, first.2 ++ last.2)

def confParser (file : List UInt8) : Option ConfReader × List ConfCopy :=
  parseLines ⟨[]⟩ (confReads (file.length + 1) file)

/-- The reader has no items before the file is parsed. -/
def readConf (file : List UInt8) : Option (Int × ConfReader) := (confParser file).1.map (Prod.mk ok)

/-- The value is copied without its terminator. -/
def getValue {size : Nat} (reader : ConfReader) (key : List UInt8) (value : CharArray size) : Int × CharArray size :=
  match reader.items.find? fun item => item.key = key with
  | some item => (ok, value.strncpy (block item.value fun _ => 0) item.value.length)
  | none => (failed, value)

/-- The copy of a search depends on the found value only. -/
def getValueCopy (reader : ConfReader) (key : List UInt8) (capacity : Nat) : List ConfCopy :=
  match reader.items.find? fun item => item.key = key with
  | some item => [.out capacity item.value.length]
  | none => []

/-- These are the work modes of the program. -/
inductive WorkMode where
  | masterPeer
  | peer
  deriving DecidableEq, Repr

def ascii (text : String) : List UInt8 := text.toList.map fun c => UInt8.ofNat c.toNat

/-- These are the keys that `main` asks for, with the sizes of the arrays for their values. -/
def WorkMode.destinations : WorkMode → List (List UInt8 × Nat)
  | .peer => [(ascii "source_ipv4", 16), (ascii "master_peer_ipv4", 16), (ascii "mstp_id", 21),
      (ascii "vlan_local_ipv4", 16), (ascii "vlan_remote_ipv4", 16), (ascii "stun_server_ipv4", 16),
      (ascii "source_port", 10), (ascii "master_peer_port", 10), (ascii "key", 34)]
  | .masterPeer => [(ascii "ipv4", 16), (ascii "port", 6), (ascii "node_id", 21), (ascii "master_peer_ipv4", 16),
      (ascii "master_peer_port", 6), (ascii "mstp_id", 21)]

/-- These are the copies of the program from the start until its configuration is taken over. -/
def configure (mode : WorkMode) (file : List UInt8) : List ConfCopy :=
  let parsed := confParser file
  parsed.2 ++ match parsed.1 with
    | none => []
    | some reader => mode.destinations.flatMap fun (key, capacity) => getValueCopy reader key capacity

end Nose
