import Nose.Library.CMemory
import Nose.Source.StunTypes

/-
This file gives the classes `CBuffer` of `buffer.cpp` and `CDataStream` of `datastream.cpp`. The allocations succeed.
-/

namespace Nose

open CMemory

/-- The buffer has the bytes below its size. The allocation can be longer. -/
structure CBuffer where
  data : List UInt8
  allocatedSize : Nat
  deriving DecidableEq

/-- A buffer that the stream replaces when it grows is still the one that its other users have. -/
structure CDataStream where
  spBuffer : Option CBuffer
  pos : Nat
  fNoGrow : Bool
  replaced : Option CBuffer
  deriving DecidableEq

namespace CDataStream

/-- This is `Reset`. -/
def empty : CDataStream := ⟨none, 0, false, none⟩

/-- For writing the buffer starts over. -/
def attach (buf : CBuffer) (fForWriting : Bool) : CDataStream :=
  ⟨some (if fForWriting then { buf with data := [] } else buf), 0, false, none⟩

/-- The bytes below the size of the stream. -/
def data (stream : CDataStream) : List UInt8 := (stream.spBuffer.map CBuffer.data).getD []

def allocated (stream : CDataStream) : Nat := (stream.spBuffer.map CBuffer.allocatedSize).getD 0

/-- The buffer that was attached, as its other users see it. -/
def attached (stream : CDataStream) : Option CBuffer := stream.replaced.or stream.spBuffer

/-- The allocation is doubled at least. -/
def grow (stream : CDataStream) (size : Nat) : HRESULT × CDataStream :=
  if size ≤ stream.allocated then (.sOk, stream)
  else if stream.fNoGrow then (.eFail, stream)
  else
    (.sOk,
      { stream with
        spBuffer := some ⟨stream.data, if stream.allocated * 2 < size then size else stream.allocated * 2⟩
        replaced := stream.attached })

def read (stream : CDataStream) (size : Nat) : HRESULT × List UInt8 × CDataStream :=
  if stream.data.length < size + stream.pos then (.eInvalidarg, [], stream)
  else (.sOk, (stream.data.drop stream.pos).take size, { stream with pos := size + stream.pos })

/-- A longer stream takes the result of `SetSize`, which is a comparison. -/
def write (stream : CDataStream) (bytes : List UInt8) : HRESULT × CDataStream :=
  let newposition := bytes.length + stream.pos
  if bytes = [] then (.eFail, stream)
  else
    let grown := stream.grow newposition
    if grown.1.failed then grown
    else
      let written := stream.data.take stream.pos ++ bytes ++ stream.data.drop newposition
      (if stream.data.length < newposition then .sFalse else .sOk,
        { grown.2 with spBuffer := some ⟨written, grown.2.allocated⟩, pos := newposition })

def seekDirect (stream : CDataStream) (pos : Nat) : HRESULT × CDataStream :=
  if pos ≤ stream.data.length then (.sOk, { stream with pos }) else (.eFail, stream)

/-- The sum of the offset and of the position is a `size_t`. -/
def seekRelative (stream : CDataStream) (offset : Int) : HRESULT × CDataStream :=
  stream.seekDirect ((offset + stream.pos) % 2 ^ 64).toNat

def readUint8 (stream : CDataStream) : HRESULT × UInt8 × CDataStream :=
  let result := stream.read 1
  (result.1, result.2.1.getD 0 0, result.2.2)

def readUint16 (host : ByteOrder) (stream : CDataStream) : HRESULT × UInt16 × CDataStream :=
  let result := stream.read 2
  (result.1, load16 host (block result.2.1 fun _ => 0) 0, result.2.2)

def readUint32 (host : ByteOrder) (stream : CDataStream) : HRESULT × UInt32 × CDataStream :=
  let result := stream.read 4
  (result.1, load32 host (block result.2.1 fun _ => 0) 0, result.2.2)

def writeUint16 (host : ByteOrder) (stream : CDataStream) (val : UInt16) : HRESULT × CDataStream :=
  stream.write (bytesOf (store16 host (fun _ => 0) 0 val) 2)

def writeUint32 (host : ByteOrder) (stream : CDataStream) (val : UInt32) : HRESULT × CDataStream :=
  stream.write (bytesOf (store32 host (fun _ => 0) 0 val) 4)

end CDataStream

end Nose
