import Nose.Source.SocketAddress

/-
This file gives the result codes of `hresult.h`, the constants of `stuntypes.h` and the socket roles of `socketrole.h`.
-/

namespace Nose

/-- These are the values of `HRESULT` that the functions give. The codes of the system calls are one value. -/
inductive HRESULT where
  | sOk
  | sFalse
  | eUnexpected
  | eInvalidarg
  | eFail
  | errnohr
  deriving DecidableEq, Repr

namespace HRESULT

def succeeded : HRESULT → Bool
  | sOk => true
  | sFalse => true
  | _ => false

def failed (hr : HRESULT) : Bool := !hr.succeeded

end HRESULT

/-- The macro `Chk` goes on after a success only. -/
def chk {State : Type} (first : HRESULT × State) (next : State → HRESULT × State) : HRESULT × State :=
  if first.1.failed then first else next first.2

@[simp] theorem chk_ok {State : Type} (state : State) (next : State → HRESULT × State) :
    chk (HRESULT.sOk, state) next = next state := rfl

def stunAttributeMappedaddress : UInt16 := 0x0001

def stunAttributeChangerequest : UInt16 := 0x0003

def stunAttributeSourceaddress : UInt16 := 0x0004

def stunAttributeChangedaddress : UInt16 := 0x0005

def stunAttributeUsername : UInt16 := 0x0006

def stunAttributeLegacyPassword : UInt16 := 0x0007

def stunAttributeMessageintegrity : UInt16 := 0x0008

def stunAttributeErrorcode : UInt16 := 0x0009

def stunAttributeUnknownattributes : UInt16 := 0x000A

def stunAttributeRealm : UInt16 := 0x0014

def stunAttributeNonce : UInt16 := 0x0015

def stunAttributeXormappedaddress : UInt16 := 0x0020

def stunAttributePadding : UInt16 := 0x0026

def stunAttributeResponsePort : UInt16 := 0x0027

/-- Legacy clients get the mapped address in this attribute. -/
def stunAttributeXormappedaddressOptional : UInt16 := 0x8020

def stunAttributeFingerprint : UInt16 := 0x8028

def stunAttributeResponseOrigin : UInt16 := 0x802b

def stunAttributeOtherAddress : UInt16 := 0x802c

def stunAttributeFieldIpv4 : UInt8 := 1

def stunAttributeFieldIpv6 : UInt8 := 2

def stunErrorBadrequest : Nat := 400

def stunErrorUnauthorized : Nat := 401

def stunErrorStalenonce : Nat := 438

/-- This is `StunMessageClass`. -/
inductive StunMessageClass where
  | request
  | indication
  | successResponse
  | failureResponse
  | invalidMessageClass
  deriving DecidableEq, Repr

/-- The value of a class in the enumeration. -/
def StunMessageClass.value : StunMessageClass → Nat
  | request => 0x00
  | indication => 0x01
  | successResponse => 0x02
  | failureResponse => 0x03
  | invalidMessageClass => 0xff

def stunMsgTypeBinding : UInt16 := 0x0001

namespace CStunMessageReader

/-- This is `StunAttribute`. -/
structure StunAttribute where
  attributeType : UInt16
  size : UInt16
  offset : UInt16
  deriving DecidableEq, Repr

end CStunMessageReader

/-- This is `StunChangeRequestAttribute`. -/
structure StunChangeRequestAttribute where
  fChangeIP : Bool
  fChangePort : Bool
  deriving DecidableEq, Repr

def stunCookie : UInt32 := 0x2112A442

def stunFingerprintXor : UInt32 := 0x5354554e

def stunHeaderSize : Nat := 20

def maxStunMessageSize : Nat := 800

def maxStunAttributeSize : Nat := 780

/-- This is `SocketRole`: the primary or the alternate address, with the primary or the alternate port. -/
inductive SocketRole where
  | pp
  | pa
  | ap
  | aa
  deriving DecidableEq, Repr

def socketRoleSwapPort : SocketRole → SocketRole
  | .pp => .pa
  | .pa => .pp
  | .ap => .aa
  | .aa => .ap

def socketRoleSwapIP : SocketRole → SocketRole
  | .pp => .ap
  | .pa => .aa
  | .ap => .pp
  | .aa => .pa

end Nose
