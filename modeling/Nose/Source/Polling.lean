import Nose.Source.FastHash
import Nose.Source.StunTypes

/-
This file gives the class `CPoll` of `polling.cpp`. A result of `none` means that a loop does not end or that a pointer
that is `NULL` is written through.
-/

namespace Nose

def ipollingRead : UInt32 := 0x01

def ipollingWrite : UInt32 := 0x02

def ipollingRdhup : UInt32 := 0x08

def ipollingHup : UInt32 := 0x10

def ipollingPri : UInt32 := 0x20

def ipollingError : UInt32 := 0x40

/-- These are the flags with the values that `poll.h` gives them. -/
def pollFlags : List (UInt32 × UInt32) :=
  [(ipollingRead, 0x0001), (ipollingWrite, 0x0004), (ipollingRdhup, 0x2000), (ipollingHup, 0x0010),
    (ipollingPri, 0x0002), (ipollingError, 0x0008)]

/-- This is `pollfd`, with its flags in unsigned words. -/
structure PollFd where
  fd : Int
  events : UInt32
  revents : UInt32
  deriving DecidableEq

/-- A slot whose events are delivered is cleared. -/
def PollFd.clear (slot : PollFd) : PollFd := { slot with revents := 0 }

structure CPoll where
  fds : List PollFd
  rotation : Nat
  unreadcount : Nat
  fInitialized : Bool
  hashtable : FastHashBase Int Nat

/-- This is `FastHash_Hash` of a signed number. -/
def fastHashHash (x : Int) : Nat := (x % 2 ^ 64).toNat

/-- A call of `poll` fails, or gives the returned events of each descriptor. -/
inductive PollReply where
  | failed
  | revents (events : Int → UInt32)

/-- An assertion that does not hold is written as `ASSERT`, or it belongs to a failed `ChkIfA`. -/
inductive Assertion where
  | stated
  | chkIfA
  deriving DecidableEq

/-- These are the result of a call, the events of a `poll`, a delivered event, a removed descriptor and an assertion that
does not hold. -/
inductive PollLog where
  | result (hr : HRESULT)
  | polled (ready : List (Int × UInt32))
  | delivered (fd : Int) (eventflags : UInt32)
  | removed (fd : Int)
  | assertion (which : Assertion)
  deriving DecidableEq

namespace CPoll

def toNativeFlags (eventflags : UInt32) : UInt32 :=
  pollFlags.foldl (fun result flag => if eventflags &&& flag.1 ≠ 0 then result ||| flag.2 else result) 0

def fromNativeFlags (eventflags : UInt32) : UInt32 :=
  pollFlags.foldl (fun result flag => if eventflags &&& flag.2 ≠ 0 then result ||| flag.1 else result) 0

/-- The slot at a position of the vector. -/
def slot (fds : List PollFd) (pos : Nat) : PollFd := fds.getD pos ⟨0, 0, 0⟩

/-- This is `Initialize`. The width of the table is the one that `FastHash_GetHashTableWidth` gives. -/
def init (maxSockets width : Nat) (nodelist : Nat → Int × Nat) (itemnodelist : Nat → ItemNode)
    (lookuptable : Nat → Option Nat) (indexlist : Nat → Nat) : CPoll where
  fds := []
  rotation := 0
  unreadcount := 0
  fInitialized := true
  hashtable := FastHashBase.init maxSockets width nodelist itemnodelist lookuptable indexlist

/-- The result of the insertion is not read. -/
def add (poll : CPoll) (fd : Int) (eventflags : UInt32) : Option (HRESULT × CPoll × List PollLog) :=
  if poll.fInitialized = false then some (.eFail, poll, [.assertion .chkIfA])
  else
    (poll.hashtable.lookup fastHashHash fd).map fun
      | some _ => (.eUnexpected, poll, [.assertion .chkIfA])
      | none =>
          (.sOk,
            { poll with
              fds := poll.fds ++ [⟨fd, toNativeFlags eventflags, 0⟩]
              hashtable := (poll.hashtable.insert fastHashHash fd poll.fds.length).2 }, [])

/-- The last slot moves to the removed one. -/
def moveLast (poll : CPoll) (pos : Nat) : Option CPoll :=
  if pos = poll.fds.length - 1 then some poll
  else
    let fds := poll.fds.set pos (slot poll.fds (poll.fds.length - 1))
    (poll.hashtable.lookup fastHashHash (slot fds pos).fd).bind fun
      | none => none
      | some pPos => some { poll with fds, hashtable := poll.hashtable.store pPos pos }

/-- The sizes are compared by an assertion when a descriptor is removed or changed. -/
def assertSize (poll : CPoll) : List PollLog :=
  if poll.hashtable.size ≠ poll.fds.length then [.assertion .stated] else []

/-- Only the test for an empty vector is a `ChkIf`. -/
def remove (poll : CPoll) (fd : Int) : Option (HRESULT × CPoll × List PollLog) :=
  if poll.fInitialized = false then some (.eFail, poll, [.assertion .chkIfA])
  else
    let sized := poll.assertSize
    if poll.fds.length = 0 then some (.eFail, poll, sized)
    else
      (poll.hashtable.lookup fastHashHash fd).bind fun
        | none => some (.eFail, poll, sized ++ [.assertion .chkIfA])
        | some pPos =>
            let pos := poll.hashtable.load pPos
            if poll.fds.length ≤ pos then some (.eFail, poll, sized ++ [.assertion .chkIfA])
            else if (slot poll.fds pos).fd ≠ fd then some (.eFail, poll, sized ++ [.assertion .chkIfA])
            else
              (poll.moveLast pos).bind fun poll =>
                (poll.hashtable.remove fastHashHash fd).map fun removed =>
                  (.sOk, { poll with hashtable := removed.2, fds := poll.fds.dropLast }, sized)

def changeEventSet (poll : CPoll) (fd : Int) (eventflags : UInt32) : Option (HRESULT × CPoll × List PollLog) :=
  if poll.fInitialized = false then some (.eFail, poll, [.assertion .chkIfA])
  else
    let sized := poll.assertSize
    if poll.fds.length = 0 then some (.eFail, poll, sized)
    else
      (poll.hashtable.lookup fastHashHash fd).map fun
        | none => (.eFail, poll, sized ++ [.assertion .chkIfA])
        | some pPos =>
            let pos := poll.hashtable.load pPos
            if poll.fds.length ≤ pos then (.eFail, poll, sized ++ [.assertion .chkIfA])
            else if (slot poll.fds pos).fd ≠ fd then (.eFail, poll, sized ++ [.assertion .chkIfA])
            else
              (.sOk, { poll with fds := poll.fds.set pos { slot poll.fds pos with events := toNativeFlags eventflags } },
                sized)

/-- The search starts at the rotation, which moves on with every event. -/
def findNextEvent (poll : CPoll) : Option (Int × UInt32) × CPoll :=
  if poll.unreadcount = 0 then (none, poll)
  else
    let size := poll.fds.length
    let rotation := if size ≤ poll.rotation then 0 else poll.rotation
    match (List.range size).find? fun index => (slot poll.fds ((index + rotation) % size)).revents ≠ 0 with
    | none => (none, { poll with rotation })
    | some index =>
        let slotindex := (index + rotation) % size
        let found := slot poll.fds slotindex
        (some (found.fd, fromNativeFlags found.revents),
          { poll with
            fds := poll.fds.set slotindex found.clear
            rotation := rotation + 1
            unreadcount := poll.unreadcount - 1 })

/-- The call of `poll` writes the returned events of every slot. It ignores a negative descriptor. -/
def pollCall (fds : List PollFd) (events : Int → UInt32) : List PollFd :=
  fds.map fun slot => { slot with revents := if slot.fd < 0 then 0 else events slot.fd }

/-- The slots that have returned events. -/
def ready (fds : List PollFd) : List PollFd := fds.filter fun slot => slot.revents ≠ 0

def waitForNextEvent (poll : CPoll) (reply : PollReply) : HRESULT × CPoll × List PollLog :=
  if poll.fInitialized = false then (.eFail, poll, [.assertion .chkIfA])
  else if poll.fds.length = 0 then (.sFalse, poll, [])
  else
    match poll.findNextEvent with
    | (some event, poll) => (.sOk, poll, [.delivered event.1 event.2])
    | (none, poll) =>
        let checked := if poll.unreadcount = 0 then [] else [PollLog.assertion .stated]
        let poll := { poll with unreadcount := 0 }
        match reply with
        | .failed => (.errnohr, poll, checked ++ [.assertion .chkIfA])
        | .revents events =>
            let fds := pollCall poll.fds events
            let polled := checked ++ [.polled ((ready fds).map fun slot => (slot.fd, slot.revents))]
            if (ready fds).length = 0 then (.sFalse, { poll with fds }, polled)
            else
              match findNextEvent { poll with fds, unreadcount := (ready fds).length } with
              | (some event, poll) => (.sOk, poll, polled ++ [.delivered event.1 event.2])
              | (none, poll) => (.sFalse, poll, polled ++ [.assertion .stated])

end CPoll

/-- These are the calls of the users of a polling instance. -/
inductive PollCall where
  | add (fd : Int) (eventflags : UInt32)
  | remove (fd : Int)
  | changeEventSet (fd : Int) (eventflags : UInt32)
  | waitForNextEvent (reply : PollReply)

def CPoll.step (poll : CPoll) : PollCall → Option (CPoll × List PollLog)
  | .add fd eventflags =>
      (poll.add fd eventflags).map fun result => (result.2.1, result.2.2 ++ [.result result.1])
  | .remove fd =>
      (poll.remove fd).map fun result =>
        (result.2.1, result.2.2 ++ .result result.1 :: if result.1 = .sOk then [.removed fd] else [])
  | .changeEventSet fd eventflags =>
      (poll.changeEventSet fd eventflags).map fun result => (result.2.1, result.2.2 ++ [.result result.1])
  | .waitForNextEvent reply =>
      let result := poll.waitForNextEvent reply
      some (result.2.1, result.2.2 ++ [.result result.1])

end Nose
