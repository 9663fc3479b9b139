import Nose.Library.DottedQuad
import Nose.Source.Bucket

/-
This file gives the opening of a tun device from `linux/device.c`. The messages are left out.
-/

namespace Nose

open CMemory DottedQuad

def ifnamsiz : Nat := 16

/-- The flags `IFF_TUN`, `IFF_NO_PI` and `IFF_TUN_EXCL` together. -/
def tunFlags : UInt16 := 0x9001

structure Ifreq where
  ifrName : CharArray ifnamsiz
  ifrFlags : UInt16
  deriving DecidableEq, Repr

/-- These are the results of the calls. The two requests for a device have results of their own, and leave their
argument as it is. -/
structure TunOutcomes where
  openTun : Int
  tunsetiff : Nat → Int
  tunsetpersist : Nat → Int

/-- These are the calls on a descriptor of `/dev/net/tun`. -/
inductive DeviceCall where
  | openTun (fd : Int)
  | tunsetiff (fd : Int) (ifr : Ifreq) (result : Int)
  | tunsetpersist (fd : Int) (persist : Int) (result : Int)
  | close (fd : Int)
  deriving DecidableEq, Repr

/-- The text of `tun%d`. The loop prints no number above 255. -/
def tunName (id : Nat) : List UInt8 := [116, 117, 110] ++ octet (UInt8.ofNat id)

/-- The name is printed into a cleared array and copied from there. -/
def nameTun (ifr : Ifreq) (id : Nat) : Ifreq :=
  let devName : CharArray 10 := CharArray.setString (Vector.replicate 10 0) (tunName id)
  { ifr with ifrName := ifr.ifrName.strncpy devName.memory ifnamsiz }

/-- The loop runs for the given number of iterations at most. It ends with the counter and the name of the device. -/
def tryTuns (outcomes : TunOutcomes) (deviceName : CharArray 20) :
    Nat → Nat → Ifreq → Nat × CharArray 20 × List DeviceCall
  | 0, id, _ => (id, deviceName, [])
  | n + 1, id, ifr =>
      let ifr := nameTun ifr id
      let calls := [.tunsetiff outcomes.openTun ifr (outcomes.tunsetiff id),
        .tunsetpersist outcomes.openTun 1 (outcomes.tunsetpersist id)]
      if outcomes.tunsetpersist id ≥ 0 then
        (id + 1, deviceName.setString (cstr ifr.ifrName.toList), calls)
      else if id + 1 ≤ 255 then
        let rest := tryTuns outcomes deviceName n (id + 1) ifr
        (rest.1, rest.2.1, calls ++ rest.2.2)
      else (id + 1, deviceName, calls)

/-- The second result is the caller's name afterwards. -/
def utunOpen (outcomes : TunOutcomes) (deviceName : Option (CharArray 20)) :
    Int × Option (CharArray 20) × List DeviceCall :=
  let fd := outcomes.openTun
  if fd < 0 then (fd, deviceName, [.openTun fd])
  else
    match deviceName with
    | none => (failed, none, [.openTun fd])
    | some name =>
        if name[0] = 0 then (failed, some name, [.openTun fd])
        else
          let tried := tryTuns outcomes name 256 0 ⟨Vector.replicate ifnamsiz 0, tunFlags⟩
          if tried.1 = 256 then (error, some tried.2.1, .openTun fd :: tried.2.2)
          else (fd, some tried.2.1, .openTun fd :: tried.2.2)

/-- This is the name that `init_tun_device` passes. Only its first byte is read. -/
def tunDevName : CharArray 20 := CharArray.setString (Vector.replicate 20 0) (tunName 0)

end Nose
