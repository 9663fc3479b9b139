import Nose.Library.LoggedRun
import Nose.Proof.MasterRequests
import Nose.Source.MasterTimers

namespace Nose

open CMemory DottedQuad LoggedRun

/-- A call opens a socket when it returned one, and a close closes it. -/
def UdpCall.opens : UdpCall → Int
  | .socket sockfd => if 0 ≤ sockfd then 1 else 0
  | .close _ => -1
  | _ => 0

/-- The sockets that the calls leave open. -/
def opened (calls : List UdpCall) : Int := (calls.map UdpCall.opens).sum

/-- The callback receives only on a socket that it opened itself. -/
def ReceivesOwn (calls : List UdpCall) : Prop :=
  ∀ sockfd, UdpCall.recvfrom sockfd ∈ calls → 0 ≤ sockfd ∧ UdpCall.socket sockfd ∈ calls

/-- Each callback receives on its own socket, and after any number of callbacks as many sockets are open as before. -/
structure KeepsSockets (host : ByteOrder) (mstp : MasterPeer) (expiries : List Expiry) : Prop where
  own : EveryStep (expireStep host) (fun state expiry => ∀ mstp ∈ state, ReceivesOwn (mstp.expire host expiry).2)
    (some mstp) expiries
  balanced : ∀ n final calls, run (expireStep host) (some mstp) (expiries.take n) = some (final, calls) →
    opened calls = 0

theorem opened_append (first second : List UdpCall) : opened (first ++ second) = opened first + opened second := by
  rw [opened, List.map_append, List.sum_append]
  rfl

theorem recvUdpPkt_calls (net : UdpOutcomes) (handler : UdpHandler) (buf : Block) :
    (recvUdpPkt net handler buf).2.2.2 = [.recvfrom handler.sockfd] := by
  rw [recvUdpPkt]
  cases net.recvfrom with
  | none => rfl
  | some delivered => rfl

/-- A send stops at its first call that fails. -/
theorem sendUdpPkt_calls (host : ByteOrder) (net : UdpOutcomes) (handler : UdpHandler) (dstHost : CharArray 16)
    (port : Int) (buf : Block) (size : Int) :
    (sendUdpPkt host net handler dstHost port buf size).2.2 =
      if net.socket < 0 then [.socket net.socket]
      else if net.setsockopt < 0 then [.socket net.socket, .setsockopt net.socket]
      else [.socket net.socket, .setsockopt net.socket, .sendto net.socket
        ⟨inetAddr (cstr dstHost.toList), htons host (UInt16.ofInt port)⟩ (bytesOf buf size.toNat)] := by
  rw [sendUdpPkt]
  dsimp only
  split
  · rfl
  · split
    · rfl
    · split <;> rfl

/-- An exchange leaves its socket open, and without one it receives on the old handler. -/
theorem exchange_calls (host : ByteOrder) (net : UdpOutcomes) (item : BucketItem) (built : Int × Block) :
    opened (exchange host net item built).2.2 = (if 0 ≤ net.socket then 1 else 0) ∧
      (net.socket < 0 → (exchange host net item built).2.2 = [.socket net.socket, .recvfrom net.handler.sockfd]) := by
  rw [exchange]
  dsimp only
  constructor
  · rw [recvUdpPkt_calls, sendUdpPkt_calls]
    by_cases failed : net.socket < 0
    · rw [if_pos failed]
      simp [opened, UdpCall.opens]
    · have valid : 0 ≤ net.socket := by omega
      rw [if_neg failed, if_pos valid]
      split <;> simp [opened, UdpCall.opens, valid]
  · intro failed
    rw [recvUdpPkt_calls, sendUdpPkt_calls, if_pos failed, sendUdpPkt, if_pos failed]
    rfl

theorem getFrontBucket_nonempty {bkt : Bucket} (nonempty : 0 ≤ bkt.top) : getFrontBucket bkt = some bkt.top :=
  if_neg (by omega)

/-- A callback of a master that knows another master makes one exchange. -/
theorem expire_calls (host : ByteOrder) (mstp : MasterPeer) (expiry : Expiry) (nonempty : 0 ≤ mstp.masterPeerBkt.top) :
    ∃ item built, (mstp.expire host expiry).2 = (exchange host expiry.net item built).2.2 := by
  have front := getFrontBucket_nonempty nonempty
  rw [MasterPeer.expire]
  cases expiry.timer with
  | pingEvent =>
      dsimp only
      rw [MasterPeer.pingPeer, getNextBucketItem, if_neg (by omega)]
      exact ⟨_, _, rfl⟩
  | discoveryEvent =>
      dsimp only
      rw [MasterPeer.discoveryProc, front]
      exact ⟨_, _, rfl⟩
  | getPeersEvent =>
      dsimp only
      rw [MasterPeer.getPeers, front]
      exact ⟨_, _, rfl⟩

/-- A push leaves a table with an entry nonempty. -/
theorem pushItems_nonempty (ctx : Nat → PushContext) {bkt : Bucket} (items : List BucketItem) (nonempty : 0 ≤ bkt.top) :
    0 ≤ (pushItems ctx bkt items).top := by
  refine pushItems_keeps (motive := fun bkt => 0 ≤ bkt.top) (fun ctx bkt item _ nonempty => ?_) nonempty
  rw [pushFrontBucket]
  split
  · exact nonempty
  · dsimp only
    split
    · simp only [popBackBucket]
      omega
    · omega

/-- A discovery callback pushes items into the table of masters. -/
theorem discoveryProc_pushes (host : ByteOrder) (around : Surroundings) (mstp : MasterPeer) (buf : Block) (len : Int) :
    ∃ items, (discoveryProc host around mstp buf len).masterPeerBkt =
      pushItems around.push mstp.masterPeerBkt items := by
  rw [discoveryProc]
  split
  · dsimp only
    rw [pmpDiscoveryRspUnpack]
    split
    · exact ⟨[], rfl⟩
    · dsimp only
      split
      · exact ⟨[], rfl⟩
      · exact ⟨_, discoveryOptionsUnpack_eq host around.push buf _ 24 around.item mstp.masterPeerBkt⟩
  · exact ⟨[], rfl⟩

/-- A callback leaves the table of masters nonempty. -/
theorem expire_nonempty (host : ByteOrder) (mstp : MasterPeer) (expiry : Expiry)
    (nonempty : 0 ≤ mstp.masterPeerBkt.top) :
    ∀ next ∈ (mstp.expire host expiry).1, 0 ≤ next.masterPeerBkt.top := by
  have front := getFrontBucket_nonempty nonempty
  intro next member
  rw [MasterPeer.expire] at member
  cases timer : expiry.timer with
  | pingEvent =>
      rw [timer, MasterPeer.pingPeer, getNextBucketItem, if_neg (by omega)] at member
      rw [← Option.some.inj member]
      exact nonempty
  | discoveryEvent =>
      rw [timer, MasterPeer.discoveryProc, front] at member
      dsimp only at member
      split at member
      · cases member
      · obtain ⟨items, pushed⟩ := discoveryProc_pushes host expiry.around mstp _ _
        rw [← Option.some.inj member, pushed]
        exact pushItems_nonempty _ items nonempty
  | getPeersEvent =>
      rw [timer, MasterPeer.getPeers, front] at member
      rw [← Option.some.inj member, Nose.getPeers]
      split <;> exact nonempty

/-- The open sockets after a run are those that its callbacks got. -/
theorem opened_run (host : ByteOrder) {state final : Option MasterPeer} {expiries : List Expiry} {calls : List UdpCall}
    (nonempty : ∀ mstp ∈ state, 0 ≤ mstp.masterPeerBkt.top)
    (reached : run (expireStep host) state expiries = some (final, calls)) :
    opened calls = expiries.countP fun expiry => 0 ≤ expiry.net.socket := by
  induction expiries generalizing state calls with
  | nil =>
      obtain ⟨rfl, rfl⟩ := Prod.mk.inj (Option.some.inj reached)
      rfl
  | cons expiry rest ih =>
      obtain ⟨middle, first, last, stepped, continued, rfl⟩ := run_cons.mp reached
      obtain ⟨mstp, rfl, same⟩ := Option.map_eq_some_iff.mp stepped
      have known := nonempty mstp rfl
      obtain ⟨item, built, exchanged⟩ := expire_calls host mstp expiry known
      have count := (exchange_calls host expiry.net item built).1
      rw [← exchanged, same] at count
      have kept := expire_nonempty host mstp expiry known
      rw [same] at kept
      rw [opened_append, count, ih kept continued, List.countP_cons]
      by_cases valid : 0 ≤ expiry.net.socket
      · simp [valid, add_comm]
      · simp [valid]

/-- A callback receives on a foreign socket or leaves its own socket open. -/
theorem expire_breaks (host : ByteOrder) (mstp : MasterPeer) (expiry : Expiry) (nonempty : 0 ≤ mstp.masterPeerBkt.top) :
    ¬ ReceivesOwn (mstp.expire host expiry).2 ∨ opened (mstp.expire host expiry).2 = 1 := by
  obtain ⟨item, built, calls⟩ := expire_calls host mstp expiry nonempty
  obtain ⟨count, stale⟩ := exchange_calls host expiry.net item built
  rw [calls]
  by_cases failed : expiry.net.socket < 0
  · left
    rw [stale failed]
    intro own
    obtain ⟨valid, member⟩ := own expiry.net.handler.sockfd (by simp)
    rcases List.mem_cons.mp member with same | member
    · injection same with same
      omega
    · simp at member
  · right
    rw [count, if_pos (by omega)]

/-- Timers that keep the sockets do not expire. -/
theorem KeepsSockets.empty {host : ByteOrder} {mstp : MasterPeer} {expiries : List Expiry}
    (keeps : KeepsSockets host mstp expiries) (nonempty : 0 ≤ mstp.masterPeerBkt.top) : expiries = [] := by
  cases expiries with
  | nil => rfl
  | cons expiry rest =>
      have stepped : expireStep host (some mstp) expiry = some (mstp.expire host expiry) := rfl
      have first : run (expireStep host) (some mstp) ((expiry :: rest).take 1) =
          some ((mstp.expire host expiry).1, (mstp.expire host expiry).2 ++ []) := rfl
      have balanced := keeps.balanced 1 _ _ first
      rw [List.append_nil] at balanced
      have own := (keeps.own _ _ stepped).1 mstp rfl
      rcases expire_breaks host mstp expiry nonempty with foreign | leaked
      · exact absurd own foreign
      · omega

/-- The timers keep the sockets only as long as none of them expires. After a run all sockets are open that its
callbacks got. -/
theorem keeps_sockets_iff (host : ByteOrder) (mstp : MasterPeer) (expiries : List Expiry)
    (nonempty : 0 ≤ mstp.masterPeerBkt.top) :
    (KeepsSockets host mstp expiries ↔ expiries = []) ∧
      ∀ final calls, run (expireStep host) (some mstp) expiries = some (final, calls) →
        opened calls = expiries.countP fun expiry => 0 ≤ expiry.net.socket := by
  refine ⟨⟨fun keeps => keeps.empty nonempty, ?_⟩, fun final calls reached => opened_run host ?_ reached⟩
  · rintro rfl
    refine ⟨trivial, fun n final calls reached => ?_⟩
    rw [List.take_nil] at reached
    obtain ⟨rfl, rfl⟩ := Prod.mk.inj (Option.some.inj reached)
    rfl
  · intro known same
    rw [← Option.some.inj same]
    exact nonempty

/-- A master that knows one other master. -/
def samplePinger : MasterPeer := { blankMaster with masterPeerBkt := ⟨0, 0, fun _ => claimant 98 98 9998⟩ }

/-- All calls of the ping succeed until its receive times out. -/
def unansweredPing : Expiry where
  timer := .pingEvent
  around := blankSurroundings
  net := ⟨5, 0, 44, none, ⟨0, ⟨⟨0, 0, 0, 0⟩, 0⟩⟩, blankBlock⟩

theorem keeps_sockets_sample :
    (KeepsSockets .little samplePinger [unansweredPing] ↔ [unansweredPing] = []) ∧
      ∀ final calls, run (expireStep .little) (some samplePinger) [unansweredPing] = some (final, calls) →
        opened calls = [unansweredPing].countP fun expiry => 0 ≤ expiry.net.socket :=
  keeps_sockets_iff .little samplePinger [unansweredPing] (by decide)

/-- A ping leaves its socket open, and a ping without a socket receives on the old descriptor of its handler. -/
theorem ping_leaks_socket :
    ¬ KeepsSockets .little samplePinger [unansweredPing] ∧
      ¬ KeepsSockets .little samplePinger
        [{ unansweredPing with net := { unansweredPing.net with socket := -1 } }] := by
  constructor
  · intro keeps
    exact absurd (keeps.empty (by decide)) (List.cons_ne_nil _ _)
  · intro keeps
    exact absurd (keeps.empty (by decide)) (List.cons_ne_nil _ _)

end Nose
