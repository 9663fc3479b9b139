import Nose.Proof.PeerTimers

namespace Nose

open CMemory DottedQuad

/-- A connected peer has one tun reader, and a peer that is not connected has none. -/
def OneReader (process : Process) : Prop :=
  (process.pr.helloed = 1 → process.readers = 1) ∧ (process.pr.helloed = 0 → process.readers = 0)

/-- The heart of a peer beats only while it is connected. -/
def BeatsConnected (process : Process) : Prop :=
  (process.pr.helloed = 0 ∧ process.pr.hbEvent = false) ∨ process.pr.helloed = 1

/-- No connection breaks, the thread of each new connection starts or is refused with a negative result, and each
compressed text fits. -/
def KeepsReader (lib : Libraries) (process : Process) : PeerInput → Prop
  | .expire timer _ => timer = .hbEvent → process.pr.synCounts ≠ 0
  | .arrive srcAddr datagram outcomes =>
      AcceptsHello process.pr srcAddr datagram outcomes → outcomes.pthreadCreate ≤ 0
  | .read packet outcomes =>
      utunRead packet = [] ∨ CompressFits lib (cipherText lib outcomes process.pr (utunRead packet))

/-- Each transition lets the heart beat only while the peer is connected. -/
theorem Transition.beatsConnected {host : ByteOrder} {lib : Libraries} {pr : Peer} {readers : Nat} {input : PeerInput}
    {next : Process} {calls : List Call} (step : Transition host lib pr readers input next calls)
    (beats : BeatsConnected ⟨pr, readers⟩) : BeatsConnected next := by
  cases step with
  | tornDown outcomes pending unanswered => exact .inl ⟨rfl, rfl⟩
  | connected srcAddr datagram outcomes accepted known created => exact .inr rfl
  | _ => exact beats

/-- A transition keeps the single reader exactly under its condition. -/
theorem Transition.oneReader_iff {host : ByteOrder} {lib : Libraries} {pr : Peer} {readers : Nat} {input : PeerInput}
    {next : Process} {calls : List Call} (step : Transition host lib pr readers input next calls)
    (beats : BeatsConnected ⟨pr, readers⟩) (one : OneReader ⟨pr, readers⟩) :
    OneReader next ↔ KeepsReader lib ⟨pr, readers⟩ input := by
  cases step with
  | retried outcomes table _ pending quiet => exact iff_of_true one fun hb => nomatch hb
  | found outcomes table before address pending quiet => exact iff_of_true one fun hb => nomatch hb
  | greeted outcomes _ pending waiting quiet => exact iff_of_true one fun hb => nomatch hb
  | dropped outcomes pending already => exact iff_of_true one fun hb => nomatch hb
  | beat outcomes counts _ pending answered quiet => exact iff_of_true one fun _ => answered
  | tornDown outcomes pending unanswered =>
      -- The reader of the broken connection lives on.
      refine iff_of_false (fun after => ?_) fun keeps => keeps rfl unanswered
      have gone : readers = 0 := after.2 rfl
      rcases beats with ⟨_, stopped⟩ | connected
      · exact absurd (pending.symm.trans stopped) (by decide)
      · exact absurd (gone.symm.trans (one.1 connected)) (by decide)
  | received srcAddr datagram outcomes counts _ plain noPayload quiet =>
      exact iff_of_true one fun accepts => absurd accepts plain
  | delivered srcAddr datagram outcomes before bytes accepted quiet =>
      exact iff_of_true one fun accepts => absurd (accepted.flags.symm.trans accepts.flags) (by decide)
  | openFailed srcAddr datagram outcomes handles known waiting unopened =>
      exact iff_of_true one fun accepts => absurd accepts.opened unopened
  | threadFailed srcAddr datagram outcomes accepted known refused =>
      exact iff_of_true one fun _ => le_of_lt refused
  | connected srcAddr datagram outcomes accepted known created =>
      have alone : readers = 0 := one.2 accepted.waiting
      by_cases started : outcomes.pthreadCreate = 0
      · refine iff_of_true ⟨fun _ => ?_, fun impossible => absurd impossible (by simp)⟩ fun _ => le_of_eq started
        simp [started, alone]
      · refine iff_of_false (fun after => ?_) fun keeps => ?_
        · have joined := after.1 rfl
          simp [started, alone] at joined
        · have := keeps accepted
          omega
  | sent packet outcomes _ live fits quiet => exact iff_of_true one fits
  | returned packet outcomes live large =>
      refine iff_of_false (fun after => ?_) large
      rcases beats with ⟨waiting, _⟩ | connected
      · exact live (one.2 waiting)
      · have single : readers = 1 := one.1 connected
        have left : readers - 1 = 1 := after.1 connected
        omega

/-- A run has one tun reader for each connection throughout exactly when no step of it breaks a connection, fails to
start a reader without noticing, or ends a reader. -/
theorem one_reader_iff (host : ByteOrder) (lib : Libraries) (handler : Peer) (cleared : handler.Cleared)
    (inputs : List PeerInput) :
    LoggedRun.Always (peerStep host lib) OneReader (startProcess handler) inputs ↔
      LoggedRun.EveryStep (peerStep host lib) (KeepsReader lib) (startProcess handler) inputs :=
  LoggedRun.always_iff_everyStep BeatsConnected
    (fun _ _ _ _ beats _ stepped => (peerStep_transition stepped).beatsConnected beats)
    (fun _ _ _ _ beats one stepped => (peerStep_transition stepped).oneReader_iff beats one)
    (.inl ⟨rfl, cleared.hbEvent⟩) ⟨fun impossible => absurd impossible (by simp [startProcess, peerLoop, initPeer]),
      fun _ => rfl⟩

/-- A session that does not break has one reader throughout exactly under the conditions. -/
theorem one_reader_sample :
    LoggedRun.Always (peerStep .little sampleLibraries) OneReader (startProcess samplePr) sampleSession ↔
      LoggedRun.EveryStep (peerStep .little sampleLibraries) (KeepsReader sampleLibraries) (startProcess samplePr)
        sampleSession :=
  one_reader_iff .little sampleLibraries samplePr samplePr_cleared sampleSession

/-- After a connection breaks and is made again two readers live. -/
theorem two_readers : ∃ final log,
    LoggedRun.run (peerStep .little sampleLibraries) (startProcess samplePr) (sampleSession ++
        [.expire .hbEvent blankOutcomes, .arrive (remoteAddr 98) [0, fHelloAck, 0, 0] blankOutcomes]) =
          some (final, log) ∧
      final.pr.helloed = 1 ∧ final.readers = 2 := by
  have outcome : (LoggedRun.run (peerStep .little sampleLibraries) (startProcess samplePr) (sampleSession ++
      [.expire .hbEvent blankOutcomes, .arrive (remoteAddr 98) [0, fHelloAck, 0, 0] blankOutcomes])).map
        (fun result => (result.1.pr.helloed, result.1.readers)) = some (1, 2) := by decide +kernel
  obtain ⟨⟨final, log⟩, reached, facts⟩ := Option.map_eq_some_iff.mp outcome
  obtain ⟨connected, readers⟩ := Prod.mk.inj facts
  exact ⟨final, log, reached, connected, readers⟩

end Nose
