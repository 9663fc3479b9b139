import Nose.Proof.Tunnel

namespace Nose

open CMemory DottedQuad

/-- These are the addresses that the searches of a run have set. -/
def foundAddresses (log : List Call) : List SockAddr := log.filterMap fun call =>
  match call with
  | .found address => some address
  | _ => none

/-- A peer that has not found its remote peer has only its search armed. -/
structure Searching (pr : Peer) : Prop where
  helloed : pr.helloed = 0
  fpEvent : pr.fpEvent = true
  helloEvent : pr.helloEvent = false
  hbEvent : pr.hbEvent = false
  address : pr.remotePeerAddr = noAddress

/-- A peer that has found its remote peer keeps the address. It greets until it is connected, and then its
heart beats. -/
structure Settled (pr : Peer) (address : SockAddr) : Prop where
  fpEvent : pr.fpEvent = false
  address : pr.remotePeerAddr = address
  phase : (pr.helloed = 0 ∧ pr.helloEvent = true ∧ pr.hbEvent = false) ∨ (pr.helloed = 1 ∧ pr.hbEvent = true)

/-- The timers fit to the searches of the run so far, and no event was assigned while it was pending. -/
structure Timed (pr : Peer) (log : List Call) : Prop where
  searching : foundAddresses log = [] → Searching pr
  settled : ∀ address rest, foundAddresses log = address :: rest → rest = [] ∧ Settled pr address
  assigned : ∀ timer pending, .eventAssign timer pending ∈ log → pending = false

theorem Quiet.foundAddresses {calls : List Call} (quiet : Quiet calls) : foundAddresses calls = [] := by
  rw [Nose.foundAddresses, List.filterMap_eq_nil_iff]
  intro call member
  cases call with
  | found address => exact (quiet _ member).elim
  | _ => rfl

theorem foundAddresses_append (first second : List Call) :
    foundAddresses (first ++ second) = foundAddresses first ++ foundAddresses second := List.filterMap_append

/-- A step without a search that keeps each phase and assigns no pending event keeps the timers. -/
theorem Timed.keep {pr next : Peer} {log calls : List Call} (timed : Timed pr log)
    (none_found : foundAddresses calls = []) (searching : Searching pr → Searching next)
    (settled : ∀ address, Settled pr address → Settled next address)
    (assigned : ∀ timer pending, .eventAssign timer pending ∈ calls → pending = false) : Timed next (log ++ calls) := by
  have same : foundAddresses (log ++ calls) = foundAddresses log := by
    rw [foundAddresses_append, none_found, List.append_nil]
  refine ⟨?_, ?_, ?_⟩
  · intro none_yet
    exact searching (timed.searching (same ▸ none_yet))
  · intro address rest found
    obtain ⟨only, before⟩ := timed.settled address rest (same ▸ found)
    exact ⟨only, settled address before⟩
  · intro timer pending member
    rcases List.mem_append.mp member with old | new
    · exact timed.assigned timer pending old
    · exact assigned timer pending new

/-- A step that leaves the phase, the timers and the address keeps the timers. -/
theorem Timed.keep_phase {pr next : Peer} {log calls : List Call} (timed : Timed pr log)
    (helloed : next.helloed = pr.helloed) (fpEvent : next.fpEvent = pr.fpEvent)
    (helloEvent : next.helloEvent = pr.helloEvent) (hbEvent : next.hbEvent = pr.hbEvent)
    (remotePeerAddr : next.remotePeerAddr = pr.remotePeerAddr) (none_found : foundAddresses calls = [])
    (assigned : ∀ timer pending, .eventAssign timer pending ∈ calls → pending = false) : Timed next (log ++ calls) := by
  apply timed.keep none_found _ _ assigned
  · intro old
    constructor
    · rw [helloed, old.helloed]
    · rw [fpEvent, old.fpEvent]
    · rw [helloEvent, old.helloEvent]
    · rw [hbEvent, old.hbEvent]
    · rw [remotePeerAddr, old.address]
  · intro address old
    constructor
    · rw [fpEvent, old.fpEvent]
    · rw [remotePeerAddr, old.address]
    · rw [helloed, helloEvent, hbEvent]
      exact old.phase

theorem Quiet.assigned {calls : List Call} (quiet : Quiet calls) (timer : Timer) (pending : Bool)
    (member : .eventAssign timer pending ∈ calls) : pending = false := (quiet _ member).elim

/-- A peer with a pending search has found nothing yet. -/
theorem Timed.searching_of_pending {pr : Peer} {log : List Call} (timed : Timed pr log) (pending : pr.fpEvent = true) :
    foundAddresses log = [] ∧ Searching pr := by
  cases found : foundAddresses log with
  | nil => exact ⟨rfl, timed.searching found⟩
  | cons address rest =>
      have stopped := (timed.settled address rest found).2.fpEvent
      rw [pending] at stopped
      cases stopped

/-- A first search that finds its peer settles it. -/
theorem Timed.found {pr next : Peer} {log before : List Call} {address : SockAddr} (timed : Timed pr log)
    (none_yet : foundAddresses log = []) (searching : Searching pr) (quiet : Quiet before)
    (settled : Settled next address) :
    Timed next (log ++ (before ++ [.found address, .eventAssign .helloEvent pr.helloEvent])) := by
  have first : foundAddresses (log ++ (before ++ [.found address, .eventAssign .helloEvent pr.helloEvent])) =
      [address] := by
    rw [foundAddresses_append, none_yet, foundAddresses_append, quiet.foundAddresses]
    rfl
  constructor
  case searching =>
    intro none_after
    rw [first] at none_after
    cases none_after
  case settled =>
    intro address' rest found
    rw [first] at found
    obtain ⟨rfl, rfl⟩ := List.cons.inj found
    exact ⟨rfl, settled⟩
  case assigned =>
    intro timer wasPending member
    simp only [List.mem_append, List.mem_cons, List.not_mem_nil, or_false] at member
    rcases member with old | early | impossible | last
    · exact timed.assigned timer wasPending old
    · exact quiet.assigned timer wasPending early
    · cases impossible
    · cases last
      exact searching.helloEvent

/-- The heart of a peer that waits for a hello does not beat yet. -/
theorem Timed.hbEvent_of_waiting {pr : Peer} {log : List Call} (timed : Timed pr log) (waiting : pr.helloed = 0) :
    pr.hbEvent = false := by
  cases found : foundAddresses log with
  | nil => exact (timed.searching found).hbEvent
  | cons address rest =>
      rcases (timed.settled address rest found).2.phase with ⟨_, _, stopped⟩ | ⟨already, _⟩
      · exact stopped
      · rw [waiting] at already
        cases already

/-- Each transition keeps the timers. -/
theorem Transition.timed {host : ByteOrder} {lib : Libraries} {pr : Peer} {readers : Nat} {input : PeerInput}
    {next : Process} {log calls : List Call} (step : Transition host lib pr readers input next calls)
    (timed : Timed pr log) : Timed next.pr (log ++ calls) := by
  cases step with
  | retried outcomes table _ pending quiet =>
      exact timed.keep_phase rfl rfl rfl rfl rfl quiet.foundAddresses quiet.assigned
  | found outcomes table before address pending quiet =>
      obtain ⟨none_yet, searching⟩ := timed.searching_of_pending pending
      exact timed.found none_yet searching quiet
        ⟨rfl, rfl, .inl ⟨searching.helloed, rfl, searching.hbEvent⟩⟩
  | greeted outcomes _ pending waiting quiet =>
      exact timed.keep_phase rfl rfl rfl rfl rfl quiet.foundAddresses quiet.assigned
  | dropped outcomes pending connected =>
      refine timed.keep rfl (fun old => absurd old.helloed connected) (fun address old => ?_) (by simp)
      rcases old.phase with ⟨waiting, _⟩ | phase
      · exact absurd waiting connected
      · exact ⟨old.fpEvent, old.address, .inr phase⟩
  | beat outcomes counts _ pending answered quiet =>
      exact timed.keep_phase rfl rfl rfl rfl rfl quiet.foundAddresses quiet.assigned
  | tornDown outcomes pending unanswered =>
      refine timed.keep rfl (fun old => ?_)
        (fun address old => ⟨old.fpEvent, old.address, .inl ⟨rfl, rfl, rfl⟩⟩) (by simp)
      have still := old.hbEvent
      rw [pending] at still
      cases still
  | received srcAddr datagram outcomes counts _ plain noPayload quiet =>
      exact timed.keep_phase rfl rfl rfl rfl rfl quiet.foundAddresses quiet.assigned
  | delivered srcAddr datagram outcomes before bytes accepted quiet =>
      apply timed.keep_phase rfl rfl rfl rfl rfl
      · rw [foundAddresses_append, quiet.foundAddresses]
        rfl
      · intro timer pending member
        simp only [List.mem_append, List.mem_cons, List.not_mem_nil, or_false] at member
        rcases member with early | last
        · exact quiet.assigned timer pending early
        · cases last
  | openFailed srcAddr datagram outcomes handles known waiting unopened =>
      exact timed.keep_phase rfl rfl rfl rfl rfl rfl (by simp)
  | threadFailed srcAddr datagram outcomes accepted known refused =>
      exact timed.keep_phase rfl rfl rfl rfl rfl rfl (by simp)
  | connected srcAddr datagram outcomes accepted known created =>
      refine timed.keep rfl (fun old => ?_) (fun address old => ⟨old.fpEvent, old.address, .inr ⟨rfl, rfl⟩⟩) ?_
      · exact absurd (accepted.source.trans old.address) known
      · intro timer pending member
        simp only [List.mem_cons, List.not_mem_nil, or_false, reduceCtorEq, false_or, Call.eventAssign.injEq] at member
        rw [member.2]
        exact timed.hbEvent_of_waiting accepted.waiting
  | sent packet outcomes _ live fits quiet =>
      exact timed.keep_phase rfl rfl rfl rfl rfl quiet.foundAddresses quiet.assigned
  | returned packet outcomes live large =>
      exact timed.keep_phase rfl rfl rfl rfl rfl rfl (by simp)

/-- A cleared process starts with its search armed. -/
theorem startProcess_timed {handler : Peer} (cleared : handler.Cleared) : Timed (startProcess handler).pr [] where
  searching := fun _ => ⟨rfl, rfl, cleared.helloEvent, cleared.hbEvent, cleared.remotePeerAddr⟩
  settled := by simp [foundAddresses]
  assigned := by simp

/-- After every run of the event loop some timer is armed: the search before it succeeds, then the greeting or
the heartbeat. The address that was found never changes, and no pending event is assigned. -/
theorem peer_never_stuck (host : ByteOrder) (lib : Libraries) (handler : Peer) (cleared : handler.Cleared)
    (inputs : List PeerInput) (final : Process) (log : List Call)
    (reached : LoggedRun.run (peerStep host lib) (startProcess handler) inputs = some (final, log)) :
    Timed final.pr log := by
  have run := LoggedRun.run_invariant (fun process log => Timed process.pr log)
    (fun _ _ _ _ _ timed stepped => (peerStep_transition stepped).timed timed) (startProcess_timed cleared) reached
  simpa using run

/-- A master names a remote peer at `1.2.3.letter:4000`. -/
def remoteAnswer (letter : UInt8) : Block :=
  (pmpFindPeerRspPkt .little (some blankBlock) (letterId 97) (letterId letter)
    { blankItem with port := 4000, ipv4 := quad ⟨1, 2, 3, letter⟩, vlanIpv4 := quad ⟨172, 16, 10, letter⟩ }
    blankBlock).2

def finding (letter : UInt8) : Outcomes := { blankOutcomes with answer := remoteAnswer letter }

/-- The port is in network order. -/
def remoteAddr (letter : UInt8) : SockAddr := ⟨⟨1, 2, 3, letter⟩, htons .little 4000⟩

theorem samplePr_cleared : samplePr.Cleared := ⟨rfl, rfl, rfl, rfl, rfl⟩

/-- The remote peer is found and greeted, it acknowledges the hello twice, and the heart beats until it breaks. -/
def sampleSession : List PeerInput :=
  let helloAck : PeerInput := .arrive (remoteAddr 98) [0, fHelloAck, 0, 0] blankOutcomes
  [.expire .fpEvent (finding 98), .expire .helloEvent blankOutcomes, helloAck, helloAck,
    .expire .helloEvent blankOutcomes, .expire .hbEvent blankOutcomes, .expire .hbEvent blankOutcomes,
    .expire .hbEvent blankOutcomes]

/-- The timers of a session that is about to break are armed. -/
theorem peer_never_stuck_sample : ∃ final log,
    LoggedRun.run (peerStep .little sampleLibraries) (startProcess samplePr) sampleSession = some (final, log) ∧
      foundAddresses log = [remoteAddr 98] ∧ Timed final.pr log := by
  have completes : (LoggedRun.run (peerStep .little sampleLibraries) (startProcess samplePr) sampleSession).map
      (fun result => foundAddresses result.2) = some [remoteAddr 98] := by decide +kernel
  obtain ⟨⟨final, log⟩, reached, found⟩ := Option.map_eq_some_iff.mp completes
  exact ⟨final, log, reached, found,
    peer_never_stuck .little sampleLibraries samplePr samplePr_cleared sampleSession final log reached⟩

end Nose
