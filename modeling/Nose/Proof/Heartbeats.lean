import Nose.Proof.PeerTimers

namespace Nose

open CMemory DottedQuad

/-- These are the events of a session. -/
inductive Beat where
  | firing
  | ack
  deriving DecidableEq, Repr

/-- A heartbeat that fires can be sent, and an acknowledgement comes from the remote peer. -/
def PeerInput.beat (pr : Peer) : PeerInput → Option Beat
  | .expire .hbEvent outcomes => if outcomes.malloc.isSome ∧ 0 ≤ outcomes.sendto then some .firing else none
  | .arrive srcAddr datagram outcomes =>
      if srcAddr = pr.remotePeerAddr ∧ 0 ≤ outcomes.recvfrom ∧ 4 ≤ datagram.length ∧
          arrived outcomes datagram 1 = fHbAck then some .ack
      else none
  | _ => none

/-- A session takes the steps of a connected peer that are its events. -/
def sessionStep (host : ByteOrder) (lib : Libraries) (process : Process) (input : PeerInput) :
    Option (Process × List Call) :=
  if process.pr.helloed = 1 ∧ (input.beat process.pr).isSome then peerStep host lib process input else none

/-- The numbers of acknowledgements after each SYN of the session, the newest SYN first, and last those before the first
SYN. The session is broken when a firing finds the three most recent SYNs without an acknowledgement. -/
structure Tally where
  answers : List Nat
  broken : Bool
  deriving DecidableEq, Repr

/-- The three most recent SYNs of the session have no acknowledgement. -/
def threeLost : List Nat → Bool
  | 0 :: 0 :: 0 :: _ :: _ => true
  | _ => false

def Tally.count (tally : Tally) : Beat → Tally
  | .firing => ⟨0 :: tally.answers, threeLost tally.answers⟩
  | .ack => { tally with answers := tally.answers.modifyHead (· + 1) }

def tally (process : Process) (before : Tally) (input : PeerInput) (_ : Process) : Tally :=
  match input.beat process.pr with
  | some beat => before.count beat
  | none => before

abbrev watchedStep (host : ByteOrder) (lib : Libraries) := LoggedRun.observe (sessionStep host lib) tally

/-- No SYN was sent yet. -/
def Tally.start : Tally := ⟨[0], false⟩

def Tally.syns (tally : Tally) : Nat := tally.answers.length - 1

def Tally.acks (tally : Tally) : Nat := tally.answers.sum

/-- The peer is disconnected exactly when the session is broken, and its counter stays in range. -/
structure Detects (state : Process × Tally) : Prop where
  verdict : state.1.pr.helloed = 0 ↔ state.2.broken = true
  range : 0 ≤ state.1.pr.synCounts ∧ state.1.pr.synCounts ≤ 3

/-- Each acknowledgement finds a SYN that none of the others stands for. When all but three SYNs are acknowledged at a
firing, the other three are the most recent ones. -/
def Balanced (state : Process × Tally) (input : PeerInput) : Prop :=
  match input.beat state.1.pr with
  | some .firing => state.2.syns = state.2.acks + 3 → threeLost state.2.answers = true
  | some .ack => state.2.acks < state.2.syns
  | none => True

instance (state : Process × Tally) (input : PeerInput) : Decidable (Balanced state input) :=
  match event : input.beat state.1.pr with
  | some .firing => decidable_of_iff (state.2.syns = state.2.acks + 3 → threeLost state.2.answers = true) (by
      rw [Balanced, event])
  | some .ack => decidable_of_iff (state.2.acks < state.2.syns) (by rw [Balanced, event])
  | none => isTrue (by
      rw [Balanced, event]
      trivial)

/-- The counter of a running session is three less the SYNs plus the acknowledgements, and no SYN was sent while there
were more acknowledgements than SYNs. -/
structure Counted (state : Process × Tally) : Prop where
  counter : state.1.pr.helloed = 1 → state.1.pr.synCounts + state.2.answers.length = 4 + state.2.answers.sum
  started : state.2.answers ≠ []
  history : ∀ older, older <:+ state.2.answers.tail → older ≠ [] → older.sum + 1 ≤ older.length

/-- A session takes steps of the process while the peer is connected. -/
theorem sessionStep_eq_some {host : ByteOrder} {lib : Libraries} {process next : Process} {input : PeerInput}
    {calls : List Call} (stepped : sessionStep host lib process input = some (next, calls)) :
    process.pr.helloed = 1 ∧ peerStep host lib process input = some (next, calls) := by
  rw [sessionStep] at stepped
  split at stepped
  · rename_i session
    exact ⟨session.1, stepped⟩
  · cases stepped

theorem beat_firing {pr : Peer} {input : PeerInput} (firing : input.beat pr = some .firing) :
    ∃ outcomes, input = .expire .hbEvent outcomes ∧ outcomes.malloc.isSome ∧ 0 ≤ outcomes.sendto := by
  cases input with
  | expire timer outcomes =>
      cases timer with
      | hbEvent =>
          rw [PeerInput.beat] at firing
          split at firing
          · rename_i sends
            exact ⟨outcomes, rfl, sends⟩
          · cases firing
      | fpEvent => simp [PeerInput.beat] at firing
      | helloEvent => simp [PeerInput.beat] at firing
  | arrive srcAddr datagram outcomes =>
      rw [PeerInput.beat] at firing
      split at firing <;> cases firing
  | read packet outcomes => simp [PeerInput.beat] at firing

theorem beat_ack {pr : Peer} {input : PeerInput} (ack : input.beat pr = some .ack) :
    ∃ srcAddr datagram outcomes, input = .arrive srcAddr datagram outcomes ∧ srcAddr = pr.remotePeerAddr ∧
      0 ≤ outcomes.recvfrom ∧ 4 ≤ datagram.length ∧ arrived outcomes datagram 1 = fHbAck := by
  cases input with
  | expire timer outcomes =>
      cases timer with
      | hbEvent =>
          rw [PeerInput.beat] at ack
          split at ack <;> cases ack
      | fpEvent => simp [PeerInput.beat] at ack
      | helloEvent => simp [PeerInput.beat] at ack
  | arrive srcAddr datagram outcomes =>
      rw [PeerInput.beat] at ack
      split at ack
      · rename_i accepted
        exact ⟨srcAddr, datagram, outcomes, rfl, accepted⟩
      · cases ack
  | read packet outcomes => simp [PeerInput.beat] at ack

/-- A firing of a session either breaks the connection or sends one SYN. -/
theorem sessionStep_firing {host : ByteOrder} {lib : Libraries} {process next : Process} {input : PeerInput}
    {calls : List Call} (stepped : sessionStep host lib process input = some (next, calls))
    (firing : input.beat process.pr = some .firing) :
    process.pr.helloed = 1 ∧
      ((process.pr.synCounts = 0 ∧ next.pr.helloed = 0 ∧ next.pr.synCounts = 3) ∨
        (process.pr.synCounts ≠ 0 ∧ next.pr.helloed = 1 ∧ next.pr.synCounts = process.pr.synCounts - 1)) := by
  obtain ⟨connected, taken⟩ := sessionStep_eq_some stepped
  obtain ⟨outcomes, rfl, allocated, _⟩ := beat_firing firing
  obtain ⟨old, memory⟩ := Option.isSome_iff_exists.mp allocated
  obtain ⟨_, rfl, _⟩ := peerStep_expire taken
  refine ⟨connected, ?_⟩
  simp only [Timer.callback, peerHeartbeat, Peer.expired]
  by_cases broken : process.pr.synCounts = 0
  · simp [broken]
  · have built : (pcpHbSyn host outcomes.malloc outcomes.stack).1 ≠ error := by
      simp [pcpHbSyn, controlPkt, memory, error]
    simp [broken, built, connected]

/-- An acknowledgement increments the counter. -/
theorem sessionStep_ack {host : ByteOrder} {lib : Libraries} {process next : Process} {input : PeerInput}
    {calls : List Call} (stepped : sessionStep host lib process input = some (next, calls))
    (ack : input.beat process.pr = some .ack) :
    process.pr.helloed = 1 ∧ next.pr.helloed = 1 ∧ next.pr.synCounts = process.pr.synCounts + 1 := by
  obtain ⟨connected, taken⟩ := sessionStep_eq_some stepped
  obtain ⟨srcAddr, datagram, outcomes, rfl, source, received, complete, flags⟩ := beat_ack ack
  obtain ⟨_, rfl, _⟩ := peerStep_arrive taken
  obtain ⟨handled, long⟩ := udpRecvCb_handled host lib outcomes process.pr ⟨source, received, complete⟩
  have others : fHbAck ≠ fHelloSyn ∧ fHbAck ≠ fHelloAck ∧ fHbAck ≠ fHbSyn := by decide
  rw [handled, recvedPktUnpack, if_neg long, flags]
  simp [others.1, others.2.1, others.2.2, connected]

theorem sum_modifyHead {answers : List Nat} (started : answers ≠ []) :
    (answers.modifyHead (· + 1)).sum = answers.sum + 1 ∧ (answers.modifyHead (· + 1)).length = answers.length ∧
      (answers.modifyHead (· + 1)).tail = answers.tail := by
  cases answers with
  | nil => exact absurd rfl started
  | cons newest older =>
      simp only [List.modifyHead_cons, List.sum_cons, List.length_cons, List.tail_cons, and_true]
      omega

section Step

variable {host : ByteOrder} {lib : Libraries} {state next : Process × Tally} {input : PeerInput} {calls : List Call}

/-- Every step of a session is one of its events. -/
theorem watchedStep_beat (stepped : watchedStep host lib state input = some (next, calls)) :
    ∃ beat, input.beat state.1.pr = some beat ∧ sessionStep host lib state.1 input = some (next.1, calls) ∧
      next.2 = state.2.count beat := by
  obtain ⟨taken, notes⟩ := LoggedRun.observe_eq_some.mp stepped
  have session : (input.beat state.1.pr).isSome := by
    unfold sessionStep at taken
    split at taken
    · rename_i session
      exact session.2
    · cases taken
  obtain ⟨beat, event⟩ := Option.isSome_iff_exists.mp session
  refine ⟨beat, event, taken, ?_⟩
  rw [notes, tally, event]

theorem Counted.step (counted : Counted state) (detects : Detects state)
    (stepped : watchedStep host lib state input = some (next, calls)) : Counted next := by
  obtain ⟨beat, event, taken, notes⟩ := watchedStep_beat stepped
  cases beat with
  | firing =>
      obtain ⟨connected, outcome⟩ := sessionStep_firing taken event
      have counter := counted.counter connected
      have range := detects.range
      refine ⟨?_, by simp [notes, Tally.count], ?_⟩
      · intro still
        rcases outcome with ⟨_, disconnected, _⟩ | ⟨_, _, counts⟩
        · omega
        · simp only [notes, Tally.count, List.length_cons, List.sum_cons, counts]
          omega
      · intro older suffix nonempty
        obtain ⟨newest, rest, same⟩ := List.exists_cons_of_ne_nil counted.started
        simp only [notes, Tally.count, List.tail_cons, same] at suffix
        rcases List.suffix_cons_iff.mp suffix with whole | earlier
        · -- The counter bounds the acknowledgements before this SYN.
          rw [whole, ← same]
          omega
        · exact counted.history older (by rwa [same]) nonempty
  | ack =>
      obtain ⟨connected, _, counts⟩ := sessionStep_ack taken event
      have counter := counted.counter connected
      obtain ⟨sum, length, tail⟩ := sum_modifyHead counted.started
      refine ⟨?_, ?_, ?_⟩
      · intro _
        simp only [notes, Tally.count, sum, length, counts]
        omega
      · simp only [notes, Tally.count]
        exact List.length_pos_iff.mp (by rw [length]; exact List.length_pos_iff.mpr counted.started)
      · simp only [notes, Tally.count, tail]
        exact counted.history

theorem threeLost_iff (answers : List Nat) :
    threeLost answers = true ↔ ∃ before older, answers = 0 :: 0 :: 0 :: before :: older := by
  constructor
  · intro lost
    unfold threeLost at lost
    split at lost
    · exact ⟨_, _, rfl⟩
    · cases lost
  · rintro ⟨before, older, rfl⟩
    rfl

/-- Three unanswered SYNs in a row use up the counter. -/
theorem Counted.lost (counted : Counted state) (connected : state.1.pr.helloed = 1)
    (lost : threeLost state.2.answers = true) : state.1.pr.synCounts ≤ 0 := by
  obtain ⟨before, older, same⟩ := (threeLost_iff _).mp lost
  have counter := counted.counter connected
  have earlier := counted.history (before :: older) (by
    rw [same, List.tail_cons]
    exact (List.suffix_cons 0 _).trans (List.suffix_cons 0 _)) (by simp)
  rw [same] at counter
  simp only [List.length_cons, List.sum_cons] at counter earlier
  omega

/-- One step of a session keeps the peer right about its connection exactly when the step is balanced. -/
theorem detects_iff_balanced (counted : Counted state) (detects : Detects state)
    (stepped : watchedStep host lib state input = some (next, calls)) : Detects next ↔ Balanced state input := by
  obtain ⟨beat, event, taken, notes⟩ := watchedStep_beat stepped
  have positive := List.length_pos_iff.mpr counted.started
  have range := detects.range
  cases beat with
  | firing =>
      obtain ⟨connected, outcome⟩ := sessionStep_firing taken event
      have counter := counted.counter connected
      have balance : state.2.syns = state.2.acks + 3 ↔ state.1.pr.synCounts = 0 := by
        unfold Tally.syns Tally.acks
        omega
      have verdict : next.2.broken = threeLost state.2.answers := by rw [notes, Tally.count]
      simp only [Balanced, event, balance]
      rcases outcome with ⟨broken, disconnected, counts⟩ | ⟨beating, still, counts⟩
      · constructor
        · intro right _
          rw [← verdict]
          exact right.verdict.mp disconnected
        · intro lost
          refine ⟨?_, by omega⟩
          rw [verdict, lost broken]
          simp [disconnected]
      · refine iff_of_true ⟨?_, by omega⟩ fun broken => absurd broken beating
        have kept : threeLost state.2.answers ≠ true := fun lost => by
          have := counted.lost connected lost
          omega
        rw [verdict]
        simp [still, kept]
  | ack =>
      obtain ⟨connected, still, counts⟩ := sessionStep_ack taken event
      have counter := counted.counter connected
      have unbroken : state.2.broken ≠ true := fun broken => by
        have := detects.verdict.mpr broken
        omega
      have verdict : next.2.broken = state.2.broken := by rw [notes, Tally.count]
      simp only [Balanced, event]
      constructor
      · intro right
        have := right.range
        unfold Tally.syns Tally.acks
        omega
      · intro balanced
        unfold Tally.syns Tally.acks at balanced
        refine ⟨?_, by omega⟩
        rw [verdict]
        simp [still, unbroken]

end Step

/-- In a session the heart detects a broken connection, and its counter stays in range, exactly when no acknowledgement
comes in excess of the SYNs and when all but three SYNs are acknowledged at a firing only if the last three are not. -/
theorem heartbeat_detection_iff (host : ByteOrder) (lib : Libraries) (process : Process)
    (connected : process.pr.helloed = 1) (counts : process.pr.synCounts = 3) (inputs : List PeerInput) :
    LoggedRun.Always (watchedStep host lib) Detects (process, Tally.start) inputs ↔
      LoggedRun.EveryStep (watchedStep host lib) Balanced (process, Tally.start) inputs := by
  have counted : Counted (process, Tally.start) := by
    refine ⟨fun _ => ?_, by simp [Tally.start], by simp [Tally.start]⟩
    simp [Tally.start, counts]
  have detects : Detects (process, Tally.start) := by
    refine ⟨?_, by rw [counts]; decide⟩
    simp [Tally.start, connected]
  exact LoggedRun.always_iff_everyStep Counted (fun _ _ _ _ counted detects stepped => counted.step detects stepped)
    (fun _ _ _ _ counted detects stepped => detects_iff_balanced counted detects stepped) counted detects

/-- A peer has just been connected. -/
def connectedProcess : Process :=
  ⟨{ samplePr with remotePeerAddr := remoteAddr 98, helloed := 1, synCounts := 3, hbEvent := true }, 1⟩

def firing : PeerInput := .expire .hbEvent blankOutcomes

def acknowledgement : PeerInput := .arrive (remoteAddr 98) [0, fHbAck, 0, 0] blankOutcomes

/-- Two answered heartbeats keep the connection. -/
theorem heartbeat_detection_sample :
    LoggedRun.Always (watchedStep .little sampleLibraries) Detects (connectedProcess, Tally.start)
      [firing, acknowledgement, firing, acknowledgement] :=
  (heartbeat_detection_iff .little sampleLibraries connectedProcess rfl rfl _).mpr (by decide +kernel)

/-- Every second heartbeat of this session is answered. -/
def isolatedLosses : List PeerInput :=
  [firing, firing, acknowledgement, firing, firing, acknowledgement, firing, firing]

/-- One heartbeat of this session is answered twice, and then no other. -/
def doubleAnswer : List PeerInput :=
  [firing, acknowledgement, acknowledgement, firing, firing, firing, firing]

/-- Isolated losses break the connection, and a second acknowledgement hides that it is broken. -/
theorem heartbeat_miscounts :
    ¬ LoggedRun.Always (watchedStep .little sampleLibraries) Detects (connectedProcess, Tally.start) isolatedLosses ∧
      ¬ LoggedRun.Always (watchedStep .little sampleLibraries) Detects (connectedProcess, Tally.start) doubleAnswer := by
  have lost : (LoggedRun.run (watchedStep .little sampleLibraries) (connectedProcess, Tally.start) isolatedLosses).map
      (fun result => (result.1.1.pr.helloed, result.1.2.broken)) = some (0, false) := by decide +kernel
  have hidden : (LoggedRun.run (watchedStep .little sampleLibraries) (connectedProcess, Tally.start) doubleAnswer).map
      (fun result => (result.1.1.pr.helloed, result.1.2.broken)) = some (1, true) := by decide +kernel
  constructor
  · intro always
    obtain ⟨⟨final, log⟩, reached, facts⟩ := Option.map_eq_some_iff.mp lost
    obtain ⟨disconnected, unbroken⟩ := Prod.mk.inj facts
    have broken := (always.final reached).verdict.mp disconnected
    exact absurd (broken.symm.trans unbroken) (by decide)
  · intro always
    obtain ⟨⟨final, log⟩, reached, facts⟩ := Option.map_eq_some_iff.mp hidden
    obtain ⟨connected, broken⟩ := Prod.mk.inj facts
    have disconnected := (always.final reached).verdict.mpr broken
    exact absurd (disconnected.symm.trans connected) (by decide)

end Nose
