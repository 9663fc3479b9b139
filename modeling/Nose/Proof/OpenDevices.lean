import Nose.Proof.PeerTimers
import Nose.Source.Network

namespace Nose

open CMemory DottedQuad

/-- A call opens its device when it returned a descriptor, and closes it whatever it returned. -/
def openAfter (opened : List Int) : Call → List Int
  | .utunOpen fd => if 0 < fd then fd :: opened else opened
  | .utunClose fd => opened.filter (· ≠ fd)
  | _ => opened

def Call.writtenFd : Call → Option Int
  | .utunWrite fd _ => some fd
  | _ => none

/-- Each write goes to a device that is open at that time. -/
def WritesOpen : List Int → List Call → Prop
  | _, [] => True
  | opened, call :: rest => (∀ fd ∈ call.writtenFd, fd ∈ opened) ∧ WritesOpen (openAfter opened call) rest

instance decidableWritesOpen : (opened : List Int) → (calls : List Call) → Decidable (WritesOpen opened calls)
  | _, [] => isTrue trivial
  | opened, call :: rest =>
      have := decidableWritesOpen (openAfter opened call) rest
      inferInstanceAs (Decidable (_ ∧ _))

theorem writesOpen_append (opened : List Int) (first second : List Call) :
    WritesOpen opened (first ++ second) ↔
      WritesOpen opened first ∧ WritesOpen (first.foldl openAfter opened) second := by
  induction first generalizing opened with
  | nil => simp [WritesOpen]
  | cons call rest ih => simp only [List.cons_append, WritesOpen, ih, List.foldl_cons, and_assoc]

theorem writesOpen_of_unwritten {calls : List Call} (unwritten : ∀ call ∈ calls, call.writtenFd = none)
    (opened : List Int) : WritesOpen opened calls := by
  induction calls generalizing opened with
  | nil => trivial
  | cons call rest ih =>
      obtain ⟨head, tail⟩ := List.forall_mem_cons.mp unwritten
      exact ⟨by simp [head], ih tail _⟩

theorem Call.Quiet.unwritten {call : Call} (quiet : call.Quiet) : call.writtenFd = none := by
  cases call <;> first | rfl | exact quiet.elim

/-- Quiet calls open and close no device. -/
theorem Quiet.devices {calls : List Call} (quiet : Quiet calls) (opened : List Int) :
    calls.foldl openAfter opened = opened := by
  induction calls with
  | nil => rfl
  | cons call rest ih =>
      obtain ⟨head, tail⟩ := (quiet_cons call rest).mp quiet
      have kept : openAfter opened call = opened := by
        cases call <;> first | rfl | exact head.elim
      rw [List.foldl_cons, kept]
      exact ih tail

/-- A connected peer holds an open device, and all writes so far went to open devices. -/
structure Guarded (pr : Peer) (log : List Call) : Prop where
  device : pr.helloed = 1 → pr.tunFd ∈ log.foldl openAfter []
  written : WritesOpen [] log

/-- Calls that write nothing keep the devices guarded when a connected peer still holds an open one. -/
theorem Guarded.unwritten {pr next : Peer} {log calls : List Call} (guarded : Guarded pr log)
    (unwritten : ∀ call ∈ calls, call.writtenFd = none)
    (device : next.helloed = 1 → next.tunFd ∈ calls.foldl openAfter (log.foldl openAfter [])) :
    Guarded next (log ++ calls) := by
  refine ⟨fun connected => ?_, (writesOpen_append _ _ _).mpr ⟨guarded.written, ?_⟩⟩
  · rw [List.foldl_append]
    exact device connected
  · exact writesOpen_of_unwritten unwritten _

theorem Guarded.quiet {pr next : Peer} {log calls : List Call} (guarded : Guarded pr log) (quiet : Quiet calls)
    (helloed : next.helloed = pr.helloed) (tunFd : next.tunFd = pr.tunFd) : Guarded next (log ++ calls) := by
  apply guarded.unwritten fun call member => (quiet call member).unwritten
  rw [quiet.devices, helloed, tunFd]
  exact guarded.device

/-- Each transition keeps the devices guarded when an accepted payload finds the peer connected. -/
theorem Transition.guarded {host : ByteOrder} {lib : Libraries} {pr : Peer} {readers : Nat} {input : PeerInput}
    {next : Process} {log calls : List Call} (step : Transition host lib pr readers input next calls)
    (guarded : Guarded pr log)
    (connected : ∀ srcAddr datagram outcomes, input = .arrive srcAddr datagram outcomes →
      AcceptsPayload host lib pr srcAddr datagram outcomes → pr.helloed = 1) : Guarded next.pr (log ++ calls) := by
  cases step with
  | retried outcomes table _ pending quiet => exact guarded.quiet quiet rfl rfl
  | found outcomes table before address pending quiet =>
      rw [← List.append_assoc]
      exact (guarded.quiet quiet rfl rfl).unwritten (by simp [Call.writtenFd])
        (guarded.quiet quiet rfl rfl).device
  | greeted outcomes _ pending waiting quiet => exact guarded.quiet quiet rfl rfl
  | dropped outcomes pending already => exact guarded.quiet quiet_nil rfl rfl
  | beat outcomes counts _ pending answered quiet => exact guarded.quiet quiet rfl rfl
  | tornDown outcomes pending unanswered =>
      exact guarded.unwritten (by simp [Call.writtenFd]) fun impossible => absurd impossible (by simp)
  | received srcAddr datagram outcomes counts _ plain noPayload quiet => exact guarded.quiet quiet rfl rfl
  | delivered srcAddr datagram outcomes before bytes accepted quiet =>
      -- The write goes to the device of a connected peer.
      have before_guarded : Guarded pr (log ++ before) := guarded.quiet quiet rfl rfl
      have device := before_guarded.device (connected srcAddr datagram outcomes rfl accepted)
      rw [← List.append_assoc]
      refine ⟨?_, (writesOpen_append _ _ _).mpr ⟨before_guarded.written, ?_, trivial⟩⟩
      · rw [List.foldl_append]
        exact before_guarded.device
      · intro fd written
        obtain rfl := Option.some.inj written
        exact device
  | openFailed srcAddr datagram outcomes handles known waiting unopened =>
      exact guarded.unwritten (by simp [Call.writtenFd]) fun impossible =>
        absurd (waiting.symm.trans impossible) (by decide)
  | threadFailed srcAddr datagram outcomes accepted known refused =>
      exact guarded.unwritten (by simp [Call.writtenFd]) fun impossible =>
        absurd (accepted.waiting.symm.trans impossible) (by decide)
  | connected srcAddr datagram outcomes accepted known created =>
      exact guarded.unwritten (by simp [Call.writtenFd]) fun _ => by simp [openAfter, accepted.opened]
  | sent packet outcomes _ live fits quiet => exact guarded.quiet quiet rfl rfl
  | returned packet outcomes live large => exact guarded.quiet quiet_nil rfl rfl

/-- The calls of one side in the log of the network. -/
def callsOf (side : Side) (log : List (Side × Call)) : List Call :=
  (log.filter fun event => event.1 = side).map Prod.snd

theorem callsOf_append (side : Side) (first second : List (Side × Call)) :
    callsOf side (first ++ second) = callsOf side first ++ callsOf side second := by simp [callsOf]

theorem callsOf_map (side actor : Side) (calls : List Call) :
    callsOf side (calls.map (Prod.mk actor)) = if actor = side then calls else [] := by
  by_cases same : actor = side <;> simp [callsOf, List.filter_map, Function.comp_def, same]

/-- A step of the network is a step of one of its peers. -/
theorem networkStep_peer {host : Side → ByteOrder} {lib : Libraries} {addr : Side → SockAddr} {net next : Network}
    {input : NetworkInput} {new : List (Side × Call)}
    (stepped : networkStep host lib addr net input = some (next, new)) :
    ∃ actor peerInput process calls, net.peerInput addr input = some (actor, peerInput) ∧
      peerStep (host actor) lib (net.peers actor) peerInput = some (process, calls) ∧
        next.peers = Function.update net.peers actor process ∧ new = calls.map (Prod.mk actor) ∧
          next.sent = Function.update net.sent actor (net.sent actor ++ sentDatagrams calls) := by
  unfold networkStep at stepped
  obtain ⟨⟨actor, peerInput⟩, concerned, stepped⟩ := Option.bind_eq_some_iff.mp stepped
  obtain ⟨⟨process, calls⟩, moved, same⟩ := Option.map_eq_some_iff.mp stepped
  obtain ⟨rfl, rfl⟩ := Prod.mk.inj same
  exact ⟨actor, peerInput, process, calls, concerned, moved, rfl, rfl, rfl⟩

/-- A payload that the delivery would write to a device finds its peer connected. -/
def PayloadConnected (host : Side → ByteOrder) (lib : Libraries) (addr : Side → SockAddr) (net : Network)
    (input : NetworkInput) : Prop :=
  ∀ side srcAddr datagram outcomes, net.peerInput addr input = some (side, .arrive srcAddr datagram outcomes) →
    AcceptsPayload (host side) lib (net.peers side).pr srcAddr datagram outcomes → (net.peers side).pr.helloed = 1

theorem networkStep_guarded {host : Side → ByteOrder} {lib : Libraries} {addr : Side → SockAddr} {net next : Network}
    {input : NetworkInput} {log new : List (Side × Call)}
    (guarded : ∀ side, Guarded (net.peers side).pr (callsOf side log))
    (connected : PayloadConnected host lib addr net input)
    (stepped : networkStep host lib addr net input = some (next, new)) (side : Side) :
    Guarded (next.peers side).pr (callsOf side (log ++ new)) := by
  obtain ⟨actor, peerInput, process, calls, concerned, moved, peers, rfl, _⟩ := networkStep_peer stepped
  rw [callsOf_append, callsOf_map, peers]
  by_cases same : actor = side
  · subst same
    rw [if_pos rfl, Function.update_self]
    apply (peerStep_transition moved).guarded (guarded actor)
    rintro srcAddr datagram outcomes rfl
    exact connected actor srcAddr datagram outcomes concerned
  · rw [if_neg same, List.append_nil, Function.update_of_ne (Ne.symm same)]
    exact guarded side

/-- In every run of two peers in which accepted payloads find their peer connected, both peers write to open
devices only. -/
theorem payload_to_open_device (host : Side → ByteOrder) (lib : Libraries) (addr : Side → SockAddr)
    (handlers : Side → Peer) (inputs : List NetworkInput) (final : Network) (log : List (Side × Call))
    (reached : LoggedRun.run (networkStep host lib addr) (startNetwork handlers) inputs = some (final, log))
    (connected : LoggedRun.EveryStep (networkStep host lib addr) (PayloadConnected host lib addr)
      (startNetwork handlers) inputs) (side : Side) :
    WritesOpen [] (callsOf side log) := by
  have start (side : Side) : Guarded ((startNetwork handlers).peers side).pr (callsOf side []) :=
    ⟨fun impossible => absurd impossible (by simp [startNetwork, startProcess, peerLoop, initPeer]), trivial⟩
  have run := LoggedRun.run_invariant_of_everyStep
    (fun net log => ∀ side, Guarded (net.peers side).pr (callsOf side log))
    (fun _ _ _ _ _ guarded condition stepped => networkStep_guarded guarded condition stepped) start connected reached
  simpa using (run side).written

/-- The sides of a sample network have the addresses `1.2.3.97:4000` and `1.2.3.98:4000`. -/
def sampleAddr : Side → SockAddr
  | .first => remoteAddr 97
  | .second => remoteAddr 98

/-- A payload datagram finds its peer connected, whether it is accepted or not. -/
def flagsConnected (net : Network) (input : NetworkInput) : Bool :=
  match net.peerInput sampleAddr input with
  | some (side, .arrive _ datagram outcomes) =>
      arrived outcomes datagram 1 ≠ fPayload ∨ (net.peers side).pr.helloed = 1
  | _ => true

theorem flagsConnected_connected (net : Network) (input : NetworkInput) (flags : flagsConnected net input = true) :
    PayloadConnected (fun _ => .little) sampleLibraries sampleAddr net input := by
  intro side srcAddr datagram outcomes concerned accepts
  simpa [flagsConnected, concerned, accepts.flags] using flags

/-- Both peers are found, the second acknowledges the hello of the first, and the first sends a packet. -/
def halfGreeting : List NetworkInput :=
  [.expire .first .fpEvent (finding 98), .expire .second .fpEvent (finding 97),
    .expire .first .helloEvent blankOutcomes, .deliver .second 0 blankOutcomes, .deliver .first 0 blankOutcomes,
    .read .first samplePacket blankOutcomes]

/-- The second peer has its own hello acknowledged before it gets the packet. -/
def fullGreeting : List NetworkInput :=
  halfGreeting ++ [.expire .second .helloEvent blankOutcomes, .deliver .first 1 blankOutcomes,
    .deliver .second 2 blankOutcomes, .deliver .second 1 blankOutcomes]

/-- A packet is written after both greetings. -/
theorem payload_to_open_device_sample : ∃ final log,
    LoggedRun.run (networkStep (fun _ => .little) sampleLibraries sampleAddr) (startNetwork fun _ => samplePr)
        fullGreeting = some (final, log) ∧
      writes (callsOf .second log) = [(3, samplePacket)] ∧ WritesOpen [] (callsOf .second log) := by
  have completes : (LoggedRun.run (networkStep (fun _ => .little) sampleLibraries sampleAddr)
      (startNetwork fun _ => samplePr) fullGreeting).map (fun result => writes (callsOf .second result.2)) =
        some [(3, samplePacket)] := by decide +kernel
  obtain ⟨⟨final, log⟩, reached, written⟩ := Option.map_eq_some_iff.mp completes
  have flags : LoggedRun.EveryStep (networkStep (fun _ => .little) sampleLibraries sampleAddr)
      (fun net input => flagsConnected net input = true) (startNetwork fun _ => samplePr) fullGreeting := by
    decide +kernel
  exact ⟨final, log, reached, written, payload_to_open_device (fun _ => .little) sampleLibraries sampleAddr
    (fun _ => samplePr) fullGreeting final log reached (flags.mono flagsConnected_connected) .second⟩

/-- A packet that arrives before the second greeting is written to the descriptor zero, which is no open device. -/
theorem payload_before_greeting : ∃ final log,
    LoggedRun.run (networkStep (fun _ => .little) sampleLibraries sampleAddr) (startNetwork fun _ => samplePr)
        (halfGreeting ++ [.deliver .second 1 blankOutcomes]) = some (final, log) ∧
      writes (callsOf .second log) = [(0, samplePacket)] ∧ ¬ WritesOpen [] (callsOf .second log) := by
  have outcome : (LoggedRun.run (networkStep (fun _ => .little) sampleLibraries sampleAddr)
      (startNetwork fun _ => samplePr) (halfGreeting ++ [.deliver .second 1 blankOutcomes])).map (fun result =>
        (writes (callsOf .second result.2), decide (WritesOpen [] (callsOf .second result.2)))) =
          some ([(0, samplePacket)], false) := by decide +kernel
  obtain ⟨⟨final, log⟩, reached, facts⟩ := Option.map_eq_some_iff.mp outcome
  obtain ⟨written, closed⟩ := Prod.mk.inj facts
  exact ⟨final, log, reached, written, of_decide_eq_false closed⟩

end Nose
