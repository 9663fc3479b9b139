import Nose.Proof.OpenDevices

namespace Nose

open CMemory DottedQuad

/-- The flags of a datagram. -/
def flagsOf (datagram : List UInt8) : UInt8 := datagram.getD 1 0

/-- All datagrams among the calls have the given flags. -/
def SendsOnly (flags : UInt8) (calls : List Call) : Prop := ∀ datagram ∈ sentDatagrams calls, flagsOf datagram = flags

theorem sendsOnly_nil (flags : UInt8) : SendsOnly flags [] := by simp [SendsOnly, sentDatagrams]

/-- A packet without payload carries its flags. -/
theorem controlPkt_flags {flags : UInt8} {host : ByteOrder} {malloc : Option Block} {buf : Block}
    (built : (controlPkt flags host malloc buf).1 ≠ error) :
    flagsOf (bytesOf (controlPkt flags host malloc buf).2 (controlPkt flags host malloc buf).1.toNat) = flags := by
  cases malloc with
  | none => exact absurd rfl built
  | some old =>
      rw [flagsOf, getD_bytesOf (by simp [controlPkt])]
      cases host <;> simp [controlPkt, pcpHeader, memcpy, store16, setByte]

theorem sendtoRemotePeer_sends {outcomes : Outcomes} {buf : Block} {size : Int} {flags : UInt8}
    (carries : 0 < size → flagsOf (bytesOf buf size.toNat) = flags) :
    SendsOnly flags (sendtoRemotePeer outcomes buf size).2 := by
  unfold sendtoRemotePeer
  split
  · exact sendsOnly_nil flags
  · rename_i positive
    split
    · exact sendsOnly_nil flags
    · simpa [SendsOnly, sentDatagrams] using carries (by omega)

/-- The answer to a greeting or a heartbeat carries the flags of its packet. -/
theorem answer_sends (outcomes : Outcomes) (pr : Peer) (flags : UInt8) (host : ByteOrder) :
    let built := controlPkt flags host outcomes.malloc outcomes.stack
    SendsOnly flags (if built.1 = error then (pr, [Call.content 0 4])
      else (pr, Call.content 0 4 :: (sendtoRemotePeer outcomes built.2 built.1).2)).2 := by
  intro built
  split
  · simp [SendsOnly, sentDatagrams]
  · rename_i success
    have sends : SendsOnly flags (sendtoRemotePeer outcomes built.2 built.1).2 :=
      sendtoRemotePeer_sends fun _ => controlPkt_flags success
    simpa [SendsOnly, sentDatagrams] using sends

/-- The callbacks of the timers send no acknowledgement of a hello. -/
theorem callback_sends (host : ByteOrder) (outcomes : Outcomes) (pr : Peer) (timer : Timer) :
    ∃ flags, flags ≠ fHelloAck ∧ SendsOnly flags (timer.callback host outcomes pr).2 := by
  cases timer with
  | fpEvent =>
      refine ⟨fHelloSyn, by decide, ?_⟩
      simp only [Timer.callback, findRemotePeer]
      split
      · exact sendsOnly_nil _
      · split
        · simp [SendsOnly, sentDatagrams]
        · split
          · simp [SendsOnly, sentDatagrams]
          · split
            · simp [SendsOnly, sentDatagrams]
            · split <;> simp [SendsOnly, sentDatagrams]
  | helloEvent =>
      refine ⟨fHelloSyn, by decide, ?_⟩
      simp only [Timer.callback, udpHolingHello]
      split
      · exact sendsOnly_nil _
      · split
        · exact sendsOnly_nil _
        · rename_i success
          split
          · exact sendsOnly_nil _
          · have flags := controlPkt_flags success
            intro datagram member
            obtain rfl : datagram = _ := by simpa [sentDatagrams] using member
            exact flags
  | hbEvent =>
      refine ⟨fHbSyn, by decide, ?_⟩
      simp only [Timer.callback, peerHeartbeat]
      split
      · simp [SendsOnly, sentDatagrams]
      · split
        · exact sendsOnly_nil _
        · rename_i success
          exact sendtoRemotePeer_sends fun _ => controlPkt_flags success

theorem pcpPayloadPkt_flags {host : ByteOrder} {malloc : Option Block} {buf bbuf : Block} {allSize : Nat}
    {textSize : UInt16} (built : 0 < (pcpPayloadPkt host malloc buf bbuf allSize textSize).1) :
    flagsOf (bytesOf (pcpPayloadPkt host malloc buf bbuf allSize textSize).2
      (pcpPayloadPkt host malloc buf bbuf allSize textSize).1.toNat) = fPayload := by
  cases malloc with
  | none => exact absurd built (by simp [pcpPayloadPkt, error])
  | some old =>
      have long : 1 < (6 + (allSize : Int)).toNat := by omega
      rw [flagsOf, getD_bytesOf (by simpa [pcpPayloadPkt] using long)]
      simp only [pcpPayloadPkt]
      rw [memcpy_outside (by omega), store16_other (by omega), memcpy_inside (by omega) (by omega), pcpHeader,
        store16_other (by omega)]
      rfl

/-- A reader sends payloads. -/
theorem recvTunDeviceThread_sends (host : ByteOrder) (lib : Libraries) (outcomes : Outcomes) (pr : Peer)
    (packet : List UInt8) : SendsOnly fPayload (recvTunDeviceThread host lib outcomes pr packet).2 := by
  by_cases empty : utunRead packet = []
  · simp [recvTunDeviceThread, empty, sendsOnly_nil]
  · rw [recvTunDeviceThread_eq host lib outcomes pr packet empty]
    dsimp only
    split
    · exact sendsOnly_nil _
    · apply sendtoRemotePeer_sends
      exact pcpPayloadPkt_flags

/-- A payload is not answered. -/
theorem recvedPayload_sends (host : ByteOrder) (lib : Libraries) (outcomes : Outcomes) (pr : Peer) (buf : Block)
    (size : Int) (flags : UInt8) : SendsOnly flags (recvedPayload host lib outcomes pr buf size) := by
  by_cases short : sizeT size < payloadLen host buf + 4
  · rw [recvedPayload_short host lib outcomes pr buf size short]
    exact sendsOnly_nil flags
  · by_cases wrapped : payloadLen host buf < 2
    · rw [recvedPayload_wrapped host lib outcomes pr buf size short wrapped]
      simp [SendsOnly, sentDatagrams]
    · rw [recvedPayload_counted host lib outcomes pr buf size short (by omega)]
      dsimp only
      split
      · simp [SendsOnly, sentDatagrams]
      · split <;> simp [SendsOnly, sentDatagrams]

/-- The hello of the other peer is handled. -/
structure HearsHello (pr : Peer) (srcAddr : SockAddr) (datagram : List UInt8) (outcomes : Outcomes) : Prop
    extends Handles pr srcAddr datagram outcomes where
  flags : flagsOf datagram = fHelloSyn

theorem arrived_flags {outcomes : Outcomes} {datagram : List UInt8} (complete : 4 ≤ datagram.length) :
    arrived outcomes datagram 1 = flagsOf datagram := by
  have small : 1 < (datagram.take bufferSize).length := by
    rw [List.length_take]
    unfold bufferSize
    omega
  rw [arrived, block_of_lt small, flagsOf]
  simp [bufferSize]

/-- A peer acknowledges a hello only when it handles one. -/
theorem udpRecvCb_acknowledges (host : ByteOrder) (lib : Libraries) (outcomes : Outcomes) (pr : Peer)
    (srcAddr : SockAddr) (datagram : List UInt8) :
    HearsHello pr srcAddr datagram outcomes ∨
      ∃ flags, flags ≠ fHelloAck ∧ SendsOnly flags (pr.udpRecvCb host lib outcomes srcAddr datagram).2 := by
  by_cases handles : Handles pr srcAddr datagram outcomes
  · obtain ⟨handled, complete⟩ := udpRecvCb_handled host lib outcomes pr handles
    rw [handled, recvedPktUnpack, if_neg complete, arrived_flags handles.complete]
    dsimp only
    by_cases helloSyn : flagsOf datagram = fHelloSyn
    · exact .inl ⟨handles, helloSyn⟩
    · right
      rw [if_neg helloSyn]
      split
      · refine ⟨fHbSyn, by decide, ?_⟩
        rcases recvedHelloAck_cases outcomes pr with ⟨_, same⟩ | ⟨_, _, same⟩ | ⟨_, _, _, same⟩ | ⟨_, _, _, same⟩ <;>
          simp [same, SendsOnly, sentDatagrams]
      · split
        · exact ⟨fHbAck, by decide, answer_sends outcomes pr fHbAck host⟩
        · split
          · exact ⟨fHbSyn, by decide, by simp [SendsOnly, sentDatagrams]⟩
          · split
            · refine ⟨fHbSyn, by decide, ?_⟩
              have sends := recvedPayload_sends host lib outcomes pr (arrived outcomes datagram)
                (datagram.take bufferSize).length fHbSyn
              simpa [SendsOnly, sentDatagrams] using sends
            · exact ⟨fHbSyn, by decide, by simp [SendsOnly, sentDatagrams]⟩
  · rw [udpRecvCb_ignored host lib outcomes pr handles]
    exact .inr ⟨fHbSyn, by decide, sendsOnly_nil _⟩

/-- A process acknowledges a hello only when it handles one. -/
theorem peerStep_acknowledges {host : ByteOrder} {lib : Libraries} {process next : Process} {input : PeerInput}
    {calls : List Call} (stepped : peerStep host lib process input = some (next, calls)) :
    (∃ srcAddr datagram outcomes, input = .arrive srcAddr datagram outcomes ∧
      HearsHello process.pr srcAddr datagram outcomes) ∨
    ∃ flags, flags ≠ fHelloAck ∧ SendsOnly flags calls := by
  cases input with
  | expire timer outcomes =>
      obtain ⟨_, _, rfl⟩ := peerStep_expire stepped
      exact .inr (callback_sends host outcomes _ timer)
  | arrive srcAddr datagram outcomes =>
      obtain ⟨_, _, rfl⟩ := peerStep_arrive stepped
      rcases udpRecvCb_acknowledges host lib outcomes process.pr srcAddr datagram with hears | sends
      · exact .inl ⟨srcAddr, datagram, outcomes, rfl, hears⟩
      · exact .inr sends
  | read packet outcomes =>
      obtain ⟨_, _, rfl⟩ := peerStep_read stepped
      exact .inr ⟨fPayload, by decide, recvTunDeviceThread_sends host lib outcomes process.pr packet⟩

/-- A peer gets connected only by an acknowledgement of a hello. -/
theorem peerStep_connects {host : ByteOrder} {lib : Libraries} {process next : Process} {input : PeerInput}
    {calls : List Call} (stepped : peerStep host lib process input = some (next, calls))
    (waiting : process.pr.helloed = 0) (connected : next.pr.helloed = 1) :
    ∃ srcAddr datagram outcomes, input = .arrive srcAddr datagram outcomes ∧ flagsOf datagram = fHelloAck := by
  have transition := peerStep_transition stepped
  have unchanged : process.pr.helloed ≠ 1 := by omega
  cases transition with
  | connected srcAddr datagram outcomes accepted known created =>
      exact ⟨srcAddr, datagram, outcomes, rfl, (arrived_flags accepted.complete).symm.trans accepted.flags⟩
  | tornDown outcomes pending unanswered => exact absurd connected (by simp)
  | _ => exact absurd connected unchanged

/-- An observer of the network notes for each side how many datagrams either side had sent when that side last tore
down its connection, which hellos the side has heard, and whether a datagram from before that tear-down came late. -/
structure Notes where
  mark : Side → Side → Nat
  heard : Side → List Nat
  late : Side → Bool

/-- No connection was torn down, no hello was heard and nothing came late. -/
def Notes.start : Notes := ⟨fun _ _ => 0, fun _ => [], fun _ => false⟩

/-- The side hears the hello that it gets. -/
def hears (addr : Side → SockAddr) (net : Network) (side : Side) (index : Nat) (outcomes : Outcomes) : Bool :=
  match (net.sent side.other)[index]? with
  | some datagram => addr side.other = (net.peers side).pr.remotePeerAddr ∧ 0 ≤ outcomes.recvfrom ∧
      4 ≤ datagram.length ∧ flagsOf datagram = fHelloSyn
  | none => false

/-- The delivered datagram is a hello of the side to the other side, or an acknowledgement of the other side to it, and
it was sent before the side last tore down its connection. -/
def overdue (net : Network) (notes : Notes) (receiver : Side) (index : Nat) (side : Side) : Bool :=
  match (net.sent receiver.other)[index]? with
  | some datagram => index < notes.mark side receiver.other ∧
      flagsOf datagram = if receiver = side then fHelloAck else fHelloSyn
  | none => false

/-- A heartbeat that finds the counter at zero tears the connection down. What came late before that counts no more. -/
def watch (addr : Side → SockAddr) (net : Network) (notes : Notes) (input : NetworkInput) (_ : Network) : Notes :=
  match input with
  | .expire side .hbEvent _ =>
      if (net.peers side).pr.synCounts = 0 then
        { notes with
          mark := Function.update notes.mark side fun party => (net.sent party).length
          late := Function.update notes.late side false }
      else notes
  | .deliver receiver index outcomes =>
      { notes with
        heard :=
          if hears addr net receiver index outcomes then
            Function.update notes.heard receiver (index :: notes.heard receiver)
          else notes.heard
        late := fun side => notes.late side || overdue net notes receiver index side }
  | _ => notes

abbrev watchedNetwork (host : Side → ByteOrder) (lib : Libraries) (addr : Side → SockAddr) :=
  LoggedRun.observe (networkStep host lib addr) (watch addr)

/-- The datagram at the place is a hello. -/
def IsHello (sent : List (List UInt8)) (index : Nat) : Prop :=
  ∃ datagram, sent[index]? = some datagram ∧ flagsOf datagram = fHelloSyn

/-- Every acknowledgement of a hello that the other side sent from some time on stands for a hello that the side sent
from some time on. -/
def Answered (since : Side → Nat) (side : Side) (net : Network) (heard : List Nat) : Prop :=
  ∀ place datagram, (net.sent side.other)[place]? = some datagram → flagsOf datagram = fHelloAck →
    since side.other ≤ place → ∃ index ∈ heard, since side ≤ index

/-- All noted hellos of the side were sent. -/
def Noted (side : Side) (net : Network) (heard : List Nat) : Prop := ∀ index ∈ heard, IsHello (net.sent side) index

section Step

variable {host : Side → ByteOrder} {lib : Libraries} {addr : Side → SockAddr} {net next : Network} {notes : Notes}
  {input : NetworkInput} {new : List (Side × Call)}

@[simp] theorem Side.other_other (side : Side) : side.other.other = side := by cases side <;> rfl

/-- A side keeps the places of the datagrams that it has sent. -/
theorem networkStep_sent (stepped : networkStep host lib addr net input = some (next, new)) (side : Side) :
    ∃ more, next.sent side = net.sent side ++ more := by
  obtain ⟨actor, _, _, calls, _, _, _, _, sent⟩ := networkStep_peer stepped
  rw [sent]
  by_cases same : side = actor
  · subst same
    exact ⟨sentDatagrams calls, Function.update_self ..⟩
  · exact ⟨[], by rw [Function.update_of_ne same, List.append_nil]⟩

theorem watch_heard (side : Side) :
    (watch addr net notes input next).heard side =
      match input with
      | .deliver receiver index outcomes =>
          if side = receiver ∧ hears addr net receiver index outcomes then index :: notes.heard side
          else notes.heard side
      | _ => notes.heard side := by
  cases input with
  | expire receiver timer outcomes =>
      cases timer <;> simp only [watch]
      split <;> rfl
  | deliver receiver index outcomes =>
      simp only [watch]
      by_cases heard : hears addr net receiver index outcomes = true
      · rw [if_pos heard]
        by_cases same : side = receiver
        · subst same
          simp [heard]
        · simp [same]
      · simp [heard]
  | read receiver packet outcomes => rfl

/-- A side for which nothing is late tears its connection down, or nothing was late before and the step delivers
nothing late. Only a tear-down moves the mark. -/
theorem watch_late (side : Side) (timely : (watch addr net notes input next).late side = false) :
    (∃ outcomes, input = .expire side .hbEvent outcomes ∧
        (watch addr net notes input next).mark side = fun party => (net.sent party).length) ∨
      (notes.late side = false ∧ (watch addr net notes input next).mark side = notes.mark side ∧
        ∀ receiver index outcomes, input = .deliver receiver index outcomes →
          overdue net notes receiver index side = false) := by
  cases input with
  | expire actor timer outcomes =>
      cases timer with
      | hbEvent =>
          simp only [watch] at timely ⊢
          split at timely
          · rename_i torn
            rw [if_pos torn]
            by_cases same : side = actor
            · subst same
              exact .inl ⟨outcomes, rfl, Function.update_self ..⟩
            · have before : Function.update notes.late actor false side = false := timely
              rw [Function.update_of_ne same] at before
              exact .inr ⟨before, Function.update_of_ne same .., fun _ _ _ impossible => by cases impossible⟩
          · rename_i kept
            rw [if_neg kept]
            exact .inr ⟨timely, rfl, fun _ _ _ impossible => by cases impossible⟩
      | fpEvent => exact .inr ⟨timely, rfl, fun _ _ _ impossible => by cases impossible⟩
      | helloEvent => exact .inr ⟨timely, rfl, fun _ _ _ impossible => by cases impossible⟩
  | deliver receiver index outcomes =>
      obtain ⟨before, recent⟩ := Bool.or_eq_false_iff.mp timely
      refine .inr ⟨before, rfl, ?_⟩
      rintro _ _ _ ⟨rfl, rfl, rfl⟩
      exact recent
  | read receiver packet outcomes => exact .inr ⟨timely, rfl, fun _ _ _ impossible => by cases impossible⟩

/-- A hello or an acknowledgement that is not late was sent after the tear-down. -/
theorem recent_of_not_overdue {receiver side : Side} {index : Nat} {datagram : List UInt8}
    (recent : overdue net notes receiver index side = false)
    (found : (net.sent receiver.other)[index]? = some datagram)
    (flags : flagsOf datagram = if receiver = side then fHelloAck else fHelloSyn) :
    notes.mark side receiver.other ≤ index := by
  rw [overdue, found] at recent
  exact Nat.not_lt.mp fun early => of_decide_eq_false recent ⟨early, flags⟩

/-- A datagram arrives by a delivery. -/
theorem peerInput_arrive {actor : Side} {srcAddr : SockAddr} {datagram : List UInt8} {outcomes : Outcomes}
    (concerned : net.peerInput addr input = some (actor, .arrive srcAddr datagram outcomes)) :
    ∃ index, input = .deliver actor index outcomes ∧ (net.sent actor.other)[index]? = some datagram ∧
      srcAddr = addr actor.other := by
  cases input with
  | expire side timer outcomes => cases concerned
  | deliver side index outcomes =>
      obtain ⟨delivered, found, same⟩ := Option.map_eq_some_iff.mp concerned
      cases same
      exact ⟨index, rfl, found, rfl⟩
  | read side packet outcomes => cases concerned

theorem heard_mono {side : Side} {index : Nat} (heard : index ∈ notes.heard side) :
    index ∈ (watch addr net notes input next).heard side := by
  rw [watch_heard]
  split
  · split
    · exact List.mem_cons_of_mem _ heard
    · exact heard
  · exact heard

theorem hears_hello {side : Side} {index : Nat} {outcomes : Outcomes}
    (heard : hears addr net side index outcomes = true) : IsHello (net.sent side.other) index := by
  unfold hears at heard
  split at heard
  · rename_i datagram found
    exact ⟨datagram, found, (of_decide_eq_true heard).2.2.2⟩
  · cases heard

theorem Noted.step {side : Side} (noted : Noted side net (notes.heard side.other))
    (stepped : networkStep host lib addr net input = some (next, new)) :
    Noted side next ((watch addr net notes input next).heard side.other) := by
  obtain ⟨more, sent⟩ := networkStep_sent stepped side
  have kept (index : Nat) (hello : IsHello (net.sent side) index) : IsHello (next.sent side) index := by
    obtain ⟨datagram, found, flags⟩ := hello
    have inside := (List.getElem?_eq_some_iff.mp found).1
    exact ⟨datagram, by rw [sent, List.getElem?_append_left inside, found], flags⟩
  intro index member
  apply kept
  rw [watch_heard] at member
  split at member
  · rename_i receiver place outcomes
    split at member
    · rename_i hearing
      rcases List.mem_cons.mp member with rfl | old
      · obtain ⟨rfl, heard⟩ := hearing
        have hello := hears_hello heard
        rwa [Side.other_other] at hello
      · exact noted index old
    · exact noted index member
  · exact noted index member

/-- A step keeps the acknowledgements answered when the hello that it delivers is recent enough. -/
theorem Answered.step {since : Side → Nat} {side : Side} (answered : Answered since side net (notes.heard side.other))
    (recent : ∀ index outcomes, input = .deliver side.other index outcomes →
      hears addr net side.other index outcomes = true → since side ≤ index)
    (stepped : networkStep host lib addr net input = some (next, new)) :
    Answered since side next ((watch addr net notes input next).heard side.other) := by
  obtain ⟨actor, peerInput, process, calls, concerned, moved, _, _, sent⟩ := networkStep_peer stepped
  intro place datagram found acknowledges late
  have old (before : (net.sent side.other)[place]? = some datagram) :
      ∃ index ∈ (watch addr net notes input next).heard side.other, since side ≤ index := by
    obtain ⟨index, heard, young⟩ := answered place datagram before acknowledges late
    exact ⟨index, heard_mono heard, young⟩
  rw [sent] at found
  by_cases same : side.other = actor
  · subst same
    rw [Function.update_self] at found
    by_cases inside : place < (net.sent side.other).length
    · exact old (by rwa [List.getElem?_append_left inside] at found)
    · -- The other side sends the acknowledgement in this step.
      rw [List.getElem?_append_right (Nat.not_lt.mp inside)] at found
      have sends := List.mem_of_getElem? found
      rcases peerStep_acknowledges moved with ⟨srcAddr, hello, outcomes, rfl, hearing⟩ | ⟨flags, different, only⟩
      · obtain ⟨index, rfl, delivered, source⟩ := peerInput_arrive concerned
        have heard : hears addr net side.other index outcomes = true := by
          rw [hears, delivered]
          exact decide_eq_true ⟨source.symm.trans hearing.source, hearing.received, hearing.complete, hearing.flags⟩
        refine ⟨index, ?_, recent index outcomes rfl heard⟩
        rw [watch_heard]
        simp [heard]
      · exact absurd ((only datagram sends).symm.trans acknowledges) different
  · rw [Function.update_of_ne same] at found
    exact old found

end Step

section Runs

variable {host : Side → ByteOrder} {lib : Libraries} {addr : Side → SockAddr} {handlers : Side → Peer}
  {inputs : List NetworkInput} {net : Network} {notes : Notes} {log : List (Side × Call)}

/-- Every run of the network can be watched. -/
theorem exists_watched_run
    (reached : LoggedRun.run (networkStep host lib addr) (startNetwork handlers) inputs = some (net, log)) :
    ∃ notes, LoggedRun.run (watchedNetwork host lib addr) (startNetwork handlers, Notes.start) inputs =
      some ((net, notes), log) := by
  have observed : (LoggedRun.run (watchedNetwork host lib addr) (startNetwork handlers, Notes.start) inputs).map
      (fun result => (result.1.1, result.2)) = some (net, log) := (LoggedRun.run_observe _ _ _).trans reached
  obtain ⟨⟨⟨_, notes⟩, _⟩, watched, same⟩ := Option.map_eq_some_iff.mp observed
  obtain ⟨rfl, rfl⟩ := Prod.mk.inj same
  exact ⟨notes, watched⟩

/-- In every run the noted hellos were sent, and every acknowledgement stands for one of them. -/
theorem run_answered (side : Side)
    (reached : LoggedRun.run (watchedNetwork host lib addr) (startNetwork handlers, Notes.start) inputs =
      some ((net, notes), log)) :
    Noted side net (notes.heard side.other) ∧ Answered (fun _ => 0) side net (notes.heard side.other) := by
  refine @LoggedRun.run_invariant _ _ _ _ (fun state _ => Noted side state.1 (state.2.heard side.other) ∧
    Answered (fun _ => 0) side state.1 (state.2.heard side.other)) ?_ _ _ [] _ _ ?_ reached
  · rintro state _ input next new ⟨noted, answered⟩ stepped
    obtain ⟨taken, notes⟩ := LoggedRun.observe_eq_some.mp stepped
    rw [notes]
    exact ⟨noted.step taken, answered.step (fun _ _ _ _ => Nat.zero_le _) taken⟩
  · exact ⟨fun _ impossible => by simp [Notes.start] at impossible,
      fun place datagram found => by simp [startNetwork] at found⟩

/-- When nothing is late, the acknowledgements of a session stand for hellos of the same session. -/
theorem run_answered_timely (side : Side)
    (reached : LoggedRun.run (watchedNetwork host lib addr) (startNetwork handlers, Notes.start) inputs =
      some ((net, notes), log)) (timely : notes.late side = false) :
    Answered (notes.mark side) side net (notes.heard side.other) := by
  revert timely
  refine @LoggedRun.run_invariant _ _ _ _ (fun state _ => state.2.late side = false →
    Answered (state.2.mark side) side state.1 (state.2.heard side.other)) ?_ _ _ [] _ _ ?_ reached
  · intro state _ input next new answered stepped timely
    obtain ⟨taken, notes⟩ := LoggedRun.observe_eq_some.mp stepped
    rw [notes] at timely ⊢
    rcases watch_late side timely with ⟨outcomes, rfl, moved⟩ | ⟨before, kept, recent⟩
    · -- The other side has sent nothing since the tear-down.
      obtain ⟨actor, _, _, calls, concerned, _, _, _, sent⟩ := networkStep_peer taken
      obtain ⟨rfl, _⟩ := Prod.mk.inj (Option.some.inj concerned)
      have different : side.other ≠ side := by cases side <;> decide
      intro place datagram found _ late
      rw [sent, Function.update_of_ne different] at found
      rw [moved] at late
      exact absurd (List.getElem?_eq_some_iff.mp found).1 (Nat.not_lt.mpr late)
    · rw [kept]
      refine (answered before).step ?_ taken
      rintro index outcomes rfl heard
      obtain ⟨datagram, found, flags⟩ := hears_hello heard
      have different : side.other ≠ side := by cases side <;> decide
      have young := recent_of_not_overdue (recent _ index outcomes rfl) found (by rw [if_neg different, flags])
      rwa [Side.other_other] at young
  · intro _ place datagram found
    simp [startNetwork] at found

end Runs

/-- Whenever a side gets connected, the other side has heard a hello that it sent, and a hello that it sent after it
last tore down its connection if nothing from before was delivered since then, the last step included. -/
theorem connected_after_hello (host : Side → ByteOrder) (lib : Libraries) (addr : Side → SockAddr)
    (handlers : Side → Peer) (inputs : List NetworkInput) (net : Network) (notes : Notes) (log : List (Side × Call))
    (reached : LoggedRun.run (watchedNetwork host lib addr) (startNetwork handlers, Notes.start) inputs =
      some ((net, notes), log))
    (input : NetworkInput) (next : Network) (new : List (Side × Call))
    (stepped : networkStep host lib addr net input = some (next, new)) (side : Side)
    (waiting : (net.peers side).pr.helloed = 0) (connected : (next.peers side).pr.helloed = 1) :
    (∃ index ∈ notes.heard side.other, IsHello (net.sent side) index) ∧
      ((watch addr net notes input next).late side = false →
        ∃ index ∈ notes.heard side.other, IsHello (net.sent side) index ∧ notes.mark side side ≤ index) := by
  obtain ⟨noted, answered⟩ := run_answered side reached
  obtain ⟨actor, peerInput, process, calls, concerned, moved, peers, _, _⟩ := networkStep_peer stepped
  obtain rfl : actor = side := by
    by_contra different
    rw [peers, Function.update_of_ne (Ne.symm different)] at connected
    exact absurd (waiting.symm.trans connected) (by decide)
  rw [peers, Function.update_self] at connected
  obtain ⟨srcAddr, datagram, outcomes, rfl, acknowledges⟩ := peerStep_connects moved waiting connected
  obtain ⟨place, rfl, delivered, _⟩ := peerInput_arrive concerned
  constructor
  · obtain ⟨index, heard, _⟩ := answered place datagram delivered acknowledges (Nat.zero_le place)
    exact ⟨index, heard, noted index heard⟩
  · intro timely
    rcases watch_late actor timely with ⟨_, impossible, _⟩ | ⟨before, _, recent⟩
    · cases impossible
    · have young := recent_of_not_overdue (recent _ place outcomes rfl) delivered (by rw [if_pos rfl, acknowledges])
      obtain ⟨index, heard, late⟩ := run_answered_timely actor reached before place datagram delivered acknowledges young
      exact ⟨index, heard, noted index heard, late⟩

/-- The first side is greeted, misses three heartbeats and tears its connection down. -/
def brokenSession : List NetworkInput :=
  [.expire .first .fpEvent (finding 98), .expire .second .fpEvent (finding 97),
    .expire .first .helloEvent blankOutcomes, .deliver .second 0 blankOutcomes, .deliver .first 0 blankOutcomes,
    .expire .first .hbEvent blankOutcomes, .expire .first .hbEvent blankOutcomes,
    .expire .first .hbEvent blankOutcomes, .expire .first .hbEvent blankOutcomes]

abbrev sampleNetworkStep := networkStep (fun _ => .little) sampleLibraries sampleAddr

abbrev sampleWatched := watchedNetwork (fun _ => .little) sampleLibraries sampleAddr

def sampleStart : Network × Notes := (startNetwork fun _ => samplePr, Notes.start)

/-- The old acknowledgement connects the first side again. It tears this connection down too, greets once more, and the
second side acknowledges the new hello. -/
def secondGreeting : List NetworkInput :=
  brokenSession ++ [.deliver .first 0 blankOutcomes, .expire .first .hbEvent blankOutcomes,
    .expire .first .hbEvent blankOutcomes, .expire .first .hbEvent blankOutcomes, .expire .first .hbEvent blankOutcomes,
    .expire .first .helloEvent blankOutcomes, .deliver .second 7 blankOutcomes]

/-- The first side is connected again after its new hello was heard. The acknowledgement that came late belongs to an
earlier session. -/
theorem connected_after_hello_sample : ∃ net notes log next new,
    LoggedRun.run sampleWatched sampleStart secondGreeting = some ((net, notes), log) ∧
      sampleNetworkStep net (.deliver .first 1 blankOutcomes) = some (next, new) ∧
      (net.peers .first).pr.helloed = 0 ∧ (next.peers .first).pr.helloed = 1 ∧
      ∃ index ∈ notes.heard .second, IsHello (net.sent .first) index ∧ notes.mark .first .first ≤ index := by
  have outcome : (LoggedRun.run sampleWatched sampleStart secondGreeting).map (fun result =>
      ((sampleNetworkStep result.1.1 (.deliver .first 1 blankOutcomes)).map fun taken =>
        ((taken.1.peers .first).pr.helloed,
          (watch sampleAddr result.1.1 result.1.2 (.deliver .first 1 blankOutcomes) taken.1).late .first),
        (result.1.1.peers .first).pr.helloed)) = some (some (1, false), 0) := by
    decide +kernel
  obtain ⟨⟨⟨net, notes⟩, log⟩, reached, facts⟩ := Option.map_eq_some_iff.mp outcome
  obtain ⟨taken, waiting⟩ := Prod.mk.inj facts
  obtain ⟨⟨next, new⟩, stepped, outcome⟩ := Option.map_eq_some_iff.mp taken
  obtain ⟨connected, timely⟩ := Prod.mk.inj outcome
  exact ⟨net, notes, log, next, new, reached, stepped, waiting, connected,
    (connected_after_hello (fun _ => .little) sampleLibraries sampleAddr (fun _ => samplePr) secondGreeting net notes log
      reached (.deliver .first 1 blankOutcomes) next new stepped .first waiting connected).2 timely⟩

/-- The first side is connected again by the acknowledgement from before its tear-down, and the second side has heard no
hello since then. -/
theorem connected_by_old_acknowledgement : ∃ net notes log next new,
    LoggedRun.run sampleWatched sampleStart brokenSession = some ((net, notes), log) ∧
      sampleNetworkStep net (.deliver .first 0 blankOutcomes) = some (next, new) ∧
      (net.peers .first).pr.helloed = 0 ∧ (next.peers .first).pr.helloed = 1 ∧
      ∀ index ∈ notes.heard .second, index < notes.mark .first .first := by
  have outcome : (LoggedRun.run sampleWatched sampleStart brokenSession).map (fun result =>
      ((sampleNetworkStep result.1.1 (.deliver .first 0 blankOutcomes)).map fun taken =>
        (taken.1.peers .first).pr.helloed, (result.1.1.peers .first).pr.helloed, result.1.2.heard .second,
          result.1.2.mark .first .first)) = some (some 1, 0, [0], 4) := by decide +kernel
  obtain ⟨⟨⟨net, notes⟩, log⟩, reached, facts⟩ := Option.map_eq_some_iff.mp outcome
  obtain ⟨taken, waiting, heard, mark⟩ : _ ∧ _ ∧ _ ∧ _ := by simpa only [Prod.mk.injEq] using facts
  obtain ⟨⟨next, new⟩, stepped, connected⟩ := Option.map_eq_some_iff.mp taken
  refine ⟨net, notes, log, next, new, reached, stepped, waiting, connected, ?_⟩
  intro index member
  rw [heard, List.mem_singleton] at member
  rw [member, mark]
  decide

end Nose
