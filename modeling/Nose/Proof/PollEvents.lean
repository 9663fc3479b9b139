import Nose.Proof.HashTableRuns
import Nose.Source.Polling

/-
This file shows that the table of a polling instance finds the slots of its descriptors, and that every reported event
is delivered once.
-/

namespace Nose

open ShadowTable

namespace CPoll

def position (fds : List PollFd) (fd : Int) : Option Nat := fds.findIdx? fun slot => slot.fd = fd

/-- An unknown descriptor fires an assertion, unless there is no slot at all. -/
def unknown (poll : CPoll) : List PollLog := if poll.fds.length = 0 then [] else [.assertion .chkIfA]

/-- This is a polling instance that searches its slots one by one. -/
def plainStep (poll : CPoll) : PollCall → Option (CPoll × List PollLog)
  | .add fd eventflags =>
      match position poll.fds fd with
      | some _ => some (poll, [.assertion .chkIfA, .result .eUnexpected])
      | none => some ({ poll with fds := poll.fds ++ [⟨fd, toNativeFlags eventflags, 0⟩] }, [.result .sOk])
  | .remove fd =>
      match position poll.fds fd with
      | none => some (poll, unknown poll ++ [.result .eFail])
      | some pos =>
          some ({ poll with fds := (poll.fds.set pos (slot poll.fds (poll.fds.length - 1))).dropLast },
            [.result .sOk, .removed fd])
  | .changeEventSet fd eventflags =>
      match position poll.fds fd with
      | none => some (poll, unknown poll ++ [.result .eFail])
      | some pos =>
          some ({ poll with fds := poll.fds.set pos { slot poll.fds pos with events := toNativeFlags eventflags } },
            [.result .sOk])
  | .waitForNextEvent reply =>
      let result := poll.waitForNextEvent reply
      some (result.2.1, result.2.2 ++ [.result result.1])

/-- The table leads from each descriptor to the position of its slot. -/
structure Indexed (maxSockets : Nat) (entries : Entries Int Nat) (table : FastHashBase Int Nat) (fds : List PollFd) :
    Prop where
  refines : Refines fastHashHash maxSockets entries table
  nodup : (entries.map Prod.fst).Nodup
  positions : ∀ fd pos, lookup entries fd = some pos ↔ (fds[pos]?).map PollFd.fd = some fd
  count : entries.length = fds.length

section Indexed

variable {maxSockets : Nat} {entries : Entries Int Nat} {table : FastHashBase Int Nat} {fds : List PollFd} {fd : Int}
  {pos : Nat}

/-- Every position has its own descriptor. -/
theorem Indexed.unique (indexed : Indexed maxSockets entries table fds) {other : Nat}
    (first : (fds[pos]?).map PollFd.fd = some fd) (second : (fds[other]?).map PollFd.fd = some fd) : pos = other := by
  have found := (indexed.positions fd pos).mpr first
  rw [(indexed.positions fd other).mpr second] at found
  exact (Option.some.inj found).symm

/-- The table answers like a search through the slots. -/
theorem Indexed.position_eq (indexed : Indexed maxSockets entries table fds) (fd : Int) :
    position fds fd = lookup entries fd := by
  cases found : lookup entries fd with
  | none =>
      rw [position, List.findIdx?_eq_none_iff]
      intro slot member
      obtain ⟨pos, inside, rfl⟩ := List.getElem_of_mem member
      rw [decide_eq_false_iff_not]
      intro same
      have known := (indexed.positions fd pos).mpr (by simp [inside, same])
      rw [found] at known
      simp at known
  | some pos =>
      have here := (indexed.positions fd pos).mp found
      obtain ⟨slot, read, same⟩ := Option.map_eq_some_iff.mp here
      obtain ⟨inside, value⟩ := List.getElem?_eq_some_iff.mp read
      rw [position, List.findIdx?_eq_some_iff_getElem]
      refine ⟨inside, by simp [value, same], fun other before => ?_⟩
      rw [Bool.not_eq_true, decide_eq_false_iff_not]
      intro earlier
      have there : (fds[other]?).map PollFd.fd = some fd := by
        rw [List.getElem?_eq_getElem (before.trans inside)]
        exact congrArg some earlier
      have same := indexed.unique here there
      omega

theorem slot_eq (inside : pos < fds.length) : slot fds pos = fds[pos] := by
  simp [slot, inside]

/-- A found descriptor has its slot inside the vector. -/
theorem Indexed.slot_fd (indexed : Indexed maxSockets entries table fds) (found : lookup entries fd = some pos) :
    pos < fds.length ∧ (slot fds pos).fd = fd := by
  obtain ⟨slot', read, same⟩ := Option.map_eq_some_iff.mp ((indexed.positions fd pos).mp found)
  obtain ⟨inside, value⟩ := List.getElem?_eq_some_iff.mp read
  exact ⟨inside, by rw [slot_eq inside, value, same]⟩

theorem Indexed.position_of_inside (indexed : Indexed maxSockets entries table fds) (inside : pos < fds.length) :
    lookup entries (slot fds pos).fd = some pos := by
  rw [indexed.positions, List.getElem?_eq_getElem inside, slot_eq inside]
  rfl

theorem indexed_init {width : Nat} (capacity : 0 < maxSockets) (positive : 0 < width) (nodelist : Nat → Int × Nat)
    (itemnodelist : Nat → ItemNode) (lookuptable : Nat → Option Nat) (indexlist : Nat → Nat) :
    Indexed maxSockets [] (init maxSockets width nodelist itemnodelist lookuptable indexlist).hashtable [] where
  refines := refines_init _ capacity positive nodelist itemnodelist lookuptable indexlist
  nodup := List.nodup_nil
  positions := by simp
  count := rfl

/-- A new descriptor is found at the end. -/
theorem Indexed.add (indexed : Indexed maxSockets entries table fds) (room : fds.length < maxSockets)
    (fresh : lookup entries fd = none) {new : PollFd} (same : new.fd = fd) :
    Indexed maxSockets ((fd, fds.length) :: entries) (table.insert fastHashHash fd fds.length).2 (fds ++ [new]) := by
  rcases indexed.refines.insert fd fds.length with ⟨-, -, refines⟩ | ⟨full, -⟩
  · refine ⟨refines, ?_, fun other pos => ?_, by simp [indexed.count]⟩
    · rw [List.map_cons, List.nodup_cons]
      refine ⟨fun member => ?_, indexed.nodup⟩
      obtain ⟨entry, inside, known⟩ := List.mem_map.mp member
      exact lookup_eq_none_iff.mp fresh entry inside known
    · rw [lookup_cons]
      dsimp only
      by_cases before : pos < fds.length
      · rw [List.getElem?_append_left before, ← indexed.positions]
        by_cases here : fd = other
        · subst here
          rw [if_pos rfl, fresh]
          constructor
          · intro equal
            have := Option.some.inj equal
            omega
          · simp
        · rw [if_neg here]
      · rw [List.getElem?_append_right (by omega)]
        by_cases here : fd = other
        · subst here
          rw [if_pos rfl]
          constructor
          · intro equal
            obtain rfl := Option.some.inj equal
            simp [same]
          · intro read
            have last : pos - fds.length = 0 := by
              by_contra beyond
              rw [List.getElem?_eq_none (by simp; omega)] at read
              simp at read
            rw [show fds.length = pos by omega]
        · rw [if_neg here]
          constructor
          · intro known
            have inside := (indexed.slot_fd known).1
            omega
          · intro read
            exfalso
            obtain ⟨slot', value, equal⟩ := Option.map_eq_some_iff.mp read
            have member := List.mem_of_getElem? value
            rw [List.mem_singleton] at member
            exact here (by rw [← same, ← member, equal])
  · rw [indexed.count] at full
    omega

/-- The events of a slot do not matter. -/
theorem Indexed.congr (indexed : Indexed maxSockets entries table fds) {other : List PollFd}
    (same : other.map PollFd.fd = fds.map PollFd.fd) : Indexed maxSockets entries table other where
  refines := indexed.refines
  nodup := indexed.nodup
  positions := by
    intro fd pos
    rw [indexed.positions, ← List.getElem?_map, ← List.getElem?_map, same]
  count := by
    rw [indexed.count, ← List.length_map PollFd.fd, ← same, List.length_map]

theorem read_iff (other : Int) (place : Nat) :
    (fds[place]?).map PollFd.fd = some other ↔ place < fds.length ∧ (slot fds place).fd = other := by
  by_cases inside : place < fds.length
  · rw [List.getElem?_eq_getElem inside, slot_eq inside]
    simp [inside]
  · rw [List.getElem?_eq_none (by omega)]
    simp [inside]

/-- The slots after the last one has moved to a removed one. -/
theorem read_moved (inside : pos < fds.length) (other : Int) (place : Nat) :
    (((fds.set pos (slot fds (fds.length - 1))).dropLast)[place]?).map PollFd.fd = some other ↔
      place < fds.length - 1 ∧ (slot fds (if pos = place then fds.length - 1 else place)).fd = other := by
  rw [List.getElem?_dropLast, List.length_set, List.getElem?_set]
  by_cases before : place < fds.length - 1
  · rw [if_pos before]
    by_cases here : pos = place
    · rw [if_pos here, if_pos here, if_pos (by omega)]
      simp [before]
    · rw [if_neg here, if_neg here, read_iff]
      simp only [before, true_and]
      exact and_iff_right (by omega)
  · rw [if_neg before]
    simp [before]

/-- The entries after the last descriptor has moved to the place of another one. -/
def moveEntry (fds : List PollFd) (pos : Nat) (entries : Entries Int Nat) : Entries Int Nat :=
  if pos = fds.length - 1 then entries else store (slot fds (fds.length - 1)).fd pos entries

/-- A descriptor goes, and the one of the last slot is found at its place. -/
theorem Indexed.removed (indexed : Indexed maxSockets entries table fds) (found : lookup entries fd = some pos)
    {table' : FastHashBase Int Nat}
    (refines : Refines fastHashHash maxSockets (ShadowTable.remove (moveEntry fds pos entries) fd) table') :
    Indexed maxSockets (ShadowTable.remove (moveEntry fds pos entries) fd) table'
      (fds.set pos (slot fds (fds.length - 1))).dropLast := by
  have known (other : Int) (place : Nat) : lookup entries other = some place ↔
      place < fds.length ∧ (slot fds place).fd = other := (indexed.positions other place).trans (read_iff other place)
  obtain ⟨inside, here⟩ := (known fd pos).mp found
  have apart {first second : Nat} (left : first < fds.length) (right : second < fds.length)
      (same : (slot fds first).fd = (slot fds second).fd) : first = second := by
    have one := (known _ first).mpr ⟨left, rfl⟩
    have two := (known (slot fds first).fd second).mpr ⟨right, same.symm⟩
    rw [one] at two
    exact Option.some.inj two
  have moved_nodup : ((moveEntry fds pos entries).map Prod.fst).Nodup := by
    rw [moveEntry]
    split
    · exact indexed.nodup
    · rw [keys_store]
      exact indexed.nodup
  have moved_lookup (other : Int) : lookup (moveEntry fds pos entries) other =
      if pos ≠ fds.length - 1 ∧ (slot fds (fds.length - 1)).fd = other then some pos else lookup entries other := by
    rw [moveEntry]
    by_cases last : pos = fds.length - 1
    · rw [if_pos last, if_neg (fun both => both.1 last)]
    · rw [if_neg last, lookup_store ((known _ (fds.length - 1)).mpr ⟨by omega, rfl⟩)]
      simp [last]
  refine ⟨refines, nodup_remove moved_nodup, fun other place => ?_, ?_⟩
  · rw [lookup_remove moved_nodup, moved_lookup, read_moved inside]
    by_cases gone : fd = other
    · subst gone
      rw [if_pos rfl]
      refine ⟨fun absurd => by simp at absurd, fun moved => ?_⟩
      obtain ⟨before, read⟩ := moved
      rw [← here] at read
      split at read
      · have same := apart (by omega) inside read
        omega
      · have same := apart (by omega) inside read
        omega
    rw [if_neg gone]
    by_cases shifted : pos ≠ fds.length - 1 ∧ (slot fds (fds.length - 1)).fd = other
    · rw [if_pos shifted]
      constructor
      · intro equal
        obtain rfl := Option.some.inj equal
        rw [if_pos rfl]
        exact ⟨by omega, shifted.2⟩
      · rintro ⟨before, read⟩
        split at read
        · rename_i same
          rw [same]
        · rw [← shifted.2] at read
          have same := apart (by omega) (by omega) read
          omega
    · rw [if_neg shifted, known]
      constructor
      · rintro ⟨small, read⟩
        have other_place : pos ≠ place := by
          rintro rfl
          exact gone (here.symm.trans read)
        rw [if_neg other_place]
        refine ⟨?_, read⟩
        by_contra late
        have last : place = fds.length - 1 := by omega
        subst last
        exact shifted ⟨other_place, read⟩
      · rintro ⟨before, read⟩
        split at read
        · rename_i same
          exact absurd ⟨by omega, read⟩ shifted
        · exact ⟨by omega, read⟩
  · have lengths : (moveEntry fds pos entries).length = entries.length := by
      rw [moveEntry]
      split
      · rfl
      · rw [← List.length_map Prod.fst, keys_store, List.length_map]
    have present : ∃ entry ∈ moveEntry fds pos entries, ofKey fd entry = true := by
      have some_value : (lookup (moveEntry fds pos entries) fd).isSome := by
        rw [moved_lookup, found]
        split <;> rfl
      obtain ⟨entry, member, same⟩ := lookup_isSome_iff.mp some_value
      exact ⟨entry, member, ofKey_iff.mpr same⟩
    obtain ⟨entry, member, same⟩ := present
    rw [ShadowTable.remove, List.length_eraseP_of_mem member same, lengths, List.length_dropLast, List.length_set,
      indexed.count]

end Indexed

theorem findNextEvent_hashtable (plain : CPoll) (table : FastHashBase Int Nat) :
    ({ plain with hashtable := table } : CPoll).findNextEvent =
      (plain.findNextEvent.1, { plain.findNextEvent.2 with hashtable := table }) := by
  rw [findNextEvent, findNextEvent]
  dsimp only
  split
  · rfl
  · split
    · rename_i missed
      rw [missed]
    · rename_i found
      rw [found]

/-- A wait neither reads nor writes the table. -/
theorem waitForNextEvent_hashtable (plain : CPoll) (table : FastHashBase Int Nat) (reply : PollReply) :
    ({ plain with hashtable := table } : CPoll).waitForNextEvent reply =
      ((plain.waitForNextEvent reply).1, { (plain.waitForNextEvent reply).2.1 with hashtable := table },
        (plain.waitForNextEvent reply).2.2) := by
  rw [waitForNextEvent, waitForNextEvent, findNextEvent_hashtable]
  dsimp only
  split
  · rfl
  · split
    · rfl
    · cases plain.findNextEvent with
      | mk event poll =>
          cases event with
          | some event => rfl
          | none =>
              dsimp only
              cases reply with
              | failed => rfl
              | revents events =>
                  dsimp only
                  split
                  · rfl
                  · have second := findNextEvent_hashtable { poll with
                      fds := pollCall poll.fds events, unreadcount := (ready (pollCall poll.fds events)).length } table
                    dsimp only at second
                    rw [second]
                    cases findNextEvent { poll with
                      fds := pollCall poll.fds events, unreadcount := (ready (pollCall poll.fds events)).length } with
                    | mk event next => cases event <;> rfl

section Events

variable {fds : List PollFd} {poll : CPoll}

/-- The descriptors with the events that are to be delivered. -/
def pending (fds : List PollFd) : List (Int × UInt32) := (ready fds).map fun slot => (slot.fd, slot.revents)

/-- A search that starts anywhere reaches every position. -/
theorem exists_shift {size rotation pos : Nat} (start : rotation < size) (inside : pos < size) :
    ∃ index < size, (index + rotation) % size = pos := by
  by_cases wraps : rotation ≤ pos
  · exact ⟨pos - rotation, by omega, by rw [Nat.sub_add_cancel wraps, Nat.mod_eq_of_lt inside]⟩
  · refine ⟨pos + size - rotation, by omega, ?_⟩
    rw [Nat.sub_add_cancel (by omega), Nat.add_mod_right, Nat.mod_eq_of_lt inside]

/-- The search finds a slot with events when there is one, and clears it. -/
theorem findNextEvent_cases (poll : CPoll) :
    (∃ rotation, poll.findNextEvent = (none, { poll with rotation := rotation }) ∧
        (poll.unreadcount = 0 ∨ ready poll.fds = [])) ∨
      ∃ rotation pos, pos < poll.fds.length ∧ (slot poll.fds pos).revents ≠ 0 ∧ poll.unreadcount ≠ 0 ∧
        poll.findNextEvent =
          (some ((slot poll.fds pos).fd, fromNativeFlags (slot poll.fds pos).revents),
            { poll with
              fds := poll.fds.set pos (slot poll.fds pos).clear
              rotation := rotation
              unreadcount := poll.unreadcount - 1 }) := by
  by_cases none_left : poll.unreadcount = 0
  · left
    refine ⟨poll.rotation, ?_, .inl none_left⟩
    rw [findNextEvent, if_pos none_left]
  set rotation := if poll.fds.length ≤ poll.rotation then 0 else poll.rotation with turned
  cases found : (List.range poll.fds.length).find? fun index =>
      decide ((slot poll.fds ((index + rotation) % poll.fds.length)).revents ≠ 0) with
  | none =>
      left
      refine ⟨rotation, ?_, .inr ?_⟩
      · rw [findNextEvent, if_neg none_left]
        dsimp only
        rw [← turned, found]
      · rw [ready, List.filter_eq_nil_iff]
        intro slot' member
        obtain ⟨pos, inside, rfl⟩ := List.getElem_of_mem member
        have start : rotation < poll.fds.length := by
          rw [turned]
          split <;> omega
        obtain ⟨index, small, same⟩ := exists_shift start inside
        have quiet := List.find?_eq_none.mp found index (List.mem_range.mpr small)
        rw [same, slot_eq inside] at quiet
        exact quiet
  | some index =>
      right
      have small : index < poll.fds.length := List.mem_range.mp (List.mem_of_find?_eq_some found)
      have inside : (index + rotation) % poll.fds.length < poll.fds.length := Nat.mod_lt _ (by omega)
      have busy := List.find?_some found
      rw [decide_eq_true_eq] at busy
      refine ⟨rotation + 1, _, inside, busy, none_left, ?_⟩
      rw [findNextEvent, if_neg none_left]
      dsimp only
      rw [← turned, found]

/-- A cleared slot takes its events from the pending ones. -/
theorem pending_set {pos : Nat} (inside : pos < fds.length) (busy : (slot fds pos).revents ≠ 0) :
    (pending fds).Perm (((slot fds pos).fd, (slot fds pos).revents) ::
      pending (fds.set pos (slot fds pos).clear)) := by
  have split : fds = fds.take pos ++ slot fds pos :: fds.drop (pos + 1) := by
    rw [slot_eq inside, List.getElem_cons_drop, List.take_append_drop]
  have after : fds.set pos (slot fds pos).clear =
      fds.take pos ++ (slot fds pos).clear :: fds.drop (pos + 1) :=
    List.set_eq_take_append_cons_drop.trans (if_pos inside)
  have before : pending fds = pending (fds.take pos) ++ ((slot fds pos).fd, (slot fds pos).revents) ::
      pending (fds.drop (pos + 1)) := by
    conv_lhs => rw [split]
    simp [pending, ready, busy]
  have rest : pending (fds.set pos (slot fds pos).clear) =
      pending (fds.take pos) ++ pending (fds.drop (pos + 1)) := by
    rw [after]
    simp [pending, ready, PollFd.clear]
  rw [before, rest]
  exact List.perm_middle

/-- The log accounts for the events: a `poll` comes when nothing is left over, an event is delivered once, and a removed
descriptor takes its events along. -/
def Ledger : List (Int × UInt32) → List PollLog → List (Int × UInt32) → Prop
  | left, [], final => left.Perm final
  | left, .polled ready :: rest, final => left = [] ∧ Ledger ready rest final
  | left, .delivered fd eventflags :: rest, final =>
      ∃ revents others, left.Perm ((fd, revents) :: others) ∧ revents ≠ 0 ∧ eventflags = fromNativeFlags revents ∧
        Ledger others rest final
  | left, .removed fd :: rest, final => Ledger (left.filter fun event => event.1 ≠ fd) rest final
  | left, .result _ :: rest, final => Ledger left rest final
  | left, .assertion _ :: rest, final => Ledger left rest final

/-- The order of the events that are left over does not matter. -/
theorem Ledger.perm {left other final : List (Int × UInt32)} {log : List PollLog} (ledger : Ledger left log final)
    (same : left.Perm other) : Ledger other log final := by
  induction log generalizing left other with
  | nil => exact same.symm.trans ledger
  | cons entry rest ih =>
      cases entry with
      | polled ready =>
          obtain ⟨rfl, later⟩ := ledger
          exact ⟨same.symm.eq_nil, later⟩
      | delivered fd eventflags =>
          obtain ⟨revents, others, found, busy, flags, later⟩ := ledger
          exact ⟨revents, others, same.symm.trans found, busy, flags, later⟩
      | removed fd => exact ih ledger (same.filter _)
      | result hr => exact ih ledger same
      | assertion which => exact ih ledger same

theorem Ledger.append {left middle final : List (Int × UInt32)} {first second : List PollLog}
    (before : Ledger left first middle) (after : Ledger middle second final) : Ledger left (first ++ second) final := by
  induction first generalizing left with
  | nil => exact after.perm (List.Perm.symm before)
  | cons entry rest ih =>
      cases entry with
      | polled ready => exact ⟨before.1, ih before.2⟩
      | delivered fd eventflags =>
          obtain ⟨revents, others, found, busy, flags, later⟩ := before
          exact ⟨revents, others, found, busy, flags, ih later⟩
      | removed fd => exact ih before
      | result hr => exact ih before
      | assertion which => exact ih before

/-- A wait serves the pending events first. Then it reports the events of a new `poll`. -/
structure Waited (poll next : CPoll) (log : List PollLog) : Prop where
  descriptors : next.fds.map PollFd.fd = poll.fds.map PollFd.fd
  initialized : next.fInitialized = poll.fInitialized
  hashtable : next.hashtable = poll.hashtable
  ledger : Ledger (pending poll.fds) log (pending next.fds)
  counted : (ready next.fds).length ≤ next.unreadcount
  exact_count : poll.unreadcount = (ready poll.fds).length →
    next.unreadcount = (ready next.fds).length ∧ PollLog.assertion .stated ∉ log

theorem length_pending (fds : List PollFd) : (pending fds).length = (ready fds).length := List.length_map ..

theorem pending_eq_nil (empty : ready fds = []) : pending fds = [] := by rw [pending, empty, List.map_nil]

/-- A delivered event is one of the pending events. -/
theorem waited_delivered {pos rotation : Nat} (inside : pos < poll.fds.length)
    (busy : (slot poll.fds pos).revents ≠ 0) (counted : (ready poll.fds).length ≤ poll.unreadcount) :
    Waited poll
      { poll with
        fds := poll.fds.set pos (slot poll.fds pos).clear
        rotation := rotation
        unreadcount := poll.unreadcount - 1 }
      [.delivered (slot poll.fds pos).fd (fromNativeFlags (slot poll.fds pos).revents), .result .sOk] := by
  have taken := pending_set inside busy
  have fewer := taken.length_eq
  rw [length_pending, List.length_cons, length_pending] at fewer
  refine ⟨?_, rfl, rfl, ⟨_, _, taken, busy, rfl, List.Perm.refl _⟩, ?_, fun exact_count => ⟨?_, by simp⟩⟩
  · rw [List.map_set]
    have same : (slot poll.fds pos).clear.fd = getElem (poll.fds.map PollFd.fd) pos (by simpa) := by
      simp [slot_eq inside, PollFd.clear]
    rw [same, List.set_getElem_self]
  · dsimp only
    omega
  · dsimp only
    omega

theorem waited_wait (reply : PollReply) (initialized : poll.fInitialized = true)
    (counted : (ready poll.fds).length ≤ poll.unreadcount) :
    Waited poll (poll.waitForNextEvent reply).2.1
      ((poll.waitForNextEvent reply).2.2 ++ [.result (poll.waitForNextEvent reply).1]) := by
  rw [waitForNextEvent, if_neg (by simp [initialized])]
  by_cases empty : poll.fds.length = 0
  · rw [if_pos empty]
    exact ⟨rfl, rfl, rfl, List.Perm.refl _, counted, fun exact_count => ⟨exact_count, by simp⟩⟩
  rw [if_neg empty]
  rcases findNextEvent_cases poll with ⟨rotation, missed, quiet⟩ | ⟨rotation, pos, inside, busy, -, delivered⟩
  · have idle : ready poll.fds = [] := by
      rcases quiet with zero | idle
      · exact List.length_eq_zero_iff.mp (by omega)
      · exact idle
    have checked : PollLog.assertion .stated ∈ (if poll.unreadcount = 0 then [] else [PollLog.assertion .stated]) →
        poll.unreadcount ≠ (ready poll.fds).length := by
      rw [idle]
      split <;> simp_all
    have silent (log : List PollLog) (final : List (Int × UInt32)) :
        Ledger [] ((if poll.unreadcount = 0 then [] else [PollLog.assertion .stated]) ++ log) final ↔ Ledger [] log final := by
      split <;> exact Iff.rfl
    rw [missed]
    dsimp only
    cases reply with
    | failed =>
        dsimp only
        refine ⟨rfl, rfl, rfl, ?_, by simp [idle], fun exact_count => ⟨by simp [idle], fun member => ?_⟩⟩
        · rw [pending_eq_nil idle, List.append_assoc, silent]
          exact List.Perm.refl _
        · rw [List.append_assoc] at member
          rcases List.mem_append.mp member with wrong | wrong
          · exact checked wrong exact_count
          · simp at wrong
    | revents events =>
        dsimp only
        set fds := pollCall poll.fds events with polled
        have same : fds.map PollFd.fd = poll.fds.map PollFd.fd := by simp [polled, pollCall]
        by_cases nothing : (ready fds).length = 0
        · have none_ready : ready fds = [] := List.length_eq_zero_iff.mp nothing
          rw [if_pos nothing]
          refine ⟨same, rfl, rfl, ?_, by simp [none_ready], fun exact_count => ⟨by simp [none_ready], fun member => ?_⟩⟩
          · rw [pending_eq_nil idle, List.append_assoc, silent]
            dsimp only
            rw [pending_eq_nil none_ready, none_ready]
            exact ⟨rfl, List.Perm.refl _⟩
          · rw [List.append_assoc] at member
            rcases List.mem_append.mp member with wrong | wrong
            · exact checked wrong exact_count
            · simp at wrong
        · rw [if_neg nothing]
          rcases findNextEvent_cases
            { poll with fds, rotation := rotation, unreadcount := (ready fds).length } with
            ⟨_, -, zero | none_ready⟩ | ⟨rotation', pos, inside, busy, -, second⟩
          · exact absurd zero nothing
          · exact absurd (congrArg List.length none_ready) nothing
          · rw [second]
            dsimp only
            have served := @waited_delivered
              { poll with fds, rotation := rotation, unreadcount := (ready fds).length } pos rotation' inside busy
              le_rfl
            obtain ⟨known, counted'⟩ := served.exact_count rfl
            refine ⟨served.descriptors.trans same, served.initialized, served.hashtable, ?_, served.counted,
              fun exact_count => ⟨known, fun member => ?_⟩⟩
            · rw [pending_eq_nil idle, List.append_assoc, List.append_assoc, silent]
              exact ⟨rfl, served.ledger⟩
            · rw [List.append_assoc, List.append_assoc] at member
              rcases List.mem_append.mp member with wrong | wrong
              · exact checked wrong exact_count
              · rcases List.mem_append.mp wrong with wrong | wrong
                · simp at wrong
                · exact counted' wrong
  · rw [delivered]
    exact waited_delivered inside busy counted

/-- The rest of the slots after the last one has moved to a removed one. -/
theorem perm_removed {pos : Nat} (inside : pos < fds.length) :
    fds.Perm (slot fds pos :: (fds.set pos (slot fds (fds.length - 1))).dropLast) := by
  have split : fds = fds.take pos ++ slot fds pos :: fds.drop (pos + 1) := by
    rw [slot_eq inside, List.getElem_cons_drop, List.take_append_drop]
  have after : fds.set pos (slot fds (fds.length - 1)) =
      fds.take pos ++ slot fds (fds.length - 1) :: fds.drop (pos + 1) :=
    List.set_eq_take_append_cons_drop.trans (if_pos inside)
  by_cases last : fds.drop (pos + 1) = []
  · rw [after, last, List.dropLast_concat]
    conv_lhs => rw [split, last]
    exact List.perm_append_comm
  · have tail : fds.drop (pos + 1) = (fds.drop (pos + 1)).dropLast ++ [slot fds (fds.length - 1)] := by
      conv_lhs => rw [← List.dropLast_append_getLast last]
      rw [List.getLast_drop last, slot_eq (by omega), List.getLast_eq_getElem]
    rw [after, List.dropLast_append_of_ne_nil (List.cons_ne_nil _ _), List.dropLast_cons_of_ne_nil last]
    conv_lhs => rw [split, tail]
    refine List.perm_middle.trans (List.Perm.cons _ (List.Perm.append_left _ ?_))
    exact List.perm_append_comm

theorem pending_eq (fds : List PollFd) :
    pending fds = (fds.map fun slot => (slot.fd, slot.revents)).filter fun event => event.2 ≠ 0 := by
  rw [List.filter_map]
  rfl

theorem pending_perm {other : List PollFd} (same : fds.Perm other) : (pending fds).Perm (pending other) :=
  (same.filter _).map _

/-- A removed descriptor takes its events along. -/
theorem pending_removed {fd : Int} {pos : Nat} (nodup : (fds.map PollFd.fd).Nodup) (inside : pos < fds.length)
    (here : (slot fds pos).fd = fd) :
    ((pending fds).filter fun event => event.1 ≠ fd).Perm
      (pending (fds.set pos (slot fds (fds.length - 1))).dropLast) := by
  have moved := perm_removed inside
  have apart := (moved.map PollFd.fd).nodup_iff.mp nodup
  rw [List.map_cons, List.nodup_cons, here] at apart
  have others : ∀ event ∈ pending (fds.set pos (slot fds (fds.length - 1))).dropLast, event.1 ≠ fd := by
    intro event member same
    obtain ⟨slot', busy, rfl⟩ := List.mem_map.mp member
    exact apart.1 (List.mem_map.mpr ⟨slot', List.mem_of_mem_filter busy, same⟩)
  have taken := (pending_perm moved).filter fun event => event.1 ≠ fd
  have front : (pending (slot fds pos :: (fds.set pos (slot fds (fds.length - 1))).dropLast)).filter
      (fun event => event.1 ≠ fd) =
        (pending (fds.set pos (slot fds (fds.length - 1))).dropLast).filter fun event => event.1 ≠ fd := by
    rw [pending_eq, pending_eq, List.map_cons, List.filter_cons]
    split
    · rw [List.filter_cons_of_neg (by simp [here])]
    · rfl
  have kept : (pending (fds.set pos (slot fds (fds.length - 1))).dropLast).filter (fun event => event.1 ≠ fd) =
      pending (fds.set pos (slot fds (fds.length - 1))).dropLast :=
    List.filter_eq_self.mpr fun event member => by simpa using others event member
  rw [front, kept] at taken
  exact taken

theorem pending_changed {pos : Nat} (inside : pos < fds.length) (events : UInt32) :
    pending (fds.set pos { slot fds pos with events := events }) = pending fds := by
  have same : ((slot fds pos).fd, (slot fds pos).revents) =
      getElem (fds.map fun slot => (slot.fd, slot.revents)) pos (by simpa) := by
    rw [List.getElem_map, slot_eq inside]
  rw [pending_eq, List.map_set]
  dsimp only
  rw [same, List.set_getElem_self, ← pending_eq]

/-- The descriptors are apart, and the counter covers the slots with events. -/
structure Sound (poll : CPoll) : Prop where
  initialized : poll.fInitialized = true
  nodup : (poll.fds.map PollFd.fd).Nodup
  counted : (ready poll.fds).length ≤ poll.unreadcount

/-- A removed descriptor has no pending events. -/
def Quiet (poll : CPoll) : PollCall → Prop
  | .remove fd => ∀ revents, (fd, revents) ∉ pending poll.fds
  | _ => True

instance (poll : CPoll) : (call : PollCall) → Decidable (Quiet poll call)
  | .add _ _ => isTrue trivial
  | .remove fd => decidable_of_iff (fd ∉ (pending poll.fds).map Prod.fst) (by simp [Quiet])
  | .changeEventSet _ _ => isTrue trivial
  | .waitForNextEvent _ => isTrue trivial

/-- No check refuses the call: an added descriptor is new, a removed or changed one is known unless there is no slot at
all, and `poll` does not fail. -/
def Accepted (poll : CPoll) : PollCall → Prop
  | .add fd _ => position poll.fds fd = none
  | .remove fd => poll.fds.length = 0 ∨ position poll.fds fd ≠ none
  | .changeEventSet fd _ => poll.fds.length = 0 ∨ position poll.fds fd ≠ none
  | .waitForNextEvent .failed => False
  | .waitForNextEvent (.revents _) => True

instance (poll : CPoll) : (call : PollCall) → Decidable (Accepted poll call)
  | .add fd _ => inferInstanceAs (Decidable (position poll.fds fd = none))
  | .remove fd => inferInstanceAs (Decidable (poll.fds.length = 0 ∨ position poll.fds fd ≠ none))
  | .changeEventSet fd _ => inferInstanceAs (Decidable (poll.fds.length = 0 ∨ position poll.fds fd ≠ none))
  | .waitForNextEvent .failed => isFalse id
  | .waitForNextEvent (.revents _) => isTrue trivial

theorem position_some {fd : Int} {pos : Nat} (found : position fds fd = some pos) :
    pos < fds.length ∧ (slot fds pos).fd = fd := by
  obtain ⟨inside, same, -⟩ := List.findIdx?_eq_some_iff_getElem.mp found
  exact ⟨inside, by rw [slot_eq inside]; simpa using same⟩

theorem position_none {fd : Int} (missing : position fds fd = none) : fd ∉ fds.map PollFd.fd := by
  intro member
  obtain ⟨slot', inside, same⟩ := List.mem_map.mp member
  have other := List.findIdx?_eq_none_iff.mp missing slot' inside
  simp [same] at other

/-- A call keeps the instance sound and its events on the ledger. -/
theorem plainStep_ledger {next : CPoll} {call : PollCall} {log : List PollLog} (sound : Sound poll)
    (stepped : plainStep poll call = some (next, log)) :
    Sound next ∧ Ledger (pending poll.fds) log (pending next.fds) ∧
      (poll.unreadcount = (ready poll.fds).length → Quiet poll call →
        next.unreadcount = (ready next.fds).length ∧ PollLog.assertion .stated ∉ log) := by
  have asserted (hr : HRESULT) : Sound poll ∧
      Ledger (pending poll.fds) [.assertion .chkIfA, .result hr] (pending poll.fds) ∧
      (poll.unreadcount = (ready poll.fds).length → Quiet poll call →
        poll.unreadcount = (ready poll.fds).length ∧
          PollLog.assertion .stated ∉ [.assertion .chkIfA, .result hr]) :=
    ⟨sound, List.Perm.refl _, fun exact_count _ => ⟨exact_count, by simp⟩⟩
  have refused (hr : HRESULT) : Sound poll ∧ Ledger (pending poll.fds) (unknown poll ++ [.result hr]) (pending poll.fds) ∧
      (poll.unreadcount = (ready poll.fds).length → Quiet poll call →
        poll.unreadcount = (ready poll.fds).length ∧
          PollLog.assertion .stated ∉ unknown poll ++ [.result hr]) := by
    rw [unknown]
    split
    · exact ⟨sound, List.Perm.refl _, fun exact_count _ => ⟨exact_count, by simp⟩⟩
    · exact asserted hr
  cases call with
  | add fd eventflags =>
      rw [plainStep] at stepped
      cases found : position poll.fds fd with
      | some pos =>
          rw [found] at stepped
          obtain ⟨rfl, rfl⟩ := Prod.mk.inj (Option.some.inj stepped)
          exact asserted _
      | none =>
          rw [found] at stepped
          obtain ⟨rfl, rfl⟩ := Prod.mk.inj (Option.some.inj stepped)
          have same : ready (poll.fds ++ [⟨fd, toNativeFlags eventflags, 0⟩]) = ready poll.fds := by simp [ready]
          refine ⟨⟨sound.initialized, ?_, ?_⟩, ?_, fun exact_count _ => ⟨?_, by simp⟩⟩
          · rw [List.map_append, List.nodup_append]
            refine ⟨sound.nodup, List.nodup_singleton _, fun first member last new => ?_⟩
            rw [List.map_singleton, List.mem_singleton] at new
            rw [new]
            intro equal
            rw [equal] at member
            exact position_none found member
          · dsimp only
            rw [same]
            exact sound.counted
          · dsimp only
            rw [pending, pending, same]
            exact List.Perm.refl _
          · dsimp only
            rw [same]
            exact exact_count
  | remove fd =>
      rw [plainStep] at stepped
      cases found : position poll.fds fd with
      | none =>
          rw [found] at stepped
          obtain ⟨rfl, rfl⟩ := Prod.mk.inj (Option.some.inj stepped)
          exact refused _
      | some pos =>
          rw [found] at stepped
          obtain ⟨rfl, rfl⟩ := Prod.mk.inj (Option.some.inj stepped)
          obtain ⟨inside, here⟩ := position_some found
          have moved := perm_removed inside
          have taken := pending_removed sound.nodup inside here
          have fewer := taken.length_eq
          rw [length_pending] at fewer
          have part := List.length_filter_le (fun event => decide (event.1 ≠ fd)) (pending poll.fds)
          rw [length_pending] at part
          have counted := sound.counted
          refine ⟨⟨sound.initialized, ?_, by dsimp only; omega⟩, taken, fun exact_count quiet => ⟨?_, by simp⟩⟩
          · exact (List.nodup_cons.mp ((moved.map PollFd.fd).nodup_iff.mp sound.nodup)).2
          · have all : (pending poll.fds).filter (fun event => event.1 ≠ fd) = pending poll.fds := by
              refine List.filter_eq_self.mpr fun event member => ?_
              rw [decide_eq_true_eq]
              rintro rfl
              exact quiet event.2 member
            rw [all, length_pending] at fewer
            dsimp only
            omega
  | changeEventSet fd eventflags =>
      rw [plainStep] at stepped
      cases found : position poll.fds fd with
      | none =>
          rw [found] at stepped
          obtain ⟨rfl, rfl⟩ := Prod.mk.inj (Option.some.inj stepped)
          exact refused _
      | some pos =>
          rw [found] at stepped
          obtain ⟨rfl, rfl⟩ := Prod.mk.inj (Option.some.inj stepped)
          obtain ⟨inside, -⟩ := position_some found
          have same := pending_changed inside (toNativeFlags eventflags)
          have lengths := congrArg List.length same
          rw [length_pending, length_pending] at lengths
          refine ⟨⟨sound.initialized, ?_, ?_⟩, ?_, fun exact_count _ => ⟨?_, by simp⟩⟩
          · have names : (slot poll.fds pos).fd = getElem (poll.fds.map PollFd.fd) pos (by simpa) := by
              rw [List.getElem_map, slot_eq inside]
            dsimp only
            rw [List.map_set]
            dsimp only
            rw [names, List.set_getElem_self]
            exact sound.nodup
          · exact lengths.le.trans sound.counted
          · exact List.Perm.of_eq same.symm
          · exact exact_count.trans lengths.symm
  | waitForNextEvent reply =>
      rw [plainStep] at stepped
      obtain ⟨rfl, rfl⟩ := Prod.mk.inj (Option.some.inj stepped)
      have waited := waited_wait reply sound.initialized sound.counted
      refine ⟨⟨waited.initialized.trans sound.initialized, ?_, waited.counted⟩, waited.ledger,
        fun exact_count _ => waited.exact_count exact_count⟩
      rw [waited.descriptors]
      exact sound.nodup

/-- A wait fires the assertion of a check only when `poll` fails. -/
theorem waitForNextEvent_accepted (initialized : poll.fInitialized = true) (events : Int → UInt32) :
    PollLog.assertion .chkIfA ∉ (poll.waitForNextEvent (.revents events)).2.2 := by
  rw [waitForNextEvent, if_neg (by simp [initialized])]
  by_cases empty : poll.fds.length = 0
  · rw [if_pos empty]
    exact List.not_mem_nil
  · rw [if_neg empty]
    split
    · simp
    · dsimp only
      split
      · simp
      · split <;> simp

theorem unknown_accepted {position : Option Nat} (known : poll.fds.length = 0 ∨ position ≠ none)
    (missing : position = none) : unknown poll = [] := by
  rw [unknown, if_pos (known.resolve_right fun some => some missing)]

/-- An accepted call fires no assertion of a check. -/
theorem plainStep_accepted {next : CPoll} {call : PollCall} {log : List PollLog} (initialized : poll.fInitialized = true)
    (accepted : Accepted poll call) (stepped : plainStep poll call = some (next, log)) :
    PollLog.assertion .chkIfA ∉ log := by
  cases call with
  | add fd eventflags =>
      rw [plainStep, show position poll.fds fd = none from accepted] at stepped
      obtain ⟨rfl, rfl⟩ := Prod.mk.inj (Option.some.inj stepped)
      simp
  | remove fd =>
      rw [plainStep] at stepped
      cases found : position poll.fds fd with
      | none =>
          rw [found, unknown_accepted accepted found] at stepped
          obtain ⟨rfl, rfl⟩ := Prod.mk.inj (Option.some.inj stepped)
          simp
      | some pos =>
          rw [found] at stepped
          obtain ⟨rfl, rfl⟩ := Prod.mk.inj (Option.some.inj stepped)
          simp
  | changeEventSet fd eventflags =>
      rw [plainStep] at stepped
      cases found : position poll.fds fd with
      | none =>
          rw [found, unknown_accepted accepted found] at stepped
          obtain ⟨rfl, rfl⟩ := Prod.mk.inj (Option.some.inj stepped)
          simp
      | some pos =>
          rw [found] at stepped
          obtain ⟨rfl, rfl⟩ := Prod.mk.inj (Option.some.inj stepped)
          simp
  | waitForNextEvent reply =>
      cases reply with
      | failed => exact accepted.elim
      | revents events =>
          obtain ⟨rfl, rfl⟩ := Prod.mk.inj (Option.some.inj stepped)
          have silent := waitForNextEvent_accepted initialized events
          simpa using silent

theorem run_accepted {plain final : CPoll} {calls : List PollCall} {log : List PollLog} (sound : Sound plain)
    (every : LoggedRun.EveryStep plainStep Accepted plain calls)
    (reached : LoggedRun.run plainStep plain calls = some (final, log)) : PollLog.assertion .chkIfA ∉ log := by
  have silent := LoggedRun.run_invariant_of_everyStep
    (fun state past => Sound state ∧ PollLog.assertion .chkIfA ∉ past) ?_ ⟨sound, List.not_mem_nil⟩ every reached
  · simpa using silent.2
  · intro state past call next new before accepted stepped
    refine ⟨(plainStep_ledger before.1 stepped).1, fun member => ?_⟩
    rcases List.mem_append.mp member with member | member
    · exact before.2 member
    · exact plainStep_accepted before.1.initialized accepted stepped member

end Events

section Hashed

variable {maxSockets : Nat} {entries : Entries Int Nat} {table : FastHashBase Int Nat} {plain : CPoll}

/-- The instance with the table gives what the plain one gives. -/
def Hashed (maxSockets : Nat) (plain poll : CPoll) : Prop :=
  Sound plain ∧ ∃ table entries, poll = { plain with hashtable := table } ∧
    Indexed maxSockets entries table plain.fds

/-- A new descriptor finds room. -/
def Room (maxSockets : Nat) (poll : CPoll) : PollCall → Prop
  | .add fd _ => position poll.fds fd = none → poll.fds.length < maxSockets
  | _ => True

instance (maxSockets : Nat) (poll : CPoll) : (call : PollCall) → Decidable (Room maxSockets poll call)
  | .add fd _ => inferInstanceAs (Decidable (position poll.fds fd = none → poll.fds.length < maxSockets))
  | .remove _ => isTrue trivial
  | .changeEventSet _ _ => isTrue trivial
  | .waitForNextEvent _ => isTrue trivial

/-- The table finds the slot that a search finds. -/
theorem Indexed.lookup_eq {fds : List PollFd} (indexed : Indexed maxSockets entries table fds) (fd : Int) :
    ∃ found, table.lookup fastHashHash fd = some found ∧ found.map table.load = position fds fd := by
  rw [indexed.position_eq]
  exact indexed.refines.lookup fd

theorem Indexed.position_inside {fds : List PollFd} {fd : Int} {pos : Nat}
    (indexed : Indexed maxSockets entries table fds) (found : position fds fd = some pos) :
    pos < fds.length ∧ (slot fds pos).fd = fd := by
  rw [indexed.position_eq] at found
  exact indexed.slot_fd found

theorem Indexed.assertSize_eq (indexed : Indexed maxSockets entries table plain.fds) :
    assertSize { plain with hashtable := table } = [] := by
  rw [assertSize, if_neg]
  exact fun apart => apart (indexed.refines.length_eq.trans indexed.count)

/-- The last slot moves, and the table leads to its new place. -/
theorem Indexed.moveLast_eq (indexed : Indexed maxSockets entries table plain.fds) {pos : Nat}
    (inside : pos < plain.fds.length) :
    ∃ table', moveLast { plain with hashtable := table } pos =
        some { plain with
          fds := plain.fds.set pos (slot plain.fds (plain.fds.length - 1))
          hashtable := table' } ∧
      Refines fastHashHash maxSockets (moveEntry plain.fds pos entries) table' := by
  by_cases last : pos = plain.fds.length - 1
  · refine ⟨table, ?_, by rw [moveEntry, if_pos last]; exact indexed.refines⟩
    rw [moveLast, if_pos last, ← last, slot_eq inside, List.set_getElem_self]
  · have known := indexed.position_of_inside (show plain.fds.length - 1 < plain.fds.length by omega)
    have moved : slot (plain.fds.set pos (slot plain.fds (plain.fds.length - 1))) pos =
        slot plain.fds (plain.fds.length - 1) := by
      rw [slot_eq (by simpa using inside), List.getElem_set_self]
    rcases indexed.refines.store (slot plain.fds (plain.fds.length - 1)).fd pos with
      ⟨missing, -, -⟩ | ⟨pValue, -, found, refines⟩
    · rw [known] at missing
      simp at missing
    · refine ⟨table.store pValue pos, ?_, by rw [moveEntry, if_neg last]; exact refines⟩
      rw [moveLast, if_neg last]
      dsimp only
      rw [moved, found]
      rfl

/-- Each call gives what a search through the slots gives. -/
theorem step_hashed {poll : CPoll} {call : PollCall} (hashed : Hashed maxSockets plain poll)
    (room : Room maxSockets poll call) :
    ∃ next log plain', poll.step call = some (next, log) ∧ plainStep plain call = some (plain', log) ∧
      Hashed maxSockets plain' next := by
  obtain ⟨sound, table, entries, rfl, indexed⟩ := hashed
  have initialized := sound.initialized
  have ready : ¬({ plain with hashtable := table } : CPoll).fInitialized = false := by simp [initialized]
  suffices matched : ∃ next log plain', step { plain with hashtable := table } call = some (next, log) ∧
      plainStep plain call = some (plain', log) ∧
        ∃ table entries, next = { plain' with hashtable := table } ∧ Indexed maxSockets entries table plain'.fds by
    obtain ⟨next, log, plain', stepped, plainly, kept⟩ := matched
    exact ⟨next, log, plain', stepped, plainly, (plainStep_ledger sound plainly).1, kept⟩
  cases call with
  | add fd eventflags =>
      obtain ⟨found, looked, same⟩ := indexed.lookup_eq fd
      rw [step, CPoll.add, if_neg ready, plainStep, ← same]
      dsimp only
      rw [looked]
      cases found with
      | some pPos => exact ⟨_, _, _, rfl, rfl, table, entries, rfl, indexed⟩
      | none =>
          rw [Option.map_none] at same
          have fresh : lookup entries fd = none := by rw [← indexed.position_eq, ← same]
          have listed := @Indexed.add maxSockets entries table plain.fds fd indexed (room same.symm) fresh
            ⟨fd, toNativeFlags eventflags, 0⟩ rfl
          exact ⟨_, _, _, rfl, rfl, _, _, rfl, listed⟩
  | remove fd =>
      obtain ⟨found, looked, same⟩ := indexed.lookup_eq fd
      rw [step, CPoll.remove, if_neg ready, plainStep, ← same, indexed.assertSize_eq]
      dsimp only
      by_cases empty : plain.fds.length = 0
      · rw [if_pos empty]
        have missing : found.map table.load = none := by
          rw [same, position, List.length_eq_zero_iff.mp empty]
          rfl
        rw [missing]
        dsimp only
        rw [unknown, if_pos empty]
        exact ⟨_, _, _, rfl, rfl, table, entries, rfl, indexed⟩
      rw [if_neg empty, looked]
      cases found with
      | none =>
          rw [Option.map_none]
          dsimp only
          rw [unknown, if_neg empty]
          exact ⟨_, _, _, rfl, rfl, table, entries, rfl, indexed⟩
      | some pPos =>
          obtain ⟨inside, here⟩ := indexed.position_inside same.symm
          obtain ⟨table', moved, refines⟩ := indexed.moveLast_eq inside
          obtain ⟨table'', removed, refines'⟩ := refines.remove fd
          have listed := indexed.removed (by rw [← indexed.position_eq]; exact same.symm) refines'
          rw [Option.bind_some]
          dsimp only
          rw [if_neg (by omega), if_neg (by simp [here]), moved, Option.bind_some]
          dsimp only
          rw [removed]
          exact ⟨_, _, _, rfl, rfl, table'', _, rfl, listed⟩
  | changeEventSet fd eventflags =>
      obtain ⟨found, looked, same⟩ := indexed.lookup_eq fd
      rw [step, CPoll.changeEventSet, if_neg ready, plainStep, ← same, indexed.assertSize_eq]
      dsimp only
      by_cases empty : plain.fds.length = 0
      · rw [if_pos empty]
        have missing : found.map table.load = none := by
          rw [same, position, List.length_eq_zero_iff.mp empty]
          rfl
        rw [missing]
        dsimp only
        rw [unknown, if_pos empty]
        exact ⟨_, _, _, rfl, rfl, table, entries, rfl, indexed⟩
      rw [if_neg empty, looked]
      cases found with
      | none =>
          rw [Option.map_none]
          dsimp only
          rw [unknown, if_neg empty]
          exact ⟨_, _, _, rfl, rfl, table, entries, rfl, indexed⟩
      | some pPos =>
          obtain ⟨inside, here⟩ := indexed.position_inside same.symm
          rw [Option.map_some, Option.map_some, Option.map_some]
          dsimp only
          rw [if_neg (by omega), if_neg (by simp [here])]
          refine ⟨_, _, _, rfl, rfl, table, entries, rfl, indexed.congr ?_⟩
          have names : (slot plain.fds (table.load pPos)).fd =
              getElem (plain.fds.map PollFd.fd) (table.load pPos) (by simpa) := by
            rw [List.getElem_map, slot_eq inside]
          dsimp only
          rw [List.map_set]
          dsimp only
          rw [names, List.set_getElem_self]
  | waitForNextEvent reply =>
      rw [step, plainStep, waitForNextEvent_hashtable]
      have waited := waited_wait reply initialized sound.counted
      exact ⟨_, _, _, rfl, rfl, table, entries, rfl, indexed.congr waited.descriptors⟩

theorem hashed_init {width : Nat} (capacity : 0 < maxSockets) (positive : 0 < width) (nodelist : Nat → Int × Nat)
    (itemnodelist : Nat → ItemNode) (lookuptable : Nat → Option Nat) (indexlist : Nat → Nat) :
    Hashed maxSockets (init maxSockets width nodelist itemnodelist lookuptable indexlist)
      (init maxSockets width nodelist itemnodelist lookuptable indexlist) :=
  ⟨⟨rfl, List.nodup_nil, le_rfl⟩, _, [], rfl,
    indexed_init capacity positive nodelist itemnodelist lookuptable indexlist⟩

/-- An instance with the table takes every call. -/
theorem room_here {poll : CPoll} {call : PollCall} {rest : List PollCall} (hashed : Hashed maxSockets plain poll)
    (room : LoggedRun.EveryStep step (Room maxSockets) poll (call :: rest)) : Room maxSockets poll call := by
  cases call with
  | add fd eventflags =>
      obtain ⟨sound, table, entries, rfl, indexed⟩ := hashed
      obtain ⟨found, looked, -⟩ := indexed.lookup_eq fd
      obtain ⟨next, new, taken⟩ : ∃ next new,
          step { plain with hashtable := table } (.add fd eventflags) = some (next, new) := by
        rw [step, CPoll.add, if_neg (by simp [sound.initialized]), looked]
        exact ⟨_, _, rfl⟩
      exact (room next new taken).1
  | _ => trivial

/-- The induction is on the calls. -/
theorem run_hashed {poll : CPoll} {calls : List PollCall} (hashed : Hashed maxSockets plain poll)
    (room : LoggedRun.EveryStep step (Room maxSockets) poll calls) :
    ∃ final log plain', LoggedRun.run step poll calls = some (final, log) ∧
      LoggedRun.run plainStep plain calls = some (plain', log) ∧ Hashed maxSockets plain' final := by
  induction calls generalizing plain poll with
  | nil => exact ⟨poll, [], plain, rfl, rfl, hashed⟩
  | cons call rest ih =>
      obtain ⟨next, new, plain', stepped, plainly, kept⟩ := step_hashed hashed (room_here hashed room)
      obtain ⟨final, later, last, reached, matched, done⟩ := ih kept (room next new stepped).2
      exact ⟨final, new ++ later, last, LoggedRun.run_cons.mpr ⟨next, new, later, stepped, reached, rfl⟩,
        LoggedRun.run_cons.mpr ⟨plain', new, later, plainly, matched, rfl⟩, done⟩

/-- In every run of calls the hash table leads to the slot that a search finds: the results, the delivered events and
the slots are those of an instance without the table, and no pointer that is written through is `NULL`. -/
theorem poll_searches {width : Nat} (capacity : 0 < maxSockets) (positive : 0 < width) (nodelist : Nat → Int × Nat)
    (itemnodelist : Nat → ItemNode) (lookuptable : Nat → Option Nat) (indexlist : Nat → Nat) {calls : List PollCall}
    (room : LoggedRun.EveryStep step (Room maxSockets)
      (init maxSockets width nodelist itemnodelist lookuptable indexlist) calls) :
    ∃ poll plain log,
      LoggedRun.run step (init maxSockets width nodelist itemnodelist lookuptable indexlist) calls = some (poll, log) ∧
        LoggedRun.run plainStep (init maxSockets width nodelist itemnodelist lookuptable indexlist) calls =
          some (plain, log) ∧
        poll = { plain with hashtable := poll.hashtable } := by
  obtain ⟨poll, log, plain, reached, matched, -, table, entries, rfl, -⟩ :=
    run_hashed (hashed_init capacity positive nodelist itemnodelist lookuptable indexlist) room
  exact ⟨_, plain, log, reached, matched, rfl⟩

/-- An instance for three descriptors whose hashes share two lists. -/
def sampleInstance : CPoll := init 3 2 (fun _ => (0, 0)) (fun _ => ⟨0, none⟩) (fun _ => none) fun _ => 0

/-- The last slot moves to the first one when that is removed. Then it is changed, served and removed. -/
def sampleCalls : List PollCall :=
  [.add 7 1, .add 8 1, .add 9 1, .remove 7, .changeEventSet 9 3,
    .waitForNextEvent (.revents fun fd => if fd = 9 then 5 else 0), .remove 9]

/-- The calls that follow are refused. -/
def refusedCalls : List PollCall := [.add 8 1, .remove 9, .waitForNextEvent .failed]

theorem poll_searches_three :
    0 < 3 ∧ 0 < 2 ∧ LoggedRun.EveryStep step (Room 3) sampleInstance (sampleCalls ++ refusedCalls) ∧
      ∃ poll plain log,
        LoggedRun.run step sampleInstance (sampleCalls ++ refusedCalls) = some (poll, log) ∧
          LoggedRun.run plainStep sampleInstance (sampleCalls ++ refusedCalls) = some (plain, log) ∧
          poll = { plain with hashtable := poll.hashtable } := by
  have room : LoggedRun.EveryStep step (Room 3) sampleInstance (sampleCalls ++ refusedCalls) := by decide +kernel
  exact ⟨by decide, by decide, room, poll_searches (by decide) (by decide) _ _ _ _ room⟩

theorem run_ledger {next : CPoll} {calls : List PollCall} {log : List PollLog} (sound : Sound plain)
    (reached : LoggedRun.run plainStep plain calls = some (next, log)) :
    Ledger (pending plain.fds) log (pending next.fds) ∧
      (plain.unreadcount = (ready plain.fds).length → LoggedRun.EveryStep plainStep Quiet plain calls →
        PollLog.assertion .stated ∉ log) := by
  induction calls generalizing plain log with
  | nil =>
      obtain ⟨rfl, rfl⟩ := Prod.mk.inj (Option.some.inj reached)
      exact ⟨List.Perm.refl _, fun _ _ => List.not_mem_nil⟩
  | cons call rest ih =>
      obtain ⟨middle, first, last, stepped, continued, rfl⟩ := LoggedRun.run_cons.mp reached
      obtain ⟨kept, ledger, exact_step⟩ := plainStep_ledger sound stepped
      obtain ⟨later, silent⟩ := ih kept continued
      refine ⟨ledger.append later, fun exact_count quiet member => ?_⟩
      obtain ⟨here, rest_quiet⟩ := quiet middle first stepped
      obtain ⟨count, none_here⟩ := exact_step exact_count here
      rcases List.mem_append.mp member with wrong | wrong
      · exact none_here wrong
      · exact silent count rest_quiet wrong

/-- The plain instance meets the same condition, when the condition does not depend on the table. -/
theorem every_plain {C : CPoll → PollCall → Prop}
    (same : ∀ plain table call, C { plain with hashtable := table } call → C plain call) {poll : CPoll}
    {calls : List PollCall} (hashed : Hashed maxSockets plain poll)
    (room : LoggedRun.EveryStep step (Room maxSockets) poll calls) (every : LoggedRun.EveryStep step C poll calls) :
    LoggedRun.EveryStep plainStep C plain calls := by
  induction calls generalizing plain poll with
  | nil => trivial
  | cons call rest ih =>
      intro middle new plainly
      obtain ⟨next, log, plain', stepped, matched, kept⟩ := step_hashed hashed (room_here hashed room)
      obtain ⟨rfl, rfl⟩ := Prod.mk.inj (Option.some.inj (matched.symm.trans plainly))
      obtain ⟨here, later⟩ := every next log stepped
      refine ⟨?_, ih kept (room next log stepped).2 later⟩
      obtain ⟨-, table, entries, rfl, -⟩ := hashed
      exact same plain table call here

theorem quiet_table (plain : CPoll) (table : FastHashBase Int Nat) (call : PollCall)
    (quiet : Quiet { plain with hashtable := table } call) : Quiet plain call := by
  cases call <;> exact quiet

theorem accepted_table (plain : CPoll) (table : FastHashBase Int Nat) (call : PollCall)
    (accepted : Accepted { plain with hashtable := table } call) : Accepted plain call := by
  cases call with
  | waitForNextEvent reply => cases reply <;> exact accepted
  | _ => exact accepted

/-- In every run of calls each event of a `poll` is delivered once, before the next `poll`, unless its descriptor is
removed first. The stated assertions hold when no descriptor with a pending event is removed, and the assertions of the
checks when no call is refused. -/
theorem poll_delivers {width : Nat} (capacity : 0 < maxSockets) (positive : 0 < width) (nodelist : Nat → Int × Nat)
    (itemnodelist : Nat → ItemNode) (lookuptable : Nat → Option Nat) (indexlist : Nat → Nat) {calls : List PollCall}
    (room : LoggedRun.EveryStep step (Room maxSockets)
      (init maxSockets width nodelist itemnodelist lookuptable indexlist) calls) :
    ∃ poll log,
      LoggedRun.run step (init maxSockets width nodelist itemnodelist lookuptable indexlist) calls = some (poll, log) ∧
        Ledger [] log (pending poll.fds) ∧
        (LoggedRun.EveryStep step Quiet (init maxSockets width nodelist itemnodelist lookuptable indexlist) calls →
          PollLog.assertion .stated ∉ log) ∧
        (LoggedRun.EveryStep step Accepted (init maxSockets width nodelist itemnodelist lookuptable indexlist) calls →
          PollLog.assertion .chkIfA ∉ log) := by
  have start := hashed_init capacity positive nodelist itemnodelist lookuptable indexlist
  obtain ⟨poll, log, plain, reached, matched, -, table, entries, rfl, -⟩ := run_hashed start room
  obtain ⟨ledger, silent⟩ := run_ledger start.1 matched
  exact ⟨_, log, reached, ledger, fun quiet => silent rfl (every_plain quiet_table start room quiet),
    fun accepted => run_accepted start.1 (every_plain accepted_table start room accepted) matched⟩

theorem poll_delivers_three :
    0 < 3 ∧ 0 < 2 ∧ LoggedRun.EveryStep step (Room 3) sampleInstance sampleCalls ∧
      ∃ poll log, LoggedRun.run step sampleInstance sampleCalls = some (poll, log) ∧ Ledger [] log (pending poll.fds) ∧
        PollLog.assertion .stated ∉ log ∧ PollLog.assertion .chkIfA ∉ log := by
  have room : LoggedRun.EveryStep step (Room 3) sampleInstance sampleCalls := by decide +kernel
  obtain ⟨poll, log, reached, ledger, quiet, accepted⟩ :=
    poll_delivers (show 0 < 3 by decide) (show 0 < 2 by decide) _ _ _ _ room
  exact ⟨by decide, by decide, room, poll, log, reached, ledger, quiet (by decide +kernel), accepted (by decide +kernel)⟩

/-- A second registration of a descriptor is refused by an assertion. -/
example : (LoggedRun.run step sampleInstance [.add 7 1, .add 7 1]).map Prod.snd =
    some [.result .sOk, .assertion .chkIfA, .result .eUnexpected] := by decide +kernel

end Hashed

end CPoll

end Nose
