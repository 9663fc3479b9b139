import Nose.Proof.HashTableRuns
import Nose.Source.RateLimiter

/-
This file shows what the rate limiter allows to one address, whatever the other addresses do.
-/

namespace Nose

open CMemory ShadowTable

namespace RateLimiter

/-- This is a limiter for one client. It forgets a client who has been slow for long enough. -/
def checkTracker (now : Nat) : Option RateTracker → Bool × Option RateTracker
  | none => (true, some ⟨1, now, now, 0⟩)
  | some tracker =>
      let rt := { tracker with count := (tracker.count + 1) % 2 ^ 64, lastEntryTime := now }
      if rt.penaltyTime ≠ 0 then
        if now ≤ rt.penaltyTime then (false, some rt)
        else if getRate rt < maxRate then (true, some { rt with penaltyTime := 0 })
        else (false, some { rt with penaltyTime := now + penaltyTimeSeconds })
      else if maxRate ≤ getRate rt then (false, some { rt with penaltyTime := now + penaltyTimeSeconds })
      else if resetIntervalSeconds < rt.lastEntryTime - rt.firstEntryTime then (true, none)
      else (true, some rt)

/-- The log gives one client the answers of a limiter of its own, which is forgotten when the table is dumped. -/
def Explained (client : RateTrackerAddress) : Option RateTracker → List Event → Prop
  | _, [] => True
  | _, .dump :: rest => Explained client none rest
  | tracker, .answer addr time allowed :: rest =>
      if addr = client then
        allowed = (checkTracker time tracker).1 ∧ Explained client (checkTracker time tracker).2 rest
      else Explained client tracker rest

section Step

variable {host : ByteOrder} {capacity : Nat} {entries : Entries RateTrackerAddress RateTracker} {table : Table}

/-- The table refines entries with different addresses. -/
structure Tracks (host : ByteOrder) (capacity : Nat) (entries : Entries RateTrackerAddress RateTracker)
    (table : Table) : Prop where
  refines : Refines (rateTrackerHash host) capacity entries table
  nodup : (entries.map Prod.fst).Nodup

/-- The trackers after a check: the client has its new tracker, the other clients keep theirs. -/
def Moved (capacity : Nat) (rtaddr : RateTrackerAddress) (now : Nat)
    (entries next : Entries RateTrackerAddress RateTracker) (events : List Event) : Prop :=
  (events = [] ∧ ∀ client, lookup next client =
      if rtaddr = client then (checkTracker now (lookup entries client)).2 else lookup entries client) ∨
    (events = [.dump] ∧ lookup entries rtaddr = none ∧ entries.length = capacity ∧ ∀ client, lookup next client =
      if rtaddr = client then (checkTracker now none).2 else none)

/-- A known client is checked by its tracker. A forgotten one leaves the table. -/
theorem rateCheckImpl_found {addr : CSocketAddress} {now pRT : Nat}
    (found : table.lookup (rateTrackerHash host) (rateTrackerAddress host addr) = some (some pRT)) :
    rateCheckImpl host table addr now =
      match checkTracker now (some (table.load pRT)) with
      | (allowed, some rt) => some (allowed, table.store pRT rt, [])
      | (allowed, none) =>
          ((table.store pRT { table.load pRT with
            count := ((table.load pRT).count + 1) % 2 ^ 64, lastEntryTime := now }).remove (rateTrackerHash host)
              (rateTrackerAddress host addr)).map fun removed => (allowed, removed.2, []) := by
  rw [rateCheckImpl, found, Option.bind_some, checkTracker]
  dsimp only
  split_ifs <;> rfl

theorem Tracks.store (tracks : Tracks host capacity entries table) {rtaddr : RateTrackerAddress} {pRT : Nat}
    (found : table.lookup (rateTrackerHash host) rtaddr = some (some pRT)) (rt : RateTracker) :
    Tracks host capacity (ShadowTable.store rtaddr rt entries) (table.store pRT rt) := by
  rcases tracks.refines.store rtaddr rt with ⟨-, missed, -⟩ | ⟨pValue, -, same, kept⟩
  · rw [found] at missed
    simp at missed
  · rw [found] at same
    obtain rfl : pRT = pValue := by simpa using same
    exact ⟨kept, by rw [keys_store]; exact tracks.nodup⟩

/-- A new client is written into the table, or into the dumped table. -/
theorem rateCheckImpl_new (tracks : Tracks host capacity entries table) {addr : CSocketAddress} {now : Nat}
    (missed : table.lookup (rateTrackerHash host) (rateTrackerAddress host addr) = some none)
    (absent : lookup entries (rateTrackerAddress host addr) = none) :
    ∃ table' next events, rateCheckImpl host table addr now = some (true, table', events) ∧
      Tracks host capacity next table' ∧ Moved capacity (rateTrackerAddress host addr) now entries next events := by
  set rtaddr := rateTrackerAddress host addr with address
  have fresh : rtaddr ∉ entries.map Prod.fst := by
    intro member
    obtain ⟨entry, inside, same⟩ := List.mem_map.mp member
    exact lookup_eq_none_iff.mp absent entry inside same
  rcases tracks.refines.insert rtaddr ⟨1, now, now, 0⟩ with ⟨room, code, kept⟩ | ⟨full, same⟩
  · refine ⟨_, (rtaddr, ⟨1, now, now, 0⟩) :: entries, [], ?_, ⟨kept, List.nodup_cons.mpr ⟨fresh, tracks.nodup⟩⟩,
      .inl ⟨rfl, fun client => ?_⟩⟩
    · rw [rateCheckImpl, ← address, missed, Option.bind_some]
      dsimp only
      rw [if_neg (by rw [code]; decide)]
    · rw [lookup_cons]
      by_cases same : rtaddr = client
      · rw [if_pos same, if_pos same, ← same, absent]
        rfl
      · rw [if_neg same, if_neg same]
  · have emptied := tracks.refines.reset
    have positive : 0 < capacity := by
      obtain ⟨rfl, live, free, represents, -⟩ := emptied
      exact represents.capacity
    rcases emptied.insert rtaddr ⟨1, now, now, 0⟩ with ⟨-, -, kept⟩ | ⟨none_left, -⟩
    · refine ⟨_, [(rtaddr, ⟨1, now, now, 0⟩)], [.dump], ?_, ⟨kept, List.nodup_singleton _⟩,
        .inr ⟨rfl, absent, full, fun client => ?_⟩⟩
      · rw [rateCheckImpl, ← address, missed, Option.bind_some]
        dsimp only
        rw [same, if_pos rfl]
      · rw [lookup_cons, lookup_nil]
        rfl
    · rw [List.length_nil] at none_left
      omega

/-- A check moves the tracker of its own address. It may dump the table when the address is new. -/
theorem rateCheckImpl_tracks (tracks : Tracks host capacity entries table) (addr : CSocketAddress) (now : Nat) :
    ∃ table' next events, rateCheckImpl host table addr now =
        some ((checkTracker now (lookup entries (rateTrackerAddress host addr))).1, table', events) ∧
      Tracks host capacity next table' ∧ Moved capacity (rateTrackerAddress host addr) now entries next events := by
  obtain ⟨found, answered, value⟩ := tracks.refines.lookup (rateTrackerAddress host addr)
  cases found with
  | none =>
      have absent : lookup entries (rateTrackerAddress host addr) = none := value.symm
      rw [absent]
      exact rateCheckImpl_new tracks answered absent
  | some pRT =>
      have present : lookup entries (rateTrackerAddress host addr) = some (table.load pRT) := value.symm
      rw [rateCheckImpl_found answered, present]
      cases checked : checkTracker now (some (table.load pRT)) with
      | mk allowed after =>
          cases after with
          | some rt =>
              refine ⟨_, _, [], rfl, tracks.store answered rt, .inl ⟨rfl, fun client => ?_⟩⟩
              rw [lookup_store present]
              by_cases same : rateTrackerAddress host addr = client
              · rw [if_pos same, if_pos same, ← same, present, checked]
              · rw [if_neg same, if_neg same]
          | none =>
              set rt := { table.load pRT with count := ((table.load pRT).count + 1) % 2 ^ 64, lastEntryTime := now }
              have stored := tracks.store answered rt
              obtain ⟨table', removed, kept⟩ := stored.refines.remove (rateTrackerAddress host addr)
              refine ⟨table', _, [], ?_, ⟨kept, nodup_remove stored.nodup⟩, .inl ⟨rfl, fun client => ?_⟩⟩
              · dsimp only
                rw [removed]
                rfl
              · rw [lookup_remove stored.nodup, lookup_store present]
                by_cases same : rateTrackerAddress host addr = client
                · rw [if_pos same, if_pos same, ← same, present, checked]
                · rw [if_neg same, if_neg same, if_neg same]

end Step

section Run

variable {host : ByteOrder} {capacity : Nat} {entries : Entries RateTrackerAddress RateTracker} {table final : Table}
  {requests : List (CSocketAddress × Nat)} {log : List Event}

/-- A step logs a dump when there is one, and the answer. -/
theorem rateCheck_tracks (tracks : Tracks host capacity entries table) (request : CSocketAddress × Nat) :
    ∃ table' next events, rateCheck host table request = some (table', events ++ [.answer
        (rateTrackerAddress host request.1) request.2
          (checkTracker request.2 (lookup entries (rateTrackerAddress host request.1))).1]) ∧
      Tracks host capacity next table' ∧
        Moved capacity (rateTrackerAddress host request.1) request.2 entries next events := by
  obtain ⟨table', next, events, checked, kept, moved⟩ := rateCheckImpl_tracks tracks request.1 request.2
  exact ⟨table', next, events, by rw [rateCheck, checked]; rfl, kept, moved⟩

/-- A table without clients starts the limiter. -/
theorem tracks_create (host : ByteOrder) {tablesize : Nat} (room : 2 ≤ tablesize)
    (nodelist : Nat → RateTrackerAddress × RateTracker) (itemnodelist : Nat → ItemNode)
    (lookuptable : Nat → Option Nat) (indexlist : Nat → Nat) :
    Tracks host tablesize [] (create tablesize nodelist itemnodelist lookuptable indexlist) :=
  ⟨refines_init _ (by omega) (by omega) nodelist itemnodelist lookuptable indexlist, List.nodup_nil⟩

/-- Every check is answered. -/
theorem run_total (tracks : Tracks host capacity entries table) (requests : List (CSocketAddress × Nat)) :
    ∃ final log, LoggedRun.run (rateCheck host) table requests = some (final, log) := by
  induction requests generalizing entries table with
  | nil => exact ⟨table, [], rfl⟩
  | cons request rest ih =>
      obtain ⟨table', next, events, stepped, kept, -⟩ := rateCheck_tracks tracks request
      obtain ⟨final, later, reached⟩ := ih kept
      exact ⟨final, _, LoggedRun.run_cons.mpr ⟨table', _, later, stepped, reached, rfl⟩⟩

/-- The answers of a run are explained by the trackers that it starts with. -/
theorem run_explained (tracks : Tracks host capacity entries table)
    (reached : LoggedRun.run (rateCheck host) table requests = some (final, log)) (client : RateTrackerAddress) :
    Explained client (lookup entries client) log := by
  induction requests generalizing entries table log with
  | nil =>
      obtain ⟨-, rfl⟩ := Prod.mk.inj (Option.some.inj reached)
      trivial
  | cons request rest ih =>
      obtain ⟨middle, first, last, stepped, continued, rfl⟩ := LoggedRun.run_cons.mp reached
      obtain ⟨table', next, events, checked, kept, moved⟩ := rateCheck_tracks tracks request
      rw [checked] at stepped
      obtain ⟨rfl, rfl⟩ := Prod.mk.inj (Option.some.inj stepped)
      have later := ih kept continued
      rcases moved with ⟨rfl, trackers⟩ | ⟨rfl, absent, -, trackers⟩
      · rw [trackers] at later
        rw [List.nil_append, List.singleton_append, Explained]
        by_cases same : rateTrackerAddress host request.1 = client
        · rw [if_pos same] at later ⊢
          rw [same]
          exact ⟨rfl, later⟩
        · rwa [if_neg same] at later ⊢
      · rw [trackers] at later
        rw [List.singleton_append, List.cons_append, List.singleton_append, Explained, Explained, absent]
        by_cases same : rateTrackerAddress host request.1 = client
        · rw [if_pos same] at later ⊢
          exact ⟨rfl, later⟩
        · rwa [if_neg same] at later ⊢

end Run

section Bound

variable {tracker : Option RateTracker} {now time stop : Nat}

/-- A client below the rate has few checks, or fewer checks than seconds since its first one. -/
theorem getRate_lt_iff {rt : RateTracker} (small : rt.count < 2 ^ 52) :
    getRate rt < maxRate ↔ rt.count < 60 ∨ rt.count < rt.lastEntryTime - rt.firstEntryTime := by
  rw [getRate, maxRate, minCountForConsideration]
  by_cases few : rt.count < 60
  · simp [few]
  · have exact_product : rt.count * 3600 % 2 ^ 64 = rt.count * 3600 := Nat.mod_eq_of_lt (by omega)
    rw [if_neg few, exact_product]
    dsimp only
    rw [Nat.div_lt_iff_lt_mul (by split <;> omega)]
    split <;> omega

/-- The tracker after another check. -/
def touch (rt : RateTracker) (time penalty : Nat) : RateTracker :=
  ⟨(rt.count + 1) % 2 ^ 64, rt.firstEntryTime, time, penalty⟩

theorem checkTracker_some (rt : RateTracker) (time : Nat) : checkTracker time (some rt) =
    if rt.penaltyTime ≠ 0 then
      if time ≤ rt.penaltyTime then (false, some (touch rt time rt.penaltyTime))
      else if getRate (touch rt time rt.penaltyTime) < maxRate then (true, some (touch rt time 0))
      else (false, some (touch rt time (time + penaltyTimeSeconds)))
    else if maxRate ≤ getRate (touch rt time rt.penaltyTime) then
      (false, some (touch rt time (time + penaltyTimeSeconds)))
    else if resetIntervalSeconds < time - rt.firstEntryTime then (true, none)
    else (true, some (touch rt time rt.penaltyTime)) := rfl

/-- A known client is refused and is in the penalty box, or is allowed and stays, or is allowed and forgotten. -/
theorem checkTracker_cases (rt : RateTracker) (time : Nat) :
    (∃ penalty, checkTracker time (some rt) = (false, some (touch rt time penalty)) ∧
        (penalty = rt.penaltyTime ∧ time ≤ penalty ∧ penalty ≠ 0 ∨
          penalty = time + penaltyTimeSeconds ∧ (rt.penaltyTime = 0 ∨ rt.penaltyTime < time))) ∨
      (checkTracker time (some rt) = (true, some (touch rt time 0)) ∧ getRate (touch rt time rt.penaltyTime) < maxRate ∧
        (rt.penaltyTime = 0 ∨ rt.penaltyTime < time)) ∨
      (checkTracker time (some rt) = (true, none) ∧ getRate (touch rt time rt.penaltyTime) < maxRate ∧
        resetIntervalSeconds < time - rt.firstEntryTime ∧ rt.penaltyTime = 0) := by
  have checked := checkTracker_some rt time
  by_cases boxed : rt.penaltyTime = 0
  · rw [if_neg (not_not.mpr boxed)] at checked
    by_cases slow : getRate (touch rt time rt.penaltyTime) < maxRate
    · rw [if_neg (Nat.not_le.mpr slow)] at checked
      by_cases long : resetIntervalSeconds < time - rt.firstEntryTime
      · rw [if_pos long] at checked
        exact .inr (.inr ⟨checked, slow, long, boxed⟩)
      · rw [if_neg long, boxed] at checked
        exact .inr (.inl ⟨checked, slow, .inl boxed⟩)
    · rw [if_pos (Nat.not_lt.mp slow)] at checked
      exact .inl ⟨time + penaltyTimeSeconds, checked, .inr ⟨rfl, .inl boxed⟩⟩
  · rw [if_pos boxed] at checked
    by_cases inside : time ≤ rt.penaltyTime
    · rw [if_pos inside] at checked
      exact .inl ⟨rt.penaltyTime, checked, .inl ⟨rfl, inside, boxed⟩⟩
    · rw [if_neg inside] at checked
      by_cases slow : getRate (touch rt time rt.penaltyTime) < maxRate
      · rw [if_pos slow] at checked
        exact .inr (.inl ⟨checked, slow, .inr (Nat.not_le.mp inside)⟩)
      · rw [if_neg slow] at checked
        exact .inl ⟨time + penaltyTimeSeconds, checked, .inr ⟨rfl, .inr (Nat.not_le.mp inside)⟩⟩

/-- The checks that can still be allowed up to a time, without a dump. -/
def allowance (stop now : Nat) : Option RateTracker → Nat
  | none => 59 + (stop - now)
  | some rt => max (59 + (stop - rt.firstEntryTime) - rt.count) (stop - now)

/-- The tracker belongs to the past, and its count has not been worn out. -/
def Settled (now count : Nat) (tracker : Option RateTracker) : Prop :=
  ∀ rt ∈ tracker, rt.firstEntryTime ≤ now ∧ rt.count ≤ count

/-- Every allowed check is paid for by the allowance. -/
theorem checkTracker_allowance {count : Nat} (settled : Settled now count tracker) (small : count + 1 < 2 ^ 52)
    (later : now ≤ time) (before : time ≤ stop) :
    (if (checkTracker time tracker).1 then 1 else 0) + allowance stop time (checkTracker time tracker).2 ≤
        allowance stop now tracker ∧ Settled time (count + 1) (checkTracker time tracker).2 := by
  cases tracker with
  | none =>
      refine ⟨?_, fun rt member => ?_⟩
      · simp only [checkTracker, allowance, if_true]
        omega
      · obtain rfl := Option.mem_some_iff.mp member
        exact ⟨le_refl _, Nat.le_add_left 1 count⟩
  | some rt =>
      obtain ⟨past, bound⟩ := settled rt rfl
      have counted : (rt.count + 1) % 2 ^ 64 = rt.count + 1 := Nat.mod_eq_of_lt (by omega)
      have kept (penalty : Nat) : Settled time (count + 1) (some (touch rt time penalty)) := by
        intro other member
        obtain rfl := Option.mem_some_iff.mp member
        refine ⟨past.trans later, ?_⟩
        rw [touch, counted]
        exact Nat.add_le_add_right bound 1
      have paid (slow : getRate (touch rt time rt.penaltyTime) < maxRate) :
          rt.count + 1 < 60 ∨ rt.count + 1 < time - rt.firstEntryTime := by
        have little : (touch rt time rt.penaltyTime).count < 2 ^ 52 := by
          change (rt.count + 1) % 2 ^ 64 < 2 ^ 52
          omega
        have rate := (getRate_lt_iff little).mp slow
        change (rt.count + 1) % 2 ^ 64 < 60 ∨ (rt.count + 1) % 2 ^ 64 < time - rt.firstEntryTime at rate
        rwa [counted] at rate
      rcases checkTracker_cases rt time with ⟨penalty, checked, -⟩ | ⟨checked, slow, -⟩ | ⟨checked, slow, long, -⟩
      · rw [checked]
        refine ⟨?_, kept penalty⟩
        simp only [allowance, touch, counted, Bool.false_eq_true, if_false]
        omega
      · rw [checked]
        refine ⟨?_, kept 0⟩
        have rate := paid slow
        simp only [allowance, touch, counted, if_true]
        omega
      · rw [checked]
        refine ⟨?_, fun other member => by simp at member⟩
        have rate := paid slow
        rw [resetIntervalSeconds] at long
        simp only [allowance, if_true]
        omega

/-- The event allows a check of the client. -/
def allows (client : RateTrackerAddress) : Event → Bool
  | .dump => false
  | .answer addr _ allowed => addr = client ∧ allowed

/-- The times of the answers. -/
def times (log : List Event) : List Nat :=
  log.filterMap fun
    | .dump => none
    | .answer _ time _ => some time

/-- A dump forgets a client, who can then start again. -/
theorem explained_bound {client : RateTrackerAddress} {log : List Event} {count : Nat}
    (explained : Explained client tracker log) (settled : Settled now count tracker)
    (small : count + log.length < 2 ^ 52) (sorted : (times log).Pairwise (· ≤ ·))
    (window : ∀ time ∈ times log, now ≤ time ∧ time ≤ stop) :
    (log.countP (allows client)) ≤ 59 * log.count .dump + allowance stop now tracker := by
  induction log generalizing tracker now count with
  | nil => simp
  | cons event rest ih =>
      rw [List.length_cons] at small
      cases event with
      | dump =>
          have fresh : Settled now count none := fun _ member => by simp at member
          have later := ih explained fresh (by omega) sorted window
          have forgotten : allowance stop now none ≤ 59 + allowance stop now tracker := by
            cases tracker with
            | none => omega
            | some rt =>
                simp only [allowance]
                omega
          simp only [List.countP_cons, allows, List.count_cons, beq_self_eq_true, if_true, Bool.false_eq_true, if_false]
          omega
      | answer addr time allowed =>
          obtain ⟨first, rest_sorted⟩ := List.pairwise_cons.mp sorted
          obtain ⟨reached, rest_window⟩ := List.forall_mem_cons.mp window
          have after (other : Nat) (member : other ∈ times rest) : time ≤ other ∧ other ≤ stop :=
            ⟨first other member, (rest_window other member).2⟩
          rw [Explained] at explained
          simp only [List.countP_cons, allows, List.count_cons]
          by_cases same : addr = client
          · rw [if_pos same] at explained
            obtain ⟨rfl, explained⟩ := explained
            obtain ⟨paid, settled⟩ := checkTracker_allowance settled (by omega) reached.1 reached.2
            have later := ih explained settled (by omega) rest_sorted after
            simp only [same, true_and]
            simp
            omega
          · rw [if_neg same] at explained
            have later := ih explained settled (by omega) rest_sorted fun other member =>
              ⟨reached.1.trans (first other member), (rest_window other member).2⟩
            simp only [same, false_and]
            simp
            omega

end Bound

section Penalty

variable {tracker : Option RateTracker} {client : RateTrackerAddress} {log : List Event}

/-- The answers are those of the limiter of one client. -/
def Answered : Option RateTracker → List (Nat × Bool) → Prop
  | _, [] => True
  | tracker, (time, allowed) :: rest =>
      allowed = (checkTracker time tracker).1 ∧ Answered (checkTracker time tracker).2 rest

end Penalty

section Main

variable (host : ByteOrder) {tablesize : Nat} (nodelist : Nat → RateTrackerAddress × RateTracker)
  (itemnodelist : Nat → ItemNode) (lookuptable : Nat → Option Nat) (indexlist : Nat → Nat)

theorem times_append (first second : List Event) : times (first ++ second) = times first ++ times second :=
  List.filterMap_append ..

/-- A run answers its requests in order, and logs at most one dump for each. -/
theorem times_run {table final : Table} {capacity : Nat} {entries : Entries RateTrackerAddress RateTracker}
    (tracks : Tracks host capacity entries table) {requests : List (CSocketAddress × Nat)} {log : List Event}
    (reached : LoggedRun.run (rateCheck host) table requests = some (final, log)) :
    times log = requests.map Prod.snd ∧ log.length ≤ 2 * requests.length := by
  induction requests generalizing entries table log with
  | nil =>
      obtain ⟨-, rfl⟩ := Prod.mk.inj (Option.some.inj reached)
      exact ⟨rfl, by simp⟩
  | cons request rest ih =>
      obtain ⟨middle, first, last, stepped, continued, rfl⟩ := LoggedRun.run_cons.mp reached
      obtain ⟨table', next, events, checked, kept, moved⟩ := rateCheck_tracks tracks request
      rw [checked] at stepped
      obtain ⟨rfl, rfl⟩ := Prod.mk.inj (Option.some.inj stepped)
      obtain ⟨sameTimes, short⟩ := ih kept continued
      have one : times events = [] ∧ events.length ≤ 1 := by
        rcases moved with ⟨rfl, -⟩ | ⟨rfl, -⟩
        · exact ⟨rfl, by simp⟩
        · exact ⟨rfl, by simp⟩
      refine ⟨?_, ?_⟩
      · rw [times_append, times_append, one.1, sameTimes]
        rfl
      · simp only [List.length_append, List.length_cons, List.length_nil]
        omega

/-- A client is allowed 59 checks and one more for each second, and another 59 for each dump of the table. -/
theorem rateCheck_bound (room : 2 ≤ tablesize) {requests : List (CSocketAddress × Nat)} {start stop : Nat}
    (short : requests.length < 2 ^ 51) (sorted : (requests.map Prod.snd).Pairwise (· ≤ ·))
    (window : ∀ request ∈ requests, start ≤ request.2 ∧ request.2 ≤ stop) :
    ∃ final log,
      LoggedRun.run (rateCheck host) (create tablesize nodelist itemnodelist lookuptable indexlist) requests =
          some (final, log) ∧
        ∀ client, log.countP (allows client) ≤ 59 * (log.count .dump + 1) + (stop - start) := by
  have empty := tracks_create host room nodelist itemnodelist lookuptable indexlist
  obtain ⟨final, log, reached⟩ := run_total empty requests
  obtain ⟨sameTimes, length⟩ := times_run host empty reached
  refine ⟨final, log, reached, fun client => ?_⟩
  have unknown : Settled start 0 none := fun rt member => by simp at member
  have bound := explained_bound (run_explained empty reached client) unknown (by omega)
    (by rw [sameTimes]; exact sorted) fun time member => by
      rw [sameTimes] at member
      obtain ⟨request, inside, rfl⟩ := List.mem_map.mp member
      exact window request inside
  rw [lookup_nil, allowance] at bound
  omega

theorem rateCheck_bound_two : 2 ≤ 2 ∧ ∃ final log,
    LoggedRun.run (rateCheck .little)
        (create 2 (fun _ => ([], ⟨0, 0, 0, 0⟩)) (fun _ => ⟨0, none⟩) (fun _ => none) fun _ => 0)
        [(CSocketAddress.zero, 5), (CSocketAddress.zero, 7)] = some (final, log) ∧
      ∀ client, log.countP (allows client) ≤ 59 * (log.count .dump + 1) + (7 - 5) :=
  ⟨by decide, rateCheck_bound .little _ _ _ _ (by decide) (by decide) (by decide) (by decide)⟩

end Main

end RateLimiter

end Nose
