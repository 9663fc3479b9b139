import Nose.Source.Device

namespace Nose

open CMemory DottedQuad

/-- Both requests for the device succeeded. -/
def Succeeded (calls : List DeviceCall) (n : Nat) : Prop :=
  ∃ fd ifr attach persist, cstr ifr.ifrName.toList = tunName n ∧ 0 ≤ attach ∧ 0 ≤ persist ∧
    [.tunsetiff fd ifr attach, .tunsetpersist fd 1 persist] <:+: calls

/-- The descriptor is returned open exactly when a device was allocated, and the name is that of the first one.
Otherwise the result is not positive, no device persists and the descriptor is closed. -/
structure ReportsTruth (fd : Int) (opened : Int × Option (CharArray 20) × List DeviceCall) : Prop where
  returns : opened.1 = fd ∧ .close fd ∉ opened.2.2 ↔ ∃ n ≤ 255, Succeeded opened.2.2 n
  named : ∀ n ≤ 255, Succeeded opened.2.2 n → (∀ k < n, ¬ Succeeded opened.2.2 k) →
    ∃ name ∈ opened.2.1, cstr name.toList = tunName n
  otherwise : (∀ n ≤ 255, ¬ Succeeded opened.2.2 n) → opened.1 ≤ 0 ∧
    (∀ fd persist, 0 ≤ persist → .tunsetpersist fd 1 persist ∉ opened.2.2) ∧ .close fd ∈ opened.2.2

theorem zero_notMem_tunName (id : Nat) : 0 ∉ tunName id := by
  intro member
  rcases List.mem_append.mp member with letter | digit
  · revert letter
    decide
  · exact ((octet_facts _).2.2 0 digit).2.1 rfl

theorem length_tunName_le (id : Nat) : (tunName id).length ≤ 6 := by
  have digits := (octet_facts (UInt8.ofNat id)).2.1
  rw [tunName, List.length_append]
  simp only [List.length_cons, List.length_nil]
  omega

/-- Different devices have different names. -/
theorem tunName_inj {n k : Nat} (first : n ≤ 255) (second : k ≤ 255) (same : tunName n = tunName k) : n = k := by
  have digits : octet (UInt8.ofNat n) = octet (UInt8.ofNat k) := List.append_cancel_left same
  have numbers := congrArg part digits
  rw [(octet_facts _).1, (octet_facts _).1, UInt8.toNat_ofNat', UInt8.toNat_ofNat'] at numbers
  have equal := Option.some.inj numbers
  omega

/-- The request names the device. -/
theorem ifrName_nameTun (ifr : Ifreq) (id : Nat) : cstr (nameTun ifr id).ifrName.toList = tunName id := by
  have length := length_tunName_le id
  have printed := CharArray.toList_setString (Vector.replicate 10 (0 : UInt8)) (tunName id) (by omega)
  rw [nameTun]
  dsimp only
  have memory : (CharArray.setString (Vector.replicate 10 0) (tunName id) : CharArray 10).memory =
      block (tunName id ++ 0 :: ((Vector.replicate 10 (0 : UInt8)).toList.drop ((tunName id).length + 1)))
        fun _ => 0 := by
    rw [← printed]
    rfl
  rw [memory]
  exact CharArray.cstr_strncpy ifr.ifrName (tunName id) _ _ (by unfold ifnamsiz; omega) le_rfl
    (zero_notMem_tunName id)

/-- The requests for a device succeed, or the later ones do. -/
theorem succeeded_cons {fd attach persist : Int} {ifr : Ifreq} {rest : List DeviceCall} {id k : Nat} (device : id ≤ 255)
    (wanted : k ≤ 255) :
    Succeeded ([.tunsetiff fd (nameTun ifr id) attach, .tunsetpersist fd 1 persist] ++ rest) k ↔
      (k = id ∧ 0 ≤ attach ∧ 0 ≤ persist) ∨ Succeeded rest k := by
  constructor
  · rintro ⟨fd', ifr', attach', persist', name, attached, persisted, within⟩
    rcases List.infix_cons_iff.mp within with here | later
    · obtain ⟨same, here⟩ := List.cons_prefix_cons.mp here
      obtain ⟨same', _⟩ := List.cons_prefix_cons.mp here
      cases same
      cases same'
      rw [ifrName_nameTun] at name
      exact .inl ⟨(tunName_inj device wanted name).symm, attached, persisted⟩
    · rcases List.infix_cons_iff.mp later with here | later
      · cases (List.cons_prefix_cons.mp here).1
      · exact .inr ⟨fd', ifr', attach', persist', name, attached, persisted, later⟩
  · rintro (⟨rfl, attached, persisted⟩ | ⟨fd', ifr', attach', persist', name, attached, persisted, within⟩)
    · have start := List.prefix_append [.tunsetiff fd (nameTun ifr k) attach, .tunsetpersist fd 1 persist] rest
      exact ⟨fd, nameTun ifr k, attach, persist, ifrName_nameTun ifr k, attached, persisted, start.isInfix⟩
    · exact ⟨fd', ifr', attach', persist', name, attached, persisted, within.trans (List.suffix_append _ _).isInfix⟩

theorem not_succeeded_nil (k : Nat) : ¬ Succeeded [] k := by
  rintro ⟨_, _, _, _, _, _, _, within⟩
  cases List.infix_nil.mp within

section Loop

variable (outcomes : TunOutcomes) (deviceName : CharArray 20)

/-- The loop ends at the first device that persists, or with the counter behind the last device. -/
theorem tryTuns_result (n id : Nat) (ifr : Ifreq) (fuel : id + n = 256) :
    (∃ m, id ≤ m ∧ m ≤ 255 ∧ 0 ≤ outcomes.tunsetpersist m ∧
      (∀ k, id ≤ k → k < m → outcomes.tunsetpersist k < 0) ∧ (tryTuns outcomes deviceName n id ifr).1 = m + 1 ∧
        (tryTuns outcomes deviceName n id ifr).2.1 = deviceName.setString (tunName m)) ∨
      (∀ k, id ≤ k → k ≤ 255 → outcomes.tunsetpersist k < 0) ∧ (tryTuns outcomes deviceName n id ifr).1 = 256 := by
  induction n generalizing id ifr with
  | zero => exact .inr ⟨fun k first last => by omega, fuel⟩
  | succ n ih =>
      rw [tryTuns]
      dsimp only
      split
      · rename_i persists
        exact .inl ⟨id, le_rfl, by omega, persists, fun k first last => by omega, rfl, by rw [ifrName_nameTun]⟩
      · rename_i fails
        rw [not_le] at fails
        have failed_first (k : Nat) (first : id ≤ k) (later : id + 1 ≤ k → outcomes.tunsetpersist k < 0) :
            outcomes.tunsetpersist k < 0 := by
          rcases first.eq_or_lt with rfl | after
          · exact fails
          · exact later after
        split
        · rcases ih (id + 1) (nameTun ifr id) (by omega) with
            ⟨m, first, last, persists, earlier, counter, name⟩ | ⟨all, counter⟩
          · exact .inl ⟨m, by omega, last, persists,
              fun k after before => failed_first k after fun later => earlier k later before, counter, name⟩
          · exact .inr ⟨fun k after before => failed_first k after fun later => all k later before, counter⟩
        · exact .inr ⟨fun k after before => failed_first k after fun later => by omega, by simp only; omega⟩

theorem le_tryTuns (n id : Nat) (ifr : Ifreq) (fuel : id + n = 256) :
    id ≤ (tryTuns outcomes deviceName n id ifr).1 := by
  rcases tryTuns_result outcomes deviceName n id ifr fuel with ⟨m, first, _, _, _, counter, _⟩ | ⟨_, counter⟩
  · omega
  · omega

/-- The devices that the loop tried succeed by their own results. -/
theorem succeeded_tryTuns (n id : Nat) (ifr : Ifreq) (fuel : id + n = 256) {k : Nat} (wanted : k ≤ 255) :
    Succeeded (tryTuns outcomes deviceName n id ifr).2.2 k ↔ id ≤ k ∧ k < (tryTuns outcomes deviceName n id ifr).1 ∧
      0 ≤ outcomes.tunsetiff k ∧ 0 ≤ outcomes.tunsetpersist k := by
  have last (id : Nat) (ifr : Ifreq) (device : id ≤ 255) :
      Succeeded [.tunsetiff outcomes.openTun (nameTun ifr id) (outcomes.tunsetiff id),
        .tunsetpersist outcomes.openTun 1 (outcomes.tunsetpersist id)] k ↔
        id ≤ k ∧ k < id + 1 ∧ 0 ≤ outcomes.tunsetiff k ∧ 0 ≤ outcomes.tunsetpersist k := by
    rw [← List.append_nil [DeviceCall.tunsetiff _ _ _, _], succeeded_cons device wanted,
      or_iff_left (not_succeeded_nil k)]
    constructor
    · rintro ⟨rfl, attached, persisted⟩
      exact ⟨le_rfl, Nat.lt_succ_self k, attached, persisted⟩
    · rintro ⟨first, before, attached, persisted⟩
      obtain rfl : k = id := by omega
      exact ⟨rfl, attached, persisted⟩
  induction n generalizing id ifr with
  | zero => exact iff_of_false (not_succeeded_nil k) (by simp only [tryTuns]; omega)
  | succ n ih =>
      rw [tryTuns]
      dsimp only
      split
      · exact last id ifr (by omega)
      · split
        · have after := le_tryTuns outcomes deviceName n (id + 1) (nameTun ifr id) (by omega)
          have rest := ih (id + 1) (nameTun ifr id) (by omega)
          dsimp only
          rw [succeeded_cons (by omega) wanted, or_congr_right rest]
          constructor
          · rintro (⟨rfl, attached, persisted⟩ | ⟨first, before, attached, persisted⟩)
            · exact ⟨le_rfl, after, attached, persisted⟩
            · exact ⟨by omega, before, attached, persisted⟩
          · rintro ⟨first, before, attached, persisted⟩
            rcases first.eq_or_lt with rfl | later
            · exact .inl ⟨rfl, attached, persisted⟩
            · exact .inr ⟨later, before, attached, persisted⟩
        · exact last id ifr (by omega)

theorem close_notMem_tryTuns (fd : Int) (n id : Nat) (ifr : Ifreq) :
    .close fd ∉ (tryTuns outcomes deviceName n id ifr).2.2 := by
  induction n generalizing id ifr with
  | zero => exact List.not_mem_nil
  | succ n ih =>
      rw [tryTuns]
      dsimp only
      split
      · simp
      · split
        · simpa using ih (id + 1) (nameTun ifr id)
        · simp

end Loop

theorem succeeded_openTun (fd : Int) (calls : List DeviceCall) (k : Nat) :
    Succeeded (.openTun fd :: calls) k ↔ Succeeded calls k := by
  constructor
  · rintro ⟨fd', ifr, attach, persist, name, attached, persisted, within⟩
    rcases List.infix_cons_iff.mp within with here | later
    · cases (List.cons_prefix_cons.mp here).1
    · exact ⟨fd', ifr, attach, persist, name, attached, persisted, later⟩
  · rintro ⟨fd', ifr, attach, persist, name, attached, persisted, within⟩
    exact ⟨fd', ifr, attach, persist, name, attached, persisted, within.trans (List.suffix_cons _ _).isInfix⟩

section Open

variable {outcomes : TunOutcomes} (opened : 0 ≤ outcomes.openTun)

/-- The loop that `utunOpen` runs. -/
def TunOutcomes.tried (outcomes : TunOutcomes) (name : CharArray 20) : Nat × CharArray 20 × List DeviceCall :=
  tryTuns outcomes name 256 0 ⟨Vector.replicate ifnamsiz 0, tunFlags⟩

include opened

theorem utunOpen_named {name : CharArray 20} (given : name[0] ≠ 0) :
    utunOpen outcomes (some name) = (if (outcomes.tried name).1 = 256 then error else outcomes.openTun,
      some (outcomes.tried name).2.1, .openTun outcomes.openTun :: (outcomes.tried name).2.2) := by
  unfold utunOpen
  dsimp only
  rw [if_neg (not_lt.mpr opened), if_neg given]
  change (if (outcomes.tried name).1 = 256 then _ else _) = _
  split <;> rfl

/-- Without a name, no request is made. -/
theorem utunOpen_unnamed {deviceName : Option (CharArray 20)} (unnamed : ¬ ∃ name ∈ deviceName, name[0] ≠ 0) :
    (utunOpen outcomes deviceName).2.2 = [.openTun outcomes.openTun] := by
  cases deviceName with
  | none =>
      unfold utunOpen
      dsimp only
      rw [if_neg (not_lt.mpr opened)]
  | some name =>
      have empty : name[0] = 0 := by
        by_contra given
        exact unnamed ⟨name, rfl, given⟩
      unfold utunOpen
      dsimp only
      rw [if_neg (not_lt.mpr opened), if_pos empty]

/-- The function does not close the descriptor. -/
theorem close_notMem_utunOpen (deviceName : Option (CharArray 20)) (fd : Int) :
    .close fd ∉ (utunOpen outcomes deviceName).2.2 := by
  by_cases named : ∃ name ∈ deviceName, name[0] ≠ 0
  · obtain ⟨name, rfl, given⟩ := named
    rw [utunOpen_named opened given]
    have tried : .close fd ∉ (outcomes.tried name).2.2 := close_notMem_tryTuns outcomes name fd 256 0 _
    simpa using tried
  · rw [utunOpen_unnamed opened named]
    simp

/-- A device that succeeded was tried, and its two results were good. -/
theorem succeeded_utunOpen {name : CharArray 20} (given : name[0] ≠ 0) {k : Nat} (wanted : k ≤ 255) :
    Succeeded (utunOpen outcomes (some name)).2.2 k ↔
      k < (outcomes.tried name).1 ∧ 0 ≤ outcomes.tunsetiff k ∧ 0 ≤ outcomes.tunsetpersist k := by
  rw [utunOpen_named opened given, succeeded_openTun, TunOutcomes.tried,
    succeeded_tryTuns outcomes name 256 0 _ rfl wanted]
  exact and_iff_right (Nat.zero_le k)

omit opened in
/-- The counter is behind the first device that persists, and the name is that of the device. -/
theorem tried_eq {n : Nat} (device : n ≤ 255) (persisted : 0 ≤ outcomes.tunsetpersist n)
    (first : ∀ k < n, outcomes.tunsetpersist k < 0) (name : CharArray 20) :
    (outcomes.tried name).1 = n + 1 ∧ (outcomes.tried name).2.1 = name.setString (tunName n) := by
  rcases tryTuns_result outcomes name 256 0 ⟨Vector.replicate ifnamsiz 0, tunFlags⟩ rfl with
    ⟨m, _, _, persists, earlier, counter, text⟩ | ⟨all, _⟩
  · have same : n = m := by
      rcases lt_trichotomy n m with before | same | after
      · have := earlier n (Nat.zero_le n) before
        omega
      · exact same
      · have := first m after
        omega
    subst same
    exact ⟨counter, text⟩
  · have := all n (Nat.zero_le n) device
    omega

omit opened in
/-- A device that was tried and persists is the first one. -/
theorem first_of_tried {n : Nat} {name : CharArray 20} (tried : n < (outcomes.tried name).1) (device : n ≤ 255)
    (persisted : 0 ≤ outcomes.tunsetpersist n) : ∀ k < n, outcomes.tunsetpersist k < 0 := by
  rcases tryTuns_result outcomes name 256 0 ⟨Vector.replicate ifnamsiz 0, tunFlags⟩ rfl with
    ⟨m, _, _, _, earlier, counter, _⟩ | ⟨all, _⟩
  · have counted : (outcomes.tried name).1 = m + 1 := counter
    exact fun k before => earlier k (Nat.zero_le k) (by omega)
  · have := all n (Nat.zero_le n) device
    omega

/-- A function that reports the truth found a device before the last one. -/
theorem first_of_truth {deviceName : Option (CharArray 20)}
    (truth : ReportsTruth outcomes.openTun (utunOpen outcomes deviceName)) :
    (∃ name ∈ deviceName, name[0] ≠ 0) ∧ ∃ n < 255, 0 ≤ outcomes.tunsetiff n ∧ 0 ≤ outcomes.tunsetpersist n ∧
      ∀ k < n, outcomes.tunsetpersist k < 0 := by
  -- Without an allocated device, the descriptor would have to be closed.
  obtain ⟨n, device, succeeded⟩ : ∃ n ≤ 255, Succeeded (utunOpen outcomes deviceName).2.2 n := by
    by_contra none
    have failed := truth.otherwise fun n device succeeded => none ⟨n, device, succeeded⟩
    exact close_notMem_utunOpen opened deviceName outcomes.openTun failed.2.2
  have named : ∃ name ∈ deviceName, name[0] ≠ 0 := by
    by_contra unnamed
    rw [utunOpen_unnamed opened unnamed, succeeded_openTun] at succeeded
    exact not_succeeded_nil n succeeded
  have returned := (truth.returns.mpr ⟨n, device, succeeded⟩).1
  obtain ⟨name, rfl, given⟩ := named
  obtain ⟨tried, attached, persisted⟩ := (succeeded_utunOpen opened given device).mp succeeded
  have first := first_of_tried tried device persisted
  have inner : n ≠ 255 := by
    rintro rfl
    rw [utunOpen_named opened given, if_pos (tried_eq device persisted first name).1] at returned
    have negative : (-1 : Int) = outcomes.openTun := returned
    omega
  exact ⟨⟨name, rfl, given⟩, n, by omega, attached, persisted, first⟩

/-- The function reports the truth when the first device that persists is attached and is not the last device. -/
theorem truth_of_first {name : CharArray 20} (given : name[0] ≠ 0) {n : Nat} (inner : n < 255)
    (attached : 0 ≤ outcomes.tunsetiff n) (persisted : 0 ≤ outcomes.tunsetpersist n)
    (first : ∀ k < n, outcomes.tunsetpersist k < 0) :
    ReportsTruth outcomes.openTun (utunOpen outcomes (some name)) := by
  obtain ⟨counted, text⟩ := tried_eq (by omega) persisted first name
  have only {k : Nat} (device : k ≤ 255) : Succeeded (utunOpen outcomes (some name)).2.2 k ↔ k = n := by
    rw [succeeded_utunOpen opened given device, counted]
    constructor
    · rintro ⟨tried, _, persists⟩
      by_contra different
      have := first k (by omega)
      omega
    · rintro rfl
      exact ⟨Nat.lt_succ_self k, attached, persisted⟩
  have succeeded : Succeeded (utunOpen outcomes (some name)).2.2 n := (only (by omega)).mpr rfl
  constructor
  case returns =>
    refine iff_of_true ⟨?_, close_notMem_utunOpen opened (some name) outcomes.openTun⟩ ⟨n, by omega, succeeded⟩
    rw [utunOpen_named opened given, if_neg (by omega)]
  case named =>
    intro k device other _
    obtain rfl := (only device).mp other
    refine ⟨name.setString (tunName k), ?_, ?_⟩
    · rw [utunOpen_named opened given, text]
      rfl
    · have length := length_tunName_le k
      exact CharArray.cstr_setString name (tunName k) (by omega) (zero_notMem_tunName k)
  case otherwise =>
    intro none
    exact absurd succeeded (none n (by omega))

end Open

/-- The function reports the truth exactly when it is called with a name, and the first device that persists is attached
and is not the last device. -/
theorem reports_truth_iff (outcomes : TunOutcomes) (deviceName : Option (CharArray 20))
    (opened : 0 ≤ outcomes.openTun) :
    ReportsTruth outcomes.openTun (utunOpen outcomes deviceName) ↔
      (∃ name ∈ deviceName, name[0] ≠ 0) ∧ ∃ n < 255, 0 ≤ outcomes.tunsetiff n ∧ 0 ≤ outcomes.tunsetpersist n ∧
        ∀ k < n, outcomes.tunsetpersist k < 0 := by
  constructor
  · exact first_of_truth opened
  · rintro ⟨⟨name, rfl, given⟩, n, inner, attached, persisted, first⟩
    exact truth_of_first opened given inner attached persisted first

/-- The first device is busy, and the second one is allocated. -/
theorem reports_truth_sample :
    let outcomes : TunOutcomes := ⟨5, fun n => if n = 0 then -1 else 0, fun n => if n = 0 then -1 else 0⟩
    ReportsTruth 5 (utunOpen outcomes (some tunDevName)) :=
  (reports_truth_iff ⟨5, fun n => if n = 0 then -1 else 0, fun n => if n = 0 then -1 else 0⟩ (some tunDevName)
    (by decide)).mpr ⟨⟨tunDevName, rfl, by decide⟩, 1, by decide, by decide, by decide, by decide⟩

/-- No device is allocated, or only the last one, or the first device persists without being attached. -/
theorem allocation_misreported :
    ¬ ReportsTruth 5 (utunOpen ⟨5, fun _ => -1, fun _ => -1⟩ (some tunDevName)) ∧
      ¬ ReportsTruth 5 (utunOpen ⟨5, fun n => if n = 255 then 0 else -1, fun n => if n = 255 then 0 else -1⟩
        (some tunDevName)) ∧
      ¬ ReportsTruth 5 (utunOpen ⟨5, fun _ => -1, fun _ => 0⟩ (some tunDevName)) := by
  have misreported (attach persist : Nat → Int) (detached : ∀ n < 255, attach n < 0) :
      ¬ ReportsTruth 5 (utunOpen ⟨5, attach, persist⟩ (some tunDevName)) := by
    intro truth
    have opened : 0 ≤ (⟨5, attach, persist⟩ : TunOutcomes).openTun := by simp
    obtain ⟨_, n, inner, attached, _⟩ := first_of_truth opened truth
    exact absurd attached (not_le.mpr (detached n inner))
  refine ⟨misreported _ _ fun n _ => by simp, misreported _ _ fun n inner => ?_, misreported _ _ fun n _ => by simp⟩
  have other : n ≠ 255 := by omega
  simp [other]

end Nose
