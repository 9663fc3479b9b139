import Mathlib.Tactic

/-
This file gives the runs of a machine that logs events.
-/

namespace LoggedRun

variable {State Input Event : Type}

/-- A run takes the enabled inputs in order and joins their logs. -/
def run (step : State → Input → Option (State × List Event)) : State → List Input → Option (State × List Event)
  | state, [] => some (state, [])
  | state, input :: rest =>
      (step state input).bind fun first =>
        (run step first.1 rest).map fun last => (last.1, first.2 ++ last.2)

variable {step : State → Input → Option (State × List Event)}

/-- A run of one more input is a step and a run. -/
theorem run_cons {state final : State} {input : Input} {rest : List Input} {log : List Event} :
    run step state (input :: rest) = some (final, log) ↔
      ∃ middle first last, step state input = some (middle, first) ∧
        run step middle rest = some (final, last) ∧ log = first ++ last := by
  rw [run]
  constructor
  · intro reached
    obtain ⟨⟨middle, first⟩, stepped, reached⟩ := Option.bind_eq_some_iff.mp reached
    obtain ⟨⟨final', last⟩, continued, same⟩ := Option.map_eq_some_iff.mp reached
    obtain ⟨rfl, rfl⟩ := Prod.mk.inj same
    exact ⟨middle, first, last, stepped, continued, rfl⟩
  · rintro ⟨middle, first, last, stepped, continued, rfl⟩
    simp [stepped, continued]

/-- A machine whose steps are matched by a specification has its runs matched, with the same log. -/
theorem run_refines {Abstract : Type} {spec : Abstract → Input → Option (Abstract × List Event)}
    {R : State → Abstract → Prop}
    (simulate : ∀ state abstract input next new, R state abstract → step state input = some (next, new) →
      ∃ after, spec abstract input = some (after, new) ∧ R next after)
    {state final : State} {abstract : Abstract} {inputs : List Input} {log : List Event}
    (related : R state abstract) (reached : run step state inputs = some (final, log)) :
    ∃ last, run spec abstract inputs = some (last, log) ∧ R final last := by
  induction inputs generalizing state abstract log with
  | nil =>
      obtain ⟨rfl, rfl⟩ := Prod.mk.inj (Option.some.inj reached)
      exact ⟨abstract, rfl, related⟩
  | cons input rest ih =>
      obtain ⟨middle, first, tail, stepped, continued, rfl⟩ := run_cons.mp reached
      obtain ⟨after, matched, kept⟩ := simulate state abstract input middle first related stepped
      obtain ⟨last, completed, finished⟩ := ih kept continued
      exact ⟨last, run_cons.mpr ⟨after, first, tail, matched, completed, rfl⟩, finished⟩

/-- Every state of the run has a property, the first and the last included. -/
def Always (step : State → Input → Option (State × List Event)) (P : State → Prop) : State → List Input → Prop
  | state, [] => P state
  | state, input :: rest =>
      P state ∧ ∀ next new, step state input = some (next, new) → Always step P next rest

/-- Every step of the run meets a condition on its input and the state before it. -/
def EveryStep (step : State → Input → Option (State × List Event)) (C : State → Input → Prop) :
    State → List Input → Prop
  | _, [] => True
  | state, input :: rest =>
      ∀ next new, step state input = some (next, new) → C state input ∧ EveryStep step C next rest

/-- A weaker condition is met as well. -/
theorem EveryStep.mono {C D : State → Input → Prop} (weaker : ∀ state input, C state input → D state input)
    {state : State} {inputs : List Input} (every : EveryStep step C state inputs) : EveryStep step D state inputs := by
  induction inputs generalizing state with
  | nil => trivial
  | cons input rest ih =>
      intro next new stepped
      obtain ⟨condition, later⟩ := every next new stepped
      exact ⟨weaker state input condition, ih later⟩

theorem everyStep_true (state : State) (inputs : List Input) : EveryStep step (fun _ _ => True) state inputs := by
  induction inputs generalizing state with
  | nil => trivial
  | cons input rest ih => exact fun next _ _ => ⟨trivial, ih next⟩

/-- Two conditions that agree under an invariant are met by the same runs. -/
theorem everyStep_congr (Inv : State → Prop) {C D : State → Input → Prop}
    (agree : ∀ state input, Inv state → (C state input ↔ D state input))
    (keep : ∀ state input next new, Inv state → C state input → step state input = some (next, new) → Inv next)
    {state : State} {inputs : List Input} (start : Inv state) :
    EveryStep step C state inputs ↔ EveryStep step D state inputs := by
  induction inputs generalizing state with
  | nil => exact Iff.rfl
  | cons input rest ih =>
      apply forall_congr'
      intro next
      apply forall₂_congr
      intro new stepped
      constructor
      · rintro ⟨condition, later⟩
        have kept := keep state input next new start condition stepped
        exact ⟨(agree state input start).mp condition, (ih kept).mp later⟩
      · rintro ⟨condition, later⟩
        have met := (agree state input start).mpr condition
        exact ⟨met, (ih (keep state input next new start met stepped)).mpr later⟩

/-- A decidable condition is checked along the run. -/
instance decidableEveryStep (C : State → Input → Prop) [∀ state input, Decidable (C state input)] :
    (state : State) → (inputs : List Input) → Decidable (EveryStep step C state inputs)
  | _, [] => isTrue trivial
  | state, input :: rest =>
      match stepped : step state input with
      | none => isTrue fun _ _ taken => by simp [stepped] at taken
      | some (next, new) =>
          have := decidableEveryStep C next rest
          decidable_of_iff (C state input ∧ EveryStep step C next rest)
            ⟨fun facts next' new' taken => by
              obtain ⟨rfl, rfl⟩ := Prod.mk.inj (Option.some.inj (stepped.symm.trans taken))
              exact facts, fun every => every next new stepped⟩

/-- An invariant of the state and the log so far holds after each run whose steps meet the condition. -/
theorem run_invariant_of_everyStep (Inv : State → List Event → Prop) {C : State → Input → Prop}
    (keep : ∀ state log input next new,
      Inv state log → C state input → step state input = some (next, new) → Inv next (log ++ new))
    {state final : State} {log new : List Event} {inputs : List Input} (start : Inv state log)
    (every : EveryStep step C state inputs) (reached : run step state inputs = some (final, new)) :
    Inv final (log ++ new) := by
  induction inputs generalizing state log new with
  | nil =>
      obtain ⟨rfl, rfl⟩ := Prod.mk.inj (Option.some.inj reached)
      simpa using start
  | cons input rest ih =>
      obtain ⟨middle, first, last, stepped, continued, rfl⟩ := run_cons.mp reached
      obtain ⟨condition, later⟩ := every middle first stepped
      rw [← List.append_assoc]
      exact ih (keep state log input middle first start condition stepped) later continued

/-- An invariant of the state and the log so far holds after each run. -/
theorem run_invariant (Inv : State → List Event → Prop)
    (keep : ∀ state log input next new,
      Inv state log → step state input = some (next, new) → Inv next (log ++ new))
    {state final : State} {log new : List Event} {inputs : List Input}
    (start : Inv state log) (reached : run step state inputs = some (final, new)) :
    Inv final (log ++ new) :=
  run_invariant_of_everyStep Inv
    (fun state log input next new invariant _ stepped => keep state log input next new invariant stepped) start
    (everyStep_true state inputs) reached

theorem Always.final {P : State → Prop} {state final : State} {inputs : List Input} {log : List Event}
    (always : Always step P state inputs) (reached : run step state inputs = some (final, log)) : P final := by
  induction inputs generalizing state log with
  | nil =>
      obtain ⟨rfl, rfl⟩ := Prod.mk.inj (Option.some.inj reached)
      exact always
  | cons input rest ih =>
      obtain ⟨middle, first, last, stepped, continued, rfl⟩ := run_cons.mp reached
      exact ih (always.2 middle first stepped) continued

theorem Always.first {P : State → Prop} {state : State} {inputs : List Input}
    (always : Always step P state inputs) : P state := by
  cases inputs with
  | nil => exact always
  | cons => exact always.1

/-- A property that one step keeps exactly under a condition holds throughout a run exactly when
every step meets the condition. -/
theorem always_iff_everyStep (Inv : State → Prop) {P : State → Prop} {C : State → Input → Prop}
    (keep : ∀ state input next new, Inv state → P state → step state input = some (next, new) → Inv next)
    (exact_step : ∀ state input next new,
      Inv state → P state → step state input = some (next, new) → (P next ↔ C state input))
    {state : State} {inputs : List Input} (invariant : Inv state) (start : P state) :
    Always step P state inputs ↔ EveryStep step C state inputs := by
  induction inputs generalizing state with
  | nil => exact ⟨fun _ => trivial, fun _ => start⟩
  | cons input rest ih =>
      constructor
      · intro always next new stepped
        have rest_always := always.2 next new stepped
        have holds := rest_always.first
        exact ⟨(exact_step state input next new invariant start stepped).mp holds,
          (ih (keep state input next new invariant start stepped) holds).mp rest_always⟩
      · intro every
        refine ⟨start, fun next new stepped => ?_⟩
        obtain ⟨condition, rest_every⟩ := every next new stepped
        have holds := (exact_step state input next new invariant start stepped).mpr condition
        exact (ih (keep state input next new invariant start stepped) holds).mpr rest_every

section Observer

variable {Ghost : Type} {update : State → Ghost → Input → State → Ghost}

/-- An observer keeps notes on the steps of a machine and does not change them. -/
def observe (step : State → Input → Option (State × List Event)) (update : State → Ghost → Input → State → Ghost)
    (state : State × Ghost) (input : Input) : Option ((State × Ghost) × List Event) :=
  (step state.1 input).map fun (next, new) => ((next, update state.1 state.2 input next), new)

theorem observe_eq_some {state next : State × Ghost} {input : Input} {new : List Event} :
    observe step update state input = some (next, new) ↔
      step state.1 input = some (next.1, new) ∧ next.2 = update state.1 state.2 input next.1 := by
  rw [observe, Option.map_eq_some_iff]
  constructor
  · rintro ⟨⟨middle, log⟩, stepped, same⟩
    obtain ⟨rfl, rfl⟩ := Prod.mk.inj same
    exact ⟨stepped, rfl⟩
  · rintro ⟨stepped, notes⟩
    exact ⟨(next.1, new), stepped, Prod.ext (Prod.ext rfl notes.symm) rfl⟩

/-- The runs of the observed machine are the runs of the machine. -/
theorem run_observe (state : State) (ghost : Ghost) (inputs : List Input) :
    (run (observe step update) (state, ghost) inputs).map (fun result => (result.1.1, result.2)) =
      run step state inputs := by
  induction inputs generalizing state ghost with
  | nil => rfl
  | cons input rest ih =>
      rw [run, run, observe]
      cases step state input with
      | none => rfl
      | some taken =>
          rw [Option.map_some, Option.bind_some, Option.bind_some, ← ih taken.1 (update state ghost input taken.1)]
          simp only [Option.map_map]
          rfl

end Observer

end LoggedRun
