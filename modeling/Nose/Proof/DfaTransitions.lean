import Nose.Library.LoggedRun
import Nose.Source.Dfa

namespace Nose

/-- The first line and the first column list the same states, and these are different. -/
structure Dfa.Names (dfaHandler : Dfa) : Prop where
  same : ∀ place ∈ dfaHandler.places, dfaHandler.cell place 0 = dfaHandler.cell 0 place
  distinct : ∀ place ∈ dfaHandler.places, ∀ other ∈ dfaHandler.places,
    dfaHandler.cell place 0 = dfaHandler.cell other 0 → place = other

/-- Each line has at most one cell with the condition. -/
def Dfa.Unambiguous (dfaHandler : Dfa) (condition : Int) : Prop :=
  ∀ line ∈ dfaHandler.places, ∀ col ∈ dfaHandler.places, ∀ other ∈ dfaHandler.places,
    dfaHandler.cell line col = condition → dfaHandler.cell line other = condition → col = other

/-- The machine takes a transition of its state, and refuses a condition that its state does not have. -/
structure Dfa.Follows (dfaHandler : Dfa) (condition : Int) : Prop where
  taken : ∀ row ∈ dfaHandler.places, dfaHandler.cell row 0 = dfaHandler.currentState →
    ∀ col ∈ dfaHandler.places, dfaHandler.cell row col = condition →
      (setNextDfaState dfaHandler condition).1 = ok ∧
        (setNextDfaState dfaHandler condition).2.1 = { dfaHandler with currentState := dfaHandler.cell 0 col }
  refused : ∀ row ∈ dfaHandler.places, dfaHandler.cell row 0 = dfaHandler.currentState →
    (∀ col ∈ dfaHandler.places, dfaHandler.cell row col ≠ condition) →
      setNextDfaState dfaHandler condition = (error, dfaHandler, none)

/-- The first line that has the condition in the column of the state is reached from the state by that condition. -/
def Dfa.Agrees (dfaHandler : Dfa) (condition : Int) : Prop :=
  ∀ row ∈ dfaHandler.places, dfaHandler.cell row 0 = dfaHandler.currentState →
    ∀ line ∈ dfaHandler.places, dfaHandler.cell line row = condition →
      (∀ earlier ∈ dfaHandler.places, earlier < line → dfaHandler.cell earlier row ≠ condition) →
        dfaHandler.cell row line = condition

/-- A search that can succeed at one element only has the result of that element. -/
theorem findSome?_single {α β : Type} {list : List α} {search : α → Option β} {single : α} (member : single ∈ list)
    (others : ∀ a ∈ list, a ≠ single → search a = none) : list.findSome? search = search single := by
  induction list with
  | nil => cases member
  | cons head rest ih =>
      rw [List.findSome?_cons]
      cases found : search head with
      | some value =>
          have same : head = single := by
            by_contra different
            rw [others head List.mem_cons_self different] at found
            cases found
          rw [← same, found]
      | none =>
          rcases List.mem_cons.mp member with rfl | later
          · have nothing : ∀ a ∈ rest, search a = none := fun a inside => by
              by_cases same : a = single
              · rw [same, found]
              · exact others a (List.mem_cons_of_mem _ inside) same
            rw [found]
            exact List.findSome?_eq_none_iff.mpr nothing
          · exact ih later fun a inside => others a (List.mem_cons_of_mem _ inside)

section Step

variable {dfaHandler : Dfa} {condition : Int} (names : dfaHandler.Names) {row : Nat} (inside : row ∈ dfaHandler.places)
  (current : dfaHandler.cell row 0 = dfaHandler.currentState)

include names inside current

/-- The current state has one line only. -/
theorem Dfa.row_unique {row' : Nat} (inside' : row' ∈ dfaHandler.places)
    (current' : dfaHandler.cell row' 0 = dfaHandler.currentState) : row' = row :=
  names.distinct row' inside' row inside (current'.trans current.symm)

/-- The first search runs through the column of the current state only. -/
theorem Dfa.columnFirst_eq : dfaHandler.columnFirst condition =
    (dfaHandler.places.find? fun line => dfaHandler.cell line row = condition).map
      fun line => dfaHandler.cell line 0 := by
  have here : dfaHandler.cell 0 row = dfaHandler.currentState := (names.same row inside).symm.trans current
  rw [Dfa.columnFirst, findSome?_single inside, if_pos here]
  intro col member different
  rw [if_neg]
  intro same
  rw [← names.same col member, ← current] at same
  exact different (names.distinct col member row inside same)

/-- The second search runs through the line of the current state only. -/
theorem Dfa.lineFirst_eq : dfaHandler.lineFirst condition =
    (dfaHandler.places.find? fun col => dfaHandler.cell row col = condition).map fun col => dfaHandler.cell 0 col := by
  rw [Dfa.lineFirst, findSome?_single inside, if_pos current]
  intro line member different
  rw [if_neg]
  intro same
  rw [← current] at same
  exact different (names.distinct line member row inside same)

/-- The second search finds the only transition with the condition. -/
theorem Dfa.lineFirst_found (single : dfaHandler.Unambiguous condition) {col : Nat} (member : col ∈ dfaHandler.places)
    (here : dfaHandler.cell row col = condition) : dfaHandler.lineFirst condition = some (dfaHandler.cell 0 col) := by
  obtain ⟨other, found⟩ : ∃ other,
      dfaHandler.places.find? (fun other => dfaHandler.cell row other = condition) = some other := by
    rw [← Option.isSome_iff_exists, List.find?_isSome]
    exact ⟨col, member, by simpa using here⟩
  have passes : dfaHandler.cell row other = condition := by simpa using List.find?_some found
  have same : col = other := single row inside col member other (List.mem_of_find?_eq_some found) here passes
  rw [dfaHandler.lineFirst_eq names inside current, found, same]
  rfl

theorem Dfa.lineFirst_missing (absent : ∀ col ∈ dfaHandler.places, dfaHandler.cell row col ≠ condition) :
    dfaHandler.lineFirst condition = none := by
  rw [dfaHandler.lineFirst_eq names inside current, Option.map_eq_none_iff, List.find?_eq_none]
  intro col member
  simpa using absent col member

/-- Without the condition in the column of the state, the machine follows its transitions. -/
theorem Dfa.follows_of_column_free (single : dfaHandler.Unambiguous condition)
    (free : ∀ line ∈ dfaHandler.places, dfaHandler.cell line row ≠ condition) : dfaHandler.Follows condition := by
  have nothing : dfaHandler.columnFirst condition = none := by
    rw [dfaHandler.columnFirst_eq names inside current, Option.map_eq_none_iff, List.find?_eq_none]
    intro line member
    simpa using free line member
  constructor
  · intro row' inside' current' col member here
    obtain rfl := dfaHandler.row_unique names inside current inside' current'
    rw [setNextDfaState, nothing, Option.none_or, dfaHandler.lineFirst_found names inside' current' single member here]
    exact ⟨rfl, rfl⟩
  · intro row' inside' current' absent
    obtain rfl := dfaHandler.row_unique names inside current inside' current'
    rw [setNextDfaState, nothing, Option.none_or, dfaHandler.lineFirst_missing names inside' current' absent]

/-- A line with the condition in the column of the state is where the machine goes. -/
theorem Dfa.setNextDfaState_column {line : Nat} (member : line ∈ dfaHandler.places)
    (here : dfaHandler.cell line row = condition)
    (first : ∀ earlier ∈ dfaHandler.places, earlier < line → dfaHandler.cell earlier row ≠ condition) :
    (setNextDfaState dfaHandler condition).1 = ok ∧
      (setNextDfaState dfaHandler condition).2.1 = { dfaHandler with currentState := dfaHandler.cell line 0 } := by
  have found : dfaHandler.places.find? (fun line => dfaHandler.cell line row = condition) = some line := by
    rw [Dfa.places, List.find?_range'_eq_some]
    refine ⟨by simpa using here, member, fun earlier after before => ?_⟩
    have place : earlier ∈ dfaHandler.places := by
      rw [Dfa.places, List.mem_range'_1] at member ⊢
      omega
    simpa using first earlier place before
  rw [setNextDfaState, dfaHandler.columnFirst_eq names inside current, found]
  exact ⟨rfl, rfl⟩

/-- The machine follows its transitions at a condition exactly when the search in the column agrees with them. -/
theorem Dfa.follows_iff (single : dfaHandler.Unambiguous condition) :
    dfaHandler.Follows condition ↔ dfaHandler.Agrees condition := by
  constructor
  · intro follows row' inside' current' line member here first
    obtain ⟨status, moved⟩ := dfaHandler.setNextDfaState_column names inside' current' member here first
    by_cases absent : ∀ col ∈ dfaHandler.places, dfaHandler.cell row' col ≠ condition
    · rw [follows.refused row' inside' current' absent] at status
      cases status
    · push Not at absent
      obtain ⟨col, place, there⟩ := absent
      have target := (follows.taken row' inside' current' col place there).2
      rw [moved] at target
      have equal : dfaHandler.cell line 0 = dfaHandler.cell 0 col := congrArg Dfa.currentState target
      rw [← names.same col place] at equal
      rwa [names.distinct line member col place equal]
  · intro agrees
    cases found : dfaHandler.places.find? (fun line => dfaHandler.cell line row = condition) with
    | none =>
        apply dfaHandler.follows_of_column_free names inside current single
        intro line member
        simpa using List.find?_eq_none.mp found line member
    | some line =>
        rw [Dfa.places, List.find?_range'_eq_some] at found
        obtain ⟨here, member, before⟩ := found
        have here : dfaHandler.cell line row = condition := by simpa using here
        have first : ∀ earlier ∈ dfaHandler.places, earlier < line → dfaHandler.cell earlier row ≠ condition := by
          intro earlier place less
          rw [Dfa.places, List.mem_range'_1] at place
          simpa using before earlier place.1 less
        have there := agrees row inside current line member here first
        obtain ⟨status, moved⟩ := dfaHandler.setNextDfaState_column names inside current member here first
        constructor
        · intro row' inside' current' col place target
          obtain rfl := dfaHandler.row_unique names inside current inside' current'
          rw [← single row' inside line member col place there target, ← names.same line member]
          exact ⟨status, moved⟩
        · intro row' inside' current' absent
          obtain rfl := dfaHandler.row_unique names inside current inside' current'
          exact absurd there (absent line member)

end Step

/-- The inner loop copies one line. -/
theorem copyLine_apply (matrix copied : Nat → Int) (start n k : Nat) :
    (List.range n).foldl (fun copied j => Function.update copied (start + j) (matrix (start + j))) copied k =
      if start ≤ k ∧ k < start + n then matrix k else copied k := by
  induction n with
  | zero => rw [if_neg (by omega), List.range_zero, List.foldl_nil]
  | succ n ih =>
      rw [List.range_succ, List.foldl_append, List.foldl_cons, List.foldl_nil, Function.update_apply, ih]
      by_cases same : k = start + n
      · rw [if_pos same, if_pos (by omega), same]
      · rw [if_neg same]
        by_cases inside : start ≤ k ∧ k < start + n
        · rw [if_pos inside, if_pos (by omega)]
        · rw [if_neg inside, if_neg (by omega)]

/-- Both loops copy all cells. -/
theorem copyLines_apply (matrix copied : Nat → Int) (m n k : Nat) :
    (List.range n).foldl (fun copied i =>
      (List.range m).foldl (fun copied j => Function.update copied (i * m + j) (matrix (i * m + j))) copied) copied k =
        if k < n * m then matrix k else copied k := by
  induction n with
  | zero => rw [if_neg (by omega), List.range_zero, List.foldl_nil]
  | succ n ih =>
      rw [List.range_succ, List.foldl_append, List.foldl_cons, List.foldl_nil, copyLine_apply, ih, Nat.succ_mul]
      by_cases earlier : k < n * m
      · rw [if_neg (by omega), if_pos earlier, if_pos (by omega)]
      · by_cases inside : k < n * m + m
        · rw [if_pos (by omega), if_pos inside]
        · rw [if_neg (by omega), if_neg earlier, if_neg inside]

/-- The initial machine has the cells of the matrix. -/
theorem initDfa_cell (malloc : Nat → Int) (dfaHandler : Dfa) (matrix : Nat → Int) (m : Nat) (beginState : Int)
    {line col : Nat} (inside : line < m) (within : col < m) :
    (initDfa malloc dfaHandler matrix m beginState).2.cell line col = matrix (line * m + col) := by
  have place : line * m + col < m * m := by
    calc line * m + col < line * m + m := by omega
      _ = (line + 1) * m := (Nat.succ_mul line m).symm
      _ ≤ m * m := Nat.mul_le_mul_right m inside
  simp only [initDfa, Dfa.cell, copyLines_apply, if_pos place]

/-- A step logs its condition. -/
def dfaStep (dfaHandler : Dfa) (condition : Int) : Option (Dfa × List Int) :=
  some ((setNextDfaState dfaHandler condition).2.1, [condition])

/-- The machine of the virtual network is in one of its states and still has its matrix. -/
structure OnStateMatrix (dfaHandler : Dfa) : Prop where
  m : dfaHandler.m = stateM
  cell : ∀ line < stateM, ∀ col < stateM, dfaHandler.cell line col = stateMatrix (line * stateM + col)
  state : dfaHandler.currentState ∈ [sStart, sAuthen, sKeyEx, sRun]

theorem initDfa_onStateMatrix (malloc : Nat → Int) (old : Dfa) :
    OnStateMatrix (initDfa malloc old stateMatrix stateM sStart).2 where
  m := rfl
  cell _ inside _ within := initDfa_cell malloc old stateMatrix stateM sStart inside within
  state := List.mem_cons_self

/-- These are the transitions of the matrix from a line to a column. -/
def stateEdges : List (Nat × Nat × Int) :=
  [(1, 2, cStartAuthen), (2, 1, cAuthenFailed), (2, 3, cStartKeyexc), (3, 2, cKeyExecFailed), (3, 4, cKeyExecSuccess),
    (4, 4, cSendPayLoad)]

theorem stateMatrix_edges : ∀ line ∈ List.range' 1 4, ∀ col ∈ List.range' 1 4,
    stateMatrix (line * stateM + col) = 0 ∨ (line, col, stateMatrix (line * stateM + col)) ∈ stateEdges := by
  decide

section StateMatrix

variable {dfaHandler : Dfa} (machine : OnStateMatrix dfaHandler)

include machine

theorem OnStateMatrix.places : dfaHandler.places = List.range' 1 4 := by
  rw [Dfa.places, machine.m]
  rfl

theorem OnStateMatrix.place_lt {place : Nat} (inside : place ∈ dfaHandler.places) : 1 ≤ place ∧ place < stateM := by
  rw [machine.places, List.mem_range'_1] at inside
  exact inside

/-- The states are numbered in their order. -/
theorem OnStateMatrix.name {place : Nat} (inside : place ∈ dfaHandler.places) :
    dfaHandler.cell place 0 = place ∧ dfaHandler.cell 0 place = place := by
  have table : ∀ place ∈ List.range' 1 4, stateMatrix (place * stateM + 0) = place ∧
      stateMatrix (0 * stateM + place) = place := by decide
  have bound := (machine.place_lt inside).2
  rw [machine.cell place bound 0 (by decide), machine.cell 0 (by decide) place bound]
  exact table place (machine.places ▸ inside)

theorem OnStateMatrix.names : dfaHandler.Names where
  same place inside := (machine.name inside).1.trans (machine.name inside).2.symm
  distinct place inside other within same := by
    rw [(machine.name inside).1, (machine.name within).1] at same
    exact_mod_cast same

/-- A condition is on a transition of the matrix. -/
theorem OnStateMatrix.edge {line col : Nat} {condition : Int} (inside : line ∈ dfaHandler.places)
    (within : col ∈ dfaHandler.places) (labels : condition ≠ 0) (here : dfaHandler.cell line col = condition) :
    (line, col, condition) ∈ stateEdges := by
  rw [machine.cell line (machine.place_lt inside).2 col (machine.place_lt within).2] at here
  rcases stateMatrix_edges line (machine.places ▸ inside) col (machine.places ▸ within) with filler | edge
  · exact absurd (here.symm.trans filler) labels
  · rwa [here] at edge

theorem OnStateMatrix.unambiguous {condition : Int} (labels : condition ≠ 0) : dfaHandler.Unambiguous condition := by
  have table : ∀ first ∈ stateEdges, ∀ second ∈ stateEdges, first.1 = second.1 → first.2.2 = second.2.2 →
      first.2.1 = second.2.1 := by decide
  intro line inside col within other within' here there
  exact table _ (machine.edge inside within labels here) _ (machine.edge inside within' labels there) rfl rfl

/-- The current state has its line in the matrix. -/
theorem OnStateMatrix.row : ∃ row ∈ dfaHandler.places, dfaHandler.cell row 0 = dfaHandler.currentState := by
  have numbers : ∀ state ∈ [sStart, sAuthen, sKeyEx, sRun], ∃ row ∈ List.range' 1 4, (row : Int) = state := by decide
  obtain ⟨row, inside, number⟩ := numbers _ machine.state
  rw [← machine.places] at inside
  exact ⟨row, inside, (machine.name inside).1.trans number⟩

/-- A step that agrees with the transitions takes one of them or leaves the machine as it is. -/
theorem OnStateMatrix.step {condition : Int} (labels : condition ≠ 0) (agrees : dfaHandler.Agrees condition) :
    setNextDfaState dfaHandler condition = (error, dfaHandler, none) ∨
      ∃ line col, (line, col, condition) ∈ stateEdges ∧ dfaHandler.currentState = line ∧
        (setNextDfaState dfaHandler condition).2.1 = { dfaHandler with currentState := col } := by
  obtain ⟨row, inside, current⟩ := machine.row
  have follows := (dfaHandler.follows_iff machine.names inside current (machine.unambiguous labels)).mpr agrees
  by_cases absent : ∀ col ∈ dfaHandler.places, dfaHandler.cell row col ≠ condition
  · exact .inl (follows.refused row inside current absent)
  · push Not at absent
    obtain ⟨col, place, here⟩ := absent
    refine .inr ⟨row, col, machine.edge inside place labels here, ?_, ?_⟩
    · rw [← current, (machine.name inside).1]
    · rw [(follows.taken row inside current col place here).2, (machine.name place).2]

end StateMatrix

/-- The conditions so far lead to the state. -/
structure Reached (dfaHandler : Dfa) (conditions : List Int) : Prop where
  machine : OnStateMatrix dfaHandler
  authen : dfaHandler.currentState = sAuthen → cStartAuthen ∈ conditions
  keyEx : dfaHandler.currentState = sKeyEx ∨ dfaHandler.currentState = sRun →
    [cStartAuthen, cStartKeyexc].Sublist conditions

/-- A step that agrees with the transitions keeps the state reached. -/
theorem Reached.step {dfaHandler : Dfa} {conditions : List Int} {condition : Int} (labels : condition ≠ 0)
    (reached : Reached dfaHandler conditions) (agrees : dfaHandler.Agrees condition) :
    Reached (setNextDfaState dfaHandler condition).2.1 (conditions ++ [condition]) := by
  obtain ⟨machine, authen, keyEx⟩ := reached
  have longer : conditions.Sublist (conditions ++ [condition]) := List.sublist_append_left _ _
  rcases machine.step labels agrees with refused | ⟨line, col, edge, current, moved⟩
  · rw [refused]
    exact ⟨machine, fun state => longer.subset (authen state), fun state => (keyEx state).trans longer⟩
  · rw [moved]
    have begun : [cStartAuthen, cStartKeyexc].Sublist conditions → cStartAuthen ∈ conditions :=
      fun both => both.subset List.mem_cons_self
    have arrive (state : Int) (known : state ∈ [sStart, sAuthen, sKeyEx, sRun])
        (authen : state = sAuthen → cStartAuthen ∈ conditions ++ [condition])
        (keyEx : state = sKeyEx ∨ state = sRun → [cStartAuthen, cStartKeyexc].Sublist (conditions ++ [condition])) :
        Reached { dfaHandler with currentState := state } (conditions ++ [condition]) :=
      ⟨⟨machine.m, machine.cell, known⟩, authen, keyEx⟩
    simp only [stateEdges, List.mem_cons, Prod.mk.injEq, List.not_mem_nil, or_false] at edge
    rcases edge with ⟨rfl, rfl, rfl⟩ | ⟨rfl, rfl, rfl⟩ | ⟨rfl, rfl, rfl⟩ | ⟨rfl, rfl, rfl⟩ | ⟨rfl, rfl, rfl⟩ |
      ⟨rfl, rfl, rfl⟩
    · exact arrive 2 (by decide) (fun _ => by simp) fun other => absurd other (by decide)
    · exact arrive 1 (by decide) (fun other => absurd other (by decide)) fun other => absurd other (by decide)
    · exact arrive 3 (by decide) (fun other => absurd other (by decide)) fun _ =>
        (List.singleton_sublist.mpr (authen current)).append (List.Sublist.refl [cStartKeyexc])
    · exact arrive 2 (by decide) (fun _ => longer.subset (begun (keyEx (.inl current))))
        fun other => absurd other (by decide)
    · exact arrive 4 (by decide) (fun other => absurd other (by decide)) fun _ => (keyEx (.inl current)).trans longer
    · exact arrive 4 (by decide) (fun other => absurd other (by decide)) fun _ => (keyEx (.inr current)).trans longer

/-- Only the success of a key exchange enters the running state. -/
theorem Reached.enters_run {dfaHandler : Dfa} {conditions : List Int} {condition : Int} (labels : condition ≠ 0)
    (reached : Reached dfaHandler conditions) (agrees : dfaHandler.Agrees condition)
    (entered : (setNextDfaState dfaHandler condition).2.1.currentState = sRun)
    (elsewhere : dfaHandler.currentState ≠ sRun) :
    condition = cKeyExecSuccess ∧ [cStartAuthen, cStartKeyexc].Sublist conditions := by
  rcases reached.machine.step labels agrees with refused | ⟨line, col, edge, current, moved⟩
  · rw [refused] at entered
    exact absurd entered elsewhere
  · rw [moved] at entered
    have arrivals : ∀ edge ∈ stateEdges, (edge.2.1 : Int) = sRun → (edge.1 : Int) ≠ sRun →
        edge.2.2 = cKeyExecSuccess ∧ (edge.1 : Int) = sKeyEx := by decide
    obtain ⟨success, before⟩ := arrivals _ edge entered (current ▸ elsewhere)
    exact ⟨success, reached.keyEx (.inl (current.trans before))⟩

/-- The condition is one of the virtual network, and the step agrees with the transitions. -/
structure ForwardStep (dfaHandler : Dfa) (condition : Int) : Prop where
  known : cStartAuthen ≤ condition ∧ condition ≤ cSendPayLoad
  agrees : dfaHandler.Agrees condition

theorem ForwardStep.labels {dfaHandler : Dfa} {condition : Int} (forward : ForwardStep dfaHandler condition) :
    condition ≠ 0 := by
  have lower : 1 ≤ condition := forward.known.1
  omega

theorem start_reached (malloc : Nat → Int) (old : Dfa) :
    Reached (initDfa malloc old stateMatrix stateM sStart).2 [] := by
  have begun : (initDfa malloc old stateMatrix stateM sStart).2.currentState = sStart := rfl
  refine ⟨initDfa_onStateMatrix malloc old, ?_, ?_⟩ <;> rw [begun]
  · exact fun other => absurd other (by decide)
  · exact fun other => absurd other (by decide)

/-- The machine follows its transitions at a condition exactly when the search in the column agrees with them. In every
run of the virtual network whose steps agree, the running state is entered only by a successful key exchange after the
start of an authentication and a later start of a key exchange. -/
theorem dfa_follows_iff (dfaHandler : Dfa) (condition : Int) (names : dfaHandler.Names)
    (single : dfaHandler.Unambiguous condition)
    (current : ∃ row ∈ dfaHandler.places, dfaHandler.cell row 0 = dfaHandler.currentState) :
    (dfaHandler.Follows condition ↔ dfaHandler.Agrees condition) ∧
      ∀ (malloc : Nat → Int) (old running : Dfa) (conditions log : List Int) (last : Int),
        let start := (initDfa malloc old stateMatrix stateM sStart).2
        LoggedRun.run dfaStep start conditions = some (running, log) →
          LoggedRun.EveryStep dfaStep ForwardStep start conditions → ForwardStep running last →
            (setNextDfaState running last).2.1.currentState = sRun → running.currentState ≠ sRun →
              last = cKeyExecSuccess ∧ [cStartAuthen, cStartKeyexc].Sublist log := by
  constructor
  · obtain ⟨row, inside, here⟩ := current
    exact dfaHandler.follows_iff names inside here single
  · intro malloc old running conditions log last start run every forward entered elsewhere
    have reached := LoggedRun.run_invariant_of_everyStep Reached
      (fun before log condition next new reached forward stepped => by
        obtain ⟨rfl, rfl⟩ := Prod.mk.inj (Option.some.inj stepped)
        exact reached.step forward.labels forward.agrees) (start_reached malloc old) every run
    exact reached.enters_run forward.labels forward.agrees entered elsewhere

instance (dfaHandler : Dfa) (condition : Int) : Decidable (dfaHandler.Unambiguous condition) :=
  inferInstanceAs (Decidable (∀ _ ∈ _, ∀ _ ∈ _, ∀ _ ∈ _, _))

instance (dfaHandler : Dfa) (condition : Int) : Decidable (dfaHandler.Agrees condition) :=
  inferInstanceAs (Decidable (∀ _ ∈ _, _ → ∀ _ ∈ _, _ → (∀ _ ∈ _, _ → _) → _))

instance (dfaHandler : Dfa) (condition : Int) : Decidable (ForwardStep dfaHandler condition) :=
  decidable_of_iff ((cStartAuthen ≤ condition ∧ condition ≤ cSendPayLoad) ∧ dfaHandler.Agrees condition)
    ⟨fun both => ⟨both.1, both.2⟩, fun forward => ⟨forward.known, forward.agrees⟩⟩

def blankDfa : Dfa := ⟨fun _ => 0, 0, 0, true⟩

def startDfa : Dfa := (initDfa (fun _ => 0) blankDfa stateMatrix stateM sStart).2

theorem startDfa_row : ∃ row ∈ startDfa.places, startDfa.cell row 0 = startDfa.currentState := ⟨1, by decide, by decide⟩

def dfaAfter (conditions : List Int) : Dfa :=
  conditions.foldl (fun dfaHandler condition => (setNextDfaState dfaHandler condition).2.1) startDfa

/-- The run of the test enters the running state after its authentication and its second key exchange. -/
theorem dfa_follows_sample : (startDfa.Follows cStartAuthen ↔ startDfa.Agrees cStartAuthen) ∧
    [cStartAuthen, cStartKeyexc].Sublist [cStartAuthen, cStartKeyexc, cKeyExecFailed, cStartKeyexc] := by
  obtain ⟨step, run⟩ := dfa_follows_iff startDfa cStartAuthen (initDfa_onStateMatrix _ _).names (by decide) startDfa_row
  exact ⟨step, (run (fun _ => 0) blankDfa (dfaAfter [cStartAuthen, cStartKeyexc, cKeyExecFailed, cStartKeyexc])
    [cStartAuthen, cStartKeyexc, cKeyExecFailed, cStartKeyexc]
    [cStartAuthen, cStartKeyexc, cKeyExecFailed, cStartKeyexc] cKeyExecSuccess rfl (by decide +kernel) (by decide +kernel)
      (by decide +kernel) (by decide +kernel)).2⟩

/-- A failed authentication leads from the start to the authentication, and a failed key exchange from there to the key
exchange, so its success enters the running state although neither was started. -/
theorem dfa_runs_backwards :
    startDfa.Names ∧ startDfa.Unambiguous cAuthenFailed ∧ ¬ startDfa.Follows cAuthenFailed ∧
      LoggedRun.run dfaStep startDfa [cAuthenFailed, cKeyExecFailed] =
          some (dfaAfter [cAuthenFailed, cKeyExecFailed], [cAuthenFailed, cKeyExecFailed]) ∧
        (setNextDfaState (dfaAfter [cAuthenFailed, cKeyExecFailed]) cKeyExecSuccess).2.1.currentState = sRun ∧
          (dfaAfter [cAuthenFailed, cKeyExecFailed]).currentState ≠ sRun ∧
            ¬ [cStartAuthen, cStartKeyexc].Sublist [cAuthenFailed, cKeyExecFailed] := by
  refine ⟨(initDfa_onStateMatrix _ _).names, by decide, ?_, rfl, by decide +kernel, by decide +kernel, by decide⟩
  intro follows
  have refused := follows.refused 1 (by decide) (by decide) (by decide)
  have status : (setNextDfaState startDfa cAuthenFailed).1 = ok := by decide
  rw [refused] at status
  cases status

end Nose
