import Nose.Source.Bucket

/-
This file gives the state machine from `dfa.c` and the matrix of `dfa_state.h`. The tests for null pointers are left
out, and the allocation succeeds.
-/

namespace Nose

/-- The listener is a function that is there or not. -/
structure Dfa where
  matrix : Nat → Int
  m : Nat
  currentState : Int
  callBack : Bool

/-- A call of the listener gets the old state, the new state and the condition. -/
structure StateChange where
  before : Int
  after : Int
  condition : Int
  deriving DecidableEq, Repr

/-- The matrix lies in memory line by line. -/
def Dfa.cell (dfaHandler : Dfa) (line col : Nat) : Int := dfaHandler.matrix (line * dfaHandler.m + col)

/-- The listener is not set here. -/
def initDfa (malloc : Nat → Int) (dfaHandler : Dfa) (matrix : Nat → Int) (m : Nat) (beginState : Int) : Int × Dfa :=
  let copied := (List.range m).foldl (fun copied i =>
    (List.range m).foldl (fun copied j => Function.update copied (i * m + j) (matrix (i * m + j))) copied) malloc
  (ok, { dfaHandler with matrix := copied, m := m, currentState := beginState })

/-- A loop over the lines or the columns skips the names. -/
def Dfa.places (dfaHandler : Dfa) : List Nat := List.range' 1 (dfaHandler.m - 1)

/-- The first search looks for the condition in the column of the current state, and finds the name of a line. -/
def Dfa.columnFirst (dfaHandler : Dfa) (condition : Int) : Option Int :=
  dfaHandler.places.findSome? fun col =>
    if dfaHandler.cell 0 col = dfaHandler.currentState then
      (dfaHandler.places.find? fun line => dfaHandler.cell line col = condition).map fun line => dfaHandler.cell line 0
    else none

def Dfa.lineFirst (dfaHandler : Dfa) (condition : Int) : Option Int :=
  dfaHandler.places.findSome? fun line =>
    if dfaHandler.cell line 0 = dfaHandler.currentState then
      (dfaHandler.places.find? fun col => dfaHandler.cell line col = condition).map fun col => dfaHandler.cell 0 col
    else none

/-- The last result is the call of the listener. -/
def setNextDfaState (dfaHandler : Dfa) (condition : Int) : Int × Dfa × Option StateChange :=
  match (dfaHandler.columnFirst condition).or (dfaHandler.lineFirst condition) with
  | some state =>
      (ok, { dfaHandler with currentState := state },
        if dfaHandler.callBack then some ⟨dfaHandler.currentState, state, condition⟩ else none)
  | none => (error, dfaHandler, none)

def stateM : Nat := 5

/-- These are the states of the virtual network. -/
def sStart : Int := 1

def sAuthen : Int := 2

def sKeyEx : Int := 3

def sRun : Int := 4

/-- These are the conditions of the virtual network. -/
def cStartAuthen : Int := 1

def cAuthenFailed : Int := 2

def cStartKeyexc : Int := 3

def cKeyExecFailed : Int := 4

def cKeyExecSuccess : Int := 5

def cSendPayLoad : Int := 6

def stateMatrix : Nat → Int := fun place =>
  [0, sStart, sAuthen, sKeyEx, sRun,
    sStart, 0, cStartAuthen, 0, 0,
    sAuthen, cAuthenFailed, 0, cStartKeyexc, 0,
    sKeyEx, 0, cKeyExecFailed, 0, cKeyExecSuccess,
    sRun, 0, 0, 0, cSendPayLoad].getD place 0

end Nose
