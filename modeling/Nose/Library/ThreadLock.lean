import Mathlib.Tactic

/-
This file gives the code of one thread that uses a mutex which is not recursive.
-/

namespace ThreadLock

/-- The code returns, or waits for a mutex that its own thread holds, or stops the program. -/
inductive Outcome (α : Type) where
  | returned (value : α) (held : Bool)
  | blocked
  | crashed
  deriving DecidableEq, Repr

/-- The code finds out whether its thread holds the mutex. -/
def Locked (α : Type) : Type := Bool → Outcome α

def Outcome.next {α β : Type} : Outcome α → (α → Locked β) → Outcome β
  | .returned value held, rest => rest value held
  | .blocked, _ => .blocked
  | .crashed, _ => .crashed

instance : Monad Locked where
  pure value := fun held => .returned value held
  bind body rest := fun held => (body held).next rest

def mutexInit : Locked Unit := fun _ => .returned () false

def mutexLock : Locked Unit := fun held => if held then .blocked else .returned () true

def mutexUnlock : Locked Unit := fun _ => .returned () false

def crash {α : Type} : Locked α := fun _ => .crashed

variable {α β : Type}

@[simp] theorem pure_apply (value : α) (held : Bool) : (pure value : Locked α) held = .returned value held := rfl

@[simp] theorem bind_apply (body : Locked α) (rest : α → Locked β) (held : Bool) :
    (body >>= rest) held = (body held).next rest := rfl

@[simp] theorem next_returned (value : α) (held : Bool) (rest : α → Locked β) :
    (Outcome.returned value held).next rest = rest value held := rfl

@[simp] theorem next_blocked (rest : α → Locked β) : (Outcome.blocked : Outcome α).next rest = .blocked := rfl

@[simp] theorem next_crashed (rest : α → Locked β) : (Outcome.crashed : Outcome α).next rest = .crashed := rfl

@[simp] theorem mutexInit_apply (held : Bool) : mutexInit held = .returned () false := rfl

@[simp] theorem mutexLock_free : mutexLock false = .returned () true := rfl

@[simp] theorem mutexLock_held : mutexLock true = .blocked := rfl

@[simp] theorem mutexUnlock_apply (held : Bool) : mutexUnlock held = .returned () false := rfl

@[simp] theorem crash_apply (held : Bool) : (crash : Locked α) held = .crashed := rfl

/-- The mutex is locked around a part that does not use it. -/
def critical (value : α) : Locked α := do
  mutexLock
  let result := value
  mutexUnlock
  return result

/-- From a free mutex, a critical part returns with the mutex free. -/
@[simp] theorem critical_free (value : α) : critical value false = .returned value false := rfl

/-- The code keeps to the mutex: from a free mutex it does not block, and returns with the mutex free. -/
def KeepsLock (code : Locked α) : Prop :=
  code false ≠ .blocked ∧ ∀ value held, code false = .returned value held → held = false

theorem keepsLock_of_returned {code : Locked α} {value : α} (returned : code false = .returned value false) :
    KeepsLock code := by
  constructor
  · rw [returned]
    exact nofun
  · intro other held same
    rw [returned] at same
    injection same with _ free
    exact free.symm

theorem keepsLock_of_crashed {code : Locked α} (crashed : code false = .crashed) : KeepsLock code := by
  constructor
  · rw [crashed]
    exact nofun
  · intro other held same
    rw [crashed] at same
    cases same

theorem not_keepsLock_of_blocked {code : Locked α} (blocked : code false = .blocked) : ¬ KeepsLock code :=
  fun keeps => keeps.1 blocked

end ThreadLock
