import EngineClient.Task

/-!
# Tasks that take turns

Any number of tasks work on one state. A schedule says, turn by turn, which task takes a step or is dropped; a `Run`
is a pool with a schedule. What holds of every run at every time holds whatever the order of the steps.
-/

namespace EngineClient

/-- A task takes a step, or is dropped. -/
inductive Turn
  | step (i : Nat)
  | drop (i : Nat)
  deriving DecidableEq

/-- Tasks on one state; a task that was dropped is none. -/
structure Pool (σ α : Type) where
  tasks : Nat → Option (Task σ α)
  state : σ

namespace Pool

def set (p : Pool σ α) (i : Nat) (t : Option (Task σ α)) (s : σ) : Pool σ α :=
  { tasks := fun j => if j = i then t else p.tasks j, state := s }

/-- One turn. A task that is done or was dropped takes no steps. -/
def turn (p : Pool σ α) : Turn → Pool σ α
  | .step i =>
    match (p.tasks i).bind fun t => t.step? p.state with
    | some (t, s) => p.set i (some t) s
    | none => p
  | .drop i => p.set i none p.state

end Pool

/-- A pool with a schedule. -/
structure Run (σ α : Type) where
  start : Pool σ α
  turns : Nat → Turn

namespace Run

def pool (r : Run σ α) : Nat → Pool σ α
  | 0 => r.start
  | n + 1 => (r.pool n).turn (r.turns n)

def state (r : Run σ α) (n : Nat) : σ :=
  (r.pool n).state

def task (r : Run σ α) (i n : Nat) : Option (Task σ α) :=
  (r.pool n).tasks i

end Run
end EngineClient
