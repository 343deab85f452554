/-!
# Tasks

Work on a shared state in atomic steps, some of which come only after a wait for the network. A task can run to its
end alone, be started and left at its first wait, or take its steps in turn with others.
-/

namespace EngineClient

/-- Work on a state `σ` that ends with a value `α`. Each step changes the state and goes on by what the state was
before it. -/
inductive Task (σ α : Type) where
  | done (a : α)
  | act (change : σ → σ) (next : σ → Task σ α)
  /-- A step that is taken only after a wait. -/
  | wait (change : σ → σ) (next : σ → Task σ α)

namespace Task

def andThen : Task σ α → (α → Task σ β) → Task σ β
  | done a, k => k a
  | act change next, k => act change fun s => (next s).andThen k
  | wait change next, k => wait change fun s => (next s).andThen k

instance : Monad (Task σ) where
  pure := done
  bind := andThen

def atom (f : σ → α × σ) : Task σ α :=
  act (fun s => (f s).2) fun s => done (f s).1

def read (f : σ → α) : Task σ α :=
  act id fun s => done (f s)

def update (f : σ → σ) : Task σ Unit :=
  act f fun _ => done ()

def afterWait (f : σ → α × σ) : Task σ α :=
  wait (fun s => (f s).2) fun s => done (f s).1

def within (get : τ → σ) (put : σ → τ → τ) : Task σ α → Task τ α
  | done a => done a
  | act change next => act (fun t => put (change (get t)) t) fun t => (next (get t)).within get put
  | wait change next => wait (fun t => put (change (get t)) t) fun t => (next (get t)).within get put

def run : Task σ α → σ → α × σ
  | done a, s => (a, s)
  | act change next, s => (next s).run (change s)
  | wait change next, s => (next s).run (change s)

/-- Runs a task up to its first wait. -/
def start : Task σ α → σ → Task σ α × σ
  | act change next, s => (next s).start (change s)
  | t, s => (t, s)

/-- One step of a task, none if it is done. -/
def step? : Task σ α → σ → Option (Task σ α × σ)
  | done _, _ => none
  | act change next, s => some (next s, change s)
  | wait change next, s => some (next s, change s)

def value? : Task σ α → Option α
  | done a => some a
  | _ => none

@[simp]
theorem pure_eq (a : α) : (pure a : Task σ α) = done a := rfl

@[simp]
theorem bind_eq (t : Task σ α) (k : α → Task σ β) : t >>= k = t.andThen k := rfl

theorem run_andThen (t : Task σ α) (k : α → Task σ β) (s : σ) :
    (t.andThen k).run s = (k (t.run s).1).run (t.run s).2 := by
  induction t generalizing s with
  | done a => rfl
  | act change next ih => exact ih s (change s)
  | wait change next ih => exact ih s (change s)

/-- Starting a task first makes no difference to how it ends. -/
theorem run_start (t : Task σ α) (s : σ) : (t.start s).1.run (t.start s).2 = t.run s := by
  induction t generalizing s with
  | done a => rfl
  | act change next ih => exact ih s (change s)
  | wait change next => rfl

/-- Starts tasks in order. -/
def startAll : List (Task σ α) → σ → List (Task σ α) × σ
  | [], s => ([], s)
  | t :: ts, s =>
    let (t, s) := t.start s
    let (ts, s) := startAll ts s
    (t :: ts, s)

/-- Runs tasks to their ends in order. -/
def finishAll : List (Task σ α) → σ → List α × σ
  | [], s => ([], s)
  | t :: ts, s =>
    let (a, s) := t.run s
    let (as, s) := finishAll ts s
    (a :: as, s)

/-- Runs tasks together: each up to its first wait before the next one starts, then all to their ends. -/
def runTogether (ts : List (Task σ α)) (s : σ) : List α × σ :=
  let (ts, s) := startAll ts s
  finishAll ts s

end Task

end EngineClient
