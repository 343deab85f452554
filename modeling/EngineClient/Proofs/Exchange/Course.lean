import EngineClient.Proofs.Sending

/-!
# The course of an exchange

How a send of a client goes, turn by turn, whatever else takes turns on the wire: its first turn checks, its second
hands over what leaves, its third takes what comes of it.
-/

namespace EngineClient
open EngineClient.Task

namespace Run
variable {r : Run σ α} {t u : Task σ α}

def Rests (r : Run σ α) (i m n : Nat) : Prop :=
  ∀ l, m ≤ l → l < n → r.turns l ≠ .step i

/-- Turn `k` is the first that task `i` has from a time on. -/
structure First (r : Run σ α) (i m k : Nat) : Prop where
  since : m ≤ k
  rests : r.Rests i m k
  turn : r.turns k = .step i

theorem Rests.succ (rests : r.Rests i m n) (other : r.turns n ≠ .step i) : r.Rests i m (n + 1) := by
  intro l since lt
  by_cases same : l = n
  · exact same ▸ other
  · exact rests l since (by omega)

theorem Rests.idle (rests : r.Rests i m n) : r.Idle i m n :=
  fun l since lt turn => (rests l since lt turn).elim

theorem First.le (first : r.First i m k) (since : m ≤ l) (turn : r.turns l = .step i) : k ≤ l :=
  Nat.le_of_not_lt fun lt => first.rests l since lt turn

theorem First.unique (first : r.First i m k) (first' : r.First i m l) : k = l :=
  Nat.le_antisymm (first.le first'.since first'.turn) (first'.le first.since first.turn)

/-- A task that stands before a step has had no turn, or it has taken that step by its first one. -/
theorem first_turn {change : σ → σ} {next : σ → Task σ α} (steps : ∀ s, t.step? s = some (next s, change s))
    (task : r.task i m = some t) (le : m ≤ n) (later : r.task i n = some u) : (u = t ∧ r.Rests i m n) ∨
      ∃ k < n, r.First i m k ∧ r.state (k + 1) = change (r.state k) ∧ r.task i (k + 1) = some (next (r.state k)) := by
  -- The turn is found when it is taken, and stays the first one from then on.
  induction n, le using Nat.le_induction generalizing u with
  | base => exact .inl ⟨Option.some.inj (later.symm.trans task), fun l since lt => by omega⟩
  | succ n since ih =>
    rcases task_succ later with ⟨before, _, stuck⟩ | ⟨v, before, turn, step⟩
    · rcases ih before with ⟨rfl, rests⟩ | ⟨k, lt, found⟩
      · refine .inl ⟨rfl, rests.succ fun turn => ?_⟩
        have stopped := stuck turn
        rw [steps] at stopped
        cases stopped
      · exact .inr ⟨k, by omega, found⟩
    · rcases ih before with ⟨rfl, rests⟩ | ⟨k, lt, found⟩
      · rw [steps] at step
        obtain ⟨rfl, state⟩ := Prod.mk.inj (Option.some.inj step)
        exact .inr ⟨n, by omega, ⟨since, rests, turn⟩, state.symm, later⟩
      · exact .inr ⟨k, by omega, found⟩

theorem task_first {change : σ → σ} {next : σ → Task σ α} (steps : ∀ s, t.step? s = some (next s, change s))
    (task : r.task i m = some t) (first : r.First i m k) (kept : ∀ l < k, r.turns l ≠ .drop i) :
    r.task i (k + 1) = some (next (r.state k)) := by
  obtain ⟨u, later⟩ := task_kept task first.since kept
  rcases first_turn steps task first.since later with ⟨rfl, _⟩ | ⟨l, lt, early, _⟩
  · exact (task_step first.turn later (steps _)).1
  · exact (first.rests l early.since lt early.turn).elim

end Run

namespace Client
variable {c : Client} {d : Draft} {f : Except ClientError Reply → α} {r : Run Wire α} {u : Task Wire α}

/-- Turn `k` is the first of task `i`; it finds that `o` can leave for a draft. -/
structure Clears (c : Client) (d : Draft) (r : Run Wire α) (i k : Nat) (o : Outbound) : Prop where
  first : r.First i 0 k
  cleared : c.clear d (r.state k) = .ok o
  state : r.state (k + 1) = r.state k

/-- Turn `l` is the second of task `i`; it hands `o` over, which the first has found can leave for a draft. -/
structure Departs (c : Client) (d : Draft) (r : Run Wire α) (i l : Nat) (o : Outbound) : Prop where
  clears : ∃ k, c.Clears d r i k o ∧ r.First i (k + 1) l
  state : r.state (l + 1) = (c.depart o (r.state l)).2

/-- Turn `m` is the third of task `i`; it takes what comes of `o`, which turn `l` has handed over. -/
structure Arrives (c : Client) (d : Draft) (r : Run Wire α) (i l : Nat) (o : Outbound) (flight : InFlight) (m : Nat) :
    Prop where
  departs : c.Departs d r i l o
  departed : (c.depart o (r.state l)).1 = .ok flight
  next : r.First i (l + 1) m
  state : r.state (m + 1) = (c.arrive flight (r.state m)).2

/-- How far a send has come by the turns of task `i` before turn `n`, and what is left of it. -/
inductive Course (c : Client) (d : Draft) (f : Except ClientError Reply → α) (r : Run Wire α) (i n : Nat) :
    Task Wire α → Prop
  | waiting (rests : r.Rests i 0 n) : Course c d f r i n ((c.send d).andThen fun x => done (f x))
  | refused (first : r.First i 0 k) (lt : k < n) (refuses : c.clear d (r.state k) = .error e)
    (idle : r.Idle i 0 n) : Course c d f r i n (done (f (.error e)))
  | cleared (clears : c.Clears d r i k o) (lt : k < n) (rests : r.Rests i (k + 1) n) :
    Course c d f r i n ((c.exchange o).andThen fun x => done (f x))
  | lost (departs : c.Departs d r i l o) (lt : l < n) (fails : (c.depart o (r.state l)).1 = .error e)
    (idle : r.Idle i (l + 1) n) : Course c d f r i n (done (f (.error e)))
  | underway (departs : c.Departs d r i l o) (lt : l < n) (departed : (c.depart o (r.state l)).1 = .ok flight)
    (rests : r.Rests i (l + 1) n) : Course c d f r i n ((afterWait (c.arrive flight)).andThen fun x => done (f x))
  | arrived (arrives : c.Arrives d r i l o flight m) (lt : m < n) (idle : r.Idle i (m + 1) n) :
    Course c d f r i n (done (f (c.arrive flight (r.state m)).1))

theorem departed_course (departs : c.Departs d r i l o) (lt : l < n)
    (task : r.task i (l + 1) = some ((match (c.depart o (r.state l)).1 with
      | .error e => done (.error e)
      | .ok flight => afterWait (c.arrive flight) : Task Wire _).andThen fun x => done (f x)))
    (later : r.task i n = some u) : c.Course d f r i n u := by
  cases departure : (c.depart o (r.state l)).1 with
  | error e =>
    rw [departure] at task
    obtain ⟨rfl, idle⟩ := Run.idle_of_done task lt later
    exact .lost departs lt departure idle
  | ok flight =>
    rw [departure] at task
    rcases Run.first_turn (fun _ => rfl) task lt later with ⟨rfl, rests⟩ | ⟨m, before, next, state, ended⟩
    · exact .underway departs lt departure rests
    · obtain ⟨rfl, idle⟩ := Run.idle_of_done ended before later
      exact .arrived ⟨departs, departure, next, state⟩ before idle

theorem cleared_course (clears : c.Clears d r i k o) (lt : k < n)
    (task : r.task i (k + 1) = some ((c.exchange o).andThen fun x => done (f x))) (later : r.task i n = some u) :
    c.Course d f r i n u := by
  rcases Run.first_turn (fun _ => rfl) task lt later with ⟨rfl, rests⟩ | ⟨l, before, next, state, left⟩
  · exact .cleared clears lt rests
  · exact departed_course ⟨⟨k, clears, next⟩, state⟩ before left later

/-- A send at any time: what its turns have done, and what is left of it. -/
theorem send_course (start : r.task i 0 = some ((c.send d).andThen fun x => done (f x))) (later : r.task i n = some u) :
    c.Course d f r i n u := by
  rw [send_run] at start
  rcases Run.first_turn (fun _ => rfl) start (Nat.zero_le n) later with ⟨rfl, rests⟩ | ⟨k, lt, first, state, task⟩
  · exact .waiting rests
  dsimp only at task
  cases cleared : c.clear d (r.state k) with
  | error e =>
    rw [cleared] at task
    obtain ⟨rfl, after⟩ := Run.idle_of_done task lt later
    have idle : r.Idle i 0 (k + 1) := first.rests.idle.append (Run.idle_succ fun _ => state)
    exact .refused first lt cleared (idle.append after)
  | ok o =>
    rw [cleared] at task
    exact cleared_course ⟨first, cleared, state⟩ lt task later

theorem Departs.cleared (departs : c.Departs d r i l o) : ∃ k, r.First i 0 k ∧ k < l ∧ c.clear d (r.state k) = .ok o := by
  obtain ⟨k, clears, next⟩ := departs.clears
  exact ⟨k, clears.first, next.since, clears.cleared⟩

/-- A send whose first turn refuses does nothing and ends with that. -/
theorem Course.of_refused (course : c.Course d f r i n u)
    (refuses : ∀ k, r.First i 0 k → k < n → c.clear d (r.state k) = .error e) :
    r.Idle i 0 n ∧ (r.Rests i 0 n ∧ u.value? = none ∨ u = done (f (.error e))) := by
  have never : ∀ {k o}, r.First i 0 k → k < n → c.clear d (r.state k) ≠ .ok o := by
    intro k o first lt cleared
    cases cleared.symm.trans (refuses k first lt)
  have never' : ∀ {l o}, c.Departs d r i l o → ¬ l < n := by
    intro l o departs lt
    obtain ⟨k, first, before, cleared⟩ := departs.cleared
    exact never first (by omega) cleared
  cases course with
  | waiting rests => exact ⟨rests.idle, .inl ⟨rests, rfl⟩⟩
  | refused first lt refused idle =>
    obtain rfl := Except.error.inj (refused.symm.trans (refuses _ first lt))
    exact ⟨idle, .inr rfl⟩
  | cleared clears lt rests => exact (never clears.first lt clears.cleared).elim
  | lost departs lt | underway departs lt => exact (never' departs lt).elim
  | arrived arrives lt =>
    have since := arrives.next.since
    exact (never' arrives.departs (by omega)).elim

/-! ### What hands over -/

/-- By turn `l` task `i` begins an exchange. -/
def Begins (c : Client) (r : Run Wire α) (i l : Nat) : Prop :=
  r.turns l = .step i ∧ ∃ o rest, r.task i l = some ((c.exchange o).andThen rest)

theorem exchange_ne_look (c : Client) (o : Outbound) (rest : Except ClientError Reply → Task Wire α)
    (next : Wire → Task Wire α) : (c.exchange o).andThen rest ≠ act id next := by
  intro same
  rw [exchange_run] at same
  have changes : (fun w => (c.depart o w).2) = id := (act.inj same).1
  -- On a silent network the first step of an exchange shows in what has been sent.
  have sent := congrArg Wire.sent (congrFun changes { network := fun _ _ => .silent })
  simp [depart, trace, sent_noteIf, Wire.record] at sent

theorem Course.begins (course : c.Course d f r i n u) (same : u = (c.exchange o).andThen rest) :
    ∃ k o, k < n ∧ c.Clears d r i k o ∧ r.Rests i (k + 1) n := by
  cases course with
  | waiting rests => exact (exchange_ne_look c o rest _ same.symm).elim
  | cleared clears lt rests => exact ⟨_, _, lt, clears, rests⟩
  | refused | lost | underway | arrived => cases same

theorem clears_of_begins (start : r.task i 0 = some ((c.send d).andThen fun x => done (f x))) (begins : c.Begins r i l) :
    ∃ k o, c.Clears d r i k o ∧ r.First i (k + 1) l := by
  obtain ⟨turn, o, rest, task⟩ := begins
  obtain ⟨k, o', lt, clears, rests⟩ := (send_course start task).begins rfl
  exact ⟨k, o', clears, lt, rests, turn⟩

theorem begins_once (start : r.task i 0 = some ((c.send d).andThen fun x => done (f x))) (begins : c.Begins r i l)
    (begins' : c.Begins r i m) : l = m := by
  obtain ⟨k, o, clears, next⟩ := clears_of_begins start begins
  obtain ⟨k', o', clears', next'⟩ := clears_of_begins start begins'
  obtain rfl := clears.first.unique clears'.first
  exact next.unique next'

theorem sent_of_not_begins (start : r.task i 0 = some ((c.send d).andThen fun x => done (f x)))
    (turn : r.turns l = .step i) (other : ¬ c.Begins r i l) : (r.state (l + 1)).sent = (r.state l).sent := by
  rcases r.state_succ l with same | ⟨j, t, t', turn', task, step⟩
  · rw [same]
  obtain rfl := Turn.step.inj (turn'.symm.trans turn)
  cases send_course start task with
  | waiting => exact congrArg Wire.sent (Prod.mk.inj (Option.some.inj step)).2.symm
  | cleared => exact (other ⟨turn, _, _, task⟩).elim
  | underway =>
    rw [← (Prod.mk.inj (Option.some.inj step)).2]
    exact c.sent_arrive _ _
  | refused | lost | arrived => cases step

end Client
end EngineClient
