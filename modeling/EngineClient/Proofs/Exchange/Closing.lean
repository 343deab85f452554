import EngineClient.Proofs.Exchange.Course
import EngineClient.Proofs.Log
import EngineClient.Proofs.Outbound
import EngineClient.Proofs.Token.Together

/-!
# Closing a client

Any number of calls of one client take turns: sends, closes and looks at whether it is closed. The first close that has
a turn closes it, for good. A send whose first turn comes later does nothing, and one whose first turn came before goes
on as it would have gone on a client that nobody closes.
-/

namespace EngineClient
open EngineClient.Task

namespace Client

/-- A call of a client. -/
inductive Use
  | send (d : Draft)
  | close
  | isClosed
  deriving DecidableEq

/-- What a call returns. -/
inductive Returned
  | replied (x : Except ClientError Reply)
  | said (b : Bool)

/-! ### Calls -/

theorem isOpen_shut (w : Wire) : (shut w).isOpen = false := by
  unfold shut
  split
  · rfl
  · rename_i closed
    simpa using closed

theorem shut_open {w : Wire} (isOpen : w.isOpen = true) : shut w = { w.note .clientClosed with isOpen := false } :=
  if_pos isOpen

theorem shut_closed {w : Wire} (closed : w.isOpen = false) : shut w = w :=
  if_neg (by simp [closed])

namespace Use
variable (c : Client)

def task : Use → Task Wire Returned
  | .send d => (c.send d).andThen fun x => done (.replied x)
  | .close => Client.close.andThen fun b => done (.said b)
  | .isClosed => Client.isClosed.andThen fun b => done (.said b)

/-- What the first turn of a call does. -/
def change : Use → Wire → Wire
  | .close, w => shut w
  | .send _, w | .isClosed, w => w

/-- What is left of a call after its first turn. -/
def rest : Use → Wire → Task Wire Returned
  | .send d, w => match c.clear d w with
    | .error e => done (.replied (.error e))
    | .ok o => (c.exchange o).andThen fun x => done (.replied x)
  | .close, w => done (.said w.isOpen)
  | .isClosed, w => done (.said !w.isOpen)

theorem step?_task (u : Use) (w : Wire) : (u.task c).step? w = some (u.rest c w, u.change w) := by
  cases u with
  | send d =>
    simp only [task, rest, change, send_run, Task.andThen, step?]
    cases c.clear d w <;> rfl
  | close | isClosed => rfl

/-- On a closed client a send is over at once. -/
theorem rest_closed (d : Draft) {w : Wire} (shut : w.isOpen = false) :
    (Use.send d).rest c w = match d.prepare c.settings.security with
      | .error e => done (.replied (.error e))
      | .ok _ => done (.replied (.error .closed)) := by
  unfold rest clear
  dsimp only
  rw [shut]
  cases d.prepare c.settings.security <;> rfl

theorem change_eq {u : Use} (other : u ≠ .close) (w : Wire) : u.change w = w := by
  cases u with
  | send d | isClosed => rfl
  | close => exact (other rfl).elim

end Use

/-- The tasks of a run are calls of one client, on whatever clones. -/
def Calls (c : Client) (uses : Nat → Option Use) (r : Run Wire Returned) : Prop :=
  ∀ j, r.task j 0 = (uses j).map (Use.task c)

end Client

/-! ### Tasks that see neither whether the client is open nor what was logged -/

def Wire.setOpen (b : Bool) (w : Wire) : Wire :=
  { w with isOpen := b }

theorem Wire.setOpen_eq {w : Wire} (same : w.isOpen = b) : w.setOpen b = w := by
  rw [← same]
  rfl

/-- What a task does is the same whether the client is open or not and whatever was logged before, and leaves both as
they are. -/
def Task.Blind : Task Wire α → Prop
  | done _ => True
  | act change next | wait change next => ∀ w,
    (∀ b past, change ((w.setOpen b).behind past) = ((change w).setOpen b).behind past ∧
      next ((w.setOpen b).behind past) = next w) ∧ (next w).Blind

section Blind
variable {t t' : Task Wire α} {w w' : Wire}

theorem Task.Blind.step (blind : t.Blind) (step : t.step? w = some (t', w')) :
    t'.Blind ∧ w'.isOpen = w.isOpen ∧
      ∀ b past, t.step? ((w.setOpen b).behind past) = some (t', (w'.setOpen b).behind past) := by
  obtain ⟨change, next, shape, rfl, rfl⟩ := step?_eq_some step
  obtain ⟨same, rest⟩ : (∀ b past, change ((w.setOpen b).behind past) = ((change w).setOpen b).behind past ∧
      next ((w.setOpen b).behind past) = next w) ∧ (next w).Blind := by
    rcases shape with rfl | rfl
    · exact blind w
    · exact blind w
  have kept := congrArg Wire.isOpen (same w.isOpen []).1
  rw [Wire.setOpen_eq rfl] at kept
  refine ⟨rest, kept, fun b past => ?_⟩
  obtain ⟨changed, next⟩ := same b past
  rcases shape with rfl | rfl <;> simp only [step?, changed, next]

/-- What a task does with a log before it is what it does without. -/
theorem Task.Blind.step_behind (blind : t.Blind) (step : t.step? (w.behind past) = some (t', w')) :
    ∃ w'' : Wire, w' = w''.behind past ∧ w''.isOpen = w.isOpen ∧
      ∀ b past', t.step? ((w.setOpen b).behind past') = some (t', (w''.setOpen b).behind past') := by
  cases alone : t.step? w with
  | none => exact (step?_ne_none step _ alone).elim
  | some found =>
    obtain ⟨u, w''⟩ := found
    obtain ⟨_, kept, steps⟩ := blind.step alone
    have behind := steps w.isOpen past
    rw [Wire.setOpen_eq rfl, Wire.setOpen_eq kept] at behind
    obtain ⟨rfl, rfl⟩ := Prod.mk.inj (Option.some.inj (behind.symm.trans step))
    exact ⟨w'', rfl, kept, steps⟩

theorem Task.Blind.andThen {k : α → Task Wire β} (first : t.Blind) (rest : ∀ a, (k a).Blind) : (t.andThen k).Blind := by
  induction t with
  | done a => exact rest a
  | act change next ih | wait change next ih =>
    intro w
    obtain ⟨same, later⟩ := first w
    exact ⟨fun b past => ⟨(same b past).1, congrArg (·.andThen k) (same b past).2⟩, ih w later⟩

theorem Run.blind_later {r : Run Wire α} (blind : t.Blind) (task : r.task i m = some t) (le : m ≤ n)
    (later : r.task i n = some t') : t'.Blind := by
  induction n, le using Nat.le_induction generalizing t' with
  | base =>
    cases task.symm.trans later
    exact blind
  | succ n _ ih =>
    rcases task_succ later with ⟨before, _⟩ | ⟨u, before, _, step⟩
    · exact ih before
    · exact ((ih before).step step).1

end Blind

namespace Client
variable (c : Client) (w : Wire) (b : Bool)

theorem noteIf_setOpen (e : LogEvent) : c.noteIf e (w.setOpen b) = (c.noteIf e w).setOpen b := by
  unfold noteIf
  split <;> rfl

theorem depart_setOpen (o : Outbound) : c.depart o (w.setOpen b) = ((c.depart o w).1, (c.depart o w).2.setOpen b) := by
  have outcome : (w.setOpen b).network (w.setOpen b).sent o = w.network w.sent o := rfl
  unfold depart trace
  rw [outcome, noteIf_setOpen]
  cases w.network w.sent o with
  | unreachable f =>
    dsimp only
    rw [noteIf_setOpen]
  | refused f | broken f | silent | answered delay reply => rfl

theorem arrive_setOpen (flight : InFlight) :
    c.arrive flight (w.setOpen b) = ((c.arrive flight w).1, (c.arrive flight w).2.setOpen b) := by
  have later : ∀ t, waitUntil t (w.setOpen b) = (waitUntil t w).setOpen b := fun _ => rfl
  unfold arrive
  cases flight.outcome with
  | unreachable f | refused f | broken f =>
    dsimp only
    rw [noteIf_setOpen]
  | silent => rfl
  | answered delay reply =>
    dsimp only
    rw [later, later, noteIf_setOpen]
    split <;> rfl

/-- Once it is under way, an exchange does not see whether the client is open. -/
theorem exchange_blind (o : Outbound) : (c.exchange o).Blind := by
  rw [exchange_run]
  intro w
  refine ⟨fun b past => ?_, ?_⟩
  · dsimp only
    rw [depart_behind, depart_setOpen]
    exact ⟨rfl, rfl⟩
  · dsimp only
    cases (c.depart o w).1 with
    | error e => trivial
    | ok flight =>
      refine fun w' => ⟨fun b past => ?_, trivial⟩
      dsimp only
      rw [arrive_behind, arrive_setOpen]
      exact ⟨rfl, rfl⟩

theorem Use.rest_blind (u : Use) (w : Wire) : (u.rest c w).Blind := by
  cases u with
  | send d =>
    unfold Use.rest
    dsimp only
    cases c.clear d w with
    | error e => trivial
    | ok o => exact (c.exchange_blind o).andThen fun x => trivial
  | close | isClosed => trivial

/-! ### Turns of calls -/

section Turns
variable {c : Client} {uses : Nat → Option Use} {r : Run Wire Returned} {u : Use} {t : Task Wire Returned}

theorem Calls.start (calls : c.Calls uses r) (use : uses j = some u) : r.task j 0 = some (u.task c) := by
  rw [calls, use]
  rfl

theorem Calls.use_of_task (calls : c.Calls uses r) (task : r.task j n = some t) : ∃ u, uses j = some u := by
  cases use : uses j with
  | some u => exact ⟨u, rfl⟩
  | none =>
    have gone : r.task j 0 = none := by
      rw [calls, use]
      rfl
    cases (Run.task_none gone (Nat.zero_le n)).symm.trans task

/-- A call that is there stands where it began, and has had no turn, or it has had its first one. -/
theorem Calls.turns (calls : c.Calls uses r) (use : uses j = some u) (task : r.task j n = some t) :
    (t = u.task c ∧ r.Rests j 0 n) ∨ ∃ l < n, r.First j 0 l ∧ r.state (l + 1) = u.change (r.state l) ∧
      r.task j (l + 1) = some (u.rest c (r.state l)) :=
  Run.first_turn (u.step?_task c) (calls.start use) (Nat.zero_le n) task

theorem Calls.blind (calls : c.Calls uses r) (use : uses j = some u) (task : r.task j n = some t) (lt : l < n)
    (turn : r.turns l = .step j) : t.Blind := by
  rcases calls.turns use task with ⟨_, rests⟩ | ⟨l', lt', _, _, left⟩
  · exact (rests l (Nat.zero_le l) lt turn).elim
  · exact Run.blind_later (Use.rest_blind c u _) left lt' task

/-- A call that has ended by its first turn. -/
theorem Calls.ended (calls : c.Calls uses r) (use : uses j = some u) (task : r.task j n = some t)
    (first : r.First j 0 l) (lt : l < n) (ends : u.rest c (r.state l) = done a) :
    t = done a ∧ r.state (l + 1) = u.change (r.state l) ∧ r.Idle j (l + 1) n := by
  rcases calls.turns use task with ⟨_, rests⟩ | ⟨l', _, first', state, left⟩
  · exact (rests l first.since lt first.turn).elim
  · obtain rfl := first.unique first'
    rw [ends] at left
    obtain ⟨same, idle⟩ := Run.idle_of_done left lt task
    exact ⟨same, state, idle⟩

end Turns

/-! ### The close that comes first -/

/-- Call `i` is the close that has its turn first, and that is turn `k`. -/
structure ClosedAt (uses : Nat → Option Use) (r : Run Wire Returned) (i k : Nat) : Prop where
  use : uses i = some .close
  turn : r.turns k = .step i
  there : ∃ t, r.task i k = some t
  gone : ∀ {j l}, l < k → r.turns l = .step j → uses j = some .close → r.task j l = none

section Closed
variable {c : Client} {uses : Nat → Option Use} {r : Run Wire Returned} {u : Use} {t : Task Wire Returned}

theorem Calls.closedAt (calls : c.Calls uses r) (use : uses i = some .close) (turn : r.turns n = .step i)
    (kept : ∀ l < n, r.turns l ≠ .drop i) : ∃ j k, k ≤ n ∧ ClosedAt uses r j k := by
  classical
  have there := Run.task_kept (calls.start use) (Nat.zero_le n) kept
  have closing : ∃ m j, uses j = some .close ∧ r.turns m = .step j ∧ ∃ t, r.task j m = some t := ⟨n, i, use, turn, there⟩
  obtain ⟨j, use', turn', there'⟩ := Nat.find_spec closing
  refine ⟨j, Nat.find closing, Nat.find_min' closing ⟨i, use, turn, there⟩, use', turn', there', ?_⟩
  intro j' l lt turn'' use''
  by_contra present
  exact Nat.find_min closing lt ⟨j', use'', turn'', Option.ne_none_iff_exists'.mp present⟩

theorem ClosedAt.first (closed : ClosedAt uses r i k) : r.First i 0 k := by
  refine ⟨Nat.zero_le k, fun l _ lt turn => ?_, closed.turn⟩
  obtain ⟨t, there⟩ := closed.there
  have gone := Run.task_none (closed.gone lt turn closed.use) (Nat.le_of_lt lt)
  cases gone.symm.trans there

theorem Calls.closes (calls : c.Calls uses r) (closed : ClosedAt uses r i k) :
    r.state (k + 1) = shut (r.state k) ∧ r.task i (k + 1) = some (done (.said (r.state k).isOpen)) := by
  obtain ⟨t, there⟩ := closed.there
  rcases calls.turns closed.use there with ⟨rfl, _⟩ | ⟨l, lt, first, _⟩
  · obtain ⟨task, state⟩ := Run.task_step closed.turn there (Use.step?_task c .close _)
    exact ⟨state, task⟩
  · obtain rfl := closed.first.unique first
    exact (Nat.lt_irrefl _ lt).elim

/-- The client is open up to that turn, and closed from then on. -/
theorem Calls.isOpen (calls : c.Calls uses r) (closed : ClosedAt uses r i k) (isOpen : (r.state 0).isOpen = true)
    (n : Nat) : (r.state n).isOpen = decide (n ≤ k) := by
  induction n with
  | zero => simpa using isOpen
  | succ n ih =>
    by_cases now : n = k
    · subst now
      rw [(calls.closes closed).1, isOpen_shut]
      simp
    have same : decide (n + 1 ≤ k) = decide (n ≤ k) := decide_eq_decide.mpr (by omega)
    rcases r.state_succ n with still | ⟨j, t, t', turn, task, step⟩
    · rw [still, same, ih]
    obtain ⟨u, use⟩ := calls.use_of_task task
    rcases calls.turns use task with ⟨rfl, _⟩ | ⟨l, lt, first, _⟩
    · rw [Use.step?_task] at step
      have changed := (Prod.mk.inj (Option.some.inj step)).2
      by_cases close : u = .close
      · subst close
        -- A close that has a turn comes later than the first one.
        have later : ¬ n < k := by
          intro lt
          cases (closed.gone lt turn use).symm.trans task
        have past : decide (n + 1 ≤ k) = false := decide_eq_false (by omega)
        rw [← changed, past]
        exact isOpen_shut _
      · rw [← changed, Use.change_eq close, ih, same]
    · have blind := calls.blind use task lt first.turn
      rw [(blind.step step).2.1, ih, same]

/-- A turn that is not one of an earlier call changes nothing, but for the one that closes the client. -/
theorem Calls.idle_late (calls : c.Calls uses r) (closed : ClosedAt uses r i k) (isOpen : (r.state 0).isOpen = true)
    (turn : r.turns n = .step j) (other : ∀ l < k, r.turns l = .step j → uses j = some .close) (now : n ≠ k) :
    r.state (n + 1) = r.state n := by
  rcases r.state_succ n with still | ⟨j', t, t', turn', task, step⟩
  · exact still
  obtain rfl := Turn.step.inj (turn'.symm.trans turn)
  obtain ⟨u, use⟩ := calls.use_of_task task
  rcases calls.turns use task with ⟨rfl, _⟩ | ⟨l, lt, first, state, left⟩
  · rw [Use.step?_task] at step
    have changed := (Prod.mk.inj (Option.some.inj step)).2
    by_cases close : u = .close
    · -- A close that has a turn comes later than the first one, and finds the client closed.
      subst close
      have later : ¬ n < k := by
        intro lt
        cases (closed.gone lt turn use).symm.trans task
      have shut : (r.state n).isOpen = false := by rw [calls.isOpen closed isOpen, decide_eq_false (by omega)]
      rw [← changed]
      exact shut_closed shut
    · rw [Use.change_eq close] at changed
      exact changed.symm
  · -- Such a call has ended by its first turn, so that this one is no step.
    have ended : ∃ a, u.rest c (r.state l) = done a := by
      cases u with
      | close | isClosed => exact ⟨_, rfl⟩
      | send d =>
        have late : ¬ l ≤ k := by
          intro le
          rcases Nat.eq_or_lt_of_le le with rfl | early
          · obtain rfl := Turn.step.inj (closed.turn.symm.trans first.turn)
            cases use.symm.trans closed.use
          · cases use.symm.trans (other l early first.turn)
        have shut : (r.state l).isOpen = false := by rw [calls.isOpen closed isOpen, decide_eq_false late]
        rw [Use.rest_closed c d shut]
        cases d.prepare c.settings.security <;> exact ⟨_, rfl⟩
    obtain ⟨a, ends⟩ := ended
    rw [(calls.ended use task first lt ends).1] at step
    cases step

/-! ### As if nobody closed it -/

/-- The calls that have a turn before turn `k`, without those that close. -/
def early (turns : Nat → Turn) (k : Nat) (uses : Nat → Option Use) (j : Nat) : Option Use :=
  if (∃ l < k, turns l = .step j) ∧ uses j ≠ some .close then uses j else none

/-- A run of calls from a state on. -/
def shared (c : Client) (uses : Nat → Option Use) (w : Wire) (turns : Nat → Turn) : Run Wire Returned where
  start := { tasks := fun j => (uses j).map (Use.task c), state := w }
  turns

theorem shared_calls (c : Client) (uses : Nat → Option Use) (w : Wire) (turns : Nat → Turn) :
    c.Calls uses (c.shared uses w turns) :=
  fun _ => rfl

/-- At turn `n` a run has come as far as another one in which nobody closes the client and later calls are left out.
From turn `k` on it differs in that the client is closed, and in that the log tells so. -/
structure Parallel (uses : Nat → Option Use) (r r' : Run Wire Returned) (k n : Nat) : Prop where
  isOpen : (r'.state n).isOpen = true
  before : n ≤ k → r.state n = r'.state n
  after : k < n → ∃ w : Wire, r'.state n = w.behind (r.state k).log ∧
    r.state n = (w.setOpen false).behind ((r.state k).log ++ [.clientClosed])
  task : ∀ {j l}, l < k → r.turns l = .step j → uses j ≠ some .close → r.task j n = r'.task j n

/-- A call that is no close leaves the client open. -/
theorem Calls.step_open {w : Wire} (calls : c.Calls uses r) (other : uses j ≠ some .close)
    (task : r.task j n = some t) (step : t.step? w = some (t', w')) : w'.isOpen = w.isOpen := by
  obtain ⟨u, use⟩ := calls.use_of_task task
  rcases calls.turns use task with ⟨rfl, _⟩ | ⟨l, before, first, _⟩
  · rw [Use.step?_task, Use.change_eq fun close => other (close ▸ use)] at step
    rw [(Prod.mk.inj (Option.some.inj step)).2]
  · exact ((calls.blind use task before first.turn).step step).2.1

/-- A turn of an earlier call does the same in both runs. -/
theorem Calls.step_parallel (calls : c.Calls uses r) (beside : Parallel uses r r' k n) (lt : l < k)
    (turn : r.turns l = .step j) (now : n ≠ k) (task : r.task j n = some t)
    (step : t.step? (r'.state n) = some (t', w')) :
    ∃ w'', t.step? (r.state n) = some (t', w'') ∧ (n + 1 ≤ k → w'' = w') ∧
      (k < n + 1 → ∃ w : Wire, w' = w.behind (r.state k).log ∧
        w'' = (w.setOpen false).behind ((r.state k).log ++ [.clientClosed])) := by
  by_cases early : n < k
  · refine ⟨w', ?_, fun _ => rfl, fun late => by omega⟩
    rw [beside.before (by omega), step]
  · obtain ⟨w, state', state⟩ := beside.after (by omega)
    obtain ⟨u, use⟩ := calls.use_of_task task
    rw [state'] at step
    obtain ⟨w'', rfl, _, steps⟩ := (calls.blind use task (by omega) turn).step_behind step
    refine ⟨_, ?_, fun le => by omega, fun _ => ⟨w'', rfl, rfl⟩⟩
    rw [state]
    exact steps false _

/-- A turn that changes the state in neither run. -/
theorem Parallel.stay (beside : Parallel uses r r' k n) (state : r.state (n + 1) = r.state n)
    (state' : r'.state (n + 1) = r'.state n) (now : n ≠ k)
    (task : ∀ {j l}, l < k → r.turns l = .step j → uses j ≠ some .close → r.task j (n + 1) = r'.task j (n + 1)) :
    Parallel uses r r' k (n + 1) where
  isOpen := by rw [state', beside.isOpen]
  before le := by rw [state, state', beside.before (by omega)]
  after lt := by
    rw [state, state']
    exact beside.after (by omega)
  task := task

theorem Parallel.task_skip (beside : Parallel uses r r' k n) (turns : r'.turns = r.turns) (skip : r.turns n ≠ .step j)
    (kept : r.turns n ≠ .drop j) (lt : l < k) (turn : r.turns l = .step j) (other : uses j ≠ some .close) :
    r.task j (n + 1) = r'.task j (n + 1) := by
  rw [Run.task_skip skip kept, Run.task_skip (turns ▸ skip) (turns ▸ kept)]
  exact beside.task lt turn other

theorem Parallel.drop (beside : Parallel uses r r' k n) (turns : r'.turns = r.turns) (turn : r.turns n = .drop j)
    (now : n ≠ k) : Parallel uses r r' k (n + 1) := by
  obtain ⟨gone, still⟩ := Run.task_drop turn
  obtain ⟨gone', still'⟩ := Run.task_drop ((congrFun turns n).trans turn)
  refine beside.stay still still' now fun {j' l} lt turn' other => ?_
  by_cases own : j' = j
  · rw [own, gone, gone']
  · refine beside.task_skip turns ?_ ?_ lt turn' other
    · rw [turn]
      exact fun e => by cases e
    · rw [turn]
      exact fun e => own (Turn.drop.inj e).symm

theorem Calls.parallel_early (calls : c.Calls uses r) (beside : Parallel uses r r' k n) (turns : r'.turns = r.turns)
    (turn : r.turns n = .step j) (now : n ≠ k) (lt : l < k) (earlier : r.turns l = .step j) (other : uses j ≠ some .close) :
    Parallel uses r r' k (n + 1) := by
  have turn' : r'.turns n = .step j := (congrFun turns n).trans turn
  have own := beside.task lt earlier other
  -- If the call takes no step, nothing changes in either run.
  have still : r.pool (n + 1) = r.pool n → r'.pool (n + 1) = r'.pool n → Parallel uses r r' k (n + 1) := by
    intro pool pool'
    refine beside.stay (congrArg Pool.state pool) (congrArg Pool.state pool') now fun lt turn other => ?_
    have task := congrArg Pool.tasks pool
    have task' := congrArg Pool.tasks pool'
    exact (congrFun task _).trans ((beside.task lt turn other).trans (congrFun task' _).symm)
  cases task' : r'.task j n with
  | none => exact still (Run.pool_of_none turn (own.trans task')) (Run.pool_of_none turn' task')
  | some t =>
    have task := own.trans task'
    cases step' : t.step? (r'.state n) with
    | none =>
      have stuck : t.step? (r.state n) = none := by
        cases step : t.step? (r.state n) with
        | none => rfl
        | some next => exact (step?_ne_none step _ step').elim
      exact still (Run.pool_of_stuck turn task stuck) (Run.pool_of_stuck turn' task' step')
    | some next =>
      have isOpen := (calls.step_open other task step').trans beside.isOpen
      obtain ⟨w'', step, before, after⟩ := calls.step_parallel beside lt earlier now task step'
      obtain ⟨left, state⟩ := Run.task_step turn task step
      obtain ⟨left', state'⟩ := Run.task_step turn' task' step'
      refine ⟨state' ▸ isOpen, fun le => ?_, fun late => ?_, fun {j' l'} lt' turn'' other' => ?_⟩
      · rw [state, state', before le]
      · rw [state, state']
        exact after late
      by_cases same : j' = j
      · rw [same, left, left']
      · refine beside.task_skip turns ?_ ?_ lt' turn'' other'
        · rw [turn]
          exact fun e => same (Turn.step.inj e).symm
        · rw [turn]
          exact fun e => by cases e

theorem Calls.parallel_late (calls : c.Calls uses r) (closed : ClosedAt uses r i k) (isOpen : (r.state 0).isOpen = true)
    (beside : Parallel uses r r' k n) (turns : r'.turns = r.turns) (turn : r.turns n = .step j) (absent : r'.task j n = none)
    (other : ∀ l < k, r.turns l = .step j → uses j = some .close) : Parallel uses r r' k (n + 1) := by
  have pool' : r'.pool (n + 1) = r'.pool n := Run.pool_of_none ((congrFun turns n).trans turn) absent
  have state' : r'.state (n + 1) = r'.state n := congrArg Pool.state pool'
  have task : ∀ {j' l}, l < k → r.turns l = .step j' → uses j' ≠ some .close → r.task j' (n + 1) = r'.task j' (n + 1) := by
    intro j' l lt turn' other'
    have apart : j' ≠ j := by
      rintro rfl
      exact other' (other l lt turn')
    refine beside.task_skip turns ?_ ?_ lt turn' other'
    · rw [turn]
      exact fun e => apart (Turn.step.inj e).symm
    · rw [turn]
      exact fun e => by cases e
  by_cases now : n = k
  · subst now
    have same := beside.before (Nat.le_refl n)
    refine ⟨by rw [state', beside.isOpen], fun le => by omega, fun _ => ?_, task⟩
    refine ⟨{ r.state n with log := [] }, ?_, ?_⟩
    · rw [state', ← same, Wire.behind_log]
    · rw [(calls.closes closed).1, shut_open (same ▸ beside.isOpen)]
      simp [Wire.note, Wire.behind, Wire.setOpen]
  · exact beside.stay (calls.idle_late closed isOpen turn other now) state' now task

theorem Calls.parallel (calls : c.Calls uses r) (closed : ClosedAt uses r i k) (isOpen : (r.state 0).isOpen = true)
    (n : Nat) : Parallel uses r (c.shared (early r.turns k uses) (r.state 0) r.turns) k n := by
  have calls' := shared_calls c (early r.turns k uses) (r.state 0) r.turns
  have turns : (c.shared (early r.turns k uses) (r.state 0) r.turns).turns = r.turns := rfl
  have start : (c.shared (early r.turns k uses) (r.state 0) r.turns).state 0 = r.state 0 := rfl
  generalize c.shared (early r.turns k uses) (r.state 0) r.turns = r' at calls' turns start
  induction n with
  | zero =>
    refine ⟨by rw [start, isOpen], fun _ => start.symm, fun lt => by omega, fun {j l} lt turn other => ?_⟩
    rw [calls, calls', early, if_pos ⟨⟨l, lt, turn⟩, other⟩]
  | succ n ih =>
    cases turn : r.turns n with
    | drop j =>
      refine ih.drop turns turn ?_
      rintro rfl
      cases closed.turn.symm.trans turn
    | step j =>
      by_cases kept : (∃ l < k, r.turns l = .step j) ∧ uses j ≠ some .close
      · obtain ⟨⟨l, lt, earlier⟩, other⟩ := kept
        refine calls.parallel_early ih turns turn ?_ lt earlier other
        rintro rfl
        obtain rfl := Turn.step.inj (closed.turn.symm.trans turn)
        exact other closed.use
      · have absent : r'.task j 0 = none := by
          rw [calls', early, if_neg kept]
          rfl
        refine calls.parallel_late closed isOpen ih turns turn (Run.task_none absent (Nat.zero_le n)) ?_
        intro l lt earlier
        by_contra other
        exact kept ⟨⟨l, lt, earlier⟩, other⟩

end Closed

/-- One close closes the client, whatever the order of the turns: the first one that has its turn says so, and no other
one does. A look sees the client closed exactly from then on. A send whose first turn comes later changes nothing and
ends with that error, unless it could not have left anyway. Calls whose first turn came before stand at every time where
they would stand if nobody closed the client. -/
theorem close_once {c : Client} {uses : Nat → Option Use} {r : Run Wire Returned} (calls : c.Calls uses r)
    (isOpen : (r.state 0).isOpen = true) (use : uses i = some .close) (turn : r.turns n = .step i)
    (kept : ∀ l < n, r.turns l ≠ .drop i) :
    ∃ j k, k ≤ n ∧ uses j = some .close ∧ r.First j 0 k ∧ r.task j (k + 1) = some (done (.said true)) ∧
      (∀ m, (r.state m).isOpen = decide (m ≤ k)) ∧
      (∀ i l m t, r.First i 0 l → l < m → r.task i m = some t →
        (uses i = some .close → t = done (.said (decide (i = j)))) ∧
        (uses i = some .isClosed → t = done (.said (decide (k < l)))) ∧
        ∀ d, uses i = some (.send d) → k < l → r.Idle i 0 m ∧
          (∀ e, d.prepare c.settings.security = .error e → t = done (.replied (.error e))) ∧
          ∀ p, d.prepare c.settings.security = .ok p → t = done (.replied (.error .closed))) ∧
      ∀ m, Parallel uses r (c.shared (early r.turns k uses) (r.state 0) r.turns) k m := by
  obtain ⟨j, k, le, closed⟩ := calls.closedAt use turn kept
  have flag := calls.isOpen closed isOpen
  have won := (calls.closes closed).2
  rw [flag k, decide_eq_true (Nat.le_refl k)] at won
  refine ⟨j, k, le, closed.use, closed.first, won, flag, ?_, calls.parallel closed isOpen⟩
  intro i l m t first lt task
  refine ⟨fun use => ?_, fun use => ?_, fun d use later => ?_⟩
  · have ended := (calls.ended use task first lt rfl).1
    have same : (r.state l).isOpen = decide (i = j) := by
      rw [flag l]
      refine decide_eq_decide.mpr ⟨fun le => ?_, ?_⟩
      · rcases Nat.eq_or_lt_of_le le with rfl | before
        · exact (Turn.step.inj (closed.turn.symm.trans first.turn)).symm
        · have gone := Run.task_none (closed.gone before first.turn use) (Nat.le_of_lt lt)
          cases gone.symm.trans task
      · rintro rfl
        exact Nat.le_of_eq (first.unique closed.first)
    rw [ended, same]
  · have ended := (calls.ended use task first lt rfl).1
    have same : (!(r.state l).isOpen) = decide (k < l) := by
      rw [flag l, ← decide_not]
      exact decide_eq_decide.mpr Nat.not_le
    rw [ended, same]
  · have shut : (r.state l).isOpen = false := by rw [flag l, decide_eq_false (by omega)]
    have stopped := Use.rest_closed c d shut
    have idle : ∀ {a}, (Use.send d).rest c (r.state l) = done a → t = done a ∧ r.Idle i 0 m := by
      intro a ends
      obtain ⟨same, state, after⟩ := calls.ended use task first lt ends
      exact ⟨same, (first.rests.idle.append (Run.idle_succ fun _ => state)).append after⟩
    cases checked : d.prepare c.settings.security with
    | error e =>
      rw [checked] at stopped
      obtain ⟨same, idle⟩ := idle stopped
      refine ⟨idle, fun e' fails => ?_, fun p passes => (nomatch passes)⟩
      rw [same, Except.error.inj fails]
    | ok p =>
      rw [checked] at stopped
      obtain ⟨same, idle⟩ := idle stopped
      exact ⟨idle, fun e fails => (nomatch fails), fun _ _ => same⟩

end Client

namespace Sample

def knock : Draft :=
  { method := .get, url := "https://e/x" }

def uses : Nat → Option Client.Use
  | 0 | 4 => some (.send knock)
  | 1 | 2 => some .close
  | 3 => some .isClosed
  | _ => none

/-- The first send is cleared before the first close, and exchanged after all the others. -/
def shutting : Run Wire Client.Returned :=
  client.shared uses { network := fun _ _ => answer 200 "" } (turns [0, 1, 2, 4, 3])

end Sample

theorem Client.close_once_between :
    Sample.shutting.task 1 2 = some (done (.said true)) ∧ Sample.shutting.task 2 5 = some (done (.said false)) ∧
    Sample.shutting.task 3 5 = some (done (.said true)) ∧
    Sample.shutting.Idle 4 0 7 ∧ Sample.shutting.task 4 7 = some (done (.replied (.error .closed))) ∧
    (Sample.shutting.state 7).sent.length = 1 ∧
    Sample.shutting.task 0 7 = (Sample.client.shared (Client.early Sample.shutting.turns 1 Sample.uses)
      (Sample.shutting.state 0) Sample.shutting.turns).task 0 7 := by
  have kept : ∀ l i, Sample.shutting.turns l ≠ .drop i := fun l i drop => by cases drop
  obtain ⟨j, k, le, use, first, won, flag, others, parallel⟩ :=
    Client.close_once (i := 2) (n := 2)
      (Client.shared_calls Sample.client Sample.uses _ _ : Sample.client.Calls _ Sample.shutting)
      rfl rfl rfl fun l _ => kept l 2
  have before : 1 ≤ k := of_decide_eq_true ((flag 1).symm.trans (by decide +kernel))
  have after : ¬ 2 ≤ k := of_decide_eq_false ((flag 2).symm.trans (by decide +kernel))
  obtain rfl : k = 1 := by omega
  obtain rfl : j = 1 := (Turn.step.inj first.turn).symm
  have turned : ∀ i l, (∀ l' < l, Sample.shutting.turns l' ≠ .step i) → Sample.shutting.turns l = .step i →
      Sample.shutting.First i 0 l :=
    fun i l rests turn => ⟨Nat.zero_le l, fun l' _ lt => rests l' lt, turn⟩
  have there : ∀ i m, (Sample.uses i).isSome → ∃ t, Sample.shutting.task i m = some t := by
    intro i m used
    obtain ⟨u, use⟩ := Option.isSome_iff_exists.mp used
    exact Run.task_kept (Calls.start (Client.shared_calls _ _ _ _) use) (Nat.zero_le m) fun l _ => kept l i
  obtain ⟨t, second⟩ := there 2 5 rfl
  obtain ⟨t', look⟩ := there 3 5 rfl
  obtain ⟨t'', late⟩ := there 4 7 rfl
  have lost := (others 2 2 5 t (turned 2 2 (by decide) rfl) (by decide) second).1 rfl
  have seen := (others 3 4 5 t' (turned 3 4 (by decide) rfl) (by decide) look).2.1 rfl
  obtain ⟨idle, _, refused⟩ := (others 4 3 7 t'' (turned 4 3 (by decide) rfl) (by decide) late).2.2 _ rfl (by decide)
  obtain ⟨p, passes⟩ : ∃ p, Sample.knock.prepare Sample.client.settings.security = .ok p :=
    Except.exists_of_toBool (by decide +kernel)
  refine ⟨won, second.trans (congrArg some lost), look.trans (congrArg some seen), idle,
    late.trans (congrArg some (refused p passes)), by decide +kernel, ?_⟩
  exact (parallel 7).task (l := 0) (by decide) rfl (by decide)

end EngineClient
