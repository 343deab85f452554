import EngineClient.Proofs.Acts
import EngineClient.Proofs.Token.Revocation

/-!
# After the end

Once a connection has been closed, every call that begins on it is refused: it changes nothing and gives an error. A
link that does not lie below the root is refused for that, closed or not.
-/

namespace EngineClient
open EngineClient.State EngineClient.Task

variable {s : State}

/-- What a call on a closed connection fails with. -/
def Entry.refusal (c : Connection) : Entry → Error
  | followLink href => if (c.root.pathOf? href.toList).isSome then .closed else .invalidLink href
  | _ => .closed

/-! ### One step -/

theorem Call.refused_bind {x : Call α} {f : α → Call β} (refused : x.run.step? s = some (done (.error e), s)) :
    (x >>= f).run.step? s = some (done (.error e), s) := by
  rw [Call.run_bind]
  exact step?_andThen refused _

namespace Connection
variable (c : Connection) (closed : s.closed = true)
include closed

theorem ensureOpen_of_closed : ensureOpen.run.step? s = some (done (.error .closed), s) := by
  rw [ensureOpen_run]
  simp [step?, closed]

theorem authenticate_of_closed : c.authenticate.run.step? s = some (done (.error .closed), s) :=
  Call.refused_bind (ensureOpen_of_closed closed)

theorem send_of_closed (request : Request) : (c.send request).run.step? s = some (done (.error .closed), s) := by
  have refused : c.authorize.run.step? s = some (done (.error .closed), s) :=
    Call.refused_bind (ensureOpen_of_closed closed)
  exact Call.refused_bind refused

end Connection

/-- A call on a closed connection has failed by its first step, if it takes one at all. -/
theorem Entry.call_of_closed (c : Connection) (closed : s.closed = true) (entry : Entry) :
    (entry.call c).run = done (.error (entry.refusal c)) ∨
      (entry.call c).run.step? s = some (done (.error (entry.refusal c)), s) := by
  cases entry with
  | authenticate => exact .inr (Call.refused_bind (c.authenticate_of_closed closed))
  | send request => exact .inr (Call.refused_bind (c.send_of_closed closed request))
  | test => exact .inr (Call.refused_bind (Call.refused_bind (c.send_of_closed closed .root)))
  | followLink href =>
    cases path : c.root.pathOf? href.toList with
    | none =>
      simp only [call, refusal, Connection.followLink, path]
      exact .inl rfl
    | some path' =>
      simp only [call, refusal, Connection.followLink, path]
      exact .inr (Call.refused_bind (c.send_of_closed closed (.get (String.ofList path'))))
  | service call => exact .inr (Call.refused_bind (c.send_of_closed closed call.request))

/-! ### Every run -/

section Run
variable {r : Run State (Except Error Value)} {c : Connection} {entry : Entry}

/-- What a call that begins after the end has come to: it has not begun yet, or it has failed. -/
theorem Run.task_of_closed (start : r.task j 0 = some (entry.call c).run)
    (closed : ∀ n, m ≤ n → (r.state n).closed = true) (later : ∀ l < m, r.turns l ≠ .step j)
    (task : r.task j n = some t) : t = (entry.call c).run ∨ t = done (.error (entry.refusal c)) := by
  rcases Run.task_later start (Nat.zero_le n) task with same | ⟨l, t', _, lt, turn, step, left⟩
  · exact .inl same
  · -- The first step falls after the end, where it can only fail.
    have since : m ≤ l := by
      by_contra early
      exact later l (by omega) turn
    rcases entry.call_of_closed c (closed l since) with ended | refused
    · rw [ended] at step
      cases step
    · obtain ⟨rfl, _⟩ := Prod.mk.inj (Option.some.inj (step.symm.trans refused))
      rcases Run.task_later left (by omega : l + 1 ≤ n) task with same | ⟨_, _, _, _, _, step', _⟩
      · exact .inr same
      · cases step'

theorem Run.turn_of_closed (closed : (r.state n).closed = true) (task : r.task j n = some t)
    (reached : t = (entry.call c).run ∨ t = done (.error (entry.refusal c))) (turn : r.turns n = .step j) :
    r.state (n + 1) = r.state n ∧ r.task j (n + 1) = some (done (.error (entry.refusal c))) := by
  have ended : t = done (.error (entry.refusal c)) →
      r.state (n + 1) = r.state n ∧ r.task j (n + 1) = some (done (.error (entry.refusal c))) := by
    rintro rfl
    have same := Run.pool_of_stuck turn task rfl
    exact ⟨congrArg Pool.state same, (congrArg (fun p => p.tasks j) same).trans task⟩
  rcases reached with rfl | failed
  · rcases entry.call_of_closed c closed with failed | refused
    · exact ended failed
    · obtain ⟨left, same⟩ := Run.task_step turn task refused
      exact ⟨same, left⟩
  · exact ended failed

end Run

namespace Connection

theorem mingle_sound (c : Connection) (acts : Nat → Act) (w : Wire) (turns : Nat → Turn) :
    (c.mingle acts { wire := w } turns).Sound Lawful fun _ => Does c.tokens.margin fun _ => True := by
  have obeys : ∀ {i t}, (c.mingle acts { wire := w } turns).task i 0 = some t →
      t.Obeys c.tokens.margin fun _ => True := by
    intro i t task
    cases task
    exact Act.task_obeys c _
  exact Run.sound_of_obeys (Coherent.initial w) obeys

section Mingle
variable {c : Connection} {acts : Nat → Act} {w : Wire} {turns : Nat → Turn}

theorem closed_of_returned (closes : acts i = .close)
    (returned : (c.mingle acts { wire := w } turns).task i m = some (done v)) (le : m ≤ n) :
    ((c.mingle acts { wire := w } turns).state n).closed = true := by
  have start : (c.mingle acts { wire := w } turns).task i 0 = some (Act.close.task c) := by
    rw [← closes]
    rfl
  -- A close that has returned has taken its first step, and that one sets the flag.
  rcases Run.task_later start (Nat.zero_le m) returned with unbegun | ⟨l, t', _, lt, _, step, _⟩
  · cases unbegun
  · obtain ⟨_, state⟩ := Prod.mk.inj (Option.some.inj step)
    have closed : ((c.mingle acts { wire := w } turns).state (l + 1)).closed = true := by
      rw [← state]
    have evolves := ((c.mingle_sound acts w turns).lawful (Coherent.initial w) (by omega : l + 1 ≤ n)).2.2
    exact evolves.closed closed

end Mingle
end Connection

/-- Once a close has returned, every call that begins on the connection, whatever has happened on it and whatever else
goes on, changes nothing by any of its turns. By its first turn it has failed, and it gives nothing but its refusal:
that the connection is closed, or that a link does not lie below the root. -/
theorem closed_is_final (c : Connection) (acts : Nat → Act) (w : Wire) (turns : Nat → Turn)
    (closes : acts i = .close) (returned : (c.mingle acts { wire := w } turns).task i m = some (done v))
    (calls : acts j = .call entry) (later : ∀ l < m, turns l ≠ .step j) (le : m ≤ n) :
    let r := c.mingle acts { wire := w } turns
    (r.state n).closed = true ∧
      (turns n = .step j → r.state (n + 1) = r.state n) ∧
      (turns n = .step j → (∀ l < n, turns l ≠ .drop j) →
        r.task j (n + 1) = some (done (.error (entry.refusal c)))) ∧
      ∀ b, r.task j n = some (done b) → b = .error (entry.refusal c) := by
  intro r
  have start : r.task j 0 = some (entry.call c).run := by
    have begun : r.task j 0 = some ((acts j).task c) := rfl
    rw [begun, calls]
    rfl
  have closed : ∀ n, m ≤ n → (r.state n).closed = true :=
    fun n le => Connection.closed_of_returned closes returned le
  have reached : ∀ {t}, r.task j n = some t → t = (entry.call c).run ∨ t = done (.error (entry.refusal c)) :=
    fun task => Run.task_of_closed start closed later task
  refine ⟨closed n le, fun turn => ?_, fun turn kept => ?_, fun b returns => ?_⟩
  · rcases r.state_succ n with same | ⟨j', t, _, turn', task, _⟩
    · exact same
    · cases turn.symm.trans turn'
      exact (Run.turn_of_closed (closed n le) task (reached task) turn).1
  · obtain ⟨t, task⟩ := Run.task_kept start (Nat.zero_le n) kept
    exact (Run.turn_of_closed (closed n le) task (reached task) turn).2
  · rcases reached returns with unbegun | failed
    · rcases entry.call_of_closed c (closed n le) with failed | refused
      · exact Task.done.inj (unbegun.trans failed)
      · rw [← unbegun] at refused
        cases refused
    · exact Task.done.inj failed

/-- A token is fetched, then the connection is closed; two calls come after that. -/
def Sample.closing : Nat → Act
  | 0 => .close
  | 1 => .call .authenticate
  | 2 => .call .test
  | _ => .call (.followLink "/b")

def Sample.afterwards : List Nat := [1, 1, 1, 1, 1, 1, 0, 0, 0, 0, 0, 0, 0, 0, 2, 3]

def Sample.closed : Run State (Except Error Value) :=
  Sample.connection.mingle Sample.closing { wire := Sample.wire } (Sample.turns Sample.afterwards)

/-- The call to test the connection is told that it is closed, the one to follow a link that the link leads astray. -/
theorem closed_is_final_signed_on :
    (Sample.closed.state 6).slot.generation? = some 1 ∧ Sample.closed.state 15 = Sample.closed.state 14 ∧
      Sample.closed.task 2 15 = some (done (.error .closed)) ∧
      Sample.closed.task 3 16 = some (done (.error (.invalidLink "/b"))) := by
  have begun : Sample.closed.task 0 0 = some (Sample.connection.close.andThen fun _ => done (.ok .nothing)) := rfl
  obtain ⟨_, m, le, performs⟩ :=
    Run.performs_of_turns (n := 14) begun Sample.connection.close_ends (by decide) (by decide)
  have returned : Sample.closed.task 0 m = some (done (.ok .nothing)) := performs.2.task begun
  have apart : ∀ l < 14, Sample.turns Sample.afterwards l ≠ .step 2 ∧ Sample.turns Sample.afterwards l ≠ .step 3 := by
    decide
  obtain ⟨_, same, fails, _⟩ := closed_is_final Sample.connection Sample.closing Sample.wire
    (Sample.turns Sample.afterwards) (j := 2) (n := 14) rfl returned rfl (fun l lt => (apart l (by omega)).1) (by omega)
  obtain ⟨_, _, strays, _⟩ := closed_is_final Sample.connection Sample.closing Sample.wire
    (Sample.turns Sample.afterwards) (j := 3) (n := 15) rfl returned rfl (fun l lt => (apart l (by omega)).2) (by omega)
  refine ⟨by decide +kernel, same rfl, fails rfl (by decide), ?_⟩
  have astray : (Entry.followLink "/b").refusal Sample.connection = .invalidLink "/b" := by decide +kernel
  rw [← astray]
  exact strays rfl (by decide)

/-- What a closed connection says of a link that leads astray is not that it is closed. -/
theorem stray_link_after_close :
    (Sample.connection.play [.close, .call (.followLink "/b")] { wire := Sample.wire }).1 =
      [.ok .nothing, .error (.invalidLink "/b")] := by
  decide +kernel

end EngineClient
