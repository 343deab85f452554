import EngineClient.Proofs.Exchange.Calls

/-!
# What is logged of exchanges

What a client logs of an exchange is the request, and the response or the failure when it is over. A wait that is ended
by the time limit logs neither, so that the request stays in the log without an outcome.
-/

namespace EngineClient
open EngineClient.Task

def LogEvent.opens (method uri : String) : LogEvent → Bool
  | request m u _ _ => m = method && u = uri
  | _ => false

def LogEvent.closes (method uri : String) : LogEvent → Bool
  | response m u _ _ | exchangeFailed m u _ => m = method && u = uri
  | _ => false

/-- There are as many outcomes as requests of each method and URI. -/
def Paired (log : List LogEvent) : Prop :=
  ∀ method uri, log.countP (·.opens method uri) = log.countP (·.closes method uri)

/-! ### Who has written what -/

namespace Run
variable {r : Run Wire α}

def wrote (r : Run Wire α) (n : Nat) : List LogEvent :=
  (r.state (n + 1)).log.drop (r.state n).log.length

/-- What the turns of task `i` before turn `n` add to the log. -/
def wroteBy (r : Run Wire α) (i n : Nat) : List LogEvent :=
  ((List.range n).filter fun l => r.turns l = .step i).flatMap r.wrote

theorem wrote_of_log (log : (r.state (n + 1)).log = (r.state n).log ++ events) : r.wrote n = events := by
  rw [wrote, log, List.drop_left]

theorem wrote_of_state (same : r.state (n + 1) = r.state n) : r.wrote n = [] :=
  wrote_of_log (by rw [same, List.append_nil])

theorem wroteBy_succ (turn : r.turns n = .step i) : r.wroteBy i (n + 1) = r.wroteBy i n ++ r.wrote n := by
  simp [wroteBy, List.range_succ, turn]

theorem wroteBy_skip (other : r.turns n ≠ .step i) : r.wroteBy i (n + 1) = r.wroteBy i n := by
  simp [wroteBy, List.range_succ, other]

theorem wroteBy_of_idle (idle : r.Idle i m n) (le : m ≤ n) : r.wroteBy i n = r.wroteBy i m := by
  induction n, le using Nat.le_induction with
  | base => rfl
  | succ n le ih =>
    rw [← ih fun l since lt => idle l since (by omega)]
    by_cases turn : r.turns n = .step i
    · rw [wroteBy_succ turn, wrote_of_state (idle n le (Nat.lt_succ_self n) turn), List.append_nil]
    · exact wroteBy_skip turn

theorem wroteBy_of_first (first : r.First i m k) (log : (r.state (k + 1)).log = (r.state k).log ++ events) :
    r.wroteBy i (k + 1) = r.wroteBy i m ++ events := by
  rw [wroteBy_succ first.turn, wroteBy_of_idle first.rests.idle first.since, wrote_of_log log]

/-- A log that each turn only adds to is made up of what the turns add. -/
theorem log_eq (grows : ∀ n, (r.state n).log <+: (r.state (n + 1)).log) (n : Nat) :
    (r.state n).log = (r.state 0).log ++ (List.range n).flatMap r.wrote := by
  induction n with
  | zero => simp
  | succ n ih =>
    rw [List.range_succ, List.flatMap_append, ← List.append_assoc, ← ih, List.flatMap_singleton]
    exact (List.prefix_append_drop (grows n))

theorem task_started {r : Run σ α} (later : r.task i n = some u) : ∃ t, r.task i 0 = some t := by
  induction n generalizing u with
  | zero => exact ⟨u, later⟩
  | succ n ih =>
    rcases task_succ later with ⟨before, _⟩ | ⟨_, before, _⟩
    · exact ih before
    · exact ih before

end Run

/-- No event is of the wire. -/
def OffWire (events : List LogEvent) : Prop :=
  ∀ e ∈ events, e.isWire = false

/-- No step of a task logs anything of the wire. -/
def Task.LogsOffWire : Task Wire α → Prop
  | done _ => True
  | act change next | wait change next => ∀ w,
    (∃ events, (change w).log = w.log ++ events ∧ OffWire events) ∧ (next w).LogsOffWire

theorem Task.LogsOffWire.step {t : Task Wire α} (offWire : t.LogsOffWire) (step : t.step? w = some (t', w')) :
    (∃ events, w'.log = w.log ++ events ∧ OffWire events) ∧ t'.LogsOffWire := by
  obtain ⟨change, next, shape, rfl, rfl⟩ := step?_eq_some step
  rcases shape with rfl | rfl
  · exact offWire w
  · exact offWire w

theorem Task.LogsOffWire.turns {r : Run Wire α} {t u : Task Wire α} (offWire : t.LogsOffWire) (start : r.task i 0 = some t)
    (later : r.task i n = some u) : u.LogsOffWire := by
  induction n generalizing u with
  | zero =>
    cases start.symm.trans later
    exact offWire
  | succ n ih =>
    rcases Run.task_succ later with ⟨before, _, _⟩ | ⟨v, before, _, step⟩
    · exact ih before
    · exact ((ih before).step step).2

theorem Task.LogsOffWire.wrote {r : Run Wire α} {t : Task Wire α} (offWire : t.LogsOffWire) (start : r.task i 0 = some t)
    (n : Nat) : OffWire (r.wroteBy i n) := by
  induction n with
  | zero => exact fun e member => by cases member
  | succ n ih =>
    by_cases turn : r.turns n = .step i
    · rw [Run.wroteBy_succ turn]
      have own : OffWire (r.wrote n) := by
        rcases r.state_succ n with same | ⟨j, u, u', turn', task, step⟩
        · rw [Run.wrote_of_state same]
          exact fun e member => by cases member
        · obtain rfl := Turn.step.inj (turn'.symm.trans turn)
          obtain ⟨events, log, off⟩ := ((offWire.turns start task).step step).1
          rw [Run.wrote_of_log log]
          exact off
      intro e member
      rcases List.mem_append.mp member with before | last
      · exact ih e before
      · exact own e last
    · rw [Run.wroteBy_skip turn]
      exact ih

theorem Client.close_offWire {k : Bool → α} : (Client.close.andThen fun b => done (k b)).LogsOffWire := by
  refine fun w => ⟨?_, trivial⟩
  show ∃ events, (shut w).log = w.log ++ events ∧ OffWire events
  unfold shut
  split
  · exact ⟨[.clientClosed], rfl, by simp [OffWire, LogEvent.isWire]⟩
  · exact ⟨[], (List.append_nil _).symm, by simp [OffWire]⟩

/-! ### What an exchange logs -/

namespace Client
variable {c : Client} {d : Draft} {r : Run Wire α}

theorem log_noteIf (logs : c.settings.wireLog = true) (e : LogEvent) (w : Wire) :
    (c.noteIf e w).log = w.log ++ [e] := by
  rw [noteIf, if_pos logs]
  rfl

theorem log_depart (logs : c.settings.wireLog = true) (o : Outbound) (w : Wire) :
    (∃ f, (c.depart o w).1 = .error (.transport f) ∧
      (c.depart o w).2.log = w.log ++ [requestEvent o, failureEvent o (Failure.message f)]) ∨
    ∃ flight, (c.depart o w).1 = .ok flight ∧ flight.outbound = o ∧ (c.depart o w).2.log = w.log ++ [requestEvent o] := by
  unfold depart
  cases w.network w.sent o with
  | unreachable f => exact .inl ⟨f, rfl, by simp [log_noteIf logs, trace]⟩
  | refused | broken | silent | answered => exact .inr ⟨_, rfl, rfl, by simp [log_noteIf logs, trace, Wire.record]⟩

theorem log_arrive (logs : c.settings.wireLog = true) (e : InFlight) (w : Wire) :
    (∃ f, (c.arrive e w).1 = .error (.transport f) ∧
      (c.arrive e w).2.log = w.log ++ [failureEvent e.outbound (Failure.message f)]) ∨
    (∃ reply, (c.arrive e w).1 = .ok (c.received reply) ∧
      (c.arrive e w).2.log = w.log ++ [responseEvent e.outbound reply.status reply.headers]) ∨
    (c.arrive e w).1 = .error (.timeout c.settings.requestTimeout) ∧ (c.arrive e w).2.log = w.log := by
  unfold arrive
  cases e.outcome with
  | unreachable f | refused f | broken f => exact .inl ⟨f, rfl, log_noteIf logs _ w⟩
  | silent => exact .inr (.inr ⟨rfl, rfl⟩)
  | answered delay reply =>
    dsimp only
    split
    · exact .inr (.inr ⟨rfl, rfl⟩)
    · exact .inr (.inl ⟨reply, rfl, log_noteIf logs _ _⟩)

/-- What is logged of a send, by what it has ended with. -/
inductive Logged (c : Client) (d : Draft) : Except ClientError Reply → List LogEvent → Prop
  | refused (refuses : c.clear d w = .error e) : Logged c d (.error e) []
  | failed (leaves : c.outbound d = .ok o) :
    Logged c d (.error (.transport f)) [requestEvent o, failureEvent o (Failure.message f)]
  | answered (leaves : c.outbound d = .ok o) :
    Logged c d (.ok (c.received reply)) [requestEvent o, responseEvent o reply.status reply.headers]
  | late (leaves : c.outbound d = .ok o) : Logged c d (.error (.timeout c.settings.requestTimeout)) [requestEvent o]

theorem Logged.paired (logged : c.Logged d x events) :
    Paired events ∨ x = .error (.timeout c.settings.requestTimeout) := by
  cases logged with
  | refused => exact .inl fun _ _ => rfl
  | failed | answered =>
    refine .inl fun _ _ => ?_
    simp [List.countP_cons, LogEvent.opens, LogEvent.closes, requestEvent, responseEvent, failureEvent]
  | late => exact .inr rfl

theorem Clears.wrote (clears : c.Clears d r i k o) : r.wroteBy i (k + 1) = [] :=
  Run.wroteBy_of_first clears.first (by rw [clears.state, List.append_nil])

theorem Departs.wrote (departs : c.Departs d r i l o) (log : (c.depart o (r.state l)).2.log = (r.state l).log ++ events) :
    c.outbound d = .ok o ∧ r.wroteBy i (l + 1) = events := by
  obtain ⟨k, clears, next⟩ := departs.clears
  refine ⟨outbound_of_clear clears.cleared, ?_⟩
  rw [Run.wroteBy_of_first next (by rw [departs.state, log]), clears.wrote, List.nil_append]

theorem Departs.wrote_failed (logs : c.settings.wireLog = true) (departs : c.Departs d r i l o)
    (fails : (c.depart o (r.state l)).1 = .error e) : c.Logged d (.error e) (r.wroteBy i (l + 1)) := by
  rcases log_depart logs o (r.state l) with ⟨f, failed, log⟩ | ⟨flight, departed, _⟩
  · obtain rfl := Except.error.inj (fails.symm.trans failed)
    obtain ⟨leaves, wrote⟩ := departs.wrote log
    rw [wrote]
    exact .failed leaves
  · cases fails.symm.trans departed

theorem Departs.wrote_request (logs : c.settings.wireLog = true) (departs : c.Departs d r i l o)
    (departed : (c.depart o (r.state l)).1 = .ok flight) :
    flight.outbound = o ∧ c.outbound d = .ok o ∧ r.wroteBy i (l + 1) = [requestEvent o] := by
  rcases log_depart logs o (r.state l) with ⟨f, failed, _⟩ | ⟨flight', departed', same, log⟩
  · cases departed.symm.trans failed
  · obtain rfl := Except.ok.inj (departed.symm.trans departed')
    exact ⟨same, departs.wrote log⟩

theorem Arrives.logged (logs : c.settings.wireLog = true) (arrives : c.Arrives d r i l o flight m) :
    c.Logged d (c.arrive flight (r.state m)).1 (r.wroteBy i (m + 1)) := by
  obtain ⟨rfl, leaves, asked⟩ := arrives.departs.wrote_request logs arrives.departed
  rcases log_arrive logs flight (r.state m) with ⟨f, failed, log⟩ | ⟨reply, answered, log⟩ | ⟨late, log⟩
  · rw [failed, Run.wroteBy_of_first arrives.next (by rw [arrives.state, log]), asked]
    exact .failed leaves
  · rw [answered, Run.wroteBy_of_first arrives.next (by rw [arrives.state, log]), asked]
    exact .answered leaves
  · have same : (r.state (m + 1)).log = (r.state m).log ++ [] := by rw [arrives.state, log, List.append_nil]
    rw [late, Run.wroteBy_of_first arrives.next same, asked]
    exact .late leaves

theorem Course.logged {f : Except ClientError Reply → α} {u : Task Wire α} (logs : c.settings.wireLog = true)
    (course : c.Course d f r i n u) :
    (u.value? = none ∧ (r.wroteBy i n = [] ∨ ∃ o, c.outbound d = .ok o ∧ r.wroteBy i n = [requestEvent o])) ∨
      ∃ x, u = done (f x) ∧ c.Logged d x (r.wroteBy i n) := by
  cases course with
  | waiting rests => exact .inl ⟨rfl, .inl (Run.wroteBy_of_idle rests.idle (Nat.zero_le n))⟩
  | refused first lt refuses idle =>
    refine .inr ⟨_, rfl, ?_⟩
    rw [Run.wroteBy_of_idle idle (Nat.zero_le n)]
    exact .refused refuses
  | cleared clears lt rests => exact .inl ⟨rfl, .inl ((Run.wroteBy_of_idle rests.idle lt).trans clears.wrote)⟩
  | lost departs lt fails idle =>
    refine .inr ⟨_, rfl, ?_⟩
    rw [Run.wroteBy_of_idle idle lt]
    exact departs.wrote_failed logs fails
  | underway departs lt departed rests =>
    obtain ⟨_, leaves, asked⟩ := departs.wrote_request logs departed
    exact .inl ⟨rfl, .inr ⟨_, leaves, (Run.wroteBy_of_idle rests.idle lt).trans asked⟩⟩
  | arrived arrives lt idle =>
    refine .inr ⟨_, rfl, ?_⟩
    rw [Run.wroteBy_of_idle idle lt]
    exact arrives.logged logs

theorem Course.grows {f : Except ClientError Reply → α} {u : Task Wire α} (logs : c.settings.wireLog = true)
    (course : c.Course d f r i n u) (step : u.step? w = some (u', w')) : w.log <+: w'.log := by
  cases course with
  | waiting =>
    obtain ⟨_, rfl⟩ := Prod.mk.inj (Option.some.inj step)
    exact List.prefix_refl _
  | cleared =>
    obtain ⟨_, rfl⟩ := Prod.mk.inj (Option.some.inj step)
    rcases c.log_depart logs _ w with ⟨_, _, log⟩ | ⟨_, _, _, log⟩
    · exact log ▸ List.prefix_append _ _
    · exact log ▸ List.prefix_append _ _
  | underway =>
    obtain ⟨_, rfl⟩ := Prod.mk.inj (Option.some.inj step)
    rcases c.log_arrive logs _ w with ⟨_, _, log⟩ | ⟨_, _, log⟩ | ⟨_, log⟩
    · exact log ▸ List.prefix_append _ _
    · exact log ▸ List.prefix_append _ _
    · exact log ▸ List.prefix_refl _
  | refused | lost | arrived => cases step

end Client

/-- In a run of sends of a client that logs its exchanges, and of tasks that log nothing of the wire, the log is what
the turns write, and the other tasks write nothing of the wire. A send that is over has written nothing if it was
refused, its request and the failure if the exchange has failed, its request and the response if there is one, and its
request alone if the time limit has ended the wait; one
that is not over has written nothing or its request. So requests and outcomes pair up for every send but those that the
time limit has ended. -/
theorem exchanges_logged {c : Client} (logs : c.settings.wireLog = true) {r : Run Wire α}
    (tasks : ∀ i t, r.task i 0 = some t →
      (∃ (d : Draft) (f : Except ClientError Reply → α), t = (c.send d).andThen fun x => done (f x)) ∨ t.LogsOffWire) :
    (∀ n, (r.state n).log = (r.state 0).log ++ (List.range n).flatMap r.wrote) ∧
    (∀ i t, r.task i 0 = some t → t.LogsOffWire → ∀ n, OffWire (r.wroteBy i n)) ∧
    ∀ i d (f : Except ClientError Reply → α), r.task i 0 = some ((c.send d).andThen fun x => done (f x)) →
      ∀ n u, r.task i n = some u →
      (u.value? = none ∧
        (r.wroteBy i n = [] ∨ ∃ o, c.outbound d = .ok o ∧ r.wroteBy i n = [Client.requestEvent o])) ∨
      ∃ x, u = done (f x) ∧ c.Logged d x (r.wroteBy i n) ∧
        (Paired (r.wroteBy i n) ∨ x = .error (.timeout c.settings.requestTimeout)) := by
  refine ⟨Run.log_eq fun n => ?_, fun i t start offWire n => ?_, fun i d f start n u later => ?_⟩
  · rcases r.state_succ n with same | ⟨i, t, t', turn, task, step⟩
    · rw [same]
    obtain ⟨first, start⟩ := Run.task_started task
    rcases tasks i first start with ⟨d, f, rfl⟩ | offWire
    · exact (Client.send_course start task).grows logs step
    · obtain ⟨events, log, _⟩ := ((offWire.turns start task).step step).1
      exact log ▸ List.prefix_append _ _
  · exact offWire.wrote start n
  · rcases (Client.send_course start later).logged logs with going | ⟨x, ended, logged⟩
    · exact .inl going
    · exact .inr ⟨x, ended, logged, logged.paired⟩

namespace Sample

def logging : Client :=
  { client with settings := { wireLog := true } }

def asked : Draft :=
  { method := .get, url := "https://e/x" }

/-- Two sends and a close; the first request that leaves gets no reply, the second gets one at once. -/
def hanging : Run Wire (Except ClientError Reply) where
  start :=
    { tasks := fun
        | 0 | 1 => some ((logging.send asked).andThen done)
        | 2 => some (Client.close.andThen fun _ => done (.error .closed))
        | _ => none
      state := { network := fun sent _ => if sent.isEmpty then .silent else answer 200 "" } }
  turns := turns [0, 1, 0, 1, 2, 1]

def error? : Except ClientError Reply → Option ClientError
  | .error e => some e
  | .ok _ => none

end Sample

/-- The send with a reply has its response logged; all that is logged is what the turns write. -/
theorem exchanges_logged_hanging :
    (Sample.hanging.state 7).log = (List.range 7).flatMap Sample.hanging.wrote ∧
    OffWire (Sample.hanging.wroteBy 2 7) ∧ Paired (Sample.hanging.wroteBy 1 7) := by
  obtain ⟨log, quiet, sends⟩ := exchanges_logged (c := Sample.logging) rfl (r := Sample.hanging) fun i t task => by
    match i with
    | 0 | 1 => exact .inl ⟨Sample.asked, id, Option.some.inj task.symm⟩
    | 2 => exact .inr (Option.some.inj task ▸ Client.close_offWire)
    | _ + 3 => cases task
  refine ⟨log 7, quiet 2 _ rfl Client.close_offWire 7, ?_⟩
  have answered : ((Sample.hanging.task 1 7).bind Task.value?).map Sample.error? = some none := by decide +kernel
  cases task : Sample.hanging.task 1 7 with
  | none =>
    rw [task] at answered
    cases answered
  | some u =>
    rw [task] at answered
    rcases sends 1 Sample.asked id rfl 7 u task with ⟨going, _⟩ | ⟨x, rfl, _, paired | rfl⟩
    · rw [Option.bind_some, going] at answered
      cases answered
    · exact paired
    · cases answered

/-- Both sends have returned, the first because of the time limit, and one of the two requests that were logged has no
outcome. -/
theorem request_without_outcome :
    ((Sample.hanging.task 0 7).bind Task.value?).map Sample.error? =
      some (some (.timeout Sample.logging.settings.requestTimeout)) ∧
    ((Sample.hanging.task 1 7).bind Task.value?).map Sample.error? = some none ∧
    ¬ Paired (Sample.hanging.state 7).log := by
  refine ⟨by decide +kernel, by decide +kernel, fun paired => ?_⟩
  have unequal : (Sample.hanging.state 7).log.countP (·.opens "GET" "https://e/x") ≠
      (Sample.hanging.state 7).log.countP (·.closes "GET" "https://e/x") := by decide +kernel
  exact unequal (paired _ _)

end EngineClient
