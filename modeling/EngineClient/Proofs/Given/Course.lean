import EngineClient.Proofs.Given.Calls

/-!
# The course of a request

How a request with a given authorization goes, turn by turn, whatever else takes turns on the connection: it is refused
before anything is handed over, or it is handed over once, and then its reply decides.
-/

namespace EngineClient
open EngineClient.State EngineClient.Task

/-! ### The steps of a send -/

theorem TokenCache.credential_fixed_run {t : TokenCache} (fixed : t.strategy.fixed? = some a) : t.credential.run =
    act id fun s => if s.slot = .revoked then done (.error .closed)
      else done (.ok { authorization := a, generation := none }) := by
  unfold credential
  cases strategy : t.strategy with
  | signOn service => cases (Strategy.fetched_of_signOn strategy).symm.trans fixed
  | basic a' =>
    rw [strategy] at fixed
    cases fixed
    dsimp only
    rw [Call.run_bind, checkOpen_run]
    refine congrArg (act id) (funext fun s => ?_)
    dsimp only
    split <;> rfl
  | token token =>
    rw [strategy] at fixed
    cases fixed
    unfold ensure
    rw [strategy]
    dsimp only
    rw [Call.run_bind, Call.run_bind, checkOpen_run]
    refine congrArg (act id) (funext fun s => ?_)
    dsimp only
    split <;> rfl

namespace Connection

/-- What is made of a response: of one of success itself, of any other a fault, for which the date is looked at. -/
def judge : Except Error Response → Task State (Except Error Response)
  | .error e => done (.error e)
  | .ok response =>
    if response.status.isSuccess then done (.ok response) else act id fun s => done (response.verdict s.wire.today)

theorem judge_run (response : Response) :
    (if response.status ≠ .unauthorized then checkStatus response else failUnauthorized response : Call Response).run =
      judge (.ok response) := by
  unfold judge
  dsimp only
  by_cases refused : response.status = .unauthorized
  · have fails : ¬ response.status.isSuccess = true := by
      rw [refused]
      decide
    rw [if_neg (not_not_intro refused), if_neg fails, failUnauthorized_run]
    refine congrArg (act id) (funext fun s => ?_)
    rw [Response.verdict, if_neg fails, if_pos refused]
  · rw [if_pos refused]
    unfold checkStatus
    split
    · rfl
    · rename_i fails
      refine congrArg (act id) (funext fun s => ?_)
      rw [Response.verdict, if_neg fails, if_neg refused]
      rfl

theorem send_fixed_run {c : Connection} (fixed : c.tokens.strategy.fixed? = some a) (request : Request) :
    (c.send request).run =
      act id fun s => if s.closed then done (.error .closed) else
        act id fun s => if s.slot = .revoked then done (.error .closed) else
          act (State.note (c.announcement request)) fun _ =>
            ((c.client.send (c.root.draft request a)).within State.wire State.setWire).andThen fun reply =>
              (noted (readReply c.client reply)).andThen judge := by
  have decides : ((c.execute request a) >>= fun response =>
      (if response.status ≠ .unauthorized then checkStatus response else failUnauthorized response)).run =
      act (State.note (c.announcement request)) fun _ =>
        ((c.client.send (c.root.draft request a)).within State.wire State.setWire).andThen fun reply =>
          (noted (readReply c.client reply)).andThen judge := by
    rw [Call.run_bind, execute_run]
    refine congrArg (act _) (funext fun _ => ?_)
    rw [andThen_assoc]
    refine congrArg (Task.andThen _) (funext fun reply => ?_)
    cases readReply c.client reply with
    | error e => rfl
    | ok response => exact congrArg (act _) (funext fun _ => judge_run response)
  unfold send authorize
  rw [Call.run_bind, Call.run_bind, ensureOpen_run, TokenCache.credential_fixed_run fixed]
  refine congrArg (act id) (funext fun s => ?_)
  dsimp only
  split
  · rfl
  · refine congrArg (act id) (funext fun s => ?_)
    dsimp only
    split
    · rfl
    · exact decides

theorem judge_ends (x : Except Error Response) : (judge x).EndsWithin 1 := by
  cases x with
  | error e => trivial
  | ok response =>
    unfold judge
    dsimp only
    split
    · trivial
    · exact fun _ => trivial

theorem noted_ends (x : Except Error Response) : ((noted x).andThen judge).EndsWithin 2 := by
  cases x with
  | error e => trivial
  | ok response => exact fun _ => judge_ends (.ok response)

theorem send_fixed_ends {c : Connection} (fixed : c.tokens.strategy.fixed? = some a) (request : Request) :
    (c.send request).run.EndsWithin 8 := by
  rw [send_fixed_run fixed, Client.send_within_run]
  intro s
  dsimp only
  split
  · trivial
  intro s
  dsimp only
  split
  · trivial
  intro s s
  dsimp only
  split
  · exact (noted_ends _).mono (by omega)
  intro s
  dsimp only
  split
  · exact (noted_ends _).mono (by omega)
  · exact fun _ => noted_ends _

/-! ### What the turns of a send come to -/

/-- From one time to another the turns of task `i` log some of the events given and change nothing else. -/
def Quiet (r : Run State α) (i : Nat) (events : List LogEvent) (m n : Nat) : Prop :=
  ∀ l, m ≤ l → l < n → r.turns l = .step i →
    r.state (l + 1) = r.state l ∨ ∃ e ∈ events, r.state (l + 1) = (r.state l).note e

section Quiet
variable {r : Run State α} {events : List LogEvent}

theorem quiet_of_idle (idle : r.Idle i m n) : Quiet r i events m n :=
  fun l le lt turn => .inl (idle l le lt turn)

theorem Quiet.append (first : Quiet r i events l m) (second : Quiet r i events m n) : Quiet r i events l n := by
  intro k le lt
  by_cases before : k < m
  · exact first k le before
  · exact second k (by omega) lt

theorem quiet_succ (turned : r.turns m = .step i → r.state (m + 1) = r.state m ∨
    ∃ e ∈ events, r.state (m + 1) = (r.state m).note e) : Quiet r i events m (m + 1) := by
  intro l le lt
  obtain rfl : l = m := by omega
  exact turned

theorem Quiet.sent (quiet : Quiet r i events m n) (le : m ≤ l) (lt : l < n) (turn : r.turns l = .step i) :
    (r.state (l + 1)).wire.sent = (r.state l).wire.sent := by
  rcases quiet l le lt turn with same | ⟨e, _, noted⟩
  · rw [same]
  · rw [noted]
    rfl

end Quiet

/-- Why a request is refused with nothing handed over. -/
inductive Refuses (c : Connection) (d : Draft) (s : State) : Error → Prop
  | closed (closed : s.closed = true) : Refuses c d s .closed
  | revoked (slot : s.slot = .revoked) : Refuses c d s .closed
  | client (refused : c.client.clear d s.wire = .error e) : Refuses c d s (.ofClient e)

/-- On a connection that is not closed only the checks of the client refuse. -/
theorem Refuses.cleared {c : Connection} {d : Draft} (refuses : c.Refuses d { wire := w } e) :
    ∃ e', c.client.clear d w = .error e' ∧ e = .ofClient e' := by
  cases refuses with
  | closed closed => cases closed
  | revoked slot => cases slot
  | client refused => exact ⟨_, refused, rfl⟩

/-- The first turn of task `i` that does anything but announce its request is turn `k`; it hands over what leaves for
the request. -/
structure Departs (c : Connection) (request : Request) (a : HeaderValue) (r : Run State α) (i k : Nat) (o : Outbound) :
    Prop where
  quiet : Quiet r i [c.announcement request] 0 k
  turn : r.turns k = .step i
  leaves : c.client.outbound (c.root.draft request a) = .ok o
  state : r.state (k + 1) = (r.state k).setWire (c.client.depart o (r.state k).wire).2

/-- The next turn of task `i` after turn `k` that does anything is turn `l`; it brings the reply to what was handed over
by turn `k`. -/
structure Arrives (c : Connection) (r : Run State α) (i k : Nat) (o : Outbound) (l : Nat)
    (reply : Except ClientError Reply) : Prop where
  since : k < l
  idle : r.Idle i (k + 1) l
  turn : r.turns l = .step i
  arrival : ∃ flight, (c.client.depart o (r.state k).wire).1 = .ok flight ∧
    reply = (c.client.arrive flight (r.state l).wire).1 ∧
    r.state (l + 1) = (r.state l).setWire (c.client.arrive flight (r.state l).wire).2

/-- How far a request has come by the turns of task `i` before turn `n`, and what it has given, if it is over. But for
its exchange, nothing is done for it that is not logged: that it is to be sent, and that its response has been read. -/
inductive Delivery (c : Connection) (request : Request) (a : HeaderValue) (r : Run State α) (i n : Nat) :
    Option (Except Error Response) → Prop
  | waiting (quiet : Quiet r i [c.announcement request] 0 n) : Delivery c request a r i n none
  | refused (quiet : Quiet r i [c.announcement request] 0 n) (turn : r.turns k = .step i) (lt : k < n)
    (refuses : c.Refuses (c.root.draft request a) (r.state k) e) : Delivery c request a r i n (some (.error e))
  | underway (departs : c.Departs request a r i k o) (lt : k < n) (idle : r.Idle i (k + 1) n) :
    Delivery c request a r i n none
  | lost (departs : c.Departs request a r i k o) (lt : k < n)
    (fails : (c.client.depart o (r.state k).wire).1 = .error e) (idle : r.Idle i (k + 1) n) :
    Delivery c request a r i n (some (.error (.ofClient e)))
  | arrived (departs : c.Departs request a r i k o) (arrives : c.Arrives r i k o l reply) (lt : l < n)
    (quiet : Quiet r i (receivedEvents (readReply c.client reply)) (l + 1) n) : Delivery c request a r i n none
  | answered (departs : c.Departs request a r i k o) (arrives : c.Arrives r i k o l reply) (lt : l < m) (le : m ≤ n)
    (quiet : Quiet r i (receivedEvents (readReply c.client reply)) (l + 1) n) :
    Delivery c request a r i n (some ((readReply c.client reply).bind (Response.verdict (r.state m).wire.today)))

/-- By turn `k` task `i` hands something over to the network. -/
def HandsOver (r : Run State α) (i k : Nat) : Prop :=
  r.turns k = .step i ∧ (r.state (k + 1)).wire.sent ≠ (r.state k).wire.sent

section Turns
variable {c : Connection} {request : Request} {r : Run State α} {u : Task State α} {f : Except Error Response → α}

theorem HandsOver.busy {events : List LogEvent} (hands : HandsOver r i x) (quiet : Quiet r i events m n) (le : m ≤ x) :
    ¬ x < n :=
  fun lt => hands.2 (quiet.sent le lt hands.1)

theorem Delivery.departs {result : Option (Except Error Response)} (delivery : c.Delivery request a r i n result)
    (lt : x < n) (hands : HandsOver r i x) : ∃ o, c.Departs request a r i x o := by
  have departure : ∀ {k o m}, c.Departs request a r i k o → r.Idle i (k + 1) m → x < m →
      ∃ o, c.Departs request a r i x o := by
    intro k o m departs idle lt
    have since := hands.busy departs.quiet (Nat.zero_le x)
    by_cases same : x = k
    · exact ⟨o, same ▸ departs⟩
    · have silent : Quiet r i [] (k + 1) m := quiet_of_idle idle
      exact (hands.busy silent (by omega) lt).elim
  -- What an arrival changes is not what was sent.
  have arrival : ∀ {k o l reply}, c.Departs request a r i k o → c.Arrives r i k o l reply →
      Quiet r i (receivedEvents (readReply c.client reply)) (l + 1) n → ∃ o, c.Departs request a r i x o := by
    intro k o l reply departs arrives quiet
    rcases Nat.lt_trichotomy x l with before | rfl | after
    · exact departure departs arrives.idle before
    · obtain ⟨flight, _, _, state⟩ := arrives.arrival
      exact (hands.2 (by rw [state]; exact c.client.sent_arrive flight (r.state x).wire)).elim
    · exact (hands.busy quiet after lt).elim
  cases delivery with
  | waiting quiet | refused quiet _ _ _ => exact (hands.busy quiet (Nat.zero_le x) lt).elim
  | underway departs _ idle | lost departs _ _ idle => exact departure departs idle lt
  | arrived departs arrives _ quiet | answered departs arrives _ _ quiet => exact arrival departs arrives quiet

/-- A request is handed over once at most. -/
theorem Delivery.once {result : Option (Except Error Response)} (delivery : c.Delivery request a r i n result)
    (lt : x < n) (lt' : y < n) (hands : HandsOver r i x) (hands' : HandsOver r i y) : x = y := by
  obtain ⟨_, first⟩ := delivery.departs lt hands
  obtain ⟨_, second⟩ := delivery.departs lt' hands'
  have since := hands.busy second.quiet (Nat.zero_le x)
  have since' := hands'.busy first.quiet (Nat.zero_le y)
  omega

/-- A task that only looks or logs by its next step still stands before it, or has taken it. -/
theorem quiet_turns {events : List LogEvent} {change : State → State} {next : State → Task State α}
    (looks : ∀ s, change s = s ∨ ∃ e ∈ events, change s = s.note e) (quiet : Quiet r i events 0 m)
    (task : r.task i m = some (act change next)) (le : m ≤ n) (later : r.task i n = some u) :
    (u = act change next ∧ Quiet r i events 0 n) ∨ ∃ l, l < n ∧ r.turns l = .step i ∧ Quiet r i events 0 (l + 1) ∧
      r.task i (l + 1) = some (next (r.state l)) := by
  rcases Run.next_turn (fun _ => rfl) task le later with ⟨same, after⟩ | ⟨l, _, lt, after, turn, state, looked⟩
  · exact .inl ⟨same, quiet.append (quiet_of_idle after)⟩
  · have last : Quiet r i events l (l + 1) := quiet_succ fun _ => by
      rw [state]
      exact looks (r.state l)
    exact .inr ⟨l, lt, turn, (quiet.append (quiet_of_idle after)).append last, looked⟩

theorem look_turns {events : List LogEvent} {next : State → Task State α} (quiet : Quiet r i events 0 m)
    (task : r.task i m = some (act id next)) (le : m ≤ n) (later : r.task i n = some u) :
    (u = act id next ∧ Quiet r i events 0 n) ∨ ∃ l, l < n ∧ r.turns l = .step i ∧ Quiet r i events 0 (l + 1) ∧
      r.task i (l + 1) = some (next (r.state l)) :=
  quiet_turns (fun _ => .inl rfl) quiet task le later

theorem refused_turns (quiet : Quiet r i [c.announcement request] 0 (k + 1)) (turn : r.turns k = .step i)
    (refuses : c.Refuses (c.root.draft request a) (r.state k) e)
    (task : r.task i (k + 1) = some (done (f (.error e)))) (lt : k < n) (later : r.task i n = some u) :
    ∃ result, u.value? = result.map f ∧ c.Delivery request a r i n result := by
  obtain ⟨rfl, after⟩ := Run.idle_of_done task lt later
  exact ⟨some (.error e), rfl, .refused (quiet.append (quiet_of_idle after)) turn lt refuses⟩

theorem judge_turns (task : r.task i m = some ((judge x).andThen fun y => done (f y))) (le : m ≤ n)
    (later : r.task i n = some u) : r.Idle i m n ∧ (u.value? = none ∨ ∃ l, m ≤ l ∧ l ≤ n ∧
      u.value? = some (f (x.bind (Response.verdict (r.state l).wire.today)))) := by
  cases x with
  | error e =>
    obtain ⟨rfl, idle⟩ := Run.idle_of_done task le later
    exact ⟨idle, .inr ⟨m, Nat.le_refl m, le, rfl⟩⟩
  | ok response =>
    unfold judge at task
    dsimp only at task
    split at task
    · rename_i success
      obtain ⟨rfl, idle⟩ := Run.idle_of_done task le later
      refine ⟨idle, .inr ⟨m, Nat.le_refl m, le, ?_⟩⟩
      simp only [value?, Except.bind, Response.verdict, if_pos success]
    · rcases Run.next_turn (fun _ => rfl) task le later with ⟨rfl, idle⟩ | ⟨l, since, lt, idle, turn, state, ended⟩
      · exact ⟨idle, .inl rfl⟩
      · obtain ⟨rfl, after⟩ := Run.idle_of_done ended lt later
        exact ⟨(idle.append (Run.idle_succ fun _ => state)).append after, .inr ⟨l, since, by omega, rfl⟩⟩

theorem noted_turns (task : r.task i m = some (((noted x).andThen judge).andThen fun y => done (f y))) (le : m ≤ n)
    (later : r.task i n = some u) : Quiet r i (receivedEvents x) m n ∧ (u.value? = none ∨ ∃ l, m ≤ l ∧ l ≤ n ∧
      u.value? = some (f (x.bind (Response.verdict (r.state l).wire.today)))) := by
  cases x with
  | error e =>
    obtain ⟨idle, ended⟩ := judge_turns (x := .error e) task le later
    exact ⟨quiet_of_idle idle, ended⟩
  | ok response =>
    rcases Run.next_turn (fun _ => rfl) task le later with ⟨rfl, idle⟩ | ⟨l, since, lt, idle, turn, state, judged⟩
    · exact ⟨quiet_of_idle idle, .inl rfl⟩
    · have logs : Quiet r i (receivedEvents (.ok response)) l (l + 1) :=
        quiet_succ fun _ => .inr ⟨_, List.mem_singleton_self _, state⟩
      obtain ⟨after, ended⟩ := judge_turns (x := .ok response) judged lt later
      refine ⟨((quiet_of_idle idle).append logs).append (quiet_of_idle after), ended.imp id ?_⟩
      rintro ⟨k, le', found⟩
      exact ⟨k, by omega, found⟩

theorem departed_turns (departs : c.Departs request a r i k o)
    (task : r.task i (k + 1) = some ((match (c.client.depart o (r.state k).wire).1 with
      | .error e => (noted (readReply c.client (.error e))).andThen judge
      | .ok flight => wait (fun s => s.setWire (c.client.arrive flight s.wire).2) fun s =>
        (noted (readReply c.client (c.client.arrive flight s.wire).1)).andThen judge :
      Task State (Except Error Response)).andThen fun y => done (f y))) (lt : k < n) (later : r.task i n = some u) :
    ∃ result, u.value? = result.map f ∧ c.Delivery request a r i n result := by
  cases departure : (c.client.depart o (r.state k).wire).1 with
  | error e =>
    rw [departure] at task
    obtain ⟨rfl, idle⟩ := Run.idle_of_done task lt later
    exact ⟨some (.error (.ofClient e)), rfl, .lost departs lt departure idle⟩
  | ok flight =>
    rw [departure] at task
    rcases Run.next_turn (fun _ => rfl) task lt later with ⟨rfl, idle⟩ | ⟨l, since, before, idle, turn, state, judged⟩
    · exact ⟨none, rfl, .underway departs lt idle⟩
    · have arrives : c.Arrives r i k o l _ := ⟨since, idle, turn, flight, departure, rfl, state⟩
      obtain ⟨after, going | ⟨m, since', le, ended⟩⟩ := noted_turns judged before later
      · exact ⟨none, going, .arrived departs arrives before after⟩
      · exact ⟨some _, ended, .answered departs arrives since' le after⟩

/-- A send with a given authorization, at any time: what its turns have done and what it has given. -/
theorem send_delivery (fixed : c.tokens.strategy.fixed? = some a)
    (start : r.task i 0 = some ((c.send request).run.andThen fun y => done (f y))) (later : r.task i n = some u) :
    ∃ result, u.value? = result.map f ∧ c.Delivery request a r i n result := by
  have unbegun : Quiet r i [c.announcement request] 0 0 := fun _ _ lt => by omega
  rw [send_fixed_run fixed, Client.send_within_run] at start
  rcases look_turns unbegun start (Nat.zero_le n) later with ⟨rfl, quiet⟩ | ⟨k, lt, turn, quiet, task⟩
  · exact ⟨none, rfl, .waiting quiet⟩
  dsimp only at task
  by_cases closed : (r.state k).closed = true
  · rw [if_pos closed] at task
    exact refused_turns quiet turn (.closed closed) task lt later
  rw [if_neg closed] at task
  rcases look_turns quiet task lt later with ⟨rfl, quiet⟩ | ⟨k, lt, turn, quiet, task⟩
  · exact ⟨none, rfl, .waiting quiet⟩
  dsimp only at task
  by_cases slot : (r.state k).slot = .revoked
  · rw [if_pos slot] at task
    exact refused_turns quiet turn (.revoked slot) task lt later
  rw [if_neg slot] at task
  have announces : ∀ s : State, s.note (c.announcement request) = s ∨
      ∃ e ∈ [c.announcement request], s.note (c.announcement request) = s.note e :=
    fun _ => .inr ⟨_, List.mem_singleton_self _, rfl⟩
  rcases quiet_turns announces quiet task lt later with ⟨rfl, quiet⟩ | ⟨k, lt, turn, quiet, task⟩
  · exact ⟨none, rfl, .waiting quiet⟩
  dsimp only at task
  rcases look_turns quiet task lt later with ⟨rfl, quiet⟩ | ⟨k, lt, turn, quiet, task⟩
  · exact ⟨none, rfl, .waiting quiet⟩
  dsimp only at task
  cases cleared : c.client.clear (c.root.draft request a) (r.state k).wire with
  | error e =>
    rw [cleared] at task
    exact refused_turns quiet turn (.client cleared) task lt later
  | ok o =>
    rw [cleared] at task
    rcases Run.next_turn (fun _ => rfl) task lt later with ⟨rfl, after⟩ | ⟨k, _, lt, after, turn, state, task⟩
    · exact ⟨none, rfl, .waiting (quiet.append (quiet_of_idle after))⟩
    · have departs : c.Departs request a r i k o :=
        ⟨quiet.append (quiet_of_idle after), turn, Client.outbound_of_clear cleared, state⟩
      exact departed_turns departs task lt later

/-- A send that is not dropped has returned once it has had eight turns. -/
theorem send_returns (fixed : c.tokens.strategy.fixed? = some a)
    (start : r.task i 0 = some ((c.send request).run.andThen fun y => done (f y))) (kept : ∀ l < n, r.turns l ≠ .drop i)
    (turns : 8 ≤ Nat.count (fun l => r.turns l = .step i) n) : ∃ b, r.task i n = some (done b) := by
  obtain ⟨b, m, le, _, advances⟩ := Run.performs_of_turns start (send_fixed_ends fixed request)
    (fun l lt => by rw [Nat.zero_add]; exact kept l lt) (by simpa only [Nat.zero_add] using turns)
  rw [Nat.zero_add] at le
  have ended : r.task i m = some (done (f b)) := advances.task start
  obtain ⟨u, later⟩ := Run.task_kept ended le kept
  obtain ⟨rfl, _⟩ := Run.idle_of_done ended le later
  exact ⟨f b, later⟩

end Turns
end Connection
end EngineClient
