import EngineClient.Proofs.Sending
import EngineClient.Proofs.Token.Freshness

/-!
# The end

Once the slot has been revoked it stays so and no flight begins. At most one request to revoke a token goes out, with
the token that was in the slot, and every close ends.
-/

namespace EngineClient
open EngineClient.State EngineClient.Task

variable {margin : Span} {s : State}

/-! ### What a close sends -/

/-- A step that hands over the request to revoke a token. -/
def HandsOver (c : Client) (service : SignOn) (token : AccessToken) (s s' : State) : Prop :=
  ∃ p, (service.revokeDraft token).prepare c.settings.security = .ok p ∧
    s' = s.setWire (c.depart (c.outgoing p) s.wire).2

theorem Client.prepared_of_clear {c : Client} (h : c.clear d w = .ok o) :
    ∃ p, d.prepare c.settings.security = .ok p ∧ o = c.outgoing p := by
  unfold clear at h
  split at h
  · cases h
  · rename_i p prepared
    split at h
    · cases h
      exact ⟨p, prepared, rfl⟩
    · cases h

namespace TokenCache

theorem noteRevocation_silent (c : Client) (reply : Except ClientError Reply) : (noteRevocation c reply).Silent :=
  silent_update fun _ => rfl

theorem revokeToken_run (c : Client) (service : SignOn) (token : AccessToken) : revokeToken c service token =
    act id fun s => match c.clear (service.revokeDraft token) s.wire with
      | .error e => noteRevocation c (.error e)
      | .ok o => act (fun s => s.setWire (c.depart o s.wire).2) fun s => match (c.depart o s.wire).1 with
        | .error e => noteRevocation c (.error e)
        | .ok flight => wait (fun s => s.setWire (c.arrive flight s.wire).2) fun s =>
          noteRevocation c (c.arrive flight s.wire).1 :=
  c.send_within_run (service.revokeDraft token) (noteRevocation c)

theorem revokeToken_sendsOnce (c : Client) (service : SignOn) (token : AccessToken) :
    (revokeToken c service token).SendsOnce (HandsOver c service token) := by
  rw [revokeToken_run]
  refine .inl fun s => ⟨rfl, ?_⟩
  dsimp only
  split
  · exact (noteRevocation_silent c _).sendsOnce
  · rename_i o cleared
    obtain ⟨p, prepared, rfl⟩ := Client.prepared_of_clear cleared
    refine .inr fun s' => ⟨⟨p, prepared, rfl⟩, ?_⟩
    dsimp only
    split
    · exact noteRevocation_silent c _
    · rename_i flight _
      exact fun s'' => ⟨c.sent_arrive flight s''.wire, noteRevocation_silent c _⟩

end TokenCache

theorem TokenCache.revoke_sends {t : TokenCache} {r : Run State α} {rest : Unit → Task State α} {u : Task State α}
    (silent : ∀ a, (rest a).Silent) (task : r.task i m = some (t.revoke.andThen rest))
    (advances : r.Advances i (t.revoke.andThen rest) m u n) (sends : u.Sends) :
    ∃ l < n, r.turns l = .step i ∧ (r.state (l + 1)).slot = .revoked ∧
      ∃ service g token, t.strategy = .signOn service ∧ (r.state l).slot = .ready g token ∧
        u.SendsOnce (HandsOver t.client service token) := by
  rw [TokenCache.revoke_run] at task advances
  rcases advances.first task with rfl | ⟨l, t', lt, turn, step, _, advances⟩
  · exact absurd sends (not_sends_act fun _ => rfl)
  obtain ⟨rfl, state⟩ := Prod.mk.inj (Option.some.inj step)
  refine ⟨l, lt, turn, by rw [← state]; rfl, ?_⟩
  dsimp only at advances
  split at advances
  · rename_i service g token signOn ready
    exact ⟨service, g, token, signOn, ready, ((revokeToken_sendsOnce _ _ _).andThen silent).advances advances⟩
  · have quiet : ∀ e, ((Task.update (State.note e)).andThen rest).Silent := fun e s => ⟨rfl, silent ()⟩
    exact (((quiet _).advances advances).not_sends sends).elim
  · exact (((silent ()).advances advances).not_sends sends).elim

theorem Connection.close_sends {c : Connection} {r : Run State α} {k : Unit → Task State α} {u : Task State α}
    (silent : ∀ a, (k a).Silent) (begun : r.task i 0 = some (c.close.andThen k)) (task : r.task i n = some u)
    (sends : u.Sends) :
    ∃ l < n, r.turns l = .step i ∧ (r.state (l + 1)).slot = .revoked ∧
      ∃ service g token, c.tokens.strategy = .signOn service ∧ (r.state l).slot = .ready g token ∧
        u.SendsOnce (HandsOver c.tokens.client service token) := by
  have advances := Run.advances_of_task begun (Nat.zero_le n) task (going_of_sends sends)
  rw [close_run] at begun advances
  rcases advances.first begun with rfl | ⟨l, t', _, _, step, task', advances⟩
  · exact absurd sends (not_sends_act fun _ => rfl)
  obtain ⟨rfl, _⟩ := Prod.mk.inj (Option.some.inj step)
  dsimp only at advances task'
  split at advances
  · exact (((silent ()).advances advances).not_sends sends).elim
  · rename_i opened
    rw [if_neg opened, andThen_assoc] at task'
    rw [andThen_assoc] at advances
    refine TokenCache.revoke_sends (fun _ => ?_) task' advances sends
    rw [andThen_assoc]
    exact fun s => ⟨Client.sent_shut s.wire, fun s' => ⟨rfl, silent ()⟩⟩

/-! ### At most one request -/

/-- By a turn, a call to close hands a request over to the network. -/
structure Posts (r : Run State α) (calls : Nat → ConnectionCall) (i n : Nat) : Prop where
  call : calls i = .close
  turn : r.turns n = .step i
  sends : ∃ u, r.task i n = some u ∧ u.Sends

theorem posts_of_sent {r : Run State α} {calls : Nat → ConnectionCall} (call : calls i = .close)
    (turn : r.turns n = .step i) (sent : (r.state (n + 1)).wire.sent ≠ (r.state n).wire.sent) : Posts r calls i n := by
  rcases r.state_succ n with same | ⟨j, u, u', turn', task, step⟩
  · rw [same] at sent
    exact (sent rfl).elim
  · cases turn.symm.trans turn'
    exact ⟨call, turn, u, task, _, _, _, step, sent⟩

section Posts
variable {c : Connection} {calls : Nat → ConnectionCall} {r : Run State Returned}
  (begun : ∀ i, r.task i 0 = some ((calls i).task c))
include begun

/-- A close that posts has taken a token out of the slot, posts the request to revoke it and nothing after that. -/
theorem Posts.hands_over (posts : Posts r calls i n) :
    (∃ l < n, r.turns l = .step i ∧ (r.state (l + 1)).slot = .revoked ∧ ∃ service g token,
      c.tokens.strategy = .signOn service ∧ (r.state l).slot = .ready g token ∧
      HandsOver c.tokens.client service token (r.state n) (r.state (n + 1))) ∧
    ∃ v, r.task i (n + 1) = some v ∧ v.Silent := by
  obtain ⟨call, turn, u, task, sends⟩ := posts
  have start := begun i
  rw [call] at start
  have silent : ∀ _ : Unit, (done Returned.nothing : Task State Returned).Silent := fun _ => trivial
  obtain ⟨l, lt, first, revoked, service, g, token, signOn, ready, once⟩ :=
    Connection.close_sends silent start task sends
  obtain ⟨⟨v, s'⟩, step⟩ := Option.ne_none_iff_exists'.mp (going_of_sends sends (r.state n))
  obtain ⟨hands, quiet⟩ := once.hands sends step
  obtain ⟨left, state⟩ := Run.task_step turn task step
  rw [← state] at hands
  exact ⟨⟨l, lt, first, revoked, service, g, token, signOn, ready, hands⟩, v, left, quiet⟩

theorem Posts.not_later (first : Posts r calls i m) (second : Posts r calls i n) : ¬ m < n := by
  intro lt
  obtain ⟨_, v, left, silent⟩ := first.hands_over begun
  obtain ⟨_, _, u, task, sends⟩ := second
  exact (silent.advances (Run.advances_of_task left lt task (going_of_sends sends))).not_sends sends

variable {guar : Nat → State → State → Prop} (sound : r.Sound Lawful guar) (initial : (r.state 0).Coherent)
include sound initial

omit begun in
theorem end_once (before : (r.state m).slot ≠ .revoked) (after : (r.state (m + 1)).slot = .revoked)
    (before' : (r.state n).slot ≠ .revoked) (after' : (r.state (n + 1)).slot = .revoked) : m = n := by
  have stays : ∀ k l, k + 1 ≤ l → (r.state (k + 1)).slot = .revoked → (r.state l).slot = .revoked :=
    fun k l le revoked => ((sound.lawful initial le).2.2.revoked revoked).1
  rcases Nat.lt_trichotomy m n with lt | same | lt
  · exact (before' (stays m n lt after)).elim
  · exact same
  · exact (before (stays n m lt after')).elim

/-- Of all calls to close at most one posts, and it posts once. -/
theorem Posts.unique (first : Posts r calls i m) (second : Posts r calls j n) : i = j ∧ m = n := by
  obtain ⟨⟨l, _, turn, revoked, _, g, token, _, ready, _⟩, _⟩ := first.hands_over begun
  obtain ⟨⟨l', _, turn', revoked', _, g', token', _, ready', _⟩, _⟩ := second.hands_over begun
  -- Both have taken the token out of the slot, which can be done only once.
  have same : l = l' := end_once sound initial (by rw [ready]; simp) revoked (by rw [ready']; simp) revoked'
  subst same
  cases turn.symm.trans turn'
  have := first.not_later begun second
  have := second.not_later begun first
  exact ⟨rfl, by omega⟩

theorem Posts.not_of_unready (unready : (r.state l).slot.isReady = false) (before : (r.state l).slot ≠ .revoked)
    (after : (r.state (l + 1)).slot = .revoked) : ¬ Posts r calls i n := by
  intro posts
  obtain ⟨⟨l', _, _, revoked, _, g, token, _, ready, _⟩, _⟩ := posts.hands_over begun
  have same : l = l' := end_once sound initial before after (by rw [ready]; simp) revoked
  subst same
  rw [ready] at unready
  cases unready

end Posts

/-! ### After the connection was closed -/

theorem Run.Sound.ends_without_flight {r : Run State α} {guar : Nat → State → State → Prop}
    {post : β → State → Prop} {t : Task State β} {k : β → Task State α} (sound : r.Sound Lawful guar)
    (task : r.task i m = some (t.andThen k)) (short : t.EndsWithin d)
    (keeps : t.Keeps Lawful (Does margin fun d => d ≠ .begin) post (r.state m))
    (kept : ∀ l < n, r.turns (m + l) ≠ .drop i) (often : d ≤ Nat.count (fun l => r.turns (m + l) = .step i) n) :
    ∃ b, ∃ l ≤ m + n, r.task i l = some (k b) ∧ post b (r.state l) ∧ ∀ j, m ≤ j → j < l → r.turns j = .step i →
      (r.state (j + 1)).flights.length = (r.state j).flights.length := by
  obtain ⟨b, l, le, performs⟩ := performs_of_turns task short kept often
  refine ⟨b, l, le, performs.2.task task, sound.performs performs keeps, fun j le lt turn => ?_⟩
  obtain ⟨d, other, move⟩ := sound.own performs.2 task keeps j le lt turn
  exact move.length_flights other

theorem Connection.ensureOpen_run : Connection.ensureOpen.run =
    act id fun s => if s.closed then done (.error .closed) else done (.ok ()) := rfl

theorem Connection.retry_begins (c : Connection) (request : Request) (g : Nat) : ∃ rest,
    (c.retry request g).run = ((giveUp request g).andThen fun _ => ensureOpen.run).andThen rest ∧
      ∀ e, rest (.error e) = done (.error e) := by
  rw [retry_run, Call.run_bind]
  unfold authorize
  rw [Call.run_bind, andThen_assoc, ← andThen_assoc]
  exact ⟨_, rfl, fun e => rfl⟩

theorem Connection.reopen_keeps (margin : Span) (closed : s.closed = true) (coherent : s.Coherent) (request : Request)
    (g : Nat) : ((giveUp request g).andThen fun _ => ensureOpen.run).Keeps Lawful (Does margin fun d => d ≠ .begin)
      (fun r _ => r = .error .closed) s := by
  have givesUp : (giveUp request g).Keeps Lawful (Does margin fun d => d ≠ .begin) (fun _ _ => True) s :=
    giveUp_obeys request (by simp) (by simp) s coherent
  have stays : (giveUp request g).Keeps Lawful (Does margin fun d => d ≠ .begin)
      (fun _ s' => (s'.Coherent ∧ s'.closed = true) ∧ True) s := by
    refine givesUp.invariant (fun between held => ?_) (fun step held => ?_) ⟨coherent, closed⟩
    · obtain ⟨coherent', evolves⟩ := between held.1
      exact ⟨coherent', evolves.closed held.2⟩
    · obtain ⟨coherent', evolves⟩ := step.lawful held.1
      exact ⟨coherent', evolves.closed held.2⟩
  refine Keeps.andThen Lawful.refl (stays.imp ?_)
  rintro _ s' ⟨⟨coherent', closed'⟩, _⟩
  rw [ensureOpen_run]
  intro s₁ between
  have closed₁ := (between coherent').2.closed closed'
  refine ⟨does_other (by simp) (.refl margin s₁), ?_⟩
  dsimp only [id]
  rw [if_pos closed₁]
  exact fun _ _ => rfl

theorem Connection.reopen_ends (request : Request) (g : Nat) :
    ((giveUp request g).andThen fun _ => ensureOpen.run).EndsWithin 3 := by
  rw [ensureOpen_run]
  intro _ _ s
  dsimp only
  split
  · trivial
  · trivial

theorem Connection.failUnauthorized_run (response : Response) : (failUnauthorized response).run =
    act id fun s => done (.error (.auth (.unauthorized (Fault.ofResponse s.wire.today response)))) := rfl

theorem Connection.failUnauthorized_keeps (margin : Span) (response : Response) (s : State) :
    (failUnauthorized response).run.Keeps Lawful (Does margin fun d => d ≠ .begin) (fun r _ => ∃ e, r = .error e) s := by
  rw [failUnauthorized_run]
  exact fun s₁ _ => ⟨does_other (by simp) (.refl margin s₁), fun _ _ => ⟨_, rfl⟩⟩

/-- A send that is refused on a closed connection ends with an error, and it begins no flight. -/
theorem Refused.ends {r : Run State α} {c : Connection} {guar : Nat → State → State → Prop}
    (refused : Refused r c i request k first m) (sound : r.Sound Lawful guar) (initial : (r.state 0).Coherent)
    (closed : (r.state m).closed = true) (kept : ∀ l < n, r.turns (m + l) ≠ .drop i)
    (often : 3 ≤ Nat.count (fun l => r.turns (m + l) = .step i) n) :
    ∃ e, (first.generation ≠ none → e = .closed) ∧ ∃ l ≤ m + n, r.task i l = some (k (.error e)) ∧
      ∀ j, m ≤ j → j < l → r.turns j = .step i →
        (r.state (j + 1)).flights.length = (r.state j).flights.length := by
  obtain ⟨response, left⟩ := refused.left
  have coherent := (sound.lawful initial (Nat.le_refl m)).1
  cases generation : first.generation with
  | none =>
    rw [generation] at left
    have short : (Connection.failUnauthorized response).run.EndsWithin 3 := fun _ => trivial
    obtain ⟨b, l, le, task, ⟨e, rfl⟩, quiet⟩ := sound.ends_without_flight left short
      (Connection.failUnauthorized_keeps c.tokens.margin response _) kept often
    exact ⟨e, fun h => (h rfl).elim, l, le, task, quiet⟩
  | some g =>
    rw [generation] at left
    obtain ⟨rest, same, fails⟩ := c.retry_begins request g
    dsimp only at left
    rw [same, andThen_assoc] at left
    obtain ⟨b, l, le, task, rfl, quiet⟩ := sound.ends_without_flight left (Connection.reopen_ends request g)
      (Connection.reopen_keeps c.tokens.margin closed coherent request g) kept often
    rw [fails] at task
    exact ⟨.closed, fun _ => rfl, l, le, task, quiet⟩

/-! ### Closing ends -/

theorem TokenCache.noteRevocation_ends (c : Client) (reply : Except ClientError Reply) :
    (noteRevocation c reply).EndsWithin 1 :=
  fun _ => trivial

theorem TokenCache.revokeToken_ends (c : Client) (service : SignOn) (token : AccessToken) :
    (revokeToken c service token).EndsWithin 4 := by
  rw [revokeToken_run]
  intro s
  dsimp only
  split
  · exact (noteRevocation_ends c _).mono (by omega)
  · intro s'
    dsimp only
    split
    · exact (noteRevocation_ends c _).mono (by omega)
    · exact fun _ => noteRevocation_ends c _

theorem TokenCache.revoke_ends (t : TokenCache) : t.revoke.EndsWithin 5 := by
  rw [revoke_run]
  intro s
  dsimp only
  split
  · exact revokeToken_ends _ _ _
  · exact fun _ => trivial
  · trivial

theorem Connection.close_ends (c : Connection) : c.close.EndsWithin 8 := by
  rw [close_run]
  intro s
  dsimp only
  split
  · trivial
  · exact c.tokens.revoke_ends.andThen (n := 2) fun _ _ _ => trivial

/-- Once revoked the slot stays so and no flight begins; a send refused on a closed connection ends without another
flight; calls to close hand over one request at most, to revoke the token that was in the slot when it was revoked,
and none if there was none; and every call to close is done after eight turns of its own at the latest. -/
theorem revoked_is_terminal (c : Connection) (calls : Nat → ConnectionCall) (w : Wire) (turns : Nat → Turn) :
    let r := c.together calls w turns
    (∀ m n, m ≤ n → (r.state m).slot = .revoked →
      (r.state n).slot = .revoked ∧ (r.state n).flights.length = (r.state m).flights.length) ∧
    (∀ i request k first m n, Refused r c i request k first m → (r.state m).closed = true →
      (∀ l < n, turns (m + l) ≠ .drop i) → 3 ≤ Nat.count (fun l => turns (m + l) = .step i) n →
      ∃ e, (first.generation ≠ none → e = .closed) ∧ ∃ l ≤ m + n, r.task i l = some (k (.error e)) ∧
        ∀ j, m ≤ j → j < l → turns j = .step i →
          (r.state (j + 1)).flights.length = (r.state j).flights.length) ∧
    (∀ i j m n, Posts r calls i m → Posts r calls j n → i = j ∧ m = n) ∧
    (∀ i n, Posts r calls i n → ∃ l < n, turns l = .step i ∧ (r.state (l + 1)).slot = .revoked ∧
      ∃ service g token, c.tokens.strategy = .signOn service ∧ (r.state l).slot = .ready g token ∧
        HandsOver c.tokens.client service token (r.state n) (r.state (n + 1))) ∧
    (∀ l, (r.state l).slot = .empty ∨ (∃ g, (r.state l).slot = .pending g) → (r.state (l + 1)).slot = .revoked →
      ∀ i n, ¬ Posts r calls i n) ∧
    ∀ i n, calls i = .close → (∀ l < n, turns l ≠ .drop i) → 8 ≤ Nat.count (fun l => turns l = .step i) n →
      ∃ l ≤ n, r.task i l = some (done .nothing) := by
  intro r
  have sound : r.Sound Lawful fun i => Does c.tokens.margin (calls i).Allows := c.together_sound w turns calls
  have initial : (r.state 0).Coherent := Coherent.initial w
  have begun : ∀ i, r.task i 0 = some ((calls i).task c) := fun _ => rfl
  refine ⟨?_, ?_, ?_, ?_, ?_, ?_⟩
  · intro m n le revoked
    obtain ⟨coherent, coherent', evolves⟩ := sound.lawful initial le
    obtain ⟨slot, generation⟩ := evolves.revoked revoked
    exact ⟨slot, by rw [coherent.length_flights, coherent'.length_flights, generation]⟩
  · intro i request k first m n refused closed kept often
    exact refused.ends sound initial closed kept often
  · intro i j m n first second
    exact first.unique begun sound initial second
  · intro i n posts
    exact (posts.hands_over begun).1
  · intro l before after i n
    rcases before with empty | ⟨g, pending⟩
    · exact Posts.not_of_unready begun sound initial (by rw [empty]; rfl) (by rw [empty]; simp) after
    · exact Posts.not_of_unready begun sound initial (by rw [pending]; rfl) (by rw [pending]; simp) after
  · intro i n call kept often
    have start := begun i
    rw [call] at start
    have same : r.turns = turns := rfl
    obtain ⟨b, l, le, performs⟩ := Run.performs_of_turns start c.close_ends (n := n)
      (by simpa [same] using kept) (by simpa [same] using often)
    exact ⟨l, by omega, performs.2.task start⟩

/-- A connection is closed while a request is under way that will be refused, and another one before it is used. -/
theorem revoked_is_terminal_under_way :
    let calls : Nat → ConnectionCall := fun i => if i = 0 then .send (.get "x") else .close
    let turns := Sample.turns [0, 0, 0, 0, 0, 0, 0, 0, 0, 1, 1, 1, 1, 1, 1, 1, 1]
    let r := Sample.connection.together calls Sample.wire turns
    (r.state 30).slot = .revoked ∧ (∃ l ≤ 22, r.task 0 l = some (done (.response (.error .closed)))) ∧
      (∃ l ≤ 17, r.task 1 l = some (done .nothing)) ∧
      (∃ service token, HandsOver Sample.client service token (r.state 12) (r.state 13)) ∧
      ∀ i n, ¬ Posts (Sample.connection.together (fun _ => .close) Sample.wire (Sample.turns []))
        (fun _ => .close) i n := by
  intro calls turns r
  obtain ⟨stays, refuses, _, carries, _, ends⟩ := revoked_is_terminal Sample.connection calls Sample.wire turns
  obtain ⟨_, _, _, _, none, _⟩ :=
    revoked_is_terminal Sample.connection (fun _ => .close) Sample.wire (Sample.turns [])
  have begun : r.task 0 0 = some ((Sample.connection.send (.get "x")).run.andThen fun x => done (.response x)) := rfl
  have left := begun
  unfold Connection.send at left
  obtain ⟨authorized, left⟩ := Call.performs_of_taken (a := Sample.first) left 6 (by decide +kernel)
  obtain ⟨executed, _⟩ := Call.performs_of_taken (a := Sample.refusal) left 13 (by decide +kernel)
  have refused : Refused r Sample.connection 0 (.get "x") (fun x => done (.response x)) Sample.first 19 :=
    ⟨0, 6, Sample.refusal, begun, authorized, executed, rfl⟩
  have revoked : (r.state 11).slot = .revoked := by decide +kernel
  have posts : Posts r calls 1 12 := posts_of_sent rfl rfl (by decide +kernel)
  refine ⟨(stays 11 30 (by decide) revoked).1, ?_, ?_, ?_, ?_⟩
  · obtain ⟨e, closed, l, le, task, _⟩ := refuses 0 (.get "x") _ Sample.first 19 3 refused (by decide +kernel)
      (by decide) (by decide)
    rw [closed (by decide)] at task
    exact ⟨l, le, task⟩
  · exact ends 1 17 rfl (by decide) (by decide)
  · obtain ⟨_, _, _, _, service, _, token, _, _, hands⟩ := carries 1 12 posts
    exact ⟨service, token, hands⟩
  · exact none 1 (.inl (by decide +kernel)) (by decide +kernel)

end EngineClient
