import EngineClient.Proofs.Alone.Send

/-!
# Sessions

Calls and changes outside, one after another on a connection that is not closed. Every session is told call by call:
which events each call consists of, and how what it gives follows from them.
-/

namespace EngineClient
open EngineClient.State EngineClient.Task

/-- What an event comes to that is the last one of a send. -/
def Event.outcome? (today : Nat) : Event → Option (Except Error Response)
  | .exchange _ _ reply => some (reply.bind (Response.verdict today))
  | .fetch (.error e) => some (.error e)
  | _ => none

theorem Event.outcome?_of_obtained? {e : Event} (obtains : e.obtained? = some (.error error)) :
    e.outcome? today = some (.error error) := by
  cases e with
  | fetch brought =>
    cases brought with
    | error e' =>
      cases obtains
      rfl
    | ok token => cases obtains
  | reuse token => cases obtains
  | given a => cases obtains
  | exchange request a reply => cases obtains
  | drop request => cases obtains
  | outside change => cases obtains

namespace Connection

/-! ### Single acts -/

/-- The events of an act and what it gives, when tokens are fetched. -/
inductive Course (c : Connection) (today : Nat) : Act → List Event → Except Error Value → Prop
  | outside : Course c today (.outside change) [.outside change] (.ok .nothing)
  | token (aim : entry.aim c = .token) (gives : e.token? = some r) :
    Course c today (.call entry) [e] (r.map Value.token)
  | response (aim : entry.aim c = .response request) (sending : c.Sending request today events r) :
    Course c today (.call entry) events (r.map entry.ofResponse)
  | stray (aim : entry.aim c = .stray href) : Course c today (.call entry) [] (.error (.invalidLink href))

variable {c : Connection} {s : State}

theorem run_call (c : Connection) (entry : Entry) (s : State) : ((Act.call entry).task c).run s =
    match entry.aim c with
    | .token => ((c.authenticate.alone s).1.map Value.token, (c.authenticate.alone s).2)
    | .response request => (((c.send request).alone s).1.map entry.ofResponse, ((c.send request).alone s).2)
    | .stray href => (.error (.invalidLink href), s) := by
  have run : (Act.call entry).task c = (entry.call c).run := rfl
  rw [run, entry.call_run]
  cases entry.aim c with
  | token => exact run_andThen _ _ s
  | response request => exact run_andThen _ _ s
  | stray href => rfl

theorem act_course (fetched : c.tokens.strategy.fixed? = none) (rests : s.Rests) {act : Act} (other : act ≠ .close) :
    ∃ events, c.Follows s events ((act.task c).run s).2 ∧
      c.Course ((act.task c).run s).2.wire.today act events ((act.task c).run s).1 := by
  cases act with
  | close => exact (other rfl).elim
  | outside change => exact ⟨_, (Happens.outside change).follows, .outside⟩
  | call entry =>
    rw [run_call]
    cases aim : entry.aim c with
    | token =>
      obtain ⟨e, happens, gives⟩ := authenticate_alone fetched rests
      exact ⟨[e], happens.follows, .token aim gives⟩
    | response request =>
      obtain ⟨events, follows, sending⟩ := send_alone c request rests
      exact ⟨events, follows, .response aim sending⟩
    | stray href => exact ⟨[], .nil, .stray aim⟩

theorem authenticate_fixed (fixed : c.tokens.strategy.fixed? ≠ none) (rests : s.Rests) :
    (c.authenticate.alone s).2 = s := by
  have run : c.authenticate.alone s = c.tokens.token.alone s := Call.alone_ok (ensureOpen_alone rests)
  rw [run]
  unfold TokenCache.token
  cases strategy : c.tokens.strategy with
  | signOn service => simp [strategy, Strategy.fixed?] at fixed
  | token t =>
    have ends : c.tokens.ensure.alone s = (.ok (t, none), s) := by
      unfold TokenCache.ensure
      rw [strategy]
      exact Call.alone_ok (checkOpen_alone rests)
    rw [Call.alone_ok ends]
    rfl
  | basic a =>
    have ends : c.tokens.ensure.alone s = (.error (.auth .noToken), s) := by
      unfold TokenCache.ensure
      rw [strategy]
      rfl
    rw [Call.alone_error ends]

theorem act_rests (rests : s.Rests) {act : Act} (other : act ≠ .close) : ((act.task c).run s).2.Rests := by
  cases act with
  | close => exact (other rfl).elim
  | outside change => exact rests.setWire _
  | call entry =>
    rw [run_call]
    split
    · by_cases fetched : c.tokens.strategy.fixed? = none
      · obtain ⟨e, happens, _⟩ := authenticate_alone fetched rests
        exact happens.rests rests
      · dsimp only
        rw [authenticate_fixed fetched rests]
        exact rests
    · obtain ⟨events, follows, _⟩ := send_alone c _ rests
      exact follows.rests rests
    · exact rests

theorem play_rests (rests : s.Rests) {acts : List Act} (opened : Act.close ∉ acts) : (c.play acts s).2.Rests := by
  induction acts generalizing s with
  | nil => exact rests
  | cons act acts ih =>
    rw [List.mem_cons, not_or] at opened
    rw [play_cons]
    exact ih (act_rests rests (Ne.symm opened.1)) opened.2

/-! ### A send in a session -/

theorem Sending.outcome (sending : c.Sending request today events r) :
    ∃ e, events.getLast? = some e ∧ e.outcome? today = some r := by
  cases sending with
  | unobtained obtains =>
    exact ⟨_, rfl, Event.outcome?_of_obtained? obtains⟩
  | once _ _ => exact ⟨_, rfl, rfl⟩
  | unreplaced _ _ _ => exact ⟨_, rfl, rfl⟩
  | twice _ _ _ => exact ⟨_, rfl, rfl⟩

theorem Sending.counts (sending : c.Sending request today events r) :
    events.countP Event.isFetch ≤ 2 ∧ events.countP Event.isExchange ≤ 2 := by
  have first : ∀ e history, List.countP Event.isFetch (e :: history) ≤ List.countP Event.isFetch history + 1 := by
    intro e history
    rw [List.countP_cons]
    split
    · omega
    · omega
  cases sending with
  | unobtained obtains | once obtains _ | unreplaced obtains _ _ | twice obtains _ _ =>
    have own := Event.isExchange_of_obtained obtains
    constructor
    · refine (first _ _).trans ?_
      simp [List.countP_cons]
    · simp [List.countP_cons, own]

/-- A send makes a second exchange exactly if the first was refused and another token was fetched. -/
theorem Sending.twice_iff (sending : c.Sending request today events r) : events.countP Event.isExchange = 2 ↔
    ∃ e a response token rest,
      events = e :: .exchange request a (.ok response) :: .drop request :: .fetch (.ok token) :: rest ∧
      response.status = .unauthorized ∧ c.tokens.strategy.fixed? = none := by
  cases sending with
  | unobtained obtains | once obtains _ | unreplaced obtains _ _ =>
    simp [List.countP_cons, Event.isExchange_of_obtained obtains]
  | twice obtains refused fetched =>
    simp [List.countP_cons, Event.isExchange_of_obtained obtains, refused, fetched]

end Connection

/-- A send in a session on a connection that is not closed consists of at most two exchanges of its request and at
most two for tokens, in the order given by `Sending`, which also says when the second ones take place. The exchanges of
the request differ in the authorization only, and the last event decides what the send gives. -/
theorem send_protocol (c : Connection) (acts : List Act) (opened : Act.close ∉ acts) (w : Wire) (request : Request) :
    let s := (c.play acts { wire := w }).2
    let r := (c.send request).alone s
    ∃ events, c.Follows s events r.2 ∧ c.Sending request r.2.wire.today events r.1 ∧
      events.countP Event.isFetch ≤ 2 ∧ events.countP Event.isExchange ≤ 2 ∧
      (events.countP Event.isExchange = 2 ↔ ∃ e a response token rest,
        events = e :: .exchange request a (.ok response) :: .drop request :: .fetch (.ok token) :: rest ∧
        response.status = .unauthorized ∧ c.tokens.strategy.fixed? = none) ∧
      (∀ before e after, events = before ++ e :: after → ∃ s₁ s₂, c.Follows s before s₁ ∧ c.Happens s₁ e s₂ ∧
        c.Sends s₁.wire s₂.wire e ∧ c.Follows s₂ after r.2) ∧
      (∀ a b, (∃ e, c.client.outbound (c.root.draft request a) = .error e ∧
          c.client.outbound (c.root.draft request b) = .error e) ∨
        ∃ o o', c.client.outbound (c.root.draft request a) = .ok o ∧
          c.client.outbound (c.root.draft request b) = .ok o' ∧ o.SameBut .authorization o') ∧
      ∃ e, events.getLast? = some e ∧ e.outcome? r.2.wire.today = some r.1 := by
  intro s r
  have rests : s.Rests := c.play_rests (.initial w) opened
  obtain ⟨events, follows, sending⟩ := c.send_alone request rests
  obtain ⟨fetches, exchanges⟩ := sending.counts
  refine ⟨events, follows, sending, fetches, exchanges, sending.twice_iff, ?_, ?_, sending.outcome⟩
  · rintro before e after rfl
    obtain ⟨s₁, s₂, first, happens, rest⟩ := follows.middle
    exact ⟨s₁, s₂, first, happens, happens.sends, rest⟩
  · exact fun a b => c.client.sameBut_outbound c.root request a b

def Sample.ahead : List Act := [.call .authenticate, .outside (Wire.advance (.seconds 1))]

def Sample.resting : State := (Sample.connection.play Sample.ahead { wire := Sample.wire }).2

/-- The token that was fetched ahead is refused, so that the request goes out again with another one. -/
theorem send_protocol_refused :
    Act.close ∉ Sample.ahead ∧
    ((Sample.connection.send (.get "x")).alone Sample.resting).1 =
      .ok { status := ⟨200⟩, headers := .empty, body := [] } ∧
    ∃ events, Sample.connection.Follows Sample.resting events
        ((Sample.connection.send (.get "x")).alone Sample.resting).2 ∧
      Sample.connection.Sending (.get "x")
        ((Sample.connection.send (.get "x")).alone Sample.resting).2.wire.today events
        ((Sample.connection.send (.get "x")).alone Sample.resting).1 ∧
      events.countP Event.isFetch ≤ 2 ∧ events.countP Event.isExchange ≤ 2 := by
  have opened : Act.close ∉ Sample.ahead := by simp [Sample.ahead]
  have resting : (Sample.connection.play Sample.ahead { wire := Sample.wire }).2 = Sample.resting := rfl
  have protocol := send_protocol Sample.connection Sample.ahead opened Sample.wire (.get "x")
  dsimp only at protocol
  rw [resting] at protocol
  obtain ⟨events, follows, sending, fetches, exchanges, _⟩ := protocol
  exact ⟨opened, by decide +kernel, events, follows, sending, fetches, exchanges⟩

end EngineClient
