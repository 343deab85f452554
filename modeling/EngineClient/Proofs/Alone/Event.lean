import EngineClient.Proofs.Alone.Token
import EngineClient.Proofs.Token.Revocation

/-!
# What happens on a connection

Calls that run alone are told as histories of events: exchanges for tokens and of requests, tokens taken from the slot
and dropped, changes outside. Each event is possible in some states only and changes the state in one way.
-/

namespace EngineClient
open EngineClient.State EngineClient.Task

inductive Event
  /-- The exchange for a token. -/
  | fetch (brought : Except Error AccessToken)
  | reuse (token : AccessToken)
  /-- A credential that is not fetched is taken. -/
  | given (authorization : HeaderValue)
  /-- The exchange of a request, with what was read of its response. -/
  | exchange (request : Request) (authorization : HeaderValue) (reply : Except Error Response)
  /-- The token in the slot is dropped, as it was refused with a request. -/
  | drop (request : Request)
  | outside (change : Wire → Wire)

namespace Event

/-- What a call comes to that needs an authorization. -/
def obtained? : Event → Option (Except Error HeaderValue)
  | fetch brought => some (brought.map AccessToken.authorization)
  | reuse token => some (.ok token.authorization)
  | given a => some (.ok a)
  | _ => none

/-- What a call comes to that needs a token. -/
def token? : Event → Option (Except Error AccessToken)
  | fetch brought => some brought
  | reuse token => some (.ok token)
  | _ => none

theorem obtained?_of_token? {e : Event} (h : e.token? = some r) :
    e.obtained? = some (r.map AccessToken.authorization) := by
  cases e with
  | fetch brought =>
    cases h
    rfl
  | reuse token =>
    cases h
    rfl
  | given a => cases h
  | exchange request a reply => cases h
  | drop request => cases h
  | outside change => cases h

def brought? : Event → Option AccessToken
  | fetch (.ok token) => some token
  | _ => none

def isFetch : Event → Bool
  | fetch _ => true
  | _ => false

@[simp]
theorem isFetch_fetch (brought : Except Error AccessToken) : (fetch brought).isFetch = true := rfl

@[simp]
theorem isFetch_exchange (request : Request) (a : HeaderValue) (reply : Except Error Response) :
    (exchange request a reply).isFetch = false := rfl

@[simp]
theorem isFetch_drop (request : Request) : (drop request).isFetch = false := rfl

def isExchange : Event → Bool
  | exchange .. => true
  | _ => false

@[simp]
theorem isExchange_fetch (brought : Except Error AccessToken) : (fetch brought).isExchange = false := rfl

@[simp]
theorem isExchange_exchange (request : Request) (a : HeaderValue) (reply : Except Error Response) :
    (exchange request a reply).isExchange = true := rfl

@[simp]
theorem isExchange_drop (request : Request) : (drop request).isExchange = false := rfl

theorem isExchange_of_obtained {e : Event} (obtains : e.obtained? = some r) : e.isExchange = false := by
  cases e with
  | exchange request a reply => cases obtains
  | fetch brought | reuse token | given a | drop request | outside change => rfl

/-- The token that the last exchange for one has brought, if any has brought one. -/
def latest? (history : List Event) : Option AccessToken :=
  (history.filterMap brought?).getLast?

theorem latest?_concat (history : List Event) (e : Event) :
    latest? (history ++ [e]) = e.brought?.or (latest? history) := by
  unfold latest?
  rw [List.filterMap_append]
  cases brought : e.brought? with
  | none => simp [List.filterMap, brought]
  | some token => simp [List.filterMap, brought]

end Event

/-! ### Single events -/

/-- The authorization of a credential that is not fetched. -/
def Strategy.fixed? : Strategy → Option HeaderValue
  | signOn _ => none
  | token t => some t.authorization
  | basic a => some a

namespace Connection

def readReply (c : Client) : Except ClientError Reply → Except Error Response
  | .error e => .error (.ofClient e)
  | .ok reply =>
    match reply.read c.settings.maxBodySize with
    | .error e => .error (.ofClient e)
    | .ok body => .ok { status := reply.status, headers := reply.headers, body }

/-- What is logged before the exchange of a request. -/
def announcement (c : Connection) (request : Request) : LogEvent :=
  .dispatched request.method.name (String.ofList (c.root.urlFor request))

/-- What is logged of a response that has been read. -/
def receivedEvents : Except Error Response → List LogEvent
  | .error _ => []
  | .ok r => [.received r.status.text r.body.length]

/-- The exchange of a request: what is read of its response, and the wire after it. -/
def exchanged (c : Connection) (request : Request) (a : HeaderValue) (w : Wire) : Except Error Response × Wire :=
  let (reply, w) := (c.client.send (c.root.draft request a)).run (w.note (c.announcement request))
  let response := readReply c.client reply
  (response, w.noteAll (receivedEvents response))

/-- The authorization is the given one or that of the token in the slot. -/
def Carries (c : Connection) (s : State) (a : HeaderValue) : Prop :=
  match c.tokens.strategy.fixed? with
  | some fixed => a = fixed
  | none => ∃ g token, s.slot = .ready g token ∧ a = token.authorization

/-- When an event can happen, and what it makes of the state. -/
inductive Happens (c : Connection) : State → Event → State → Prop
  | fetch (signOn : c.tokens.strategy = .signOn service) (lacks : s.Lacks c.tokens.margin) :
    Happens c s (.fetch (TokenCache.fetch c.tokens.client service s).1) (c.tokens.renew service s)
  | reuse (fetched : c.tokens.strategy.fixed? = none) (slot : s.slot = .ready g token)
    (good : ¬ token.Near s.wire.now c.tokens.margin) : Happens c s (.reuse token) (s.note (.tokenReused g))
  | given (fixed : c.tokens.strategy.fixed? = some a) : Happens c s (.given a) s
  | exchange (carries : c.Carries s a) : Happens c s (.exchange request a (c.exchanged request a s.wire).1)
      (s.setWire (c.exchanged request a s.wire).2)
  | drop (slot : s.slot = .ready g token) :
    Happens c s (.drop request) ((s.note (.refused g request.path)).drop g)
  | outside (change : Wire → Wire) : Happens c s (.outside change) (s.setWire (change s.wire))

section Happens
variable {s s' : State}

theorem Happens.rests {c : Connection} (happens : c.Happens s e s') (rests : s.Rests) : s'.Rests := by
  cases happens with
  | fetch signOn lacks => exact rests.renew signOn lacks
  | reuse _ _ _ => exact rests.setWire _
  | given _ => exact rests
  | exchange _ => exact rests.setWire _
  | drop slot => exact (rests.setWire _).drop slot
  | outside change => exact rests.setWire _

theorem Happens.latest {c : Connection} (happens : c.Happens s e s') (history : List Event)
    (before : ∀ g token, s.slot = .ready g token → Event.latest? history = some token) :
    ∀ g token, s'.slot = .ready g token → Event.latest? (history ++ [e]) = some token := by
  intro g token slot
  rw [Event.latest?_concat]
  cases happens with
  | fetch signOn lacks =>
    rename_i service
    cases fetched : (TokenCache.fetch c.tokens.client service s).1 with
    | error e =>
      rw [TokenCache.slot_renew_error fetched] at slot
      cases slot
    | ok token' =>
      rw [TokenCache.slot_renew_ok fetched] at slot
      cases slot
      rfl
  | reuse _ _ _ => exact before g token slot
  | given _ => exact before g token slot
  | exchange _ => exact before g token slot
  | drop _ => cases slot
  | outside change => exact before g token slot

end Happens

/-! ### Histories -/

/-- Events one after another lead from one state to another. -/
inductive Follows (c : Connection) : State → List Event → State → Prop
  | nil : Follows c s [] s
  | cons (first : c.Happens s e s') (rest : Follows c s' history s'') : Follows c s (e :: history) s''

section Follows
variable {c : Connection} {s s' s'' : State} {history : List Event}

theorem Happens.follows (happens : c.Happens s e s') : c.Follows s [e] s' :=
  .cons happens .nil

theorem Follows.append (first : c.Follows s before s') (rest : c.Follows s' after s'') :
    c.Follows s (before ++ after) s'' := by
  induction first with
  | nil => exact rest
  | cons happens _ ih => exact .cons happens (ih rest)

theorem Follows.split (follows : c.Follows s (before ++ after) s'') :
    ∃ s', c.Follows s before s' ∧ c.Follows s' after s'' := by
  induction before generalizing s with
  | nil => exact ⟨s, .nil, follows⟩
  | cons e before ih =>
    cases follows with
    | cons happens rest =>
      obtain ⟨s', first, second⟩ := ih rest
      exact ⟨s', .cons happens first, second⟩

theorem Follows.middle (follows : c.Follows s (before ++ e :: after) s') :
    ∃ s₁ s₂, c.Follows s before s₁ ∧ c.Happens s₁ e s₂ ∧ c.Follows s₂ after s' := by
  obtain ⟨s₁, first, rest⟩ := follows.split
  cases rest with
  | cons happens rest => exact ⟨s₁, _, first, happens, rest⟩

theorem Follows.rests (follows : c.Follows s history s') (rests : s.Rests) : s'.Rests := by
  induction follows with
  | nil => exact rests
  | cons happens _ ih => exact ih (happens.rests rests)

/-- The token in the slot is the one brought last. -/
theorem Follows.latest (follows : c.Follows s history s') (past : List Event)
    (before : ∀ g token, s.slot = .ready g token → Event.latest? past = some token) :
    ∀ g token, s'.slot = .ready g token → Event.latest? (past ++ history) = some token := by
  induction follows generalizing past with
  | nil =>
    rw [List.append_nil]
    exact before
  | cons happens _ ih =>
    have after := ih (past ++ [_]) (happens.latest past before)
    rw [List.append_assoc] at after
    exact after

/-- For each exchange for a token the source of tickets is asked, if there is one, and otherwise it is not. -/
theorem Follows.asked (signOn : c.tokens.strategy = .signOn service) (follows : c.Follows s history s') :
    s'.asked = s.asked ++ (history.filter Event.isFetch).flatMap fun _ => service.asked := by
  induction follows with
  | nil => simp
  | cons happens _ ih =>
    rw [ih]
    cases happens with
    | fetch signOn' lacks =>
      cases signOn.symm.trans signOn'
      simp [TokenCache.renew, Event.isFetch, List.filter_cons]
    | given _ => simp [Event.isFetch]
    | reuse _ _ _ | exchange _ | outside change => simp [Event.isFetch, State.note, State.setWire]
    | drop _ => simp [Event.isFetch, State.drop, State.note, State.setWire]

end Follows

/-! ### The events of calls -/

section Calls
variable {c : Connection} {s : State}

theorem ensureOpen_alone (rests : s.Rests) : ensureOpen.alone s = (.ok (), s) := by
  unfold Call.alone
  rw [ensureOpen_run]
  simp [Task.run, rests.opened]

theorem checkOpen_alone (rests : s.Rests) : TokenCache.checkOpen.alone s = (.ok (), s) := by
  have ends : s.slot ≠ .revoked := by
    rcases rests.slot with empty | ⟨g, t, ready, _⟩
    · simp [empty]
    · simp [ready]
  unfold Call.alone
  rw [TokenCache.checkOpen_run]
  simp [Task.run, ends]

theorem ensure_alone (fetched : c.tokens.strategy.fixed? = none) (rests : s.Rests) :
    ∃ e, c.Happens s e (c.tokens.ensure.alone s).2 ∧ e.token? = some ((c.tokens.ensure.alone s).1.map Prod.fst) ∧
      ∀ token x, (c.tokens.ensure.alone s).1 = .ok (token, x) →
        ∃ g, x = some g ∧ (c.tokens.ensure.alone s).2.slot = .ready g token := by
  obtain ⟨service, signOn⟩ : ∃ service, c.tokens.strategy = .signOn service := by
    cases strategy : c.tokens.strategy with
    | signOn service => exact ⟨service, rfl⟩
    | token t => simp [strategy, Strategy.fixed?] at fetched
    | basic a => simp [strategy, Strategy.fixed?] at fetched
  by_cases lacks : s.Lacks c.tokens.margin
  · rw [TokenCache.ensure_lacking signOn rests lacks]
    refine ⟨_, .fetch signOn lacks, ?_, ?_⟩
    · cases (TokenCache.fetch c.tokens.client service s).1 <;> rfl
    · intro token x same
      cases brought : (TokenCache.fetch c.tokens.client service s).1 with
      | error e =>
        rw [brought] at same
        cases same
      | ok token' =>
        rw [brought] at same
        cases same
        exact ⟨_, rfl, TokenCache.slot_renew_ok brought⟩
  · obtain ⟨g, token, slot, issued⟩ := rests.slot.resolve_left fun empty => lacks (.inl empty)
    have good : ¬ token.Near s.wire.now c.tokens.margin := fun near => lacks (.inr ⟨g, token, slot, near⟩)
    rw [TokenCache.ensure_cached signOn rests slot good]
    refine ⟨_, .reuse fetched slot good, rfl, ?_⟩
    intro token' x same
    cases same
    exact ⟨g, rfl, slot⟩

theorem authenticate_alone (fetched : c.tokens.strategy.fixed? = none) (rests : s.Rests) :
    ∃ e, c.Happens s e (c.authenticate.alone s).2 ∧ e.token? = some (c.authenticate.alone s).1 := by
  obtain ⟨e, happens, brings, _⟩ := ensure_alone fetched rests
  refine ⟨e, ?_⟩
  have run : c.authenticate.alone s = c.tokens.token.alone s := Call.alone_ok (ensureOpen_alone rests)
  have ends : c.tokens.token.alone s = ((c.tokens.ensure.alone s).1.map Prod.fst, (c.tokens.ensure.alone s).2) := by
    unfold Call.alone
    rw [TokenCache.token_run, run_andThen]
    rfl
  rw [run, ends]
  exact ⟨happens, brings⟩

/-- A credential is the given one or the token in the slot. -/
def Stands (c : Connection) (s : State) (credential : Credential) : Prop :=
  (c.tokens.strategy.fixed? = some credential.authorization ∧ credential.generation = none) ∨
  (c.tokens.strategy.fixed? = none ∧ ∃ g token, s.slot = .ready g token ∧
    credential.authorization = token.authorization ∧ credential.generation = some g)

theorem Stands.carries (stands : c.Stands s credential) : c.Carries s credential.authorization := by
  unfold Carries
  rcases stands with ⟨fixed, _⟩ | ⟨fetched, g, token, slot, same, _⟩
  · rw [fixed]
  · rw [fetched]
    exact ⟨g, token, slot, same⟩

theorem authorize_alone (rests : s.Rests) : ∃ e, c.Happens s e (c.authorize.alone s).2 ∧
    e.obtained? = some ((c.authorize.alone s).1.map Credential.authorization) ∧
    ∀ credential, (c.authorize.alone s).1 = .ok credential → c.Stands (c.authorize.alone s).2 credential := by
  have run : c.authorize.alone s = c.tokens.credential.alone s := Call.alone_ok (ensureOpen_alone rests)
  rw [run]
  cases strategy : c.tokens.strategy with
  | basic a =>
    have ends : c.tokens.credential.alone s = (.ok { authorization := a, generation := none }, s) := by
      unfold TokenCache.credential
      rw [strategy]
      exact Call.alone_ok (checkOpen_alone rests)
    have fixed : c.tokens.strategy.fixed? = some a := by simp [strategy, Strategy.fixed?]
    rw [ends]
    refine ⟨_, .given fixed, rfl, ?_⟩
    rintro credential ⟨⟩
    exact .inl ⟨fixed, rfl⟩
  | token t =>
    have ends : c.tokens.credential.alone s = (.ok { authorization := t.authorization, generation := none }, s) := by
      unfold TokenCache.credential TokenCache.ensure
      rw [strategy]
      dsimp only
      have ensures := Call.alone_ok (f := fun _ => pure (t, (none : Option Nat))) (checkOpen_alone rests)
      exact Call.alone_ok ensures
    have fixed : c.tokens.strategy.fixed? = some t.authorization := by simp [strategy, Strategy.fixed?]
    rw [ends]
    refine ⟨_, .given fixed, rfl, ?_⟩
    rintro credential ⟨⟩
    exact .inl ⟨fixed, rfl⟩
  | signOn service =>
    have fetched : c.tokens.strategy.fixed? = none := by simp [strategy, Strategy.fixed?]
    have bearer : ∀ a, c.tokens.strategy ≠ .basic a := by simp [strategy]
    obtain ⟨e, happens, brings, holds⟩ := ensure_alone fetched rests
    have ends : c.tokens.credential.alone s = ((c.tokens.ensure.alone s).1.map fun p =>
        { authorization := p.1.authorization, generation := p.2 }, (c.tokens.ensure.alone s).2) := by
      unfold Call.alone
      rw [TokenCache.credential_run bearer, run_andThen]
      rfl
    rw [ends]
    refine ⟨e, happens, ?_, ?_⟩
    · rw [Event.obtained?_of_token? brings]
      cases (c.tokens.ensure.alone s).1 <;> rfl
    · intro credential same
      cases ensured : (c.tokens.ensure.alone s).1 with
      | error e =>
        rw [ensured] at same
        cases same
      | ok p =>
        rw [ensured] at same
        cases same
        obtain ⟨g, generation, slot⟩ := holds p.1 p.2 ensured
        exact .inr ⟨fetched, g, p.1, slot, rfl, generation⟩

end Calls
end Connection
end EngineClient
