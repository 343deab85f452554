import EngineClient.Proofs.Secrecy.State

/-!
# Calls with other secrets

Calls on two connections that differ in the password only, in states that differ in passwords and tokens only, take
their steps side by side and end alike. Only the value of a token that a call gives may be different.
-/

namespace EngineClient
open EngineClient.State EngineClient.Task

theorem Task.Alike.within {c : Connection} {post : α → β → Prop} {t : Task Wire α} {u : Task Wire β}
    (alike : t.Alike (Wire.Twin c) post u) :
    (t.within State.wire State.setWire).Alike (State.Twin c) post (u.within State.wire State.setWire) := by
  induction alike with
  | done values => exact .done values
  | act steps _ ih =>
    exact .act (fun s s' twins => setWire_twin twins (steps _ _ twins.wire)) fun s s' twins => ih _ _ twins.wire
  | wait steps _ ih =>
    exact .wait (fun s s' twins => setWire_twin twins (steps _ _ twins.wire)) fun s s' twins => ih _ _ twins.wire

/-- Calls that go alike from twin states on, and whose values are related. -/
def Call.Twin (c : Connection) (rel : α → β → Prop) (x : Call α) (y : Call β) : Prop :=
  x.run.Alike (State.Twin c) (Except.Related rel) y.run

namespace Call
variable {c : Connection} {rel : α → β → Prop} {rel' : γ → δ → Prop}

theorem Twin.bind {x : Call α} {y : Call β} {f : α → Call γ} {g : β → Call δ} (first : x.Twin c rel y)
    (rest : ∀ a b, rel a b → (f a).Twin c rel' (g b)) : (x >>= f).Twin c rel' (y >>= g) := by
  unfold Twin
  rw [Call.run_bind, Call.run_bind]
  refine Alike.andThen first fun r r' results => ?_
  cases results with
  | error e => exact .done (.error e)
  | ok values => exact rest _ _ values

theorem twin_pure (values : rel a b) : (pure a : Call α).Twin c rel (pure b) :=
  .done (.ok values)

theorem twin_throw (e : Error) : (throw e : Call α).Twin c rel (throw e) :=
  .done (.error e)

theorem twin_ofTask {t : Task State α} {u : Task State β} (alike : t.Alike (State.Twin c) rel u) :
    (Call.ofTask t).Twin c rel (Call.ofTask u) :=
  Alike.andThen alike fun _ _ values => .done (.ok values)

theorem twin_read {f : State → α} {g : State → β} (values : ∀ s s', State.Twin c s s' → rel (f s) (g s')) :
    (Call.read f).Twin c rel (Call.read g) :=
  .act (fun _ _ twins => twins) fun s s' twins => .done (.ok (values s s' twins))

end Call

theorem Task.note_alike (e : LogEvent) :
    (Task.update (State.note e)).Alike (State.Twin c) Eq (Task.update (State.note e)) :=
  .act (fun _ _ states => note_twin states e) fun _ _ _ => .done rfl

/-! ### Tokens -/

namespace TokenCache
variable {c c' : Connection}

theorem noteRevocation_twin (client : Client) {reply reply' : Except ClientError Reply}
    (replies : Except.Related Reply.Twin reply reply') :
    (noteRevocation client reply).Alike (State.Twin c) Eq (noteRevocation client reply') := by
  unfold noteRevocation
  rw [SignOn.revocationEvent_twin replies]
  exact note_alike _

section Tokens
variable (twins : c.Twin c') {service service' : SignOn}
include twins

theorem client_twin : c'.tokens.client = c.tokens.client :=
  twins.own'.trans twins.own.symm

theorem follow_twin (signOn : c.tokens.strategy = .signOn service) (services : service.Twin service') (g : Nat) :
    (c.tokens.follow service g).Twin c AccessToken.Twin (c'.tokens.follow service' g) := by
  have settles : ∀ {r r' : Except Error AccessToken}, Except.Related AccessToken.Twin r r' →
      (act (settle c.tokens.margin g r) fun _ => done r : Task State _).Alike (State.Twin c)
        (Except.Related AccessToken.Twin) (act (settle c.tokens.margin g r') fun _ => done r') :=
    fun results => .act (fun _ _ states => settle_twin states _ g results) fun _ _ _ => .done results
  unfold Call.Twin
  rw [follow_run, follow_run, client_twin twins, twins.margin]
  refine .act (fun _ _ states => launch_twin signOn services g states) fun _ _ _ => ?_
  refine .act (fun _ _ states => states) fun s s' states => ?_
  have known := result?_twin states g
  generalize s.result? g = r at known ⊢
  generalize s'.result? g = r' at known ⊢
  cases known with
  | some results => exact settles results
  | none =>
    exact .wait (fun _ _ states => (land_twin g states).2) fun _ _ states => settles (land_twin g states).1

theorem take_twin (signOn : c.tokens.strategy = .signOn service) (services : service.Twin service')
    {f f' : Found} (found : f.Twin f') :
    (c.tokens.take service f).Twin c (fun p q => p.1.Twin q.1 ∧ q.2 = p.2) (c'.tokens.take service' f') := by
  cases found with
  | closed => exact Call.twin_throw _
  | cached g tokens => exact Call.twin_pure ⟨tokens, rfl⟩
  | flight g => exact (follow_twin twins signOn services g).bind fun _ _ tokens => Call.twin_pure ⟨tokens, rfl⟩

/-- What a token is handed out with. -/
theorem ensure_twin : c.tokens.ensure.Twin c (fun p q => p.1.Twin q.1 ∧ q.2 = p.2) c'.tokens.ensure := by
  obtain ⟨service, service', signOn, signOn', services⟩ := twins.signOn
  unfold Call.Twin
  rw [ensure_run signOn, ensure_run signOn', twins.margin]
  refine .act (fun _ _ states => (acquire_twin states _).2) fun s s' states => ?_
  exact take_twin twins signOn services (acquire_twin states c.tokens.margin).1

theorem token_twin : c.tokens.token.Twin c AccessToken.Twin c'.tokens.token :=
  (ensure_twin twins).bind fun _ _ tokens => Call.twin_pure tokens.1

theorem credential_twin :
    c.tokens.credential.Twin c (fun a b => b.generation = a.generation) c'.tokens.credential := by
  obtain ⟨service, service', signOn, signOn', _⟩ := twins.signOn
  unfold credential
  rw [signOn, signOn']
  exact (ensure_twin twins).bind fun _ _ tokens => Call.twin_pure tokens.2

theorem revoke_twin : c.tokens.revoke.Alike (State.Twin c) Eq c'.tokens.revoke := by
  obtain ⟨service, service', signOn, signOn', services⟩ := twins.signOn
  rw [revoke_run, revoke_run, signOn, signOn', client_twin twins]
  refine .act (fun _ _ states => (State.revoke_twin states).2) fun s s' states => ?_
  have slots := states.slot
  generalize s.slot = slot at slots ⊢
  generalize s'.slot = slot' at slots ⊢
  cases slots with
  | empty | revoked => exact .done rfl
  | pending g => exact note_alike _
  | ready g tokens =>
    refine Alike.andThen (c.drafts_revocation signOn services tokens).send.within fun reply reply' replies => ?_
    exact noteRevocation_twin c.tokens.client replies

end Tokens
end TokenCache

/-! ### Requests -/

namespace Connection
variable {c c' : Connection} (twins : c.Twin c')

theorem ensureOpen_twin : ensureOpen.Twin c Eq ensureOpen := by
  have closed : (Call.read fun s => s.closed).Twin c Eq (Call.read fun s => s.closed) :=
    Call.twin_read fun _ _ states => states.closed.symm
  refine closed.bind ?_
  rintro closed _ rfl
  cases closed with
  | true => exact Call.twin_throw _
  | false => exact Call.twin_pure rfl

theorem faultOf_twin (r : Response) : (faultOf r).Twin c Eq (faultOf r) := by
  have today : (Call.read fun s => s.wire.today).Twin c Eq (Call.read fun s => s.wire.today) :=
    Call.twin_read fun _ _ states => states.wire.today.symm
  refine today.bind ?_
  rintro today _ rfl
  exact Call.twin_pure rfl

theorem failUnauthorized_twin (r : Response) : (failUnauthorized r).Twin c Eq (failUnauthorized r) := by
  refine (faultOf_twin r).bind ?_
  rintro fault _ rfl
  exact Call.twin_throw _

theorem checkStatus_twin (r : Response) : (checkStatus r).Twin c Eq (checkStatus r) := by
  unfold checkStatus
  split
  · exact Call.twin_pure rfl
  · refine (faultOf_twin r).bind ?_
    rintro fault _ rfl
    exact Call.twin_throw _

include twins

theorem authorize_twin : c.authorize.Twin c (fun a b => b.generation = a.generation) c'.authorize :=
  ensureOpen_twin.bind fun _ _ _ => TokenCache.credential_twin twins

theorem authenticate_twin : c.authenticate.Twin c AccessToken.Twin c'.authenticate :=
  ensureOpen_twin.bind fun _ _ _ => TokenCache.token_twin twins

theorem execute_twin (request : Request) (a b : HeaderValue) :
    (c.execute request a).Twin c Eq (c'.execute request b) := by
  unfold execute
  rw [twins.client, twins.root]
  have sends := (c.drafts_request twins.plain request a b).send.within
  refine (Call.twin_ofTask (note_alike _)).bind fun _ _ _ => ?_
  refine (Call.twin_ofTask sends).bind fun reply reply' replies => ?_
  cases replies with
  | error e => exact Call.twin_throw _
  | ok same =>
    subst same
    dsimp only
    split
    · exact Call.twin_throw _
    · exact (Call.twin_ofTask (note_alike _)).bind fun _ _ _ => Call.twin_pure rfl

theorem retry_twin (request : Request) (g : Nat) : (c.retry request g).Twin c Eq (c'.retry request g) := by
  have invalidates : (TokenCache.invalidate g).Alike (State.Twin c) Eq (TokenCache.invalidate g) :=
    .act (fun _ _ states => invalidate_twin states g) fun _ _ _ => .done rfl
  refine (Call.twin_ofTask ((note_alike _).andThen fun _ _ _ => invalidates)).bind fun _ _ _ => ?_
  refine (authorize_twin twins).bind fun second second' _ => ?_
  refine (execute_twin twins request second.authorization second'.authorization).bind ?_
  rintro response _ rfl
  split
  · exact failUnauthorized_twin response
  · exact checkStatus_twin response

theorem send_twin (request : Request) : (c.send request).Twin c Eq (c'.send request) := by
  refine (authorize_twin twins).bind fun first first' generation => ?_
  refine (execute_twin twins request first.authorization first'.authorization).bind ?_
  rintro response _ rfl
  rw [generation]
  split
  · exact checkStatus_twin response
  · split
    · exact failUnauthorized_twin response
    · exact retry_twin twins request _

omit twins in
theorem shut_twin {w w' : Wire} (wires : Wire.Twin c w w') : Wire.Twin c (Client.shut w) (Client.shut w') := by
  unfold Client.shut
  rw [wires.isOpen]
  split
  · exact { (Wire.Twin.keeps c).note wires .clientClosed with isOpen := rfl }
  · exact wires

theorem close_twin : c.close.Alike (State.Twin c) Eq c'.close := by
  have closes : Client.close.Alike (Wire.Twin c) Eq Client.close :=
    .act (fun _ _ wires => shut_twin wires) fun _ _ wires => .done wires.isOpen.symm
  rw [close_run, close_run, twins.root]
  refine .act (fun _ _ states => { states with closed := rfl }) fun s s' states => ?_
  rw [states.closed]
  split
  · exact .done rfl
  · refine (TokenCache.revoke_twin twins).andThen fun _ _ _ => ?_
    refine closes.within.andThen fun _ _ _ => ?_
    exact note_alike _

end Connection
end EngineClient
