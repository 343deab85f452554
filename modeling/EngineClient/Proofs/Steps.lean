import EngineClient.Proofs.Acts
import EngineClient.Proofs.Alone.Send

/-!
# Steps on a connection

Whatever is called on a connection, and however calls take their turns, its state changes by atomic steps of a few
kinds. What each kind of step preserves therefore holds on all runs.
-/

namespace EngineClient
open EngineClient.State EngineClient.Task

/-! ### Tasks that take steps of some kinds -/

/-- Each step of a task is one of `steps`, and what it ends with is as said, whatever states its steps are taken in. -/
def Task.Goes (steps : σ → σ → Prop) (post : α → Prop) : Task σ α → Prop
  | done a => post a
  | act change next | wait change next => ∀ s, steps s (change s) ∧ (next s).Goes steps post

section Goes
variable {steps : σ → σ → Prop} {post : α → Prop} {t : Task σ α}

theorem Task.goes_act {next : σ → Task σ α} (step : ∀ s, steps s (change s)) (rest : ∀ s, (next s).Goes steps post) :
    (act change next).Goes steps post :=
  fun s => ⟨step s, rest s⟩

theorem Task.goes_wait {next : σ → Task σ α} (step : ∀ s, steps s (change s)) (rest : ∀ s, (next s).Goes steps post) :
    (wait change next).Goes steps post :=
  fun s => ⟨step s, rest s⟩

theorem Task.goes_update {f : σ → σ} (step : ∀ s, steps s (f s)) : (Task.update f).Goes steps fun _ => True :=
  fun s => ⟨step s, trivial⟩

theorem Task.Goes.andThen {post' : β → Prop} {k : α → Task σ β} (first : t.Goes steps post)
    (rest : ∀ a, post a → (k a).Goes steps post') : (t.andThen k).Goes steps post' := by
  induction t with
  | done a => exact rest a first
  | act change next ih | wait change next ih => exact fun s => ⟨(first s).1, ih s (first s).2⟩

theorem Task.Goes.map {post' : β → Prop} {f : α → β} (first : t.Goes steps post) (ends : ∀ a, post a → post' (f a)) :
    (t.andThen fun a => done (f a)).Goes steps post' :=
  first.andThen ends

theorem Task.Goes.keeps (goes : t.Goes steps post) (s : σ) :
    t.Keeps (fun _ _ => True) steps (fun a _ => post a) s := by
  induction t generalizing s with
  | done a => exact fun _ _ => goes
  | act change next ih | wait change next ih => exact fun s' _ => ⟨(goes s').1, ih s' (goes s').2 _⟩

end Goes

section Calls
variable {steps : State → State → Prop}

/-- What a call gives is as said, unless it fails. -/
def Call.Goes (steps : State → State → Prop) (post : α → Prop) (x : Call α) : Prop :=
  Task.Goes steps (fun r => ∀ a, r = .ok a → post a) x.run

theorem Call.goes_ok {post : α → Prop} (holds : post a) : (pure a : Call α).Goes steps post := by
  rintro _ ⟨⟩
  exact holds

theorem Call.goes_error {post : α → Prop} (e : Error) : (throw e : Call α).Goes steps post := by
  rintro _ ⟨⟩

theorem Call.Goes.bind {post : α → Prop} {post' : β → Prop} {x : Call α} {f : α → Call β} (first : x.Goes steps post)
    (rest : ∀ a, post a → (f a).Goes steps post') : (x >>= f).Goes steps post' := by
  unfold Call.Goes
  rw [Call.run_bind]
  refine Task.Goes.andThen first fun r holds => ?_
  cases r with
  | error e => exact goes_error e
  | ok a => exact rest a (holds a rfl)

theorem Call.goes_ofTask {t : Task State α} (goes : t.Goes steps post) : (Call.ofTask t).Goes steps post := by
  refine Task.Goes.map goes ?_
  rintro a holds _ ⟨⟩
  exact holds

theorem Call.goes_read (stays : ∀ s, steps s s) (f : State → α) : (Call.read f).Goes steps fun _ => True :=
  goes_ofTask fun s => ⟨stays s, trivial⟩

end Calls

/-! ### Exchanges -/

/-- An exchange departs and arrives, unless a check fails. -/
theorem Client.send_goes (c : Client) (d : Draft) {steps : State → State → Prop} {post : α → Prop}
    {k : Except ClientError Reply → Task State α} (stays : ∀ s, steps s s)
    (departs : ∀ o, c.outbound d = .ok o → ∀ s, steps s (s.setWire (c.depart o s.wire).2))
    (arrives : ∀ flight s, steps s (s.setWire (c.arrive flight s.wire).2)) (rest : ∀ reply, (k reply).Goes steps post) :
    (((c.send d).within State.wire State.setWire).andThen k).Goes steps post := by
  rw [send_within_run]
  refine goes_act stays fun s => ?_
  cases cleared : c.clear d s.wire with
  | error e => exact rest _
  | ok o =>
    refine goes_act (departs o (outbound_of_clear cleared)) fun s => ?_
    cases (c.depart o s.wire).1 with
    | error e => exact rest _
    | ok flight => exact goes_wait (arrives flight) fun s => rest _

/-! ### Calls that only look -/

section Look
variable {steps : State → State → Prop} (stays : ∀ s, steps s s)
include stays

theorem TokenCache.checkOpen_goes : checkOpen.Goes steps fun _ => True := by
  refine (Call.goes_read stays _).bind fun slot _ => ?_
  split
  · exact Call.goes_error _
  · exact Call.goes_ok trivial

namespace Connection

theorem ensureOpen_goes : ensureOpen.Goes steps fun _ => True := by
  refine (Call.goes_read stays _).bind fun closed _ => ?_
  cases closed with
  | true => exact Call.goes_error _
  | false => exact Call.goes_ok trivial

theorem faultOf_goes (r : Response) : (faultOf r).Goes steps fun _ => True :=
  (Call.goes_read stays _).bind fun _ _ => Call.goes_ok trivial

theorem failUnauthorized_goes (r : Response) : (failUnauthorized r).Goes steps fun _ => True :=
  (faultOf_goes stays r).bind fun _ _ => Call.goes_error _

theorem checkStatus_goes (r : Response) : (checkStatus r).Goes steps fun _ => True := by
  unfold checkStatus
  split
  · exact Call.goes_ok trivial
  · exact (faultOf_goes stays r).bind fun _ _ => Call.goes_error _

end Connection
end Look

/-! ### Kinds of steps -/

/-- A credential that is not fetched is the fixed one, and it has no generation. -/
def Credential.Fits (c : Connection) (credential : Credential) : Prop :=
  ∀ a, c.tokens.strategy.fixed? = some a → credential.authorization = a ∧ credential.generation = none

namespace Connection

/-- The steps that an act takes. -/
inductive Step (c : Connection) (act : Act) : State → State → Prop
  | stay : Step c act s s
  | acquire (signOn : c.tokens.strategy = .signOn service) : Step c act s (s.acquire c.tokens.margin).2
  | launch (signOn : c.tokens.strategy = .signOn service) (g : Nat) :
    Step c act s (TokenCache.launch c.tokens.client service g s)
  | land (signOn : c.tokens.strategy = .signOn service) (g : Nat) :
    Step c act s (TokenCache.land c.tokens.client g s).2
  | settle (signOn : c.tokens.strategy = .signOn service) (g : Nat) (r : Except Error AccessToken) :
    Step c act s (s.settle c.tokens.margin g r)
  | invalidate (fetched : c.tokens.strategy.fixed? = none) (g : Nat) : Step c act s (s.invalidate g)
  /-- The request that is called for is handed over. -/
  | depart (calls : act = .call entry) (aims : entry.aim c = .response request)
    (leaves : c.client.outbound (c.root.draft request a) = .ok o)
    (carries : ∀ fixed, c.tokens.strategy.fixed? = some fixed → a = fixed) :
    Step c act s (s.setWire (c.client.depart o s.wire).2)
  | arrive (flight : Client.InFlight) : Step c act s (s.setWire (c.client.arrive flight s.wire).2)
  | close (closes : act = .close) : Step c act s { s with closed := true }
  | revoke (closes : act = .close) : Step c act s s.revoke.2
  /-- The revocation of a token is handed over. -/
  | revocation (signOn : c.tokens.strategy = .signOn service)
    (leaves : c.tokens.client.outbound (service.revokeDraft token) = .ok o) :
    Step c act s (s.setWire (c.tokens.client.depart o s.wire).2)
  | revoked (signOn : c.tokens.strategy = .signOn service) (flight : Client.InFlight) :
    Step c act s (s.setWire (c.tokens.client.arrive flight s.wire).2)
  | note (e : LogEvent) : Step c act s (s.note e)
  | shut : Step c act s (s.setWire (Client.shut s.wire))
  | outside (changes : act = .outside change) : Step c act s (s.setWire (change s.wire))

/-! ### Calls -/

section Calls
variable {c : Connection} {act : Act}

theorem follow_goes (signOn : c.tokens.strategy = .signOn service) (g : Nat) :
    (c.tokens.follow service g).Goes (c.Step act) fun _ => True := by
  unfold Call.Goes
  rw [TokenCache.follow_run]
  refine goes_act (fun s => .launch signOn g) fun _ => goes_act (fun _ => .stay) fun s => ?_
  split
  · exact goes_act (fun s => .settle signOn g _) fun _ _ _ => trivial
  · exact goes_wait (fun s => .land signOn g) fun s => goes_act (fun s => .settle signOn g _) fun _ _ _ => trivial

theorem ensure_goes : c.tokens.ensure.Goes (c.Step act) fun p =>
    Credential.Fits c { authorization := p.1.authorization, generation := p.2 } := by
  cases strategy : c.tokens.strategy with
  | basic a =>
    unfold TokenCache.ensure
    rw [strategy]
    exact Call.goes_error _
  | token t =>
    unfold TokenCache.ensure
    rw [strategy]
    refine (TokenCache.checkOpen_goes fun _ => .stay).bind fun _ _ => Call.goes_ok fun a fixed => ?_
    rw [strategy] at fixed
    exact ⟨Option.some.inj fixed, rfl⟩
  | signOn service =>
    have fetched : ∀ credential : Credential, credential.Fits c := fun _ a fixed => by
      rw [strategy] at fixed
      cases fixed
    unfold Call.Goes
    rw [TokenCache.ensure_run strategy]
    refine goes_act (fun s => .acquire strategy) fun s => ?_
    cases (s.acquire c.tokens.margin).1 with
    | closed => exact Call.goes_error _
    | cached g token => exact Call.goes_ok (fetched _)
    | flight g =>
      rw [TokenCache.take_flight_run]
      exact Task.Goes.map (follow_goes strategy g) fun _ _ _ _ => fetched _

theorem credential_goes : c.tokens.credential.Goes (c.Step act) (Credential.Fits c) := by
  by_cases basic : ∃ a, c.tokens.strategy = .basic a
  · obtain ⟨a, basic⟩ := basic
    unfold TokenCache.credential
    rw [basic]
    refine (TokenCache.checkOpen_goes fun _ => .stay).bind fun _ _ => Call.goes_ok fun a' fixed => ?_
    rw [basic] at fixed
    exact ⟨Option.some.inj fixed, rfl⟩
  · unfold Call.Goes
    rw [TokenCache.credential_run fun a same => basic ⟨a, same⟩]
    refine Task.Goes.map ensure_goes fun r fits credential given => ?_
    obtain ⟨p, obtained, rfl⟩ := Except.map_eq_ok given
    exact fits p obtained

theorem authorize_goes : c.authorize.Goes (c.Step act) (Credential.Fits c) :=
  (ensureOpen_goes fun _ => .stay).bind fun _ _ => credential_goes

theorem authenticate_goes : c.authenticate.Goes (c.Step act) fun _ => True := by
  refine (ensureOpen_goes fun _ => .stay).bind fun _ _ => ?_
  unfold Call.Goes
  rw [TokenCache.token_run]
  exact Task.Goes.map ensure_goes fun _ _ _ _ => trivial

section Send
variable (calls : act = .call entry) (aims : entry.aim c = .response request)
include calls aims

theorem execute_goes (carries : ∀ fixed, c.tokens.strategy.fixed? = some fixed → a = fixed) :
    (c.execute request a).Goes (c.Step act) fun _ => True := by
  unfold Call.Goes
  rw [execute_run]
  refine goes_act (fun s => .note _) fun _ => c.client.send_goes (c.root.draft request a) (fun s => .stay)
    (fun _ leaves _ => .depart calls aims leaves carries) (fun flight _ => .arrive flight) fun reply => ?_
  cases readReply c.client reply with
  | error e => exact Call.goes_error _
  | ok response => exact goes_act (fun s => .note _) fun _ => Call.goes_ok trivial

theorem retry_goes (fetched : c.tokens.strategy.fixed? = none) (g : Nat) :
    (c.retry request g).Goes (c.Step act) fun _ => True := by
  have givesUp : (giveUp request g).Goes (c.Step act) fun _ => True :=
    goes_act (fun s => .note _) fun _ => goes_update fun s => .invalidate fetched g
  refine (Call.goes_ofTask givesUp).bind fun _ _ => ?_
  refine authorize_goes.bind fun second fits => ?_
  refine (execute_goes calls aims fun a fixed => (fits a fixed).1).bind fun response _ => ?_
  split
  · exact failUnauthorized_goes (fun _ => .stay) response
  · exact checkStatus_goes (fun _ => .stay) response

theorem send_goes : (c.send request).Goes (c.Step act) fun _ => True := by
  refine authorize_goes.bind fun first fits => ?_
  refine (execute_goes calls aims fun a fixed => (fits a fixed).1).bind fun response _ => ?_
  split
  · exact checkStatus_goes (fun _ => .stay) response
  · cases generation : first.generation with
    | none => exact failUnauthorized_goes (fun _ => .stay) response
    | some g =>
      refine retry_goes calls aims ?_ g
      cases fixed : c.tokens.strategy.fixed? with
      | none => rfl
      | some a => cases generation.symm.trans (fits a fixed).2

end Send

section Close
variable (closes : act = .close)
include closes

theorem revoke_goes : c.tokens.revoke.Goes (c.Step act) fun _ => True := by
  rw [TokenCache.revoke_run]
  refine goes_act (fun s => .revoke closes) fun s => ?_
  split
  · rename_i service _ token signOn _
    refine c.tokens.client.send_goes (service.revokeDraft token) (fun s => .stay)
      (fun _ leaves _ => .revocation signOn leaves) (fun flight _ => .revoked signOn flight) fun reply => ?_
    exact goes_update fun s => .note _
  · exact goes_update fun s => .note _
  · trivial

theorem close_goes : c.close.Goes (c.Step act) fun _ => True := by
  rw [close_run]
  refine goes_act (fun s => .close closes) fun s => ?_
  split
  · trivial
  · refine (revoke_goes closes).andThen fun _ _ => ?_
    exact goes_act (fun s => .shut) fun _ => goes_update fun s => .note _

end Close

theorem act_goes (c : Connection) (act : Act) : (act.task c).Goes (c.Step act) fun _ => True := by
  cases act with
  | close => exact (close_goes rfl).map fun _ _ => trivial
  | outside change => exact fun s => ⟨.outside rfl, trivial⟩
  | call entry =>
    have run : (Act.call entry).task c = (entry.call c).run := rfl
    rw [run, entry.call_run]
    split
    · exact Task.Goes.map authenticate_goes fun _ _ => trivial
    · rename_i aims
      exact Task.Goes.map (send_goes rfl aims) fun _ _ => trivial
    · trivial

/-- Each turn of acts that take turns leaves the state as it is or takes a step of an act. -/
theorem mingle_steps (c : Connection) (acts : Nat → Act) (s : State) (turns : Nat → Turn) (n : Nat) :
    (c.mingle acts s turns).state (n + 1) = (c.mingle acts s turns).state n ∨
      ∃ i, turns n = .step i ∧ c.Step (acts i) ((c.mingle acts s turns).state n) ((c.mingle acts s turns).state (n + 1)) := by
  have sound : (c.mingle acts s turns).Sound (fun _ _ => True) fun i => c.Step (acts i) := {
    refl := fun _ => trivial
    trans := fun _ _ => trivial
    fits := fun _ => trivial
    start := fun task => by
      cases task
      exact ((c.act_goes _).keeps _).imp fun _ _ _ => trivial }
  exact sound.turn n

end Calls
end Connection
end EngineClient
