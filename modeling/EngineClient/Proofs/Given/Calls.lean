import EngineClient.Proofs.Reach.Handed

/-!
# Credentials that are given

A token that the user gives, and a name and a password that go with every request, are made an authorization once, when
a connection is created. From then on nothing is fetched or revoked, and until it is closed all that changes of the
connection is its wire.
-/

namespace EngineClient
open EngineClient.State EngineClient.Task

/-! ### The authorization -/

/-- The authorization that options give: that of a token, or of a name and a password that go with every request. -/
inductive Options.Gives (o : Options) : HeaderValue → Prop
  | token (token : o.token = some secret) (bearer : AccessToken.bearer? secret.expose = some a) : Gives o a
  | basic (basic : o.auth = .basic) (username : o.username = some u) (password : o.password = some p) :
    Gives o (basicAuthorization u p.expose)

theorem Strategy.fetched_of_signOn {strategy : Strategy} (signOn : strategy = .signOn service) :
    strategy.fixed? = none := by
  rw [signOn]
  rfl

theorem Options.Decides.fixed {o : Options} {s : Settings} (decides : o.Decides s.credentials)
    (given : o.token.isSome ∨ o.auth = .basic) (client : Client) :
    ∃ a, o.Gives a ∧ (TokenCache.ofSettings client s).strategy.fixed? = some a := by
  have other : o.token = none → o.auth ≠ .basic → False := by
    intro sole signOn
    rcases given with token | basic
    · rw [sole] at token
      cases token
    · exact signOn basic
  unfold TokenCache.ofSettings
  dsimp only
  generalize s.credentials = credentials at decides
  cases decides with
  | password _ _ sole signOn => exact (other sole signOn).elim
  | kerberos _ sole signOn => exact (other sole signOn).elim
  | basic username password basic => exact ⟨_, .basic basic username password, rfl⟩
  | token token read =>
    obtain ⟨a, bearer, rfl⟩ := Option.map_eq_some_iff.mp read
    exact ⟨a, .token token bearer, rfl⟩

theorem Connection.fixed_of_create (created : create idna fs o = (log, .ok c)) (given : o.token.isSome ∨ o.auth = .basic) :
    ∃ a, o.Gives a ∧ c.tokens.strategy.fixed? = some a := by
  obtain ⟨s, decides, strategy⟩ := strategy_of_create created
  rw [strategy]
  exact decides.fixed given c.client

/-! ### Steps -/

namespace Connection

/-- A request that is called for reaches the network with an authorization. -/
def Presents (c : Connection) (a : HeaderValue) (acts : Nat → Act) (x : Sent) : Prop :=
  ∃ i entry request out, acts i = .call entry ∧ entry.aim c = .response request ∧
    c.client.outbound (c.root.draft request a) = .ok out ∧ out.headers.getAll .authorization = [a] ∧
    c.client.Delivers out x

variable {c : Connection} {act : Act} {s s' : State} (fixed : c.tokens.strategy.fixed? = some a)
include fixed

theorem not_signOn (signOn : c.tokens.strategy = .signOn service) : False := by
  rw [Strategy.fetched_of_signOn signOn] at fixed
  cases fixed

/-- No step fetches a token. -/
theorem Step.fetches_none (step : c.Step act s s') : s'.flights = s.flights ∧ s'.asked = s.asked := by
  cases step with
  | acquire signOn | launch signOn g | land signOn g | settle signOn g r | revocation signOn leaves
  | revoked signOn flight => exact (not_signOn fixed signOn).elim
  | invalidate fetched g => cases fixed.symm.trans fetched
  | stay | depart _ _ _ _ | arrive flight | close _ | revoke _ | note e | shut | outside _ => exact ⟨rfl, rfl⟩

/-- Unless it closes the connection, a step changes the wire only. -/
theorem Step.wire_only (step : c.Step act s s') (other : act ≠ .close) : ∃ w, s' = s.setWire w := by
  cases step with
  | acquire signOn | launch signOn g | land signOn g | settle signOn g r | revocation signOn leaves
  | revoked signOn flight => exact (not_signOn fixed signOn).elim
  | invalidate fetched g => cases fixed.symm.trans fetched
  | close closes | revoke closes => exact (other closes).elim
  | stay | depart _ _ _ _ | arrive flight | note e | shut | outside _ => exact ⟨_, rfl⟩

theorem Step.presents {acts : Nat → Act} (step : c.Step (acts i) s s') (spares : (acts i).SparesSent)
    (plain : ∀ h ∈ c.root.headers, h.1 ≠ .authorization) : s'.wire.sent = s.wire.sent ∨
      ∃ x, c.Presents a acts x ∧ s'.wire.sent = s.wire.sent ++ [x] := by
  generalize same : acts i = act at step spares
  cases step with
  | acquire signOn | launch signOn g | land signOn g | settle signOn g r | revocation signOn leaves
  | revoked signOn flight => exact (not_signOn fixed signOn).elim
  | invalidate fetched g => cases fixed.symm.trans fetched
  | stay | close _ | revoke _ | note e => exact .inl rfl
  | shut => exact .inl (Client.sent_shut s.wire)
  | arrive flight => exact .inl (c.client.sent_arrive flight s.wire)
  | outside changes =>
    subst changes
    exact .inl (spares s.wire)
  | depart calls aims leaves carries =>
    obtain rfl := carries a fixed
    have alone := Client.authorization_outbound c.client plain leaves
    rcases c.client.sent_depart _ s.wire with quiet | ⟨x, delivers, sent⟩
    · exact .inl quiet
    · exact .inr ⟨x, ⟨i, _, _, _, same.trans calls, aims, leaves, alone, delivers⟩, sent⟩

/-! ### Runs -/

section Mingle
variable (acts : Nat → Act) (w : Wire) (turns : Nat → Turn) (n : Nat)

theorem mingle_fetches_none : ((c.mingle acts { wire := w } turns).state n).flights = [] ∧
    ((c.mingle acts { wire := w } turns).state n).asked = [] := by
  induction n with
  | zero => exact ⟨rfl, rfl⟩
  | succ n ih =>
    rcases c.mingle_steps acts { wire := w } turns n with same | ⟨i, _, step⟩
    · rw [same]
      exact ih
    · obtain ⟨flights, asked⟩ := step.fetches_none fixed
      rw [flights, asked]
      exact ih

theorem mingle_presents (spares : ∀ i, (acts i).SparesSent) (plain : ∀ h ∈ c.root.headers, h.1 ≠ .authorization) :
    ∃ handed, ((c.mingle acts { wire := w } turns).state n).wire.sent = w.sent ++ handed ∧
      ∀ x ∈ handed, c.Presents a acts x := by
  refine Run.handed_of_turns (r := c.mingle acts { wire := w } turns) (fun n => ?_) n
  rcases c.mingle_steps acts { wire := w } turns n with same | ⟨i, _, step⟩
  · exact .inl (by rw [same])
  · exact step.presents fixed (spares i) plain

/-- As long as no close has had a turn, a connection is as it was created, but for the wire. -/
theorem mingle_pristine (opened : ∀ k < n, ∀ i, turns k = .step i → acts i ≠ .close) :
    (c.mingle acts { wire := w } turns).state n = { wire := ((c.mingle acts { wire := w } turns).state n).wire } := by
  induction n with
  | zero => rfl
  | succ n ih =>
    have before := ih fun k lt => opened k (by omega)
    rcases c.mingle_steps acts { wire := w } turns n with same | ⟨i, turn, step⟩
    · rw [same]
      exact before
    · obtain ⟨w', changed⟩ := step.wire_only fixed (opened n (by omega) i turn)
      rw [changed, before]
      rfl

end Mingle
end Connection
end EngineClient
