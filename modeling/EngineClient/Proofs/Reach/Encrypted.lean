import EngineClient.Proofs.Closed
import EngineClient.Proofs.Reach.Handed
import EngineClient.Proofs.Reach.Origin

/-!
# Encrypted connections

A client of an engine whose URL is encrypted makes no request that is not. Where an endpoint of the sign-on service
would need one, calls fail before anything is handed over: those that need a token with a local error, and the
revocation with an entry in the log.
-/

namespace EngineClient
open EngineClient.State EngineClient.Task

/-! ### Targets -/

/-- A URL that no request can be made to over an encrypted connection. -/
def Unencrypted (url : String) : Prop :=
  ∀ target, Uri.parse? url = .ok target → target.scheme ≠ some "https"

/-- An error that comes before anything is handed over to the network. -/
def Error.IsLocal : Error → Prop
  | .request _ | .auth (.negotiation _) | .invalidLink _ | .closed => True
  | _ => False

theorem Draft.scheme_of_target? (accepted : target? .encryptedOnly text = .ok target) :
    target.scheme = some "https" := by
  unfold target? at accepted
  split at accepted
  · cases accepted
  · split at accepted
    · cases accepted
    · split at accepted
      · cases accepted
      · rename_i https
        cases accepted
        exact https
      · cases accepted
      · cases accepted

theorem Draft.target?_of_unencrypted (plain : Unencrypted text) :
    ∃ e, target? .encryptedOnly text = .error e ∧ Error.ofClient e = .request e := by
  unfold target?
  cases parsed : Uri.parse? text with
  | error e => exact ⟨_, rfl, rfl⟩
  | ok target =>
    dsimp only
    split
    · exact ⟨_, rfl, rfl⟩
    · split
      · exact ⟨_, rfl, rfl⟩
      · rename_i https
        exact (plain target parsed https).elim
      · exact ⟨_, rfl, rfl⟩
      · exact ⟨_, rfl, rfl⟩

theorem WebUrl.scheme_of_parse? {u : WebUrl} (parsed : Uri.parse? (String.ofList u.text) = .ok target) :
    target.scheme = some u.scheme.name := by
  have shape : ∃ rest, u.text = u.scheme.name.toList ++ "://".toList ++ rest := by
    unfold text
    rw [u.origin_eq]
    simp only [List.append_assoc]
    exact ⟨_, rfl⟩
  obtain ⟨rest, shape⟩ := shape
  rw [shape] at parsed
  exact (Uri.parseAbsolute_eq_ok (Uri.parse?_web parsed)).1

theorem WebUrl.unencrypted {u : WebUrl} (http : u.scheme = .http) : Unencrypted (String.ofList u.text) := by
  intro target parsed https
  rw [scheme_of_parse? parsed, http] at https
  exact absurd (Option.some.inj https) (by decide)

/-! ### Drafts that are refused -/

section Refused
variable {c : Client} {d : Draft} {e : ClientError}

theorem Client.clear_of_target? (whole : d.spoiled = none)
    (refused : Draft.target? c.settings.security d.url = .error e) (w : Wire) : c.clear d w = .error e := by
  have prepared : d.prepare c.settings.security = .error e := by
    unfold Draft.prepare
    rw [whole, refused]
    rfl
  unfold clear
  rw [prepared]

theorem Client.send_of_target? (whole : d.spoiled = none)
    (refused : Draft.target? c.settings.security d.url = .error e) : c.send d = act id fun _ => done (.error e) := by
  rw [send_run]
  refine congrArg (act id) (funext fun w => ?_)
  rw [clear_of_target? whole refused w]

theorem SignOn.spoiled_tokenDraft {service : SignOn} {before : List String} (drafted : service.tokenDraft before = .ok d) :
    d.spoiled = none ∧ d.url = service.tokenUrl := by
  unfold tokenDraft at drafted
  split at drafted
  · cases drafted
    exact ⟨rfl, rfl⟩
  · split at drafted
    · cases drafted
    · cases drafted
      exact ⟨rfl, rfl⟩

theorem SignOn.negotiation_of_tokenDraft {service : SignOn} {before : List String} {e : AuthError}
    (failed : service.tokenDraft before = .error e) : ∃ text, e = .negotiation text := by
  unfold tokenDraft at failed
  split at failed
  · cases failed
  · split at failed
    · cases failed
      exact ⟨_, rfl⟩
    · cases failed

/-- A revocation that would have to go unencrypted is only logged. -/
theorem TokenCache.revokeToken_of_unencrypted {service : SignOn} (encrypted : c.settings.security = .encryptedOnly)
    (plain : Unencrypted service.revokeUrl) : ∃ e, ∀ token,
      revokeToken c service token = act id fun _ => Task.update (State.note (.revocationFailed (ClientError.message e))) := by
  obtain ⟨e, refused, _⟩ := Draft.target?_of_unencrypted plain
  refine ⟨e, fun token => ?_⟩
  rw [← encrypted] at refused
  have sends := Client.send_of_target? (c := c) (d := service.revokeDraft token) rfl refused
  unfold revokeToken
  rw [sends]
  rfl

end Refused

/-! ### States without a token -/

/-- There is no token, and no flight that could bring one. -/
structure State.Barren (s : State) : Prop where
  slot : ∀ g token, s.slot ≠ .ready g token
  flights : ∀ g f, s.flight? g = some f → f = .begun ∨ ∃ e, f = .landed (.error e) ∧ e.IsLocal

/-- A state without a token stays one, and nothing is handed over. -/
def State.Idles (s s' : State) : Prop :=
  s.Barren → s'.Barren ∧ s'.wire.sent = s.wire.sent

namespace State
variable {s s' : State}

theorem Idles.refl (s : State) : s.Idles s :=
  fun barren => ⟨barren, rfl⟩

theorem Idles.trans (first : s.Idles s') (second : s'.Idles s'') : s.Idles s'' := by
  intro barren
  obtain ⟨barren', sent⟩ := first barren
  obtain ⟨barren'', sent'⟩ := second barren'
  exact ⟨barren'', sent'.trans sent⟩

theorem barren_initial (w : Wire) : State.Barren { wire := w } :=
  ⟨fun _ _ slot => (by cases slot), fun _ _ known => (by cases known)⟩

/-- What is neither of the slot nor of the flights makes no difference. -/
theorem Barren.of_same (barren : s.Barren) (slot : s'.slot = s.slot) (flights : s'.flights = s.flights) : s'.Barren where
  slot g token ready := barren.slot g token (slot ▸ ready)
  flights g f known := barren.flights g f ((flight?_of_flights flights g) ▸ known)

theorem idles_of_same (slot : s'.slot = s.slot) (flights : s'.flights = s.flights)
    (sent : s'.wire.sent = s.wire.sent) : s.Idles s' :=
  fun barren => ⟨barren.of_same slot flights, sent⟩

theorem Barren.land (barren : s.Barren) (g : Nat) (e : Error) (isLocal : e.IsLocal) :
    (s.setFlight g (.landed (.error e))).Barren where
  slot := barren.slot
  flights h f known := by
    rw [flight?_setFlight] at known
    split at known
    · obtain ⟨f', _, rfl⟩ := Option.map_eq_some_iff.mp known
      exact .inr ⟨e, rfl, isLocal⟩
    · exact barren.flights h f known

theorem Barren.acquire (barren : s.Barren) (margin : Span) : (s.acquire margin).2.Barren ∧
    (s.acquire margin).2.wire.sent = s.wire.sent ∧ ∀ g token, (s.acquire margin).1 ≠ .cached g token := by
  have begins : ∀ h f, ((s.generation + 1, Flight.begun) :: s.flights).lookup h = some f →
      f = .begun ∨ ∃ e, f = .landed (.error e) ∧ e.IsLocal := by
    intro h f known
    rw [List.lookup_cons] at known
    split at known
    · exact .inl (Option.some.inj known).symm
    · exact barren.flights h f known
  unfold State.acquire
  cases slot : s.slot with
  | revoked => exact ⟨barren, rfl, fun _ _ same => by cases same⟩
  | pending g => exact ⟨barren.of_same rfl rfl, rfl, fun _ _ same => by cases same⟩
  | empty => exact ⟨⟨fun _ _ slot => (by cases slot), begins⟩, rfl, fun _ _ same => by cases same⟩
  | ready g token => exact (barren.slot g token slot).elim

theorem Barren.settle (barren : s.Barren) (margin : Span) (g : Nat) (e : Error) :
    (s.settle margin g (.error e)).Barren := by
  unfold State.settle
  split
  · exact ⟨fun _ _ slot => (by cases slot), barren.flights⟩
  · exact barren

theorem Barren.result? (barren : s.Barren) (found : s.result? g = some r) : ∃ e, r = .error e ∧ e.IsLocal := by
  rcases barren.flights g _ (result?_eq_some.mp found) with begun | ⟨e, landed, isLocal⟩
  · cases begun
  · cases landed
    exact ⟨e, rfl, isLocal⟩

end State

/-! ### Calls that fail -/

/-- A task takes no token from states without one and hands nothing over; what it ends with is as said. -/
def Task.Idle (post : α → Prop) (t : Task State α) : Prop :=
  ∀ s : State, s.Barren → t.Keeps State.Idles State.Idles (fun a _ => post a) s

/-- A result is a local error. -/
def Failed (r : Except Error α) : Prop :=
  ∃ e, r = .error e ∧ e.IsLocal

section Idle
variable {post : α → Prop} {t : Task State α}

theorem Task.idle_done (holds : post a) : (done a : Task State α).Idle post :=
  fun _ _ _ _ => holds

theorem Task.idle_act {next : State → Task State α} (step : ∀ s, State.Idles s (change s))
    (rest : ∀ s, s.Barren → (next s).Idle post) : (act change next).Idle post := by
  intro s barren s' between
  obtain ⟨barren', _⟩ := between barren
  exact ⟨step s', rest s' barren' _ (step s' barren').1⟩

theorem Task.idle_wait {next : State → Task State α} (step : ∀ s, State.Idles s (change s))
    (rest : ∀ s, s.Barren → (next s).Idle post) : (wait change next).Idle post :=
  idle_act step rest

theorem Task.Idle.andThen {post' : β → Prop} {k : α → Task State β} (first : t.Idle post)
    (rest : ∀ a, post a → (k a).Idle post') : (t.andThen k).Idle post' := by
  intro s barren
  refine Keeps.andThen Idles.refl ?_
  refine ((first s barren).invariant (fun idles barren => (idles barren).1) (fun idles barren => (idles barren).1)
    barren).imp ?_
  rintro a s' ⟨barren', holds⟩
  exact rest a holds s' barren'

theorem Task.Idle.map {t : Task State (Except Error α)} (first : t.Idle Failed) (f : α → β) :
    (t.andThen fun r => done (r.map f)).Idle Failed := by
  refine first.andThen ?_
  rintro _ ⟨e, rfl, isLocal⟩
  exact idle_done ⟨e, rfl, isLocal⟩

/-- What comes after a call that fails is not reached. -/
theorem Call.idle_of_failed {x : Call α} {f : α → Call β} (first : x.run.Idle Failed) : (x >>= f).run.Idle Failed := by
  rw [Call.run_bind]
  refine first.andThen ?_
  rintro _ ⟨e, rfl, isLocal⟩
  exact idle_done ⟨e, rfl, isLocal⟩

end Idle

section Calls
variable {c : Connection} {service : SignOn}

theorem TokenCache.launch_idles {c : Client} (encrypted : c.settings.security = .encryptedOnly)
    (plain : Unencrypted service.tokenUrl) (g : Nat) (s : State) : s.Idles (launch c service g s) := by
  intro barren
  unfold launch
  split
  · dsimp only
    have asked : State.Barren { s.note service.requestEvent with asked := s.asked ++ service.asked } :=
      barren.of_same rfl rfl
    split
    · rename_i e failed
      obtain ⟨text, rfl⟩ := SignOn.negotiation_of_tokenDraft failed
      exact ⟨asked.land g _ trivial, rfl⟩
    · rename_i d drafted
      obtain ⟨whole, url⟩ := SignOn.spoiled_tokenDraft drafted
      obtain ⟨e, refused, request⟩ := Draft.target?_of_unencrypted plain
      rw [← encrypted, ← url] at refused
      have stays : ∀ w, dispatch c d w = (.error e, w) := by
        intro w
        unfold dispatch
        rw [Client.clear_of_target? whole refused]
      have onWire : ∀ s : State, s.onWire (dispatch c d) = (.error e, s) := by
        intro s
        unfold State.onWire
        rw [stays]
        rfl
      rw [onWire]
      dsimp only
      rw [request]
      exact ⟨asked.land g _ trivial, rfl⟩
  · exact ⟨barren, rfl⟩

theorem TokenCache.land_barren {c : Client} {s : State} (barren : s.Barren) (g : Nat) :
    (land c g s).2 = s ∧ Failed (land c g s).1 := by
  unfold land
  split
  · rename_i r found
    rcases barren.flights g _ found with begun | ⟨e, landed, isLocal⟩
    · cases begun
    · cases landed
      exact ⟨rfl, e, rfl, isLocal⟩
  · rename_i e found
    rcases barren.flights g _ found with begun | ⟨e, landed, isLocal⟩
    · cases begun
    · cases landed
  · exact ⟨rfl, .closed, rfl, trivial⟩

theorem TokenCache.settle_idle (failed : Failed r) (margin : Span) (g : Nat) :
    (act (State.settle margin g r) fun _ => done r : Task State (Except Error AccessToken)).Idle Failed := by
  obtain ⟨e, rfl, isLocal⟩ := failed
  exact idle_act (fun s barren => ⟨barren.settle margin g e, Connection.sent_settle margin g _ s⟩) fun _ _ =>
    idle_done ⟨e, rfl, isLocal⟩

theorem TokenCache.follow_idle {t : TokenCache} (encrypted : t.client.settings.security = .encryptedOnly)
    (plain : Unencrypted service.tokenUrl) (g : Nat) : (t.follow service g).run.Idle Failed := by
  rw [follow_run]
  refine idle_act (launch_idles encrypted plain g) fun _ _ => idle_act Idles.refl fun s barren => ?_
  split
  · rename_i r found
    exact settle_idle (barren.result? found) t.margin g
  · refine idle_wait (fun s barren => ?_) fun s barren => ?_
    · rw [(land_barren barren g).1]
      exact ⟨barren, rfl⟩
    · exact settle_idle (land_barren barren g).2 t.margin g

theorem TokenCache.ensure_idle {t : TokenCache} (signOn : t.strategy = .signOn service)
    (encrypted : t.client.settings.security = .encryptedOnly) (plain : Unencrypted service.tokenUrl) :
    t.ensure.run.Idle Failed := by
  rw [ensure_run signOn]
  refine idle_act (fun s barren => ?_) fun s barren => ?_
  · obtain ⟨barren', sent, _⟩ := barren.acquire t.margin
    exact ⟨barren', sent⟩
  · obtain ⟨_, _, uncached⟩ := barren.acquire t.margin
    cases found : (s.acquire t.margin).1 with
    | closed => exact idle_done ⟨.closed, rfl, trivial⟩
    | cached g token => exact (uncached g token found).elim
    | flight g =>
      rw [take_flight_run]
      exact (follow_idle encrypted plain g).map _

namespace Connection

theorem ensureOpen_idle : ensureOpen.run.Idle fun r => Failed r ∨ r = .ok () := by
  rw [ensureOpen_run]
  refine idle_act Idles.refl fun s _ => ?_
  split
  · exact idle_done (.inl ⟨.closed, rfl, trivial⟩)
  · exact idle_done (.inr rfl)

theorem opened_idle {x : Call α} (rest : x.run.Idle Failed) : (do ensureOpen; x : Call α).run.Idle Failed := by
  rw [Call.run_bind]
  refine ensureOpen_idle.andThen ?_
  rintro _ (⟨e, rfl, isLocal⟩ | rfl)
  · exact idle_done ⟨e, rfl, isLocal⟩
  · exact rest

theorem close_idle (signOn : c.tokens.strategy = .signOn service) : c.close.Idle fun _ => True := by
  rw [close_run]
  refine idle_act (fun s => idles_of_same rfl rfl rfl) fun s _ => ?_
  split
  · exact idle_done trivial
  · have revokes : c.tokens.revoke.Idle fun _ => True := by
      rw [TokenCache.revoke_run]
      refine idle_act (fun s barren => ⟨⟨fun _ _ slot => (by cases slot), barren.flights⟩, rfl⟩) fun s barren => ?_
      rw [signOn]
      cases slot : s.slot with
      | ready g token => exact (barren.slot g token slot).elim
      | pending g => exact idle_act (fun s => idles_of_same rfl rfl rfl) fun _ _ => idle_done trivial
      | empty | revoked => exact idle_done trivial
    refine revokes.andThen fun _ _ => ?_
    exact idle_act (fun s => idles_of_same rfl rfl (Client.sent_shut s.wire)) fun _ _ =>
      idle_act (fun s => idles_of_same rfl rfl rfl) fun _ _ => idle_done trivial

section Unserved
variable (signOn : c.tokens.strategy = .signOn service)
  (encrypted : c.tokens.client.settings.security = .encryptedOnly) (plain : Unencrypted service.tokenUrl)
include signOn encrypted plain

theorem authenticate_idle : c.authenticate.run.Idle Failed := by
  refine opened_idle ?_
  rw [TokenCache.token_run]
  exact (TokenCache.ensure_idle signOn encrypted plain).map _

theorem authorize_idle : c.authorize.run.Idle Failed := by
  refine opened_idle ?_
  rw [TokenCache.credential_run (by simp [signOn])]
  exact (TokenCache.ensure_idle signOn encrypted plain).map _

theorem send_idle (request : Request) : (c.send request).run.Idle Failed :=
  Call.idle_of_failed (authorize_idle signOn encrypted plain)

/-- A call that needs a token or is told that a link leads astray fails; nothing else takes place. -/
theorem act_idle (act : Act) (spares : act.SparesSent) :
    (act.task c).Idle fun r => ∀ entry, act = .call entry → Failed r := by
  cases act with
  | close =>
    exact (close_idle signOn).andThen fun _ _ => idle_done fun _ same => by cases same
  | outside change =>
    refine idle_act (fun s => idles_of_same rfl rfl (spares s.wire)) fun _ _ => ?_
    exact idle_done fun _ same => by cases same
  | call entry =>
    have fails : ((Act.call entry).task c).Idle Failed := by
      have run : (Act.call entry).task c = (entry.call c).run := rfl
      rw [run, entry.call_run]
      cases entry.aim c with
      | token => exact (authenticate_idle signOn encrypted plain).map _
      | response request => exact (send_idle signOn encrypted plain request).map _
      | stray href => exact idle_done ⟨_, rfl, trivial⟩
    exact fun s barren => (fails s barren).imp fun _ _ failed _ _ => failed

/-- A run in which no token can be fetched hands nothing over, and each of its calls fails, also one that is made alone
at any time. -/
theorem mingle_idle (acts : Nat → Act) (spares : ∀ i, (acts i).SparesSent) (w : Wire) (turns : Nat → Turn) (n : Nat) :
    let r := c.mingle acts { wire := w } turns
    (r.state n).wire.sent = w.sent ∧
      (∀ i entry b, acts i = .call entry → r.task i n = some (done b) → Failed b) ∧
      ∀ entry, Failed (((Act.call entry).task c).run (r.state n)).1 ∧
        (((Act.call entry).task c).run (r.state n)).2.wire.sent = w.sent := by
  intro r
  -- No token is there at first, and each step that would bring one is refused before it leaves.
  have sound : r.Sound State.Idles fun _ => State.Idles := {
    refl := Idles.refl
    trans := Idles.trans
    fits := id
    start := fun task => by
      cases task
      exact (act_idle signOn encrypted plain _ (spares _) _ (barren_initial w)).imp fun _ _ _ => trivial }
  obtain ⟨barren, sent⟩ := sound.relied (Nat.zero_le n) (barren_initial w)
  refine ⟨sent, fun i entry b calls ends => ?_, fun entry => ?_⟩
  · have start : r.task i 0 = some ((acts i).task c) := rfl
    have keeps := act_idle signOn encrypted plain (acts i) (spares i) _ (barren_initial w)
    exact sound.keeps_task start keeps n ends _ (Idles.refl _) entry calls
  · have keeps := act_idle signOn encrypted plain (.call entry) trivial _ barren
    obtain ⟨idles, failed⟩ := keeps.run Idles.refl Idles.trans id
    exact ⟨failed entry rfl, (idles barren).2.trans sent⟩

end Unserved

/-! ### Options -/

theorem encrypted_of_create (created : create idna fs o = (log, .ok c)) (located : Options.root? idna o.url = .ok u)
    (https : u.scheme = .https) :
    c.client.settings.security = .encryptedOnly ∧ c.tokens.client.settings.security = .encryptedOnly := by
  obtain ⟨u', located', settings, client⟩ := client_of_create created
  obtain rfl : u' = u := Except.ok.inj (located'.symm.trans located)
  rw [client, settings]
  simp [Options.clientSettings, https]

theorem service_ofParts {client : Client} {s : Settings} (signOn : (ofParts client s).tokens.strategy = .signOn service) :
    service.tokenUrl = s.tokenUrl ∧ service.revokeUrl = s.revokeUrl := by
  unfold ofParts TokenCache.ofSettings at signOn
  dsimp only at signOn
  split at signOn
  · cases signOn
    exact ⟨rfl, rfl⟩
  · cases signOn
    exact ⟨rfl, rfl⟩
  · cases signOn
  · cases signOn

theorem service_of_create (created : create idna fs o = (log, .ok c)) (signOn : c.tokens.strategy = .signOn service) :
    ∃ s u, o.Yields idna u s ∧ service.tokenUrl = s.tokenUrl ∧ service.revokeUrl = s.revokeUrl := by
  obtain ⟨s, u, yields, _, _, made⟩ := yields_of_create created
  rw [made] at signOn
  exact ⟨s, u, yields, service_ofParts signOn⟩

theorem endpoint_unencrypted {base : WebUrl} (read : Options.endpoint? idna base option (some raw) path = .ok url)
    (parsed : Url.parse? idna raw = .ok (.web v)) (http : v.scheme = .http) : Unencrypted url := by
  unfold Options.endpoint? at read
  dsimp only at read
  rw [parsed] at read
  obtain rfl : String.ofList v.text = url := Except.ok.inj read
  exact WebUrl.unencrypted http

theorem encrypted_of_leaves (security : c.client.settings.security = .encryptedOnly)
    (security' : c.tokens.client.settings.security = .encryptedOnly) (leaves : c.Leaves x) (carried : x.request = some out) :
    out.uri.scheme = some "https" := by
  have encrypted : ∀ {client : Client} {d o}, client.settings.security = .encryptedOnly → client.outbound d = .ok o →
      client.Delivers o x → out.uri.scheme = some "https" := by
    intro client d o security outbound delivers
    obtain ⟨accepted, _⟩ := Client.outbound_eq_ok outbound
    rw [security] at accepted
    rcases delivers with rfl | rfl
    · cases carried
    · cases carried
      exact Draft.scheme_of_target? accepted
  cases leaves with
  | request leaves delivers => exact encrypted security leaves delivers
  | token _ _ leaves delivers | revocation _ leaves delivers => exact encrypted security' leaves delivers

end Connection
end Calls

/-- On every run of a connection to an engine whose URL has the scheme `https`, each request on the network has it, too.
If tokens cannot be fetched that way, nothing is handed over and each call fails with a local error; if they cannot be
revoked that way, that is logged and nothing else is done. Endpoints that the options give with `http` are such. -/
theorem encrypted_engine (created : Connection.create idna fs o = (log, .ok c)) (located : Options.root? idna o.url = .ok u)
    (https : u.scheme = .https) (acts : Nat → Act) (spares : ∀ i, (acts i).SparesSent) (w : Wire) (turns : Nat → Turn)
    (n : Nat) :
    let r := c.mingle acts { wire := w } turns
    (∃ handed, (r.state n).wire.sent = w.sent ++ handed ∧
      ∀ x ∈ handed, ∀ out, x.request = some out → out.uri.scheme = some "https") ∧
    ∀ service, c.tokens.strategy = .signOn service →
      (Unencrypted service.tokenUrl → (r.state n).wire.sent = w.sent ∧
        (∀ i entry b, acts i = .call entry → r.task i n = some (done b) → Failed b) ∧
        ∀ entry, Failed (((Act.call entry).task c).run (r.state n)).1 ∧
          (((Act.call entry).task c).run (r.state n)).2.wire.sent = w.sent) ∧
      (Unencrypted service.revokeUrl → ∃ e, ∀ token, TokenCache.revokeToken c.tokens.client service token =
        act id fun _ => Task.update (State.note (.revocationFailed (ClientError.message e)))) ∧
      (∀ raw v, o.tokenEndpoint = some raw → Url.parse? idna raw = .ok (.web v) → v.scheme = .http →
        Unencrypted service.tokenUrl) ∧
      ∀ raw v, o.revokeEndpoint = some raw → Url.parse? idna raw = .ok (.web v) → v.scheme = .http →
        Unencrypted service.revokeUrl := by
  intro r
  obtain ⟨security, security'⟩ := Connection.encrypted_of_create created located https
  obtain ⟨handed, sent, leaves⟩ := c.mingle_sent acts spares { wire := w } turns n
  refine ⟨⟨handed, sent, fun x member out carried => ?_⟩, fun service signOn => ⟨?_, ?_, ?_, ?_⟩⟩
  · exact Connection.encrypted_of_leaves security security' (leaves x member) carried
  · exact fun plain => Connection.mingle_idle signOn security' plain acts spares w turns n
  · exact fun plain => TokenCache.revokeToken_of_unencrypted security' plain
  · intro raw v given parsed http
    obtain ⟨s, root, yields, token, _⟩ := Connection.service_of_create created signOn
    have read := yields.tokenUrl
    rw [given] at read
    rw [token]
    exact Connection.endpoint_unencrypted read parsed http
  · intro raw v given parsed http
    obtain ⟨s, root, yields, _, revoke⟩ := Connection.service_of_create created signOn
    have read := yields.revokeUrl
    rw [given] at read
    rw [revoke]
    exact Connection.endpoint_unencrypted read parsed http

namespace Sample

/-- The engine is encrypted, the sign-on service is not. -/
def plainSignOn : Options where
  url := "https://engine.example.com/ovirt-engine/api"
  username := some "u"
  password := some ⟨"p"⟩
  tokenEndpoint := some "http://sso.example.com/token"
  revokeEndpoint := some "http://sso.example.com/logout"

def signOnUrl (path : String) : WebUrl where
  scheme := .http
  userInfo := []
  host := "sso.example.com".toList
  port := none
  path := path.toList
  query := none
  fragment := none

end Sample

/-- Nothing reaches the network when the sign-on service has no encrypted endpoint. -/
theorem encrypted_engine_plain_sign_on : ∃ log c u service,
    Connection.create .ascii {} Sample.plainSignOn = (log, .ok c) ∧
    Options.root? .ascii Sample.plainSignOn.url = .ok u ∧ u.scheme = .https ∧
    c.tokens.strategy = .signOn service ∧ Unencrypted service.tokenUrl ∧ Unencrypted service.revokeUrl ∧
    ∀ turns n, ((c.mingle Sample.closing { wire := Sample.wire } turns).state n).wire.sent = [] := by
  have fetched : (Connection.create .ascii {} Sample.plainSignOn).2.map (fun c => c.tokens.strategy.fixed?.isNone) =
      .ok true := by
    decide +kernel
  have https : (Options.root? .ascii Sample.plainSignOn.url).map WebUrl.scheme = .ok .https := by decide +kernel
  have token : Url.parse? .ascii "http://sso.example.com/token" = .ok (.web (Sample.signOnUrl "/token")) := by decide +kernel
  have revoke : Url.parse? .ascii "http://sso.example.com/logout" = .ok (.web (Sample.signOnUrl "/logout")) := by decide +kernel
  obtain ⟨c, made, fetches⟩ := Except.map_eq_ok fetched
  obtain ⟨u, located, https⟩ := Except.map_eq_ok https
  have created := Connection.create_eq_of_ok made
  obtain ⟨service, signOn⟩ : ∃ service, c.tokens.strategy = .signOn service := by
    cases strategy : c.tokens.strategy with
    | signOn service => exact ⟨service, rfl⟩
    | token t => simp [strategy, Strategy.fixed?] at fetches
    | basic a => simp [strategy, Strategy.fixed?] at fetches
  have spares : ∀ i, (Sample.closing i).SparesSent := by
    intro i
    unfold Sample.closing
    split <;> trivial
  have plain := fun turns n => (encrypted_engine created located https Sample.closing spares Sample.wire turns n).2
    service signOn
  obtain ⟨_, _, given, given'⟩ := plain (Sample.turns []) 0
  have unfetched := given _ _ rfl token rfl
  refine ⟨_, c, u, service, created, located, https, signOn, unfetched, given' _ _ rfl revoke rfl, ?_⟩
  exact fun turns n => ((plain turns n).1 unfetched).1

end EngineClient
