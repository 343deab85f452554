import EngineClient.Proofs.Secrecy.Calls

/-!
# Sessions with other secrets

Two sessions with different passwords and different tokens, all else being the same, log the same, describe themselves
alike and give the same results.
-/

namespace EngineClient
open EngineClient.State EngineClient.Task

/-! ### Acts -/

/-- Values that are the same but for the value and the authorization of a token. -/
inductive Value.Twin : Value → Value → Prop
  | same (v : Value) : Twin v v
  | token {t t' : AccessToken} (lifetime : t'.lifetime = t.lifetime) (expiresAt : t'.expiresAt = t.expiresAt)
    (shown : t'.describe = t.describe) : Twin (.token t) (.token t')

/-- The same acts, but for changes outside, which are to keep secrets the only thing that tells the wires apart. -/
inductive Act.Twin (c : Connection) : Act → Act → Prop
  | call (entry : Entry) : Twin c (.call entry) (.call entry)
  | close : Twin c .close .close
  | outside {change change' : Wire → Wire}
    (steps : ∀ w w', Wire.Twin c w w' → Wire.Twin c (change w) (change' w')) : Twin c (.outside change) (.outside change')

/-- What two connections in two states show: the log, what was sent, and their descriptions. -/
structure Connection.Indistinct (c c' : Connection) (s s' : State) : Prop where
  log : s'.wire.log = s.wire.log
  sent : List.Forall₂ (Sent.Twin c) s.wire.sent s'.wire.sent
  shown : c'.describe s' = c.describe s
  clientShown : c'.client.describe s'.wire = c.client.describe s.wire

section Acts
variable {c c' : Connection} (twins : c.Twin c')
include twins

theorem State.Twin.indistinct {s s' : State} (states : State.Twin c s s') : c.Indistinct c' s s' where
  log := states.wire.log
  sent := states.wire.sent
  shown := by
    unfold Connection.describe
    rw [twins.root, states.closed]
  clientShown := by
    unfold Client.describe
    rw [twins.client, states.wire.isOpen]

theorem Entry.call_twin (entry : Entry) :
    ((entry.call c).run).Alike (State.Twin c) (Except.Related Value.Twin) (entry.call c').run := by
  have aim : entry.aim c' = entry.aim c := by
    unfold Entry.aim
    rw [twins.root]
  rw [entry.call_run, entry.call_run, aim]
  split
  · refine Alike.andThen (Connection.authenticate_twin twins) fun r r' results => .done ?_
    cases results with
    | error e => exact .error e
    | ok tokens => exact .ok (.token tokens.lifetime tokens.expiresAt tokens.describe)
  · refine Alike.andThen (Connection.send_twin twins _) fun r r' results => .done ?_
    cases results with
    | error e => exact .error e
    | ok same =>
      subst same
      exact .ok (.same _)
  · exact .done (.error _)

theorem Act.task_twin {act act' : Act} (acts : Act.Twin c act act') :
    (act.task c).Alike (State.Twin c) (Except.Related Value.Twin) (act'.task c') := by
  cases acts with
  | call entry => exact entry.call_twin twins
  | close => exact (Connection.close_twin twins).andThen fun _ _ _ => .done (.ok (.same _))
  | outside steps =>
    refine .act (fun s s' states => ?_) fun _ _ _ => .done (.ok (.same _))
    exact setWire_twin states (steps _ _ states.wire)

theorem Connection.play_twin {acts acts' : List Act} (alike : List.Forall₂ (Act.Twin c) acts acts') {s s' : State}
    (states : State.Twin c s s') :
    List.Forall₂ (Except.Related Value.Twin) (c.play acts s).1 (c'.play acts' s').1 ∧
      State.Twin c (c.play acts s).2 (c'.play acts' s').2 := by
  induction alike generalizing s s' with
  | nil => exact ⟨.nil, states⟩
  | cons act _ ih =>
    obtain ⟨value, after⟩ := (Act.task_twin twins act).run states
    rw [play_cons, play_cons]
    exact ⟨.cons value (ih after).1, (ih after).2⟩

theorem Connection.mingle_twin {acts acts' : Nat → Act} (alike : ∀ i, Act.Twin c (acts i) (acts' i)) {s s' : State}
    (states : State.Twin c s s') (turns : Nat → Turn) (n : Nat) :
    ((c.mingle acts s turns).pool n).Alike (State.Twin c) (Except.Related Value.Twin)
      ((c'.mingle acts' s' turns).pool n) := by
  refine Pool.Alike.pool ⟨states, fun i => ?_⟩ turns n
  exact .inr ⟨_, _, rfl, rfl, Act.task_twin twins (alike i)⟩

end Acts

/-! ### Creation -/

namespace Options
variable (o : Options)

def withPassword (p : Secret) : Options :=
  { o with password := some p }

theorem describe_withPassword (p p' : Secret) : (o.withPassword p').describe = (o.withPassword p).describe := rfl

/-- Whether credentials are accepted does not depend on the password that is exchanged. -/
theorem credentials?_withPassword (signsOn : o.auth = .signOn) (p p' : Secret) :
    Except.Related (fun a a' => ∃ u, a = .password u p ∧ a' = .password u p')
      (o.withPassword p).credentials? (o.withPassword p').credentials? := by
  have grants : Except.Related (fun g g' => ∃ u, g = some (u, p) ∧ g' = some (u, p'))
      (o.withPassword p).passwordGrant? (o.withPassword p').passwordGrant? := by
    unfold passwordGrant? withPassword
    dsimp only
    cases o.username with
    | none => exact .error _
    | some u =>
      dsimp only
      split
      · exact .error _
      · exact .ok ⟨u, rfl, rfl⟩
  unfold credentials?
  refine grants.bind ?_
  rintro _ _ ⟨u, rfl, rfl⟩
  have mode : ∀ q, (o.withPassword q).auth = .signOn := fun _ => signsOn
  have kerberos : ∀ q, (o.withPassword q).kerberos = o.kerberos := fun _ => rfl
  have token : ∀ q, (o.withPassword q).token = o.token := fun _ => rfl
  simp only [mode, kerberos, token]
  cases o.kerberos with
  | some source => exact .error _
  | none =>
    cases o.token with
    | some given => exact .error _
    | none => exact .ok ⟨u, rfl, rfl⟩

theorem validate_withPassword (signsOn : o.auth = .signOn) (p p' : Secret) :
    Except.Related (fun s s' => ∃ u, s.credentials = .password u p ∧ s' = { s with credentials := .password u p' })
      ((o.withPassword p).validate idna) ((o.withPassword p').validate idna) := by
  unfold validate
  refine Except.related_bind _ fun root => ?_
  refine (o.credentials?_withPassword signsOn p p').bind ?_
  rintro _ _ ⟨u, rfl, rfl⟩
  dsimp only [withPassword]
  refine .ite (fun _ => .error _) fun _ => .ite (fun _ => .error _) fun _ => .ite (fun _ => .error _) fun _ =>
    .ite (fun _ => .error _) fun _ => ?_
  refine Except.related_bind _ fun headers => ?_
  refine Except.related_bind _ fun tokenUrl => ?_
  refine Except.related_bind _ fun revokeUrl => ?_
  exact .ok ⟨u, rfl, rfl⟩

end Options

theorem Connection.create_withPassword (idna : Idna) (fs : Files) (o : Options) (signsOn : o.auth = .signOn) {p p' : Secret}
    (secrets : p.Twin p') : (create idna fs (o.withPassword p')).1 = (create idna fs (o.withPassword p)).1 ∧
      Except.Related Connection.Twin (create idna fs (o.withPassword p)).2 (create idna fs (o.withPassword p')).2 := by
  unfold create
  rcases (o.validate_withPassword signsOn p p').split with ⟨e, valid, valid'⟩ | ⟨s, s', valid, valid', u, grant, rfl⟩
  · rw [valid, valid']
    exact ⟨rfl, .error _⟩
  · rw [valid, valid']
    dsimp only
    cases Client.build fs s.client with
    | error e => exact ⟨rfl, .error _⟩
    | ok client =>
      have strategy : (ofParts client s).tokens.strategy =
          .signOn ⟨s.tokenUrl, s.revokeUrl, .password u p⟩ := by
        simp only [ofParts, TokenCache.ofSettings, grant]
      refine ⟨rfl, .ok ?_⟩
      exact {
        client := rfl
        root := rfl
        margin := rfl
        own := rfl
        own' := rfl
        plain := Options.headers_of_validate valid
        signOn := ⟨_, _, strategy, rfl, .password s.tokenUrl s.revokeUrl u secrets⟩ }

/-! ### Secrets -/

/-- Passwords and tokens stay hidden. Let two configurations differ in the password that is exchanged for tokens, and
let the network answer the exchanges of the second one as those of the first, but for the tokens in the answers of the
sign-on service. Then creation logs the same and fails alike. And whatever is called, in order or by turns, the logs are
the same, the descriptions are, and the results, but for the value and the authorization of a token; the requests that
are sent differ in bodies of the same lengths to the sign-on service, and in the authorization of all others. -/
theorem secrets_stay_hidden (idna : Idna) (fs : Files) (o : Options) (signsOn : o.auth = .signOn) {p p' : Secret}
    (secrets : p.Twin p') :
    (o.withPassword p').describe = (o.withPassword p).describe ∧
    (Connection.create idna fs (o.withPassword p')).1 = (Connection.create idna fs (o.withPassword p)).1 ∧
    Except.Related (fun c c' => ∀ w w', Wire.Twin c w w' →
      (∀ acts acts', List.Forall₂ (Act.Twin c) acts acts' →
        List.Forall₂ (Except.Related Value.Twin) (c.play acts { wire := w }).1 (c'.play acts' { wire := w' }).1 ∧
        c.Indistinct c' (c.play acts { wire := w }).2 (c'.play acts' { wire := w' }).2) ∧
      ∀ acts acts', (∀ i, Act.Twin c (acts i) (acts' i)) → ∀ turns n,
        c.Indistinct c' ((c.mingle acts { wire := w } turns).state n) ((c'.mingle acts' { wire := w' } turns).state n) ∧
        ∀ i, Option.Rel (Option.Rel (Except.Related Value.Twin))
          (((c.mingle acts { wire := w } turns).task i n).map Task.value?)
          (((c'.mingle acts' { wire := w' } turns).task i n).map Task.value?))
      (Connection.create idna fs (o.withPassword p)).2 (Connection.create idna fs (o.withPassword p')).2 := by
  obtain ⟨logged, created⟩ := Connection.create_withPassword idna fs o signsOn secrets
  refine ⟨o.describe_withPassword p p', logged, created.imp fun c c' twins w w' wires => ⟨?_, ?_⟩⟩
  · intro acts acts' alike
    obtain ⟨values, states⟩ := Connection.play_twin twins alike (.initial wires)
    exact ⟨values, states.indistinct twins⟩
  · intro acts acts' alike turns n
    have pools := Connection.mingle_twin twins alike (.initial wires) turns n
    exact ⟨State.Twin.indistinct twins pools.state, pools.values⟩

namespace Sample

def signingOn : Options :=
  { url := "https://engine.example.com/ovirt-engine/api", username := some "u", debug := true }

/-- The answer of the service that names a token. -/
def grantOf (token : String) : String :=
  "\x7b\"access_token\":\"" ++ token ++ "\"\x7d"

/-- The service grants a token; the engine, which is told a version, has nothing to say. -/
def granting (token : String) : Wire where
  network _ o := if (o.headers.getAll .version).isEmpty then answer 200 (grantOf token) else answer 200 ""

def member? : Json.Value → Option (String × String)
  | .object [(name, .string s)] => some (name, s)
  | _ => none

def session : List Act := [.call .authenticate, .call (.send (.get "vms")), .close]

end Sample

section Version
variable {c : Connection} {o : Outbound}

/-- Requests to the API name a version of it, requests to the sign-on service do not. -/
theorem Connection.Asks.version (asks : c.Asks o) : (o.headers.getAll .version).isEmpty = false := by
  obtain ⟨request, a, leaves⟩ := asks
  obtain ⟨_, _, headers, _⟩ := Client.outbound_eq_ok leaves
  have own : ∃ rest, (HeaderMap.ofList (c.root.draft request a).allHeaders).getAll .version =
      ApiRoot.apiVersion :: rest := by
    rw [HeaderMap.getAll_ofList, c.root.allHeaders_draft]
    exact ⟨_, rfl⟩
  obtain ⟨rest, own⟩ := own
  have present := HeaderMap.contains_of_getAll (v := ApiRoot.apiVersion) (by rw [own]; exact List.mem_cons_self ..)
  rw [headers, c.client.getAll_outgoingHeaders (fun _ _ _ => present) (by decide), own]
  rfl

theorem Connection.SignsOn.version (posts : c.SignsOn o)
    (defaults : ∀ h ∈ c.tokens.client.defaults.toList, h.1 = .userAgent) :
    (o.headers.getAll .version).isEmpty = true := by
  obtain ⟨service, url, fields, _, _, leaves⟩ := posts
  obtain ⟨_, _, headers, _⟩ := Client.outbound_eq_ok leaves
  have own : (HeaderMap.ofList (SignOn.formDraft url [SignOn.acceptJson] fields).allHeaders).getAll .version = [] := by
    rw [HeaderMap.getAll_ofList]
    rfl
  have added : ∀ h ∈ c.tokens.client.defaults.toList, h.1 = .version →
      (HeaderMap.ofList (SignOn.formDraft url [SignOn.acceptJson] fields).allHeaders).contains .version = true := by
    intro h member version
    exact absurd ((defaults h member).symm.trans version) (by decide)
  rw [headers, c.tokens.client.getAll_outgoingHeaders added (by decide), own]
  rfl

end Version

namespace Sample

theorem interchangeable : AccessToken.Interchangeable "A" "B" where
  named := by decide
  named' := by decide
  sendable := by decide +kernel
  sendable' := by decide +kernel
  size := by decide +kernel

theorem read_of_member? {body : Bytes} (read : (Json.Value.read? body).map member? = .ok (some (name, s)))
    (again : Json.Value.read? body = .ok v) : v = .object [(name, .string s)] := by
  rw [again] at read
  have named : member? v = some (name, s) := Except.ok.inj read
  unfold member? at named
  split at named
  · obtain ⟨rfl, rfl⟩ := Prod.mk.inj (Option.some.inj named)
    rfl
  · cases named

theorem reissues_grant : Answer.Reissues (Text.utf8 (grantOf "A")) (Text.utf8 (grantOf "B")) where
  text := by
    have bytes : Text.utf8 (grantOf "A") = 0x7B :: Json.quoteByte :: (Text.utf8 "access_token" ++ Json.quoteByte ::
          0x3A :: Json.quoteByte :: (Text.utf8 "A" ++ Json.quoteByte :: [0x7D])) ∧
        Text.utf8 (grantOf "B") = 0x7B :: Json.quoteByte :: (Text.utf8 "access_token" ++ Json.quoteByte ::
          0x3A :: Json.quoteByte :: (Text.utf8 "B" ++ Json.quoteByte :: [0x7D])) := by
      decide +kernel
    have key : Json.resolve? (Text.utf8 "access_token") = some "access_token" := by decide +kernel
    have tokens : Json.resolve? (Text.utf8 "A") = some "A" ∧ Json.resolve? (Text.utf8 "B") = some "B" := by
      decide +kernel
    rw [bytes.1, bytes.2]
    exact .byte (by decide) (.text key key rfl (.byte (by decide) (.text tokens.1 tokens.2 (by decide +kernel) (.same _))))
  values v v' read read' := by
    have named : (Json.Value.read? (Text.utf8 (grantOf "A"))).map member? = .ok (some ("access_token", "A")) ∧
        (Json.Value.read? (Text.utf8 (grantOf "B"))).map member? = .ok (some ("access_token", "B")) := by
      decide +kernel
    rw [read_of_member? named.1 read, read_of_member? named.2 read']
    exact .named (.object (.cons (.token interchangeable) .nil))

theorem granting_twin (created : Connection.create idna fs o = (log, .ok c)) :
    Wire.Twin c (granting "A") (granting "B") where
  network := {
    request := fun _ asks asks' _ => by simp only [granting, asks.version, asks'.version, Bool.false_eq_true, if_false]
    signOn := fun {_ _ o body} _ posts _ => by
      -- The version tells the engine from the service, unless the client adds one to every request.
      have defaults : ∀ h ∈ c.tokens.client.defaults.toList, h.1 = .userAgent := by
        obtain ⟨_, _, _, own⟩ := Connection.client_of_create created
        rw [own]
        exact Connection.defaults_of_create created
      have plain : ∀ reply : Reply, reply.headers = .empty → c.tokens.client.received reply = reply := by
        intro reply empty
        have unpacked : reply.isPacked = false := by
          unfold Reply.isPacked
          rw [empty]
          rfl
        unfold Client.received Reply.unpack
        rw [unpacked]
        split <;> rfl
      simp only [granting, posts.version defaults, if_true]
      refine .answered _ rfl rfl ?_
      rw [plain _ rfl, plain _ rfl]
      refine ⟨rfl, rfl, .cons (.data (by decide +kernel)) .nil, ?_⟩
      simpa [Reply.data] using reissues_grant }
  now := rfl
  today := rfl
  sent := .nil
  log := rfl
  isOpen := rfl

def carried (w : Wire) : List (List Bytes) :=
  w.sent.map fun x => (x.request.map fun o => (o.headers.getAll .authorization).map HeaderValue.bytes).getD []

end Sample

/-- Two sessions that sign on with different passwords, get different tokens, and log the same. -/
theorem secrets_stay_hidden_two_tokens :
    Sample.signingOn.auth = .signOn ∧ Secret.Twin ⟨"p"⟩ ⟨"q"⟩ ∧ ∃ log c log' c',
      Connection.create .ascii {} (Sample.signingOn.withPassword ⟨"p"⟩) = (log, .ok c) ∧
      Connection.create .ascii {} (Sample.signingOn.withPassword ⟨"q"⟩) = (log', .ok c') ∧
      Wire.Twin c (Sample.granting "A") (Sample.granting "B") ∧
      let first := (c.play Sample.session { wire := Sample.granting "A" }).2.wire
      let second := (c'.play Sample.session { wire := Sample.granting "B" }).2.wire
      log' = log ∧ second.log = first.log ∧ first.log.length = 14 ∧
        Sample.carried first = [[], [Text.utf8 "Bearer A"], []] ∧
        Sample.carried second = [[], [Text.utf8 "Bearer B"], []] := by
  have secrets : Secret.Twin ⟨"p"⟩ ⟨"q"⟩ := by
    unfold Secret.Twin
    decide +kernel
  have first : (Connection.create .ascii {} (Sample.signingOn.withPassword ⟨"p"⟩)).2.map (fun c =>
      let w := (c.play Sample.session { wire := Sample.granting "A" }).2.wire
      (w.log.length, Sample.carried w)) = .ok (14, [[], [Text.utf8 "Bearer A"], []]) := by
    decide +kernel
  have second : (Connection.create .ascii {} (Sample.signingOn.withPassword ⟨"q"⟩)).2.map (fun c =>
      Sample.carried (c.play Sample.session { wire := Sample.granting "B" }).2.wire) =
        .ok [[], [Text.utf8 "Bearer B"], []] := by
    decide +kernel
  obtain ⟨_, logged, sessions⟩ := secrets_stay_hidden .ascii {} Sample.signingOn rfl secrets
  obtain ⟨c, made, logs⟩ := Except.map_eq_ok first
  obtain ⟨c', made', carried'⟩ := Except.map_eq_ok second
  obtain ⟨length, carried⟩ := Prod.mk.inj logs
  rw [made, made'] at sessions
  have created := Connection.create_eq_of_ok made
  have wires := Sample.granting_twin created
  have acts : List.Forall₂ (Act.Twin c) Sample.session Sample.session :=
    .cons (.call _) (.cons (.call _) (.cons .close .nil))
  cases sessions with
  | ok alike =>
    have same := ((alike _ _ wires).1 _ _ acts).2.log
    exact ⟨rfl, secrets, _, c, _, c', created, Connection.create_eq_of_ok made', wires, logged, same, length, carried, carried'⟩

end EngineClient
