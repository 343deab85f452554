import EngineClient.Proofs.Answer.Decided
import EngineClient.Proofs.Reach.Encrypted
import EngineClient.Proofs.Reach.Shown
import EngineClient.Proofs.Reach.Target

/-!
# Requests that cannot be split

Text comes into the head of a request from the options, from tickets, from answers of the sign-on service and from the
request itself. None of it can end a line there: what could is refused where it comes in, and no token that could is
ever kept.
-/

namespace EngineClient
open EngineClient.State EngineClient.Task EngineClient.Text

/-! ### What reaches the network -/

structure Outbound.Unsplit (o : Outbound) : Prop where
  target : Unbroken (utf8 o.uri.target)
  host : Unbroken (utf8 o.uri.hostHeader)
  values : ∀ h ∈ o.headers.toList, OneLine h.2.bytes

structure Tunnel.Unsplit (t : Tunnel) : Prop where
  target : Unbroken (utf8 t.target)
  value : ∀ v, t.authorization = some v → OneLine v.bytes

/-- The lines of a request and of the tunnel to it are those that are meant. -/
structure Sent.Unsplit (x : Sent) : Prop where
  request : ∀ out, x.request = some out → out.Unsplit
  tunnel : ∀ t, x.tunnel = some t → t.Unsplit

theorem Client.shown_of_outbound {c : Client} {d : Draft} (leaves : c.outbound d = .ok o) : o.uri.Shown := by
  obtain ⟨accepted, _⟩ := outbound_eq_ok leaves
  exact (Uri.shown_of_parse? (Draft.parse_of_target? accepted)).1

theorem Client.unsplit_of_delivers {c : Client} {d : Draft} (leaves : c.outbound d = .ok o) (delivers : c.Delivers o x) :
    x.Unsplit := by
  have shown := shown_of_outbound leaves
  have whole : o.Unsplit := ⟨shown.target, shown.hostHeader, fun h _ => h.2.oneLine⟩
  have tunnelled : ∀ t, c.tunnelFor o = some t → t.Unsplit := by
    intro t given
    obtain ⟨p, _, rfl⟩ := Option.map_eq_some_iff.mp given
    exact ⟨shown.hostAndNumber _, fun v _ => v.oneLine⟩
  rcases delivers with rfl | rfl
  · exact ⟨fun out carried => (by cases carried), tunnelled⟩
  · refine ⟨fun out carried => ?_, tunnelled⟩
    obtain rfl := Option.some.inj carried
    exact whole

theorem Connection.unsplit_of_leaves {c : Connection} (leaves : c.Leaves x) : x.Unsplit := by
  cases leaves with
  | request leaves delivers => exact Client.unsplit_of_delivers leaves delivers
  | token _ _ leaves delivers | revocation _ leaves delivers => exact Client.unsplit_of_delivers leaves delivers

/-! ### Texts that could end a line -/

/-- A text has a control character that is no tab, such as the end of a line or of a string. -/
def Text.Breaks (s : String) : Prop :=
  ∃ c ∈ s.toList, isControl c = true ∧ c ≠ '\t'

theorem Text.not_oneLine_of_breaks (breaks : Breaks s) : ¬ OneLine (utf8 s) := by
  obtain ⟨c, member, control, other⟩ := breaks
  have small : c.toNat < 0x20 ∨ c.toNat = 0x7F := by simpa [isControl] using control
  have inside : UInt8.ofNat c.toNat ∈ utf8 s := by
    refine List.mem_flatMap.mpr ⟨c, member, ?_⟩
    rw [utf8EncodeChar_ascii (by omega)]
    exact List.mem_singleton_self _
  have tab : c.toNat ≠ 9 := fun same => other (Char.ext (UInt32.toNat_inj.mp same))
  intro oneLine
  have allowed := oneLine _ inside
  rw [UInt8.toNat_ofNat', Nat.mod_eq_of_lt (by omega)] at allowed
  omega

namespace AccessToken

/-- A token stands in its header whole and on one line. -/
structure Sendable (t : AccessToken) : Prop where
  bearer : bearer? t.value.expose = some t.authorization
  oneLine : OneLine (utf8 t.value.expose)

theorem oneLine_of_bearer? {value : String} (bearer : bearer? value = some a) : OneLine (utf8 value) := by
  unfold bearer? at bearer
  split at bearer
  · rename_i v parsed
    have bytes := HeaderValue.bytes_of_parseBytes? parsed
    intro b member
    have oneLine := v.oneLine
    rw [bytes, utf8_append] at oneLine
    exact oneLine b (List.mem_append_right _ member)
  · cases bearer

theorem bearer?_of_breaks {value : String} (breaks : Breaks value) : bearer? value = none := by
  cases given : bearer? value with
  | none => rfl
  | some a => exact (not_oneLine_of_breaks breaks (oneLine_of_bearer? given)).elim

theorem IsIssued.sendable {t : AccessToken} (issued : t.IsIssued) : t.Sendable := by
  obtain ⟨now, text, life, issued⟩ := issued
  obtain ⟨value, bearer, _⟩ := issued?_eq_some issued
  have same : t.value.expose = text := congrArg Secret.expose value
  rw [← same] at bearer
  exact ⟨bearer, oneLine_of_bearer? bearer⟩

theorem sendable_of_given? {value : String} (given : given? value = some t) : t.Sendable := by
  obtain ⟨a, bearer, rfl⟩ := Option.map_eq_some_iff.mp given
  exact ⟨bearer, oneLine_of_bearer? bearer⟩

end AccessToken

/-! ### Answers with such a token -/

/-- No answer gives a token that could end a line; unless the answer is refused for something else, it is refused for
that. -/
theorem Answer.token_of_breaks {answer : Answer} (reads : read body = .ok answer) (named : answer.accessToken = some value)
    (breaks : Breaks value) (now : Instant) (status : Status) : ∃ e, Answer.token now status body = .error e ∧
      (status.isSuccess = true → answer.error = none →
        (∀ type ∈ answer.tokenType, sameLetters type.toList "bearer".toList = true) → e = .badAnswer .tokenNotSendable) := by
  have decoded := read_eq_ok_iff.mp reads
  have unsendable : ¬ ∃ v, HeaderValue.parse? value = .ok v := by
    rw [← AccessToken.bearer?_isSome_iff, AccessToken.bearer?_of_breaks breaks]
    exact Bool.false_ne_true
  have filled : value ≠ "" := by
    rintro rfl
    obtain ⟨c, member, _⟩ := breaks
    cases member
  rcases token_cases now status body with ⟨a, value', t, decoded', offers, _⟩ | ⟨e, refuses⟩
  · obtain rfl := Except.ok.inj ((read_eq_ok_iff.mpr decoded').symm.trans reads)
    obtain rfl := Option.some.inj (offers.token.symm.trans named)
    exact (unsendable offers.sendable).elim
  · have refused := token_of_refuses refuses now
    refine ⟨e, refused, fun success silent bearer => ?_⟩
    have typed : ∀ type, answer.tokenType = some type → lower type.toList = "bearer".toList := fun type given =>
      sameLetters_bearer_iff.mp (bearer type given)
    have last := token_of_refuses (.unsendable decoded silent success named filled typed unsendable) now
    exact Except.error.inj (refused.symm.trans last)

/-! ### Tokens that are kept -/

/-- Every flight that has brought a token has brought one that was issued. -/
def State.Vetted (s : State) : Prop :=
  ∀ g t, s.flight? g = some (.landed (.ok t)) → t.IsIssued

namespace State
variable {s s' : State}

theorem Vetted.of_flights (vetted : s.Vetted) (flights : s'.flights = s.flights) : s'.Vetted := by
  intro g t landed
  rw [flight?_of_flights flights] at landed
  exact vetted g t landed

theorem Vetted.setFlight (vetted : s.Vetted) (g : Nat) (brings : ∀ t, f = .landed (.ok t) → t.IsIssued) :
    (s.setFlight g f).Vetted := by
  intro h t landed
  rw [flight?_setFlight] at landed
  split at landed
  · obtain ⟨_, _, same⟩ := Option.map_eq_some_iff.mp landed
    exact brings t same
  · exact vetted h t landed

theorem Vetted.begin (vetted : s.Vetted) (flights : s'.flights = (g, .begun) :: s.flights) : s'.Vetted := by
  intro h t landed
  unfold flight? at landed
  rw [flights, List.lookup_cons] at landed
  split at landed
  · cases landed
  · exact vetted h t landed

theorem Vetted.acquire (vetted : s.Vetted) (margin : Span) : (s.acquire margin).2.Vetted := by
  unfold State.acquire
  split
  · exact vetted
  · exact vetted
  · exact vetted.begin rfl
  · split
    · exact vetted.begin rfl
    · exact vetted

theorem flights_settle (margin : Span) (g : Nat) (r : Except Error AccessToken) (s : State) :
    (s.settle margin g r).flights = s.flights := by
  unfold settle
  split <;> rfl

theorem flights_invalidate (g : Nat) (s : State) : (s.invalidate g).flights = s.flights := by
  unfold invalidate
  split
  · split <;> rfl
  · rfl

end State

theorem TokenCache.issued_of_tokenOf (brought : tokenOf c now reply = .ok t) : t.IsIssued := by
  unfold tokenOf at brought
  split at brought
  · cases brought
  rename_i reply'
  split at brought
  · cases brought
  rename_i body _
  cases answered : Answer.token now reply'.status body with
  | error e =>
    rw [answered] at brought
    cases brought
  | ok t' =>
    rw [answered] at brought
    cases brought
    obtain ⟨_, _, _, _, issued⟩ := Answer.token_eq_ok answered
    exact ⟨_, _, _, issued⟩

theorem TokenCache.vetted_launch (vetted : s.Vetted) (c : Client) (service : SignOn) (g : Nat) :
    (launch c service g s).Vetted := by
  unfold launch
  split
  · dsimp only
    split
    · exact Vetted.setFlight (vetted.of_flights rfl) g fun t same => by cases same
    · split
      · rename_i sent
        obtain ⟨-, rfl⟩ := Prod.mk.inj sent
        exact Vetted.setFlight (vetted.of_flights rfl) g fun t same => by cases same
      · rename_i sent
        obtain ⟨-, rfl⟩ := Prod.mk.inj sent
        exact Vetted.setFlight (vetted.of_flights rfl) g fun t same => by cases same
  · exact vetted

theorem TokenCache.vetted_land (vetted : s.Vetted) (c : Client) (g : Nat) : (land c g s).2.Vetted := by
  unfold land
  split
  · exact vetted
  · refine Vetted.setFlight (vetted.of_flights rfl) g fun t same => ?_
    exact issued_of_tokenOf (Flight.landed.inj same)
  · exact vetted

namespace Connection
variable {c : Connection} {s s' : State}

theorem Step.vetted {act : Act} (step : c.Step act s s') (vetted : s.Vetted) : s'.Vetted := by
  cases step with
  | stay | close _ | revoke _ | note e | shut | depart _ _ _ _ | arrive flight | revocation _ _ | revoked _ flight
  | outside _ => exact vetted.of_flights rfl
  | acquire signOn => exact vetted.acquire _
  | launch signOn g => exact TokenCache.vetted_launch vetted _ _ g
  | land signOn g => exact TokenCache.vetted_land vetted _ g
  | settle signOn g r => exact vetted.of_flights (flights_settle _ g r s)
  | invalidate fetched g => exact vetted.of_flights (flights_invalidate g s)

/-- The token in the slot of a connection is sendable, whatever the sign-on service has answered. -/
theorem mingle_sendable (c : Connection) (acts : Nat → Act) (w : Wire) (turns : Nat → Turn) (n : Nat) {t : AccessToken}
    (slot : ((c.mingle acts { wire := w } turns).state n).slot = .ready g t) : t.Sendable := by
  have vetted : ∀ n, ((c.mingle acts { wire := w } turns).state n).Vetted := by
    intro n
    induction n with
    | zero => exact fun _ _ landed => by cases landed
    | succ n ih =>
      rcases c.mingle_steps acts { wire := w } turns n with same | ⟨i, _, step⟩
      · rw [same]
        exact ih
      · exact step.vetted ih
  have coherent := ((c.mingle_sound acts w turns).relied (Nat.zero_le n) (Coherent.initial w)).1
  exact (vetted n g t (result?_eq_some.mp (coherent.ready slot).2)).sendable

/-! ### Requests with a broken line -/

/-- What comes of a request that the client refuses: it is announced and nothing else is done. -/
def refuses (c : Connection) (request : Request) (e : ClientError) : Task State (Except Error Response) :=
  act (State.note (c.announcement request)) fun _ => act id fun _ => done (.error (.request e))

/-- A request whose URL has a hidden character before the fragment is refused by the client whenever it is to be sent. -/
theorem send_of_hidden (c : Connection) {request : Request}
    (hidden : ¬ Avoids isHidden (Uri.beforeFragment (c.root.urlFor request))) : ∃ e,
      (∀ a, c.client.outbound (c.root.draft request a) = .error e) ∧
      (∀ a, (c.execute request a).run = c.refuses request e) ∧
      (c.send request).run = c.authorize.run.andThen fun r => match r with
        | .error e' => done (.error e')
        | .ok _ => c.refuses request e := by
  obtain ⟨e, refused, request'⟩ : ∃ e, Draft.target? c.client.settings.security (String.ofList (c.root.urlFor request)) =
      .error e ∧ Error.ofClient e = .request e := by
    unfold Draft.target?
    cases parsed : Uri.parse? (String.ofList (c.root.urlFor request)) with
    | error e => exact ⟨_, rfl, rfl⟩
    | ok uri =>
      have shown := (Uri.shown_of_parse? parsed).2
      rw [String.toList_ofList] at shown
      exact (hidden shown).elim
  have outbound : ∀ a, c.client.outbound (c.root.draft request a) = .error e := by
    intro a
    unfold Client.outbound
    rw [ApiRoot.prepare_draft, refused]
    rfl
  have execute : ∀ a, (c.execute request a).run = c.refuses request e := by
    intro a
    have sends := Client.send_of_target? (c := c.client) (d := c.root.draft request a) rfl refused
    rw [execute_run, sends, refuses, ← request']
    rfl
  refine ⟨e, outbound, execute, ?_⟩
  unfold send
  rw [Call.run_bind]
  refine congrArg (Task.andThen _) (funext fun r => ?_)
  cases r with
  | error e' => rfl
  | ok first =>
    dsimp only
    rw [Call.run_bind, execute]
    rfl

end Connection

/-! ### Options -/

namespace Options

theorem header?_of_breaks (breaks : Breaks value) : ∃ e, header? (name, value) = .error e ∧
    ∀ n, HeaderName.parse? name = .ok n → n ≠ .authorization → e = .headerValue n := by
  have unread : HeaderValue.parse? value = .error .value := by
    unfold HeaderValue.parse? HeaderValue.parseBytes?
    rw [dif_neg]
    exact fun allowed => not_oneLine_of_breaks breaks (oneLine_iff.mpr allowed)
  unfold header?
  dsimp only
  rw [unread]
  cases HeaderName.parse? name with
  | error e => exact ⟨_, rfl, fun _ same => by cases same⟩
  | ok n =>
    dsimp only
    split
    · rename_i authorization
      refine ⟨_, rfl, fun n' same other => ?_⟩
      cases same
      exact (other authorization).elim
    · refine ⟨_, rfl, fun n' same _ => ?_⟩
      cases same
      rfl

theorem credentials?_of_breaks {o : Options} {token : Secret} (given : o.token = some token) (breaks : Breaks token.expose) :
    ∃ e, o.credentials? = .error e ∧ (o.username = none → o.password = none → o.kerberos = none → o.auth = .signOn →
      e = .tokenNotSendable) := by
  have unread : AccessToken.given? token.expose = none := by
    rw [AccessToken.given?, AccessToken.bearer?_of_breaks breaks]
    rfl
  unfold credentials?
  rw [given]
  cases granted : o.passwordGrant? with
  | error e =>
    refine ⟨e, rfl, fun username password _ _ => ?_⟩
    rw [passwordGrant?, username, password] at granted
    cases granted
  | ok grant =>
    cases kerberos : o.kerberos with
    | some source =>
      refine ⟨.manyCredentials, ?_, fun _ _ none _ => by cases none⟩
      cases grant <;> rfl
    | none =>
      cases grant with
      | some pair =>
        refine ⟨.manyCredentials, rfl, fun username password _ _ => ?_⟩
        rw [passwordGrant?, username, password] at granted
        cases granted
      | none =>
        by_cases basic : o.auth = .basic
        · refine ⟨.basicWithoutPassword, ?_, fun _ _ _ signOn => ?_⟩
          · change (if o.auth = .basic then _ else _) = _
            rw [if_pos basic]
            rfl
          · cases basic.symm.trans signOn
        · refine ⟨.tokenNotSendable, ?_, fun _ _ _ _ => rfl⟩
          change (if o.auth = .basic then _ else _) = _
          rw [if_neg basic, unread]
          rfl

theorem validate_of_token {o : Options} {token : Secret} (given : o.token = some token) (breaks : Breaks token.expose) :
    ∃ e, o.validate idna = .error e ∧ (∀ u, root? idna o.url = .ok u → o.username = none → o.password = none →
      o.kerberos = none → o.auth = .signOn → e = .tokenNotSendable) := by
  obtain ⟨e, refused, sole⟩ := credentials?_of_breaks given breaks
  unfold validate
  rw [refused]
  cases root? idna o.url with
  | error e' => exact ⟨e', rfl, fun _ same => by cases same⟩
  | ok u => exact ⟨e, rfl, fun _ _ => sole⟩

theorem validate_of_header {o : Options} (member : h ∈ o.headers) (breaks : Breaks h.2) :
    ∃ e, o.validate idna = .error e := by
  cases valid : o.validate idna with
  | error e => exact ⟨e, rfl⟩
  | ok s =>
    obtain ⟨u, yields⟩ := yields_of_validate valid
    obtain ⟨e, refused, _⟩ := header?_of_breaks breaks
    obtain ⟨header, read⟩ := Except.mapM_isOk_iff.mp ⟨_, yields.headers⟩ _ member
    cases refused.symm.trans read

end Options

theorem Connection.create_of_invalid {o : Options} (refused : o.validate idna = .error e) (fs : Files) :
    create idna fs o = ([], .error (.options e)) := by
  unfold create
  rw [refused]

theorem Connection.sendable_of_create (created : create idna fs o = (log, .ok c)) (strategy : c.tokens.strategy = .token t) :
    t.Sendable := by
  obtain ⟨s, decides, same⟩ := strategy_of_create created
  rw [same] at strategy
  unfold TokenCache.ofSettings at strategy
  dsimp only at strategy
  split at strategy
  · cases strategy
  · cases strategy
  · rename_i t' credentials
    cases strategy
    rw [credentials] at decides
    cases decides with
    | token token given => exact AccessToken.sendable_of_given? given
  · cases strategy

/-- Whatever calls are made on a connection and whatever its sign-on service answers, what it hands over to the network
is unsplit, and so is the token that it keeps. A request whose URL has a hidden character before the fragment is refused
when it is to be sent; an answer with a token that breaks a line is refused, and options with such a token or header
are. Authorizations that are written in base64 are written as they are. -/
theorem requests_cannot_be_split (created : Connection.create idna fs o = (log, .ok c)) :
    (∀ acts, (∀ i, (acts i).SparesSent) → ∀ w turns n,
      (∃ handed, ((c.mingle acts { wire := w } turns).state n).wire.sent = w.sent ++ handed ∧ ∀ x ∈ handed, x.Unsplit) ∧
      ∀ g t, ((c.mingle acts { wire := w } turns).state n).slot = .ready g t → t.Sendable) ∧
    (∀ t, c.tokens.strategy = .token t → t.Sendable) ∧
    (∀ request, ¬ Avoids isHidden (Uri.beforeFragment (c.root.urlFor request)) → ∃ e,
      (∀ a, c.client.outbound (c.root.draft request a) = .error e) ∧
      (∀ a, (c.execute request a).run = c.refuses request e) ∧
      (c.send request).run = c.authorize.run.andThen fun r => match r with
        | .error e' => done (.error e')
        | .ok _ => c.refuses request e) ∧
    (∀ body answer value, Answer.read body = .ok answer → answer.accessToken = some value → Breaks value →
      ∀ now status, ∃ e, Answer.token now status body = .error e ∧ (status.isSuccess = true → answer.error = none →
        (∀ type ∈ answer.tokenType, sameLetters type.toList "bearer".toList = true) → e = .badAnswer .tokenNotSendable)) ∧
    (∀ o' : Options, ∀ token, o'.token = some token → Breaks token.expose → ∃ e,
      (∀ fs, Connection.create idna fs o' = ([], .error (.options e))) ∧
      ∀ u, Options.root? idna o'.url = .ok u → o'.username = none → o'.password = none → o'.kerberos = none →
        o'.auth = .signOn → e = .tokenNotSendable) ∧
    (∀ o' : Options, ∀ h ∈ o'.headers, Breaks h.2 →
      (∃ e, ∀ fs, Connection.create idna fs o' = ([], .error (.options e))) ∧
      ∃ e, Options.header? h = .error e ∧
        ∀ name, HeaderName.parse? h.1 = .ok name → name ≠ .authorization → e = .headerValue name) ∧
    (∀ username password, (basicAuthorization username password).bytes =
      utf8 ("Basic " ++ String.ofList (Base64.encode (utf8 (username ++ ":" ++ password))))) ∧
    ∀ ticket, (SignOn.negotiation ticket).2.bytes = utf8 ("Negotiate " ++ String.ofList (Base64.encode ticket)) := by
  refine ⟨fun acts spares w turns n => ⟨?_, fun g t slot => c.mingle_sendable acts w turns n slot⟩, ?_, ?_, ?_, ?_, ?_, ?_, ?_⟩
  · obtain ⟨handed, sent, leaves⟩ := c.mingle_sent acts spares { wire := w } turns n
    exact ⟨handed, sent, fun x member => Connection.unsplit_of_leaves (leaves x member)⟩
  · exact fun t strategy => Connection.sendable_of_create created strategy
  · exact fun request hidden => c.send_of_hidden hidden
  · exact fun body answer value reads named breaks now status => Answer.token_of_breaks reads named breaks now status
  · intro o' token given breaks
    obtain ⟨e, refused, sole⟩ := Options.validate_of_token given breaks
    exact ⟨e, Connection.create_of_invalid refused, sole⟩
  · intro o' h member breaks
    obtain ⟨e, refused⟩ := Options.validate_of_header member breaks
    exact ⟨⟨e, Connection.create_of_invalid refused⟩, Options.header?_of_breaks breaks⟩
  · intro username password
    rw [basicAuthorization, HeaderValue.bytes_markSensitive, HeaderValue.bytes_literal_base64]
    decide
  · intro ticket
    rw [SignOn.negotiation, HeaderValue.bytes_markSensitive, HeaderValue.bytes_literal_base64]
    decide

namespace Sample

/-- A path that would end the request line and begin a header. -/
def splitting : Request :=
  .get "vms\r\nX-Role: admin"

def splittingAnswer : Bytes :=
  utf8 "\x7b\"access_token\":\"t\\r\\nX-Role: admin\"\x7d"

def splittingToken : Options :=
  { url := options.url, token := some ⟨"t\u0000"⟩ }

end Sample

/-- None of the three ways in is open to a line of its own. -/
theorem no_header_is_smuggled : ∃ log c, Connection.create .ascii {} Sample.options = (log, .ok c) ∧
    (∃ e, ∀ a, c.client.outbound (c.root.draft Sample.splitting a) = .error e) ∧
    (∀ now, Answer.token now ⟨200⟩ Sample.splittingAnswer = .error (.badAnswer .tokenNotSendable)) ∧
    ∀ fs, Connection.create .ascii fs Sample.splittingToken = ([], .error (.options .tokenNotSendable)) := by
  have computed : (Connection.create .ascii {} Sample.options).2.map (fun c => c.root.urlFor Sample.splitting) =
      .ok "https://engine.example.com/ovirt-engine/api/vms\r\nX-Role: admin".toList := by
    decide +kernel
  obtain ⟨c, made, url⟩ := Except.map_eq_ok computed
  have created := Connection.create_eq_of_ok made
  obtain ⟨_, _, hidden, answers, tokens, _⟩ := requests_cannot_be_split created
  refine ⟨_, c, created, ?_, fun now => ?_, fun fs => ?_⟩
  · have broken : ¬ Avoids isHidden (Uri.beforeFragment (c.root.urlFor Sample.splitting)) := by
      rw [url]
      decide
    obtain ⟨e, outbound, _⟩ := hidden _ broken
    exact ⟨e, outbound⟩
  · have reads : Answer.read Sample.splittingAnswer = .ok { accessToken := some "t\r\nX-Role: admin" } := by decide +kernel
    have breaks : Breaks "t\r\nX-Role: admin" := ⟨'\r', by decide, by decide, by decide⟩
    obtain ⟨e, refused, sole⟩ := answers _ _ _ reads rfl breaks now ⟨200⟩
    rw [refused, sole (by decide) rfl fun _ none => by cases none]
  · have breaks : Breaks "t\u0000" := ⟨'\u0000', by decide, by decide, by decide⟩
    obtain ⟨e, refused, sole⟩ := tokens Sample.splittingToken ⟨"t\u0000"⟩ rfl breaks
    obtain ⟨u, located, _⟩ : ∃ u, Options.root? .ascii Sample.splittingToken.url = .ok u ∧ u.scheme = .https :=
      Except.map_eq_ok (f := WebUrl.scheme) (by decide +kernel)
    rw [refused fs, sole u located rfl rfl rfl rfl]

end EngineClient
