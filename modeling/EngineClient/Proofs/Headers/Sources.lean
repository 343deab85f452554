import EngineClient.Proofs.Headers.Grouped
import EngineClient.Proofs.Reach.Target
import Mathlib.Data.List.Forall2

/-!
# Headers that leave

The headers of every request that leaves a connection, in the order in which they are sent. Those of a request below the
root come from the connection, the options, the request and the credential; those of a request to the sign-on service
come from nowhere but the connection and a ticket.
-/

namespace EngineClient
open EngineClient.State EngineClient.Task

/-! ### Lists of headers -/

/-- A header that is configured as two texts, as it is read. -/
structure Configured (given : String × String) (h : Header) : Prop where
  name : HeaderName.parse? given.1 = .ok h.1
  value : HeaderValue.parse? given.2 = .ok h.2

namespace Options

/-- What a connection gives of its own: the version of the API and, unless the request has them, the media types. -/
def usual (o : Options) (request : Request) : List Header :=
  [(.version, .literal "4")]
    ++ (if request.sets .accept then [] else [(.accept, .literal o.mediaType.name)])
    ++ (if request.body.isSome && !request.sets .contentType then [(.contentType, .literal o.mediaType.name)] else [])

/-- What is written for a request below the root, one source after another. -/
def written (o : Options) (configured : List Header) (request : Request) (credential : HeaderValue) : List Header :=
  o.usual request ++ configured ++ request.headers.filter (fun h => h.1 ≠ .authorization) ++ [(.authorization, credential)]

/-- Headers and those that a client adds where they are missing. -/
def completed (o : Options) (hs : List Header) : List Header :=
  let named := HeaderMap.supplied (.userAgent, .literal "ovirtsdk/0.1.0") hs
  if o.compress then HeaderMap.supplied (.acceptEncoding, .literal "gzip") named else named

theorem configured_of_header? (read : header? given = .ok h) : Configured given h := by
  unfold header? at read
  split at read
  · cases read
  · rename_i name named
    split at read
    · cases read
    · split at read
      · cases read
      · rename_i value valued
        cases read
        exact ⟨named, valued⟩

theorem filter_completed (o : Options) {n : HeaderName} (other : n ≠ .userAgent) (other' : n ≠ .acceptEncoding)
    (hs : List Header) : ((o.completed hs).filter fun h => h.1 = n) = hs.filter fun h => h.1 = n := by
  unfold completed
  dsimp only
  split
  · rw [HeaderMap.filter_supplied (Ne.symm other'), HeaderMap.filter_supplied (Ne.symm other)]
  · exact HeaderMap.filter_supplied (Ne.symm other) hs

theorem configured_of_mapM {given : List (String × String)} {configured : List Header}
    (read : given.mapM header? = .ok configured) : List.Forall₂ Configured given configured := by
  induction given generalizing configured with
  | nil =>
    cases read
    exact .nil
  | cons g given ih =>
    rw [List.mapM_cons] at read
    obtain ⟨h, first, read⟩ := Except.bind_eq_ok read
    obtain ⟨hs, rest, read⟩ := Except.bind_eq_ok read
    cases read
    exact .cons (configured_of_header? first) (ih rest)

end Options

namespace SignOn

/-- What is written for a request to the sign-on service. -/
def written (proof : List Header) : List Header :=
  [(.contentType, .literal "application/x-www-form-urlencoded"), (.accept, .literal "application/json")] ++ proof

/-- The headers that prove to the sign-on service who asks for a token: none for a password, which stands in the form,
or one with a ticket. -/
inductive Proves (s : SignOn) : List Header → Prop
  | password (grant : s.grant = .password username password) : Proves s []
  | ticket {before : List String} (grant : s.grant = .kerberos source)
    (given : source.ticket before s.tokenUrl = .ok ticket) : Proves s [negotiation ticket]

theorem allHeaders_tokenDraft {s : SignOn} {before : List String} (drafted : s.tokenDraft before = .ok d) :
    ∃ proof, s.Proves proof ∧ d.allHeaders = written proof ∧ ((written proof).map Prod.fst).Nodup := by
  unfold tokenDraft at drafted
  split at drafted
  · rename_i username password grant
    cases drafted
    exact ⟨[], .password grant, allHeaders_formDraft rfl, by decide⟩
  · rename_i source grant
    split at drafted
    · cases drafted
    · rename_i ticket given
      cases drafted
      refine ⟨_, .ticket grant given, allHeaders_formDraft rfl, ?_⟩
      show [HeaderName.contentType, .accept, .authorization].Nodup
      decide

theorem allHeaders_revokeDraft (s : SignOn) (token : AccessToken) : (s.revokeDraft token).allHeaders = written [] :=
  allHeaders_formDraft rfl

end SignOn

/-! ### What a client adds -/

theorem Client.toList_outgoingHeaders {c : Client} (defaults : c.defaults = HeaderMap.empty.insert .userAgent agent)
    {m : HeaderMap} (filled : m.Filled) : (c.outgoingHeaders m).toList =
      let named := HeaderMap.supplied (.userAgent, agent) m.toList
      if c.settings.compression then HeaderMap.supplied (.acceptEncoding, gzipCoding) named else named := by
  have applied : DefaultHeaders.apply c.defaults m = if m.contains .userAgent then m else m.append .userAgent agent := by
    have single : c.defaults.toList = [(.userAgent, agent)] := by rw [defaults]; rfl
    rw [DefaultHeaders.apply, single]
    cases known : m.contains .userAgent <;> simp [known, HeaderMap.appendAll]
  have filled' : (DefaultHeaders.apply c.defaults m).Filled := by
    rw [applied]
    split
    · exact filled
    · exact filled.append _ _
  have inserted : ∀ {m : HeaderMap}, (if !m.contains .acceptEncoding then m.insert .acceptEncoding gzipCoding else m) =
      if m.contains .acceptEncoding then m else m.append .acceptEncoding gzipCoding := by
    intro m
    cases known : m.contains .acceptEncoding with
    | true => rfl
    | false => exact HeaderMap.insert_of_new known _
  unfold outgoingHeaders
  dsimp only
  cases c.settings.compression with
  | false => rw [← filled.toList_append_missing, ← applied]; rfl
  | true =>
    rw [Bool.true_and, inserted, filled'.toList_append_missing, applied, filled.toList_append_missing]
    rfl

/-! ### What leaves a connection -/

namespace Connection

section Created
variable (created : create idna fs o = (log, .ok c))
include created

theorem toList_of_outbound (leaves : c.client.outbound d = .ok out) :
    out.headers.toList = o.completed (HeaderMap.grouped d.allHeaders) := by
  obtain ⟨_, _, headers, _⟩ := Client.outbound_eq_ok leaves
  obtain ⟨u, _, settings, _⟩ := client_of_create created
  have compression : c.client.settings.compression = o.compress := by rw [settings]; rfl
  rw [headers, Client.toList_outgoingHeaders (defaults_eq_of_create created) (HeaderMap.filled_ofList _),
    HeaderMap.toList_ofList, compression]
  have coding : gzipCoding = .literal "gzip" := rfl
  rw [coding]
  rfl

theorem configured_of_create : List.Forall₂ Configured o.headers c.root.headers ∧ c.root.mediaType = o.mediaType := by
  obtain ⟨s, u, yields, _, _, made⟩ := yields_of_create created
  rw [made]
  exact ⟨Options.configured_of_mapM yields.headers, yields.mediaType⟩

theorem headersFor_of_create (request : Request) (a : HeaderValue) :
    c.root.headersFor request a = o.written c.root.headers request a := by
  have media : c.root.mediaTypeValue = .literal o.mediaType.name := by
    rw [ApiRoot.mediaTypeValue, (configured_of_create created).2]
  rw [ApiRoot.headersFor, media]
  rfl

/-- The token cache of a connection does not depend on the headers that are configured. -/
theorem tokens_of_create (created' : create idna fs { o with headers := headers } = (log', .ok c')) : c'.tokens = c.tokens := by
  obtain ⟨s, u, yields, _, built, made⟩ := yields_of_create created
  obtain ⟨s', u', yields', _, built', made'⟩ := yields_of_create created'
  obtain rfl : u = u' := Except.ok.inj (yields.located.symm.trans yields'.located)
  have credentials : s'.credentials = s.credentials :=
    Except.ok.inj (yields'.credentials.symm.trans yields.credentials)
  have tokenUrl : s'.tokenUrl = s.tokenUrl := by
    have read := yields'.tokenUrl
    rw [credentials] at read
    exact Except.ok.inj (read.symm.trans yields.tokenUrl)
  have revokeUrl : s'.revokeUrl = s.revokeUrl := Except.ok.inj (yields'.revokeUrl.symm.trans yields.revokeUrl)
  have settings : s'.client = s.client := yields'.client.trans yields.client.symm
  have client : c'.client = c.client := by
    rw [settings] at built'
    exact Except.ok.inj (built'.symm.trans built)
  have margin : s'.expiryMargin = s.expiryMargin := yields'.expiryMargin.trans yields.expiryMargin.symm
  rw [made, made']
  simp only [ofParts, TokenCache.ofSettings, credentials, tokenUrl, revokeUrl, client, margin]

end Created

/-! ### Runs -/

/-- A request that acts hand over: one below the root that is called for, or one to the sign-on service. -/
inductive Dispatches (c : Connection) (o : Options) (acts : Nat → Act) (out : Outbound) : Prop
  | request (calls : acts i = .call entry) (aims : entry.aim c = .response request)
    (given : ∀ fixed, c.tokens.strategy.fixed? = some fixed → credential = fixed)
    (leaves : c.client.outbound (c.root.draft request credential) = .ok out) : Dispatches c o acts out
  | token (signOn : c.tokens.strategy = .signOn service) (proves : service.Proves proof)
    (headers : out.headers.toList = o.completed (SignOn.written proof)) : Dispatches c o acts out
  | revocation (signOn : c.tokens.strategy = .signOn service)
    (headers : out.headers.toList = o.completed (SignOn.written [])) : Dispatches c o acts out

theorem dispatches_of_hands {client : Client} {kind : Outbound → Prop} (hands : client.HandsAtMost d w w')
    (leaves : ∀ out, client.outbound d = .ok out → kind out) : w'.sent = w.sent ∨
      ∃ x : Sent, (∀ out, x.request = some out → kind out) ∧ w'.sent = w.sent ++ [x] := by
  rcases hands with quiet | ⟨out, x, outbound, delivers, sent⟩
  · exact .inl quiet
  · refine .inr ⟨x, fun out' carried => ?_, sent⟩
    rcases delivers with rfl | rfl
    · cases carried
    · obtain rfl := Option.some.inj carried
      exact leaves out outbound

theorem Step.dispatches {acts : Nat → Act} (created : create idna fs o = (log, .ok c)) (step : c.Step (acts i) s s')
    (spares : (acts i).SparesSent) : s'.wire.sent = s.wire.sent ∨
      ∃ x, (∀ out, x.request = some out → c.Dispatches o acts out) ∧ s'.wire.sent = s.wire.sent ++ [x] := by
  obtain ⟨_, _, _, client⟩ := client_of_create created
  generalize same : acts i = act at step spares
  cases step with
  | stay | close _ | revoke _ | note e => exact .inl rfl
  | shut => exact .inl (Client.sent_shut s.wire)
  | acquire signOn => exact .inl (sent_acquire _ s)
  | land signOn g => exact .inl (sent_land _ g s)
  | settle signOn g r => exact .inl (sent_settle _ g r s)
  | invalidate fetched g => exact .inl (sent_invalidate g s)
  | arrive flight => exact .inl (c.client.sent_arrive flight s.wire)
  | revoked signOn flight => exact .inl (c.tokens.client.sent_arrive flight s.wire)
  | outside changes =>
    subst changes
    exact .inl (spares s.wire)
  | depart calls aims leaves given =>
    refine dispatches_of_hands (Client.depart_hands leaves s.wire) fun out outbound => ?_
    exact .request (same.trans calls) aims given outbound
  | launch signOn g =>
    rcases TokenCache.launch_drafts c.tokens.client _ g s with quiet | ⟨_, d, drafted, hands⟩
    · exact .inl quiet
    · obtain ⟨proof, proves, written, nodup⟩ := SignOn.allHeaders_tokenDraft drafted
      refine dispatches_of_hands hands fun out outbound => .token signOn proves ?_
      rw [client] at outbound
      rw [toList_of_outbound created outbound, written, HeaderMap.grouped_of_nodup nodup]
  | revocation signOn leaves =>
    refine dispatches_of_hands (Client.depart_hands leaves s.wire) fun out outbound => .revocation signOn ?_
    rw [client] at outbound
    rw [toList_of_outbound created outbound, SignOn.allHeaders_revokeDraft, HeaderMap.grouped_of_nodup (by decide)]

theorem mingle_dispatches (created : create idna fs o = (log, .ok c)) (acts : Nat → Act) (spares : ∀ i, (acts i).SparesSent)
    (w : Wire) (turns : Nat → Turn) (n : Nat) : ∃ handed,
      ((c.mingle acts { wire := w } turns).state n).wire.sent = w.sent ++ handed ∧
      ∀ x ∈ handed, ∀ out, x.request = some out → c.Dispatches o acts out := by
  refine Run.handed_of_turns (r := c.mingle acts { wire := w } turns) (fun n => ?_) n
  rcases c.mingle_steps acts { wire := w } turns n with same | ⟨i, _, step⟩
  · exact .inl (by rw [same])
  · exact step.dispatches created (spares i)

end Connection

/-- The headers of a request below the root come from six sources, in a fixed order, and are grouped by name; then the
client adds what is missing. One of them is the authorization, that of the credential, whatever is configured and
whatever the request has. Requests to the sign-on service have headers of their own, and nothing about them depends on
those that are configured. -/
theorem headers_by_source (created : Connection.create idna fs o = (log, .ok c)) :
    List.Forall₂ Configured o.headers c.root.headers ∧
    (∀ request credential out, c.client.outbound (c.root.draft request credential) = .ok out →
      out.headers.toList = o.completed (HeaderMap.grouped (o.written c.root.headers request credential)) ∧
      (out.headers.toList.filter fun h => h.1 = .authorization) = [(.authorization, credential)]) ∧
    (∀ acts, (∀ i, (acts i).SparesSent) → ∀ w turns n, ∃ handed,
      ((c.mingle acts { wire := w } turns).state n).wire.sent = w.sent ++ handed ∧
      ∀ x ∈ handed, ∀ out, x.request = some out → c.Dispatches o acts out) ∧
    ∀ headers log' c', Connection.create idna fs { o with headers } = (log', .ok c') → c'.tokens = c.tokens := by
  refine ⟨(Connection.configured_of_create created).1, fun request credential out leaves => ?_, ?_, ?_⟩
  · have list := Connection.toList_of_outbound created leaves
    rw [c.root.allHeaders_draft] at list
    refine ⟨by rw [list, Connection.headersFor_of_create created], ?_⟩
    rw [list, o.filter_completed (by decide) (by decide), HeaderMap.filter_grouped]
    exact c.root.authorization_headersFor request credential (Connection.headers_of_create created)
  · exact fun acts spares w turns n => Connection.mingle_dispatches created acts spares w turns n
  · exact fun headers log' c' created' => Connection.tokens_of_create created created'

namespace Sample

def role : HeaderName :=
  ⟨"x-role".toList, by decide +kernel⟩

/-- A name is configured twice, in two spellings, and a media type once, in capitals. -/
def demanding : Options :=
  { options with headers := [("X-Role", "a"), ("ACCEPT", "application/json"), ("x-role", "b")], compress := true }

/-- A request that comes with an authorization of its own. -/
def forging : Request :=
  { Request.post "vms" with
    body := some (Text.utf8 "<vm/>")
    headers := [(.authorization, .literal "Basic eDp5"), (role, .literal "c")] }

def bearer : HeaderValue :=
  .literal "Bearer A"

/-- A call that comes with the forged request, again and again. -/
def forgeries (_ : Nat) : Act :=
  .call (.send forging)

end Sample

/-- Values of a name come together where it is first configured, and the authorization of the request is left out. -/
theorem headers_by_source_forged : ∃ log c, Connection.create .ascii {} Sample.demanding = (log, .ok c) ∧
    (∃ out, c.client.outbound (c.root.draft Sample.forging Sample.bearer) = .ok out ∧
      out.headers.toList = [(.version, .literal "4"), (.accept, .literal "application/xml"),
        (.accept, .literal "application/json"), (.contentType, .literal "application/xml"), (Sample.role, .literal "a"),
        (Sample.role, .literal "b"), (Sample.role, .literal "c"), (.authorization, Sample.bearer),
        (.userAgent, .literal "ovirtsdk/0.1.0"), (.acceptEncoding, .literal "gzip")]) ∧
    (∃ token request, ((c.mingle Sample.forgeries { wire := Sample.wire } (Sample.turns [])).state 12).wire.sent =
        [token, request] ∧
      ∀ x ∈ [token, request], ∀ out, x.request = some out → c.Dispatches Sample.demanding Sample.forgeries out) ∧
    ∃ log' c', Connection.create .ascii {} { Sample.demanding with headers := [] } = (log', .ok c') ∧ c'.tokens = c.tokens := by
  have computed : (Connection.create .ascii {} Sample.demanding).2.map (fun c =>
      (c.root.headers, (c.client.outbound (c.root.draft Sample.forging Sample.bearer)).toBool,
        ((c.mingle Sample.forgeries { wire := Sample.wire } (Sample.turns [])).state 12).wire.sent.length)) =
      .ok ([(Sample.role, .literal "a"), (.accept, .literal "application/json"), (Sample.role, .literal "b")], true, 2) := by
    decide +kernel
  obtain ⟨c, made, values⟩ := Except.map_eq_ok computed
  obtain ⟨headers, rest⟩ := Prod.mk.inj values
  obtain ⟨accepted, length⟩ := Prod.mk.inj rest
  obtain ⟨plain, made', _⟩ : ∃ c', (Connection.create .ascii {} { Sample.demanding with headers := [] }).2 = .ok c' ∧
      c'.root.headers = [] := Except.map_eq_ok (f := fun c' : Connection => c'.root.headers) (by decide +kernel)
  have created := Connection.create_eq_of_ok made
  have created' := Connection.create_eq_of_ok made'
  obtain ⟨_, requests, runs, apart⟩ := headers_by_source created
  refine ⟨_, c, created, ?_, ?_, _, plain, created', ?_⟩
  · obtain ⟨out, leaves⟩ := Except.exists_of_toBool accepted
    refine ⟨out, leaves, ?_⟩
    rw [(requests _ _ _ leaves).1, headers]
    decide +kernel
  · obtain ⟨handed, sent, all⟩ := runs Sample.forgeries (fun _ => trivial) Sample.wire (Sample.turns []) 12
    rw [sent] at length ⊢
    obtain ⟨token, request, both⟩ := List.length_eq_two.mp length
    exact ⟨token, request, both, by rw [← both]; exact all⟩
  · exact apart [] _ _ created'

end EngineClient
