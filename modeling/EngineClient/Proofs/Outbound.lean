import EngineClient.Api.Connection
import EngineClient.Proofs.Sending

/-!
# What leaves for a request

The request that a draft becomes when it leaves. Drafts of one request for two credentials differ in nothing but the
authorization, up to the last header.
-/

namespace EngineClient

theorem Except.bind_eq_ok {x : Except ε α} {f : α → Except ε β} (h : (x >>= f) = .ok b) :
    ∃ a, x = .ok a ∧ f a = .ok b := by
  cases x with
  | error e => cases h
  | ok a => exact ⟨a, rfl, h⟩

theorem Except.map_eq_ok {x : Except ε α} {f : α → β} (h : x.map f = .ok b) : ∃ a, x = .ok a ∧ f a = b := by
  cases x with
  | error e => cases h
  | ok a => exact ⟨a, rfl, Except.ok.inj h⟩

theorem Except.exists_of_toBool {x : Except ε α} (h : x.toBool = true) : ∃ a, x = .ok a := by
  cases x with
  | error e => cases h
  | ok a => exact ⟨a, rfl⟩

theorem Except.bind_isOk_iff {x : Except ε α} {f : α → Except ε β} :
    (∃ b, (x >>= f) = .ok b) ↔ ∃ a, x = .ok a ∧ ∃ b, f a = .ok b := by
  constructor
  · rintro ⟨b, h⟩
    obtain ⟨a, first, rest⟩ := Except.bind_eq_ok h
    exact ⟨a, first, b, rest⟩
  · rintro ⟨a, rfl, b, rest⟩
    exact ⟨b, rest⟩

theorem Except.map_isOk_iff {x : Except ε α} {f : α → β} : (∃ b, x.map f = .ok b) ↔ ∃ a, x = .ok a := by
  cases x <;> simp [Except.map]

theorem Except.mapError_isOk_iff {x : Except ε α} {f : ε → δ} : (∃ a, x.mapError f = .ok a) ↔ ∃ a, x = .ok a := by
  cases x <;> simp [Except.mapError]

/-! ### Header maps but for one name -/

namespace HeaderMap

theorem names_appendTo (n : HeaderName) (v : HeaderValue) (gs : List (HeaderName × List HeaderValue)) :
    (appendTo n v gs).map Prod.fst =
      if n ∈ gs.map Prod.fst then gs.map Prod.fst else gs.map Prod.fst ++ [n] := by
  induction gs with
  | nil => simp [appendTo]
  | cons g r ih =>
    by_cases same : g.1 = n
    · simp [appendTo, same]
    · by_cases later : n ∈ r.map Prod.fst <;> simp_all [appendTo, Ne.symm same]

theorem names_insertTo (n : HeaderName) (v : HeaderValue) (gs : List (HeaderName × List HeaderValue)) :
    (insertTo n v gs).map Prod.fst =
      if n ∈ gs.map Prod.fst then gs.map Prod.fst else gs.map Prod.fst ++ [n] := by
  induction gs with
  | nil => simp [insertTo]
  | cons g r ih =>
    by_cases same : g.1 = n
    · simp [insertTo, same]
    · by_cases later : n ∈ r.map Prod.fst <;> simp_all [insertTo, Ne.symm same]

theorem valuesIn_insertTo (n k : HeaderName) (v : HeaderValue) (gs : List (HeaderName × List HeaderValue)) :
    valuesIn k (insertTo n v gs) = if k = n then [v] else valuesIn k gs := by
  induction gs with
  | nil => by_cases same : n = k <;> simp [insertTo, valuesIn, same, eq_comm]
  | cons g r ih =>
    by_cases here : g.1 = n
    · by_cases same : n = k
      · simp [insertTo, valuesIn, here, same]
      · simp [insertTo, valuesIn, here, same, Ne.symm same]
    · by_cases asked : g.1 = k
      · have other : ¬ k = n := fun e => here (asked.trans e)
        simp [insertTo, valuesIn, asked, other]
      · simp [insertTo, valuesIn, here, asked, ih]

/-- Two maps have the same names in the same order, and the same values of all names but one. -/
structure SameBut (n : HeaderName) (a b : HeaderMap) : Prop where
  names : a.names = b.names
  values : ∀ k, k ≠ n → a.getAll k = b.getAll k

variable {a b : HeaderMap} {n : HeaderName}

theorem SameBut.refl (n : HeaderName) (a : HeaderMap) : SameBut n a a :=
  ⟨rfl, fun _ _ => rfl⟩

theorem SameBut.append (same : SameBut n a b) (k : HeaderName) (v v' : HeaderValue) (values : k ≠ n → v = v') :
    SameBut n (a.append k v) (b.append k v') where
  names := by
    have names := same.names
    simp only [HeaderMap.names, HeaderMap.append, names_appendTo] at names ⊢
    rw [names]
  values := by
    intro k' other
    rw [getAll_append, getAll_append, same.values k' other]
    by_cases found : k' = k
    · rw [if_pos found, if_pos found, values (found ▸ other)]
    · rw [if_neg found, if_neg found]

theorem SameBut.appendAll (same : SameBut n a b) (hs : List Header) : SameBut n (a.appendAll hs) (b.appendAll hs) := by
  induction hs generalizing a b with
  | nil => exact same
  | cons h hs ih => exact ih (same.append h.1 h.2 h.2 fun _ => rfl)

theorem SameBut.insert (same : SameBut n a b) (k : HeaderName) (v : HeaderValue) :
    SameBut n (a.insert k v) (b.insert k v) where
  names := by
    have names := same.names
    simp only [HeaderMap.names, HeaderMap.insert, names_insertTo] at names ⊢
    rw [names]
  values := by
    intro k' other
    have values := same.values k' other
    simp only [getAll, HeaderMap.insert, valuesIn_insertTo] at values ⊢
    rw [values]

theorem SameBut.contains (same : SameBut n a b) (k : HeaderName) : a.contains k = b.contains k := by
  simp only [HeaderMap.contains, same.names]

theorem SameBut.length_groups (same : SameBut n a b) : a.groups.length = b.groups.length := by
  have names := congrArg List.length same.names
  simpa [HeaderMap.names] using names

theorem SameBut.apply (same : SameBut n a b) (defaults : HeaderMap) :
    SameBut n (DefaultHeaders.apply defaults a) (DefaultHeaders.apply defaults b) := by
  have missing : (fun h : Header => !a.contains h.1) = fun h => !b.contains h.1 := by
    funext h
    rw [same.contains]
  unfold DefaultHeaders.apply
  rw [missing]
  exact same.appendAll _

theorem getAll_appendAll (m : HeaderMap) (hs : List Header) (k : HeaderName) :
    (m.appendAll hs).getAll k = m.getAll k ++ (hs.filter fun h => h.1 = k).map Prod.snd := by
  induction hs generalizing m with
  | nil => simp [appendAll]
  | cons h hs ih =>
    have rest : (m.appendAll (h :: hs)).getAll k = ((m.append h.1 h.2).appendAll hs).getAll k := rfl
    rw [rest, ih, getAll_append]
    by_cases found : h.1 = k
    · simp [found]
    · simp [found, Ne.symm found]

theorem contains_of_getAll {m : HeaderMap} (given : v ∈ m.getAll k) : m.contains k = true := by
  obtain ⟨groups⟩ := m
  simp only [HeaderMap.contains, HeaderMap.names, getAll] at given ⊢
  induction groups with
  | nil => cases given
  | cons g r ih =>
    unfold valuesIn at given
    split at given
    · rename_i found
      simp [found]
    · have later := ih given
      simp_all

theorem sameBut_ofList (hs : List Header) (n : HeaderName) (v v' : HeaderValue) :
    SameBut n (ofList (hs ++ [(n, v)])) (ofList (hs ++ [(n, v')])) := by
  simp only [ofList, appendAll, List.foldl_append]
  exact (SameBut.refl n _).append n v v' fun other => (other rfl).elim

theorem sameBut_ofListWithin (hs : List Header) (n : HeaderName) (v v' : HeaderValue) :
    (ofListWithin? (hs ++ [(n, v)]) = none ∧ ofListWithin? (hs ++ [(n, v')]) = none) ∨
    ∃ m m', ofListWithin? (hs ++ [(n, v)]) = some m ∧ ofListWithin? (hs ++ [(n, v')]) = some m' ∧ SameBut n m m' := by
  have same := sameBut_ofList hs n v v'
  have length : (hs ++ [(n, v')]).length = (hs ++ [(n, v)]).length := by simp
  unfold ofListWithin?
  rw [length]
  split
  · exact .inr ⟨_, _, rfl, rfl, same⟩
  · dsimp only
    rw [same.length_groups]
    split
    · exact .inr ⟨_, _, rfl, rfl, same⟩
    · exact .inl ⟨rfl, rfl⟩

end HeaderMap

/-! ### What leaves -/

structure Outbound.SameBut (n : HeaderName) (a b : Outbound) : Prop where
  method : a.method = b.method
  uri : a.uri = b.uri
  body : a.body = b.body
  headers : a.headers.SameBut n b.headers

theorem Client.sameBut_outgoingHeaders {a b : HeaderMap} (same : HeaderMap.SameBut n a b) (c : Client) :
    HeaderMap.SameBut n (c.outgoingHeaders a) (c.outgoingHeaders b) := by
  have applied := same.apply c.defaults
  unfold outgoingHeaders
  dsimp only
  rw [applied.contains]
  split
  · exact applied.insert _ _
  · exact applied

theorem HeaderMap.ofList_of_within (within : ofListWithin? hs = some m) : m = ofList hs := by
  unfold ofListWithin? at within
  split at within
  · cases within
    rfl
  · dsimp only at within
    split at within
    · cases within
      rfl
    · cases within

/-- The request that leaves for a draft, unless a check fails. -/
def Client.outbound (c : Client) (d : Draft) : Except ClientError Outbound :=
  (d.prepare c.settings.security).map c.outgoing

theorem Client.outbound_eq_ok {c : Client} {d : Draft} (leaves : c.outbound d = .ok o) :
    Draft.target? c.settings.security d.url = .ok o.uri ∧ o.method = d.method ∧
      o.headers = c.outgoingHeaders (.ofList d.allHeaders) ∧ o.body = d.body.contents := by
  unfold outbound Draft.prepare at leaves
  cases spoiled : d.spoiled with
  | some e =>
    rw [spoiled] at leaves
    cases leaves
  | none =>
    rw [spoiled] at leaves
    cases accepted : Draft.target? c.settings.security d.url with
    | error e =>
      rw [accepted] at leaves
      cases leaves
    | ok uri =>
      rw [accepted] at leaves
      cases within : HeaderMap.ofListWithin? d.allHeaders with
      | none =>
        rw [within] at leaves
        cases leaves
      | some headers =>
        rw [within] at leaves
        obtain rfl := (Except.ok.inj leaves).symm
        exact ⟨rfl, rfl, by rw [← HeaderMap.ofList_of_within within]; rfl, rfl⟩

theorem ApiRoot.allHeaders_draft (root : ApiRoot) (request : Request) (a : HeaderValue) :
    (root.draft request a).allHeaders = root.headersFor request a := by
  unfold Draft.allHeaders draft
  cases request.body <;> rfl

theorem ApiRoot.prepare_draft (security : Security) (root : ApiRoot) (request : Request) (a : HeaderValue) :
    (root.draft request a).prepare security = match Draft.target? security (String.ofList (root.urlFor request)) with
      | .error e => .error e
      | .ok uri =>
        match HeaderMap.ofListWithin? (root.headersFor request a) with
        | some headers => .ok { method := request.method, uri, headers, body := request.body.getD [] }
        | none => .error (.build .tooManyHeaders) := by
  have body : (root.draft request a).body.contents = request.body.getD [] := by
    unfold ApiRoot.draft
    cases request.body <;> rfl
  unfold Draft.prepare
  rw [root.allHeaders_draft, body]
  have url : (root.draft request a).url = String.ofList (root.urlFor request) := rfl
  rw [url]
  cases Draft.target? security (String.ofList (root.urlFor request)) with
  | error e => rfl
  | ok uri => cases HeaderMap.ofListWithin? (root.headersFor request a) <;> rfl

theorem Client.sameBut_outbound (c : Client) (root : ApiRoot) (request : Request) (a b : HeaderValue) :
    (∃ e, c.outbound (root.draft request a) = .error e ∧ c.outbound (root.draft request b) = .error e) ∨
    ∃ o o', c.outbound (root.draft request a) = .ok o ∧ c.outbound (root.draft request b) = .ok o' ∧
      o.SameBut .authorization o' := by
  unfold outbound
  rw [root.prepare_draft, root.prepare_draft]
  cases Draft.target? c.settings.security (String.ofList (root.urlFor request)) with
  | error e => exact .inl ⟨e, rfl, rfl⟩
  | ok uri =>
    unfold ApiRoot.headersFor
    rcases HeaderMap.sameBut_ofListWithin _ .authorization a b with ⟨none, none'⟩ | ⟨m, m', some, some', same⟩
    · rw [none, none']
      exact .inl ⟨_, rfl, rfl⟩
    · rw [some, some']
      exact .inr ⟨_, _, rfl, rfl, rfl, rfl, rfl, c.sameBut_outgoingHeaders same⟩

/-! ### The authorization that leaves -/

theorem Text.utf8_append (s t : String) : utf8 (s ++ t) = utf8 s ++ utf8 t := by
  simp [utf8, encode, String.toList_append]

/-- A token can be sent exactly if it is a header value on its own. -/
theorem AccessToken.bearer?_isSome_iff {value : String} :
    (bearer? value).isSome = true ↔ ∃ v, HeaderValue.parse? value = .ok v := by
  have word : (Text.utf8 "Bearer ").all isValueByte = true := by decide
  have whole : (∃ v, HeaderValue.parse? ("Bearer " ++ value) = .ok v) ↔ ∃ v, HeaderValue.parse? value = .ok v := by
    rw [HeaderValue.parse?, HeaderValue.parse?, HeaderValue.parseBytes?_isOk_iff, HeaderValue.parseBytes?_isOk_iff,
      Text.utf8_append, List.all_append, word, Bool.true_and]
  rw [← whole, bearer?]
  cases HeaderValue.parse? ("Bearer " ++ value) <;> simp

theorem ApiRoot.authorization_headersFor (root : ApiRoot) (request : Request) (a : HeaderValue)
    (plain : ∀ h ∈ root.headers, h.1 ≠ .authorization) :
    ((root.headersFor request a).filter fun h => h.1 = .authorization) = [(.authorization, a)] := by
  have configured : root.headers.filter (fun h => h.1 = .authorization) = [] := by
    simpa using plain
  have version : ¬ HeaderName.version = .authorization := by decide
  have accept : ¬ HeaderName.accept = .authorization := by decide
  have contentType : ¬ HeaderName.contentType = .authorization := by decide
  have own : (request.headers.filter fun h => h.1 ≠ .authorization).filter (fun h => h.1 = .authorization) = [] := by
    simp
  unfold headersFor
  simp only [List.filter_append, configured, own]
  split <;> split <;> simp [version, accept, contentType]

/-- What a request has of a header leaves unchanged, unless the header is about compression or a client adds it. -/
theorem Client.getAll_outgoingHeaders (c : Client) {m : HeaderMap} {k : HeaderName}
    (kept : ∀ h ∈ c.defaults.toList, h.1 = k → m.contains k = true) (other : k ≠ .acceptEncoding) :
    (c.outgoingHeaders m).getAll k = m.getAll k := by
  have applied : (DefaultHeaders.apply c.defaults m).getAll k = m.getAll k := by
    have none : (c.defaults.toList.filter fun h => !m.contains h.1).filter (fun h => h.1 = k) = [] := by
      simp only [List.filter_eq_nil_iff, List.mem_filter]
      rintro h ⟨member, absent⟩ same
      simp only [decide_eq_true_eq] at same
      rw [same, kept h member same] at absent
      cases absent
    rw [DefaultHeaders.apply, HeaderMap.getAll_appendAll, none]
    simp
  unfold outgoingHeaders
  dsimp only
  split
  · rw [← applied]
    simp only [HeaderMap.getAll, HeaderMap.insert, HeaderMap.valuesIn_insertTo, if_neg other]
  · exact applied

theorem HeaderMap.getAll_ofList (hs : List Header) (k : HeaderName) :
    (ofList hs).getAll k = (hs.filter fun h => h.1 = k).map Prod.snd := by
  rw [ofList, getAll_appendAll]
  rfl

/-- One authorization leaves with a request, the one that it is made with, if none is configured. -/
theorem Client.authorization_outbound (c : Client) {root : ApiRoot}
    (plain : ∀ h ∈ root.headers, h.1 ≠ .authorization) (leaves : c.outbound (root.draft request a) = .ok o) :
    o.headers.getAll .authorization = [a] := by
  obtain ⟨_, _, headers, _⟩ := outbound_eq_ok leaves
  have own : (HeaderMap.ofList (root.draft request a).allHeaders).getAll .authorization = [a] := by
    rw [HeaderMap.getAll_ofList, root.allHeaders_draft, root.authorization_headersFor request a plain]
    rfl
  have present := HeaderMap.contains_of_getAll (v := a) (by rw [own]; exact List.mem_singleton_self a)
  rw [headers, ← own]
  exact c.getAll_outgoingHeaders (fun _ _ _ => present) (by decide)

/-! ### Configured headers -/

theorem Client.build_eq_ok {settings : ClientSettings} (built : build fs settings = .ok c) :
    c.settings = settings ∧ DefaultHeaders.ofSettings settings.userAgent settings.defaultHeaders = .ok c.defaults := by
  have mapped : ∀ {x : Except HeaderError HeaderMap} {m}, x.mapError ClientError.ofHeader = .ok m → x = .ok m := by
    intro x m same
    cases x with
    | error e => cases same
    | ok m' => exact congrArg Except.ok (Except.ok.inj same)
  unfold build at built
  dsimp only at built
  -- Trust and the proxy say nothing about the headers, whichever they are.
  split at built <;> obtain ⟨_, _, built⟩ := Except.bind_eq_ok built <;>
    obtain ⟨defaults, headers, built⟩ := Except.bind_eq_ok built <;> split at built <;>
    obtain ⟨_, _, built⟩ := Except.bind_eq_ok built <;> obtain rfl := (Except.ok.inj built).symm <;>
    exact ⟨rfl, mapped headers⟩

theorem Except.mem_of_mapM {f : α → Except ε β} {xs : List α} {ys : List β} (h : xs.mapM f = .ok ys) (member : y ∈ ys) :
    ∃ x, f x = .ok y := by
  induction xs generalizing ys with
  | nil =>
    cases h
    cases member
  | cons x xs ih =>
    rw [List.mapM_cons] at h
    obtain ⟨y', first, h⟩ := Except.bind_eq_ok h
    obtain ⟨ys', rest, h⟩ := Except.bind_eq_ok h
    cases h
    rcases List.mem_cons.mp member with rfl | later
    · exact ⟨x, first⟩
    · exact ih rest later

theorem Except.mapM_isOk_iff {f : α → Except ε β} {xs : List α} :
    (∃ ys, xs.mapM f = .ok ys) ↔ ∀ x ∈ xs, ∃ y, f x = .ok y := by
  induction xs with
  | nil => simpa using ⟨[], rfl⟩
  | cons x xs ih =>
    rw [List.forall_mem_cons, ← ih, List.mapM_cons, Except.bind_isOk_iff]
    refine ⟨?_, ?_⟩
    · rintro ⟨y, first, rest⟩
      obtain ⟨ys, rest, _⟩ := Except.bind_isOk_iff.mp rest
      exact ⟨⟨y, first⟩, ys, rest⟩
    · rintro ⟨⟨y, first⟩, ys, rest⟩
      exact ⟨y, first, Except.bind_isOk_iff.mpr ⟨ys, rest, _, rfl⟩⟩

namespace Options

theorem header?_eq_ok (h : header? given = .ok header) : header.1 ≠ .authorization := by
  unfold header? at h
  split at h
  · cases h
  · split at h
    · cases h
    · rename_i other
      split at h
      · cases h
      · cases h
        exact other

/-- Where tokens are fetched unless the options say so. -/
def pathFor : Credentials → String
  | .kerberos _ => ticketPath
  | _ => signOnPath

/-- What the settings are made of when options are accepted. -/
structure Yields (idna : Idna) (o : Options) (root : WebUrl) (s : Settings) : Prop where
  located : root? idna o.url = .ok root
  credentials : o.credentials? = .ok s.credentials
  headers : o.headers.mapM header? = .ok s.headers
  tokenUrl : endpoint? idna root .token o.tokenEndpoint (pathFor s.credentials) = .ok s.tokenUrl
  revokeUrl : endpoint? idna root .revoke o.revokeEndpoint revokePath = .ok s.revokeUrl
  baseUrl : s.baseUrl = Text.trimEnd Text.isSlash root.text
  basePath : s.basePath = Text.trimEnd Text.isSlash root.path
  mediaType : s.mediaType = o.mediaType
  expiryMargin : s.expiryMargin = o.expiryMargin
  client : s.client = o.clientSettings root

theorem yields_of_validate {o : Options} (valid : o.validate idna = .ok s) : ∃ root, o.Yields idna root s := by
  unfold validate at valid
  obtain ⟨root, located, valid⟩ := Except.bind_eq_ok valid
  obtain ⟨credentials, decided, valid⟩ := Except.bind_eq_ok valid
  dsimp only at valid
  iterate 4
    rcases ite_eq_iff.mp valid with ⟨_, valid⟩ | ⟨_, valid⟩
    · cases valid
  obtain ⟨headers, read, valid⟩ := Except.bind_eq_ok valid
  obtain ⟨tokenUrl, token, valid⟩ := Except.bind_eq_ok valid
  obtain ⟨revokeUrl, revoke, valid⟩ := Except.bind_eq_ok valid
  obtain rfl := (Except.ok.inj valid).symm
  have fetched : endpoint? idna root .token o.tokenEndpoint (pathFor credentials) = .ok tokenUrl := by
    cases credentials <;> exact token
  exact ⟨root, located, decided, read, fetched, revoke, rfl, rfl, rfl, rfl, rfl⟩

theorem username_of_passwordGrant? {o : Options} (granted : o.passwordGrant? = .ok (some (u, p))) :
    o.username = some u ∧ o.password = some p := by
  unfold passwordGrant? at granted
  split at granted
  · rename_i username password
    split at granted
    · cases granted
    · cases granted
      exact ⟨username, password⟩
  · cases granted
  · cases granted
  · cases granted

/-- What options say of the credentials that are decided on. -/
inductive Decides (o : Options) : Credentials → Prop
  | password (username : o.username = some u) (password : o.password = some p) (sole : o.token = none)
    (signOn : o.auth ≠ .basic) : Decides o (.password u p)
  | basic (username : o.username = some u) (password : o.password = some p) (basic : o.auth = .basic) :
    Decides o (.basic (basicAuthorization u p.expose))
  | kerberos (ticket : o.kerberos = some source) (sole : o.token = none) (signOn : o.auth ≠ .basic) :
    Decides o (.kerberos source)
  | token (token : o.token = some secret) (given : AccessToken.given? secret.expose = some t) : Decides o (.token t)

theorem decides_of_credentials? {o : Options} (decided : o.credentials? = .ok credentials) : o.Decides credentials := by
  unfold credentials? at decided
  obtain ⟨grant, granted, decided⟩ := Except.bind_eq_ok decided
  split at decided
  · cases decided
  · rename_i u p _ sole
    obtain ⟨username, password⟩ := username_of_passwordGrant? granted
    split at decided
    · rename_i basic
      cases decided
      exact .basic username password basic
    · rename_i signOn
      cases decided
      exact .password username password sole signOn
  · rename_i ticket sole
    split at decided
    · cases decided
    · rename_i signOn
      cases decided
      exact .kerberos ticket sole signOn
  · rename_i secret _ token
    split at decided
    · cases decided
    · split at decided
      · rename_i given
        cases decided
        exact .token token given
      · cases decided
  · cases decided

theorem headers_of_validate {o : Options} (valid : o.validate idna = .ok s) : ∀ h ∈ s.headers, h.1 ≠ .authorization := by
  obtain ⟨_, yields⟩ := yields_of_validate valid
  intro h member
  obtain ⟨given, named⟩ := Except.mem_of_mapM yields.headers member
  exact header?_eq_ok named

end Options

theorem Connection.create_eq_of_ok (made : (create idna fs o).2 = .ok c) :
    create idna fs o = ((create idna fs o).1, .ok c) :=
  Prod.ext rfl made

/-- What a connection is made of that is created from options. -/
theorem Connection.yields_of_create (created : create idna fs o = (log, .ok c)) : ∃ s u, o.Yields idna u s ∧
    o.validate idna = .ok s ∧ Client.build fs s.client = .ok c.client ∧ c = ofParts c.client s := by
  unfold create at created
  split at created
  · cases created
  · rename_i s valid
    obtain ⟨u, yields⟩ := Options.yields_of_validate valid
    split at created
    · cases created
    · rename_i client built
      cases created
      exact ⟨s, u, yields, valid, built, rfl⟩

theorem Connection.client_of_create (created : create idna fs o = (log, .ok c)) : ∃ u, Options.root? idna o.url = .ok u ∧
    c.client.settings = o.clientSettings u ∧ c.tokens.client = c.client := by
  obtain ⟨s, u, yields, _, built, made⟩ := yields_of_create created
  refine ⟨u, yields.located, ?_, ?_⟩
  · rw [(Client.build_eq_ok built).1, yields.client]
  · rw [made]
    rfl

theorem Connection.defaults_eq_of_create (created : create idna fs o = (log, .ok c)) :
    c.client.defaults = HeaderMap.empty.insert .userAgent (.literal "ovirtsdk/0.1.0") := by
  obtain ⟨s, u, yields, _, built, _⟩ := yields_of_create created
  obtain ⟨_, read⟩ := Client.build_eq_ok built
  rw [yields.client] at read
  obtain ⟨agent, parsed, read⟩ := Except.bind_eq_ok read
  have written : HeaderValue.parse? "ovirtsdk/0.1.0" = .ok (.literal "ovirtsdk/0.1.0") := by decide +kernel
  obtain rfl := Except.ok.inj (parsed.symm.trans written)
  exact (Except.ok.inj read).symm

/-- A client of a connection that was created from options adds no header but the user agent. -/
theorem Connection.defaults_of_create (created : create idna fs o = (log, .ok c)) :
    ∀ h ∈ c.client.defaults.toList, h.1 = .userAgent := by
  rw [defaults_eq_of_create created]
  intro h member
  obtain ⟨group, among, inside⟩ := List.mem_flatMap.mp member
  cases List.mem_singleton.mp among
  cases List.mem_singleton.mp inside
  rfl

/-- No authorization is configured on a connection that was created from options. -/
theorem Connection.headers_of_create (created : create idna fs o = (log, .ok c)) :
    ∀ h ∈ c.root.headers, h.1 ≠ .authorization := by
  obtain ⟨s, _, _, valid, _, made⟩ := yields_of_create created
  rw [made]
  exact Options.headers_of_validate valid

theorem Connection.strategy_of_create (created : create idna fs o = (log, .ok c)) : ∃ s : Settings, o.Decides s.credentials ∧
    c.tokens.strategy = (TokenCache.ofSettings c.client s).strategy := by
  obtain ⟨s, u, yields, _, _, made⟩ := yields_of_create created
  refine ⟨s, Options.decides_of_credentials? yields.credentials, ?_⟩
  rw [made]
  rfl

end EngineClient
