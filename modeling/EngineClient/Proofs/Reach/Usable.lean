import EngineClient.Proofs.Reach.Authority
import EngineClient.Proofs.Reach.Encrypted
import EngineClient.Proofs.Reach.Root

/-!
# URLs that can be asked for

The URLs of settings are in normal form. The transport takes a URL in normal form unless it is too long, its host is a
name with a character that no authority takes, or its scheme is not allowed.
-/

namespace EngineClient
open Text

namespace Uri

/-! ### Paths and queries -/

theorem isPathChar_of_stands : ∀ b, Path.stands b = true → (!isPathChar (charOf b)) = false :=
  forall_byte (by decide +kernel)

theorem isQueryChar_of_stands : ∀ b, Url.standsInQuery b = true → (!isQueryChar (charOf b)) = false :=
  forall_byte (by decide +kernel)

/-- The text of a query, with the mark before it. -/
def queryText : Option (List Char) → List Char
  | none => []
  | some q => '?' :: q

/-- The text of a fragment, with the mark before it. -/
def fragmentText : Option (List Char) → List Char
  | none => []
  | some f => '#' :: f

theorem splitPath_isOk {path : List Char} {query fragment : Option (List Char)} (allowed : ∀ c ∈ path, isPathChar c = true)
    (allowed' : ∀ q ∈ query, ∀ c ∈ q, isQueryChar c = true) :
    ∃ parts, splitPath (path ++ queryText query ++ fragmentText fragment) = .ok parts := by
  have whole : (path ++ queryText query ++ fragmentText fragment).takeWhile (· != '#') = path ++ queryText query := by
    have passes : ∀ c ∈ path ++ queryText query, (c != '#') = true := by
      intro c member
      rw [bne_iff_ne]
      rintro rfl
      rcases List.mem_append.mp member with inside | inside
      · exact absurd (allowed _ inside) (by decide)
      · cases query with
        | none => cases inside
        | some q =>
          rcases List.mem_cons.mp inside with mark | inside
          · cases mark
          · exact absurd (allowed' q rfl _ inside) (by decide)
    have stops : (fragmentText fragment).takeWhile (· != '#') = [] := by
      cases fragment <;> rfl
    rw [List.takeWhile_append_of_pos passes, stops, List.append_nil]
  have front : (path ++ queryText query).takeWhile (· != '?') = path := by
    have passes : ∀ c ∈ path, (c != '?') = true := by
      intro c member
      rw [bne_iff_ne]
      rintro rfl
      exact absurd (allowed _ member) (by decide)
    have stops : (queryText query).takeWhile (· != '?') = [] := by
      cases query <;> rfl
    rw [List.takeWhile_append_of_pos passes, stops, List.append_nil]
  unfold splitPath
  dsimp only
  rw [whole, front, List.drop_left, if_neg (by simpa using allowed)]
  cases query with
  | none => exact ⟨_, rfl⟩
  | some q =>
    exact ⟨_, if_pos (by simpa using allowed' q rfl)⟩

end Uri

/-- A URL is short enough, and its host has no character that no authority takes. -/
structure WebUrl.Askable (u : WebUrl) : Prop where
  short : (String.ofList u.text).utf8ByteSize ≤ Uri.maxLength
  plain : Avoids Uri.isQuirk u.host

namespace WebUrl
variable {u : WebUrl}

/-- What follows the authority. -/
def rest (u : WebUrl) : List Char :=
  u.path ++ Uri.queryText u.query ++ Uri.fragmentText u.fragment

theorem text_eq (u : WebUrl) : u.text = u.scheme.name.toList ++ "://".toList ++ (u.authority ++ u.rest) := by
  unfold text rest
  rw [u.origin_eq]
  cases u.query <;> cases u.fragment <;> simp [Uri.queryText, Uri.fragmentText]

theorem Normal.splitPath_isOk (normal : u.Normal) : ∃ parts, Uri.splitPath u.rest = .ok parts := by
  obtain ⟨ss, path, standing⟩ := normal.path
  have alphanum : SparesEscapes (!Uri.isPathChar ·) := ⟨by decide, forall_alphanum (by decide)⟩
  have alphanum' : SparesEscapes (!Uri.isQueryChar ·) := ⟨by decide, forall_alphanum (by decide)⟩
  have allowed : Avoids (!Uri.isPathChar ·) u.path := by
    rw [path]
    exact Path.avoids_write (by decide) fun s member => (standing s member).avoids alphanum Uri.isPathChar_of_stands
  have allowed' : ∀ q ∈ u.query, Avoids (!Uri.isQueryChar ·) q := by
    intro q given
    obtain ⟨cs, rfl⟩ := normal.query q given
    exact avoids_percentEncode alphanum' Uri.isQueryChar_of_stands _
  exact Uri.splitPath_isOk (fun c member => by simpa using allowed c member)
    fun q given c member => by simpa using allowed' q given c member

theorem Normal.ends_rest (normal : u.Normal) : ∀ c ∈ u.rest.head?, Uri.endsAuthority c = true := by
  have rooted := normal.formed.rooted
  unfold rest
  cases path : u.path with
  | nil => cases u.query <;> cases u.fragment <;> simp [Uri.queryText, Uri.fragmentText, Uri.endsAuthority]
  | cons d r =>
    rw [path] at rooted
    intro c first
    obtain rfl : d = c := Option.some.inj first
    rw [rooted d rfl]
    decide

theorem Normal.parseAbsolute_isOk_iff (normal : u.Normal) :
    (∃ target, Uri.parseAbsolute u.scheme.name (u.authority ++ u.rest) = .ok target) ↔
      Avoids Uri.isQuirk u.host := by
  have some := normal.formed.nonempty
  obtain ⟨cut, behind⟩ := Uri.cut_authority normal.formed.authority normal.ends_rest
  obtain ⟨parts, split⟩ := normal.splitPath_isOk
  unfold Uri.parseAbsolute
  dsimp only
  rw [if_neg (by simp [some]), drop_takeWhile, cut, behind, split, ← normal.checkAuthority_iff, if_neg (by simpa using some)]
  constructor
  · rintro ⟨target, parsed⟩
    obtain ⟨_, accepted, _⟩ := Except.bind_eq_ok parsed
    exact accepted
  · intro accepted
    rw [accepted]
    exact ⟨_, rfl⟩

theorem Normal.parse?_isOk_iff (normal : u.Normal) :
    (∃ target, Uri.parse? (String.ofList u.text) = .ok target) ↔ u.Askable := by
  rw [u.text_eq, Uri.parse?_eq_parseAbsolute, ← u.text_eq]
  constructor
  · rintro ⟨target, parsed⟩
    split at parsed
    · cases parsed
    · rename_i short
      exact ⟨Nat.not_lt.mp short, normal.parseAbsolute_isOk_iff.mp ⟨target, parsed⟩⟩
  · rintro ⟨short, plain⟩
    rw [if_neg (Nat.not_lt.mpr short)]
    exact normal.parseAbsolute_isOk_iff.mpr plain

/-- What the transport makes of a URL in normal form. -/
inductive Targets (u : WebUrl) (security : Security) : Except ClientError Uri → Prop
  | accepted (askable : u.Askable) (allowed : u.scheme = .https ∨ security = .plainAllowed) : Targets u security (.ok target)
  | malformed (unaskable : ¬ u.Askable) : Targets u security (.error (.url (String.ofList u.text) .malformed cause))
  | plain (askable : u.Askable) (http : u.scheme = .http) (encrypted : security = .encryptedOnly) :
    Targets u security (.error (.scheme "http" "HTTPS required (transport security is TlsOnly)"))

theorem Targets.isOk_iff (targets : u.Targets security result) :
    (∃ target, result = .ok target) ↔ u.Askable ∧ (u.scheme = .https ∨ security = .plainAllowed) := by
  cases targets with
  | @accepted target askable allowed => simp [askable, allowed]
  | malformed unaskable => simp [unaskable]
  | plain askable http encrypted => simp [http, encrypted]

theorem Normal.targets (normal : u.Normal) (security : Security) :
    u.Targets security (Draft.target? security (String.ofList u.text)) := by
  unfold Draft.target?
  cases parsed : Uri.parse? (String.ofList u.text) with
  | error e =>
    refine .malformed fun askable => ?_
    obtain ⟨target, accepted⟩ := normal.parse?_isOk_iff.mpr askable
    cases accepted.symm.trans parsed
  | ok target =>
    have askable := normal.parse?_isOk_iff.mp ⟨target, parsed⟩
    have scheme := scheme_of_parse? parsed
    rw [u.text_eq] at parsed
    obtain ⟨_, authority, _⟩ := Uri.parse?_authority normal.formed.authority normal.ends_rest parsed
    -- Authority and scheme are there, so that only the rules on encryption are left.
    dsimp only
    rw [authority, scheme]
    cases web : u.scheme with
    | https => exact .accepted askable (.inl web)
    | http =>
      cases security with
      | plainAllowed => exact .accepted askable (.inr rfl)
      | encryptedOnly => exact .plain askable web rfl

end WebUrl

/-! ### URLs of settings -/

namespace Options
variable {o : Options} {s : Settings} {root : WebUrl}

/-- A configured endpoint is the one given, or a path at the place of the root. -/
theorem endpoint?_eq_ok {url : String} (normal : root.Normal) (made : endpoint? idna root option given path = .ok url) :
    ∃ u : WebUrl, u.Normal ∧ url = String.ofList u.text ∧ (given = none → u = root.withPath path.toList) ∧
      ∀ raw ∈ given, Url.parse? idna raw = .ok (.web u) := by
  unfold endpoint? at made
  split at made
  · cases made
    exact ⟨_, normal.withPath path.toList, rfl, fun _ => rfl, fun _ absent => by cases absent⟩
  · rename_i raw
    split at made
    · cases made
    · cases made
    · rename_i u parsed
      cases made
      refine ⟨u, Url.normal_of_parse? parsed, rfl, (fun absent => by cases absent), fun raw' same => ?_⟩
      obtain rfl := Option.some.inj same
      exact parsed

theorem Yields.normal_base (yields : o.Yields idna root s) :
    ({ root with path := s.basePath } : WebUrl).Normal ∧ s.baseUrl = ({ root with path := s.basePath } : WebUrl).text := by
  have normal := (root?_eq_ok yields.located).1
  refine ⟨⟨normal.user, normal.host, yields.basePath_written, normal.query⟩, ?_⟩
  obtain ⟨u, _, rfl⟩ := parse?_of_root? yields.located
  rw [yields.baseUrl_eq, WebUrl.text_eq]
  simp [WebUrl.rest, rootOf, WebUrl.withPath, Uri.queryText, Uri.fragmentText, WebUrl.authority]

/-- A connection uses the URLs of the settings, under the rules on encryption that go with the root. -/
theorem uses_of_create (valid : o.validate idna = .ok s) (created : Connection.create idna fs o = (log, .ok c)) :
    c.client.settings.security = s.client.security ∧ c.root.url = s.baseUrl ∧
      ∀ service, c.tokens.strategy = .signOn service →
        service.tokenUrl = s.tokenUrl ∧ service.revokeUrl = s.revokeUrl := by
  obtain ⟨s', _, _, valid', built, made⟩ := Connection.yields_of_create created
  obtain rfl : s' = s := Except.ok.inj (valid'.symm.trans valid)
  refine ⟨by rw [(Client.build_eq_ok built).1], by rw [made]; rfl, fun service signOn => ?_⟩
  rw [made] at signOn
  exact Connection.service_ofParts signOn

/-- The URLs of accepted options are taken for requests unless they are too long, their hosts are names with characters
that no authority takes, or a configured endpoint is not encrypted where the root is. Only the last is a matter of rules;
all of it shows at the first request. -/
theorem urls_of_settings (valid : o.validate idna = .ok s) : ∃ root token revoke : WebUrl,
    root? idna o.url = .ok root ∧ s.baseUrl = ({ root with path := s.basePath } : WebUrl).text ∧
    s.tokenUrl = String.ofList token.text ∧ s.revokeUrl = String.ofList revoke.text ∧
    (o.tokenEndpoint = none → token = root.withPath (pathFor s.credentials).toList) ∧
    (∀ raw ∈ o.tokenEndpoint, Url.parse? idna raw = .ok (.web token)) ∧
    (o.revokeEndpoint = none → revoke = root.withPath revokePath.toList) ∧
    (∀ raw ∈ o.revokeEndpoint, Url.parse? idna raw = .ok (.web revoke)) ∧
    (∀ u ∈ [{ root with path := s.basePath }, token, revoke],
      u.Targets s.client.security (Draft.target? s.client.security (String.ofList u.text)) ∧
      ((∃ target, Draft.target? s.client.security (String.ofList u.text) = .ok target) ↔
        u.Askable ∧ (u.scheme = .https ∨ root.scheme = .http))) ∧
    ∀ fs log c, Connection.create idna fs o = (log, .ok c) →
      c.client.settings.security = s.client.security ∧ c.root.url = s.baseUrl ∧
        ∀ service, c.tokens.strategy = .signOn service →
          service.tokenUrl = s.tokenUrl ∧ service.revokeUrl = s.revokeUrl := by
  obtain ⟨root, yields⟩ := yields_of_validate valid
  have normal := (root?_eq_ok yields.located).1
  obtain ⟨base, baseUrl⟩ := yields.normal_base
  obtain ⟨token, tokenNormal, tokenUrl, tokenOpen, tokenGiven⟩ := endpoint?_eq_ok normal yields.tokenUrl
  obtain ⟨revoke, revokeNormal, revokeUrl, revokeOpen, revokeGiven⟩ := endpoint?_eq_ok normal yields.revokeUrl
  have security : s.client.security = .plainAllowed ↔ root.scheme = .http := by
    rw [yields.client, clientSettings]
    split <;> simp_all
  have normals : ∀ u ∈ [{ root with path := s.basePath }, token, revoke], u.Normal := by
    simp [base, tokenNormal, revokeNormal]
  refine ⟨root, token, revoke, yields.located, baseUrl, tokenUrl, revokeUrl, tokenOpen, tokenGiven, revokeOpen, revokeGiven,
    fun u member => ?_, fun fs log c => uses_of_create valid⟩
  have targets := (normals u member).targets s.client.security
  rw [← security]
  exact ⟨targets, targets.isOk_iff⟩

/-- Where no endpoint is configured, a short URL with a plain host is all that it takes. -/
theorem urls_of_settings_open : ∃ s target, Sample.options.validate .ascii = .ok s ∧
    Draft.target? s.client.security s.revokeUrl = .ok target := by
  have computed : (Sample.options.validate .ascii).map Settings.revokeUrl =
      .ok "https://engine.example.com/ovirt-engine/services/sso-logout" := by
    decide +kernel
  have located : (root? .ascii Sample.options.url).map (fun u => (u.scheme, u.host, u.withPath revokePath.toList)) =
      .ok (.https, "engine.example.com".toList,
        ⟨.https, [], "engine.example.com".toList, none, revokePath.toList, none, none⟩) := by
    decide +kernel
  obtain ⟨s, valid, url⟩ := Except.map_eq_ok computed
  obtain ⟨u, found, read⟩ := Except.map_eq_ok located
  simp only [Prod.mk.injEq] at read
  obtain ⟨root, _, revoke, same, _, _, revokeUrl, _, _, revokeOpen, _, usable, _⟩ := urls_of_settings valid
  obtain rfl : u = root := Except.ok.inj (found.symm.trans same)
  have own := revokeOpen rfl
  rw [read.2.2] at own
  have askable : revoke.Askable := by
    rw [own]
    exact ⟨by decide +kernel, by decide⟩
  obtain ⟨target, accepted⟩ := (usable revoke (by simp)).2.mpr ⟨askable, .inl (by rw [own])⟩
  exact ⟨s, target, valid, by rw [revokeUrl]; exact accepted⟩

/-- A connection is set up whose token endpoint no request is ever made to. -/
theorem token_url_refused_late : (Connection.create .ascii {} Sample.plainSignOn).2.map (fun c =>
    match c.tokens.strategy with
    | .signOn service => some (service.tokenUrl, Draft.target? c.client.settings.security service.tokenUrl)
    | _ => none) =
    .ok (some ("http://sso.example.com/token",
      .error (.scheme "http" "HTTPS required (transport security is TlsOnly)"))) := by
  decide +kernel

end Options
end EngineClient
