import EngineClient.Proofs.Reach.Handed
import EngineClient.Proofs.Reach.Origin

/-!
# Where requests go

The URL of a request is written behind the URL of the root and read again by the transport. Read back, it leads to the
engine and below the root, unless parameters follow an origin that no path separates from them.
-/

namespace EngineClient
open Text

theorem Draft.parse_of_target? (accepted : target? security text = .ok target) : Uri.parse? text = .ok target := by
  unfold target? at accepted
  split at accepted
  · cases accepted
  · rename_i uri parsed
    have same : uri = target := by
      split at accepted
      · cases accepted
      · split at accepted
        · cases accepted
        · exact Except.ok.inj accepted
        · split at accepted
          · exact Except.ok.inj accepted
          · cases accepted
        · cases accepted
    rw [← same]
    exact parsed

namespace ApiRoot

/-- Parameters that belong to the path come right after the authority. -/
def Glues (root : ApiRoot) (request : Request) : Prop :=
  root.path = [] ∧ trimStart isSlash request.path.toList = [] ∧ request.matrix ≠ []

/-- A target has the origin of the root, and its path is that of the root or lies below it. -/
structure Holds (root : ApiRoot) (u : WebUrl) (target : Uri) : Prop where
  scheme : target.scheme = some u.scheme.name
  authority : target.authority = some u.authority
  below : ∃ tail, target.path = root.path ++ tail ∧ ∀ c ∈ tail.head?, c = '/' ∨ c = ';'

/-- What the URL of a request has behind that of the root. -/
def tailFor (request : Request) : List Char :=
  (if (trimStart isSlash request.path.toList).isEmpty then [] else '/' :: trimStart isSlash request.path.toList) ++
    request.matrix.flatMap matrixPart ++
    if request.query.isEmpty then [] else '?' :: Form.render request.query

theorem urlFor_eq (root : ApiRoot) (request : Request) : root.urlFor request = root.url ++ tailFor request := by
  simp [urlFor, tailFor]

theorem avoids_matrix (fields : List Form.Field) : Avoids Uri.endsAuthority (fields.flatMap matrixPart) := by
  have plain : ∀ s, Avoids Uri.endsAuthority (matrixText s) := by
    refine fun s => avoids_percentEncode Uri.sparesEscapes_endsAuthority (fun b unreserved => ?_) _
    by_contra ends
    simp only [Uri.endsAuthority, Bool.not_eq_false, Bool.or_eq_true, beq_iff_eq] at ends
    have marks : b = 0x2D ∨ b = 0x2E ∨ b = 0x5F ∨ b = 0x7E := by
      rcases ends with (same | same) | same <;> simpa [isUnreserved, same, or_assoc] using unreserved
    rcases marks with rfl | rfl | rfl | rfl <;> exact absurd ends (by decide)
  refine Avoids.flatMap fun f _ => ?_
  have second : Avoids Uri.endsAuthority ('=' :: matrixText f.2) := avoids_cons.mpr ⟨by decide, plain f.2⟩
  exact avoids_cons.mpr ⟨by decide, avoids_append.mpr ⟨plain f.1, second⟩⟩

/-- What comes first behind the root. -/
theorem head_tailFor (request : Request) : ∀ c ∈ (tailFor request).head?, c = '/' ∨ c = '?' ∨
    (c = ';' ∧ trimStart isSlash request.path.toList = [] ∧ request.matrix ≠ []) := by
  intro c first
  unfold tailFor at first
  cases path : trimStart isSlash request.path.toList with
  | cons p r =>
    rw [path] at first
    exact .inl (Option.some.inj first).symm
  | nil =>
    rw [path] at first
    cases matrix : request.matrix with
    | cons f r =>
      rw [matrix] at first
      exact .inr (.inr ⟨(Option.some.inj first).symm, rfl, by simp⟩)
    | nil =>
      rw [matrix] at first
      cases query : request.query with
      | nil =>
        rw [query] at first
        cases first
      | cons f r =>
        rw [query] at first
        exact .inr (.inl (Option.some.inj first).symm)

theorem trimEnd_prefix (p : Char → Bool) (cs : List Char) : trimEnd p cs <+: cs := by
  unfold trimEnd
  rw [← List.reverse_suffix, List.reverse_reverse]
  exact List.dropWhile_suffix p

section Targets
variable {o : Options} {u : WebUrl} {s : Settings} {request : Request} {target : Uri}

theorem holds_of_target? (yields : o.Yields idna u s) (apart : ¬ (ofSettings s).Glues request)
    (accepted : Draft.target? security (String.ofList ((ofSettings s).urlFor request)) = .ok target) :
    (ofSettings s).Holds u target := by
  have formed := (Options.root?_eq_ok yields.located).1.formed
  have path := trimEnd_prefix isSlash u.path
  rw [← yields.basePath] at path
  -- The authority is read back whole if the next character ends it: a slash of the root, or the first of the tail.
  have ends : ∀ c ∈ (s.basePath ++ tailFor request).head?, Uri.endsAuthority c = true := by
    intro c first
    cases base : s.basePath with
    | cons b r =>
      rw [base] at first path
      obtain ⟨rest, whole⟩ := path
      have slash := formed.rooted b (by rw [← whole]; rfl)
      obtain rfl : b = c := Option.some.inj first
      rw [slash]
      decide
    | nil =>
      rw [base] at first
      rcases head_tailFor request c first with rfl | rfl | ⟨_, none, some⟩
      · decide
      · decide
      · exact (apart ⟨base, none, some⟩).elim
  have parsed := Draft.parse_of_target? accepted
  have url : (ofSettings s).url = u.scheme.name.toList ++ "://".toList ++ (u.authority ++ s.basePath) :=
    yields.baseUrl_eq
  rw [urlFor_eq, url, List.append_assoc, List.append_assoc u.authority] at parsed
  obtain ⟨scheme, authority, below⟩ := Uri.parse?_authority formed.authority ends parsed
  have passes : ∀ c ∈ s.basePath, (!endsPath c) = true := fun c member => by
    simp [formed.path c (path.subset member)]
  rw [List.takeWhile_append_of_pos passes] at below
  refine ⟨scheme, authority, _, below, fun c first => ?_⟩
  rw [List.head?_takeWhile, Option.mem_filter_iff] at first
  obtain ⟨front, passed⟩ := first
  rcases head_tailFor request c front with rfl | rfl | ⟨rfl, _⟩
  · exact .inl rfl
  · cases passed
  · exact .inr rfl

/-- Parameters that follow an origin are read as a part of the authority. -/
theorem glued_of_target? (yields : o.Yields idna u s) (glues : (ofSettings s).Glues request)
    (accepted : Draft.target? security (String.ofList ((ofSettings s).urlFor request)) = .ok target) :
    target.authority = some (u.authority ++ request.matrix.flatMap matrixPart) ∧ target.path = [] := by
  obtain ⟨rootless, pathless, _⟩ := glues
  have formed := (Options.root?_eq_ok yields.located).1.formed
  have avoids : Avoids Uri.endsAuthority (u.authority ++ request.matrix.flatMap matrixPart) :=
    avoids_append.mpr ⟨formed.authority, avoids_matrix _⟩
  have tail : tailFor request = request.matrix.flatMap matrixPart ++
      if request.query.isEmpty then [] else '?' :: Form.render request.query := by
    simp [tailFor, pathless]
  have base : s.basePath = [] := rootless
  have query : ∀ c ∈ (if request.query.isEmpty then [] else '?' :: Form.render request.query).head?, c = '?' := by
    intro c first
    split at first
    · cases first
    · exact (Option.some.inj first).symm
  have parsed := Draft.parse_of_target? accepted
  have url : (ofSettings s).url = u.scheme.name.toList ++ "://".toList ++ u.authority := by
    rw [← List.append_nil u.authority, ← base]
    exact yields.baseUrl_eq
  rw [urlFor_eq, url, tail, List.append_assoc, ← List.append_assoc u.authority] at parsed
  obtain ⟨_, authority, path⟩ := Uri.parse?_authority avoids (fun c first => by rw [query c first]; decide) parsed
  refine ⟨authority, ?_⟩
  rw [path]
  split
  · rfl
  · rfl

end Targets
end ApiRoot

/-! ### Authorizations that leave -/

namespace SignOn

theorem allHeaders_formDraft {headers : List Header} (untyped : (headers.any fun h => h.1 = .contentType) = false) :
    (formDraft url headers fields).allHeaders = (.contentType, Draft.formType) :: headers := by
  simp only [formDraft, Draft.allHeaders, untyped]
  rfl

theorem authorization_tokenDraft {service : SignOn} {before : List String} (drafted : service.tokenDraft before = .ok d) :
    ∀ a ∈ (HeaderMap.ofList d.allHeaders).getAll .authorization, ∃ ticket, a = (negotiation ticket).2 := by
  rw [HeaderMap.getAll_ofList]
  unfold tokenDraft at drafted
  split at drafted
  · cases drafted
    rw [allHeaders_formDraft rfl]
    intro a member
    cases member
  · split at drafted
    · cases drafted
    · rename_i ticket _
      cases drafted
      rw [allHeaders_formDraft rfl]
      intro a member
      exact ⟨ticket, List.mem_singleton.mp member⟩

theorem authorization_revokeDraft (service : SignOn) (token : AccessToken) :
    (HeaderMap.ofList (service.revokeDraft token).allHeaders).getAll .authorization = [] := by
  rw [HeaderMap.getAll_ofList, revokeDraft, allHeaders_formDraft rfl]
  rfl

end SignOn

namespace Connection

/-- An authorization on the network goes to the engine with a request, or negotiates for a token. -/
def Confides (c : Connection) (u : WebUrl) (x : Sent) : Prop :=
  ∀ out, x.request = some out → ∀ a ∈ out.headers.getAll .authorization,
    (∃ request, c.client.outbound (c.root.draft request a) = .ok out ∧ (¬ c.root.Glues request → c.root.Holds u out.uri)) ∨
    ∃ ticket, a = (SignOn.negotiation ticket).2

theorem confides_of_leaves (created : create idna fs o = (log, .ok c)) (located : Options.root? idna o.url = .ok u)
    (leaves : c.Leaves x) : c.Confides u x := by
  obtain ⟨s, u', yields, _, _, made⟩ := yields_of_create created
  obtain rfl : u' = u := Except.ok.inj (yields.located.symm.trans located)
  have root : c.root = .ofSettings s := by
    rw [made]
    rfl
  have client : c.tokens.client = c.client := by
    rw [made]
    rfl
  have drafted : ∀ {d out}, c.client.outbound d = .ok out →
      out.headers.getAll .authorization = (HeaderMap.ofList d.allHeaders).getAll .authorization := by
    intro d out leaves
    obtain ⟨_, _, headers, _⟩ := Client.outbound_eq_ok leaves
    rw [headers]
    refine c.client.getAll_outgoingHeaders (fun h member same => ?_) (by decide)
    rw [defaults_of_create created h member] at same
    cases same
  have handed : ∀ {out out' : Outbound}, c.client.Delivers out x → x.request = some out' → out' = out := by
    rintro out out' (rfl | rfl) same
    · cases same
    · exact (Option.some.inj same).symm
  intro out carried a member
  cases leaves with
  | request leaves delivers =>
    obtain rfl := handed delivers carried
    rw [c.client.authorization_outbound (headers_of_create created) leaves] at member
    obtain rfl := List.mem_singleton.mp member
    refine .inl ⟨_, leaves, fun apart => ?_⟩
    obtain ⟨accepted, _⟩ := Client.outbound_eq_ok leaves
    rw [root] at apart accepted ⊢
    exact ApiRoot.holds_of_target? yields apart accepted
  | token _ fetched leaves delivers =>
    rw [client] at leaves delivers
    obtain rfl := handed delivers carried
    rw [drafted leaves] at member
    exact .inr (SignOn.authorization_tokenDraft fetched a member)
  | revocation _ leaves delivers =>
    rw [client] at leaves delivers
    obtain rfl := handed delivers carried
    rw [drafted leaves, SignOn.authorization_revokeDraft] at member
    cases member

end Connection

/-- Every request goes to the engine and below the root, unless its parameters come right after an origin without a
path: they are then read as a part of the authority. On all runs of a connection no authorization goes anywhere else
but with a negotiation for a token. -/
theorem requests_stay_at_engine (valid : Options.validate idna o = .ok s) : ∃ u, Options.root? idna o.url = .ok u ∧
    s.baseUrl = u.scheme.name.toList ++ "://".toList ++ (u.authority ++ s.basePath) ∧
    (∀ request security target,
      Draft.target? security (String.ofList ((ApiRoot.ofSettings s).urlFor request)) = .ok target →
      (¬ (ApiRoot.ofSettings s).Glues request → (ApiRoot.ofSettings s).Holds u target) ∧
      ((ApiRoot.ofSettings s).Glues request → target.path = [] ∧
        target.authority = some (u.authority ++ request.matrix.flatMap ApiRoot.matrixPart))) ∧
    ∀ fs log c, Connection.create idna fs o = (log, .ok c) → ∀ acts, (∀ i, (acts i).SparesSent) → ∀ w turns n,
      ∃ handed, ((c.mingle acts { wire := w } turns).state n).wire.sent = w.sent ++ handed ∧
        ∀ x ∈ handed, c.Confides u x := by
  obtain ⟨u, yields⟩ := Options.yields_of_validate valid
  refine ⟨u, yields.located, yields.baseUrl_eq, fun request security target accepted => ⟨?_, ?_⟩, ?_⟩
  · exact fun apart => ApiRoot.holds_of_target? yields apart accepted
  · intro glues
    obtain ⟨authority, path⟩ := ApiRoot.glued_of_target? yields glues accepted
    exact ⟨path, authority⟩
  · intro fs log c created acts spares w turns n
    obtain ⟨handed, sent, leaves⟩ := c.mingle_sent acts spares { wire := w } turns n
    exact ⟨handed, sent, fun x member => Connection.confides_of_leaves created yields.located (leaves x member)⟩

namespace Sample

def options : Options :=
  { url := "https://engine.example.com/ovirt-engine/api", username := some "u", password := some ⟨"p"⟩ }

/-- The root of the API is the origin itself. -/
def rootless : Options :=
  { options with url := "https://engine.example.com" }

def parametrized : Request :=
  (Request.get "").addMatrix "a" "b"

end Sample

/-- A request whose parameters follow a path is not glued to the authority. -/
theorem requests_stay_at_engine_parametrized : ∃ s u target, Options.validate .ascii Sample.options = .ok s ∧
    Draft.target? .encryptedOnly (String.ofList ((ApiRoot.ofSettings s).urlFor Sample.parametrized)) = .ok target ∧
    (ApiRoot.ofSettings s).Holds u target ∧ target.authority = some "engine.example.com".toList ∧
    target.path = "/ovirt-engine/api;a=b".toList := by
  have computed : (Options.validate .ascii Sample.options).map (fun s => (s.basePath,
      (Draft.target? .encryptedOnly (String.ofList ((ApiRoot.ofSettings s).urlFor Sample.parametrized))).map fun target =>
        (target.authority, target.path))) =
      .ok ("/ovirt-engine/api".toList, .ok (some "engine.example.com".toList, "/ovirt-engine/api;a=b".toList)) := by
    decide +kernel
  obtain ⟨s, valid, read⟩ := Except.map_eq_ok computed
  obtain ⟨path, read⟩ := Prod.mk.inj read
  obtain ⟨target, accepted, read⟩ := Except.map_eq_ok read
  obtain ⟨authority, below⟩ := Prod.mk.inj read
  obtain ⟨u, _, _, stays, _⟩ := requests_stay_at_engine valid
  have apart : ¬ (ApiRoot.ofSettings s).Glues Sample.parametrized := by
    rintro ⟨rootless, _⟩
    have empty : s.basePath = [] := rootless
    rw [path] at empty
    cases empty
  exact ⟨s, u, target, valid, accepted, (stays _ _ target accepted).1 apart, authority, below⟩

/-- The transport takes a parameter for a part of the host. -/
theorem parameters_glued_to_origin :
    (Options.validate .ascii Sample.rootless).map (fun s =>
      (String.ofList ((ApiRoot.ofSettings s).urlFor Sample.parametrized),
        (Draft.target? .encryptedOnly (String.ofList ((ApiRoot.ofSettings s).urlFor Sample.parametrized))).map fun target =>
          (target.authority, target.path))) =
      .ok ("https://engine.example.com;a=b", .ok (some "engine.example.com;a=b".toList, [])) := by
  decide +kernel

end EngineClient
