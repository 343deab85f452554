import EngineClient.Proofs.Reach.Origin

/-!
# Options that are accepted

The checks of options one by one, each against what it asks for, and all of them together. None of them reads a file.
-/

namespace EngineClient

/-- Which kinds of credentials are given: a name and a password, tickets, a token. -/
def Options.kinds (o : Options) : List Bool :=
  [o.username.isSome && o.password.isSome, o.kerberos.isSome, o.token.isSome]

/-- One kind of credentials is given, and it can be presented as it is to be. -/
structure Options.Credible (o : Options) : Prop where
  paired : o.username.isSome = o.password.isSome
  named : o.username ≠ some ""
  one : o.kinds.count true = 1
  basic : o.auth = .basic → o.username.isSome = true
  sendable : ∀ token ∈ o.token, ∃ v, HeaderValue.parse? token.expose = .ok v

/-- Trust is asked for in one way only. -/
structure Options.Trusting (o : Options) : Prop where
  insecure : o.insecure = true → o.caFile = none ∧ o.caCerts = []
  system : o.rootStore = .system → o.insecure = false ∧ o.caFile = none ∧ o.caCerts = []

/-- A header can be sent with every request. -/
def Options.Allows (h : String × String) : Prop :=
  (∃ n, HeaderName.parse? h.1 = .ok n) ∧ Text.sameLetters h.1.toList "authorization".toList = false ∧
    ∃ v, HeaderValue.parse? h.2 = .ok v

/-- What options have to say for a connection to be set up with them, apart from files and the proxy. -/
structure Options.Acceptable (idna : Idna) (o : Options) : Prop where
  located : ∃ u, Url.parse? idna (String.ofList (Text.trim o.url.toList)) = .ok (.web u) ∧ u.host ≠ []
  credible : o.Credible
  trusting : o.Trusting
  margin : o.expiryMargin.nanos ≤ (Span.seconds 3600).nanos
  timeout : 0 < o.timeout.nanos
  headers : ∀ h ∈ o.headers, Options.Allows h
  tokenEndpoint : ∀ raw ∈ o.tokenEndpoint, ∃ u, Url.parse? idna raw = .ok (.web u)
  revokeEndpoint : ∀ raw ∈ o.revokeEndpoint, ∃ u, Url.parse? idna raw = .ok (.web u)

namespace Options
variable {o : Options}

/-! ### URLs -/

/-- An empty text is refused before it is read, and could not be read either. -/
theorem root?_isOk_iff {url : String} : (∃ root, root? idna url = .ok root) ↔
    ∃ u, Url.parse? idna (String.ofList (Text.trim url.toList)) = .ok (.web u) ∧ u.host ≠ [] := by
  unfold root?
  dsimp only
  generalize Text.trim url.toList = raw
  cases raw with
  | nil =>
    have empty : Url.parse? idna (String.ofList []) = .error .relative := rfl
    simp [empty]
  | cons c r =>
    rw [if_neg (by simp)]
    constructor
    · rintro ⟨root, read⟩
      split at read
      · cases read
      · cases read
      · rename_i u parsed
        exact ⟨u, parsed, (Url.normal_of_parse? parsed).host.ne_nil⟩
    · rintro ⟨u, parsed, _⟩
      rw [parsed]
      exact ⟨_, rfl⟩

theorem endpoint?_isOk_iff {root : WebUrl} {option : EndpointOption} {given : Option String} {path : String} :
    (∃ url, endpoint? idna root option given path = .ok url) ↔ ∀ raw ∈ given, ∃ u, Url.parse? idna raw = .ok (.web u) := by
  cases given with
  | none => simp [endpoint?]
  | some raw =>
    simp only [endpoint?, Option.mem_some_iff, forall_eq']
    constructor
    · rintro ⟨url, read⟩
      split at read
      · cases read
      · cases read
      · rename_i u parsed
        exact ⟨u, parsed⟩
    · rintro ⟨u, parsed⟩
      rw [parsed]
      exact ⟨_, rfl⟩

/-! ### Credentials -/

theorem given?_isSome_iff {value : String} :
    (∃ t, AccessToken.given? value = some t) ↔ ∃ v, HeaderValue.parse? value = .ok v := by
  rw [← AccessToken.bearer?_isSome_iff, AccessToken.given?]
  cases AccessToken.bearer? value <;> simp

theorem passwordGrant?_isOk_iff : (∃ grant, o.passwordGrant? = .ok grant) ↔
    o.username.isSome = o.password.isSome ∧ o.username ≠ some "" := by
  unfold passwordGrant?
  cases o.username with
  | none => cases o.password <;> simp
  | some u =>
    cases o.password with
    | none => simp
    | some p => by_cases empty : u = "" <;> simp [empty]

theorem passwordGrant?_eq_ok (granted : o.passwordGrant? = .ok grant) :
    grant.isSome = (o.username.isSome && o.password.isSome) := by
  unfold passwordGrant? at granted
  split at granted <;> rename_i username password <;> rw [username, password]
  · split at granted <;> cases granted
    rfl
  · cases granted
    rfl
  · cases granted
  · cases granted

theorem credible_of_credentials? (decided : o.credentials? = .ok credentials) : o.Credible := by
  unfold credentials? at decided
  obtain ⟨grant, granted, decided⟩ := Except.bind_eq_ok decided
  obtain ⟨paired, named⟩ := passwordGrant?_isOk_iff.mp ⟨grant, granted⟩
  have first := passwordGrant?_eq_ok granted
  split at decided
  · cases decided
  · rename_i kerberos token
    refine ⟨paired, named, ?_, fun _ => ?_, ?_⟩
    · simp [kinds, ← first, kerberos, token]
    · simpa [← paired] using first
    · simp [token]
  · rename_i kerberos token
    split at decided
    · cases decided
    rename_i signOn
    refine ⟨paired, named, ?_, fun basic => (signOn basic).elim, ?_⟩
    · simp [kinds, ← first, kerberos, token]
    · simp [token]
  · rename_i kerberos token
    split at decided
    · cases decided
    rename_i signOn
    refine ⟨paired, named, ?_, fun basic => (signOn basic).elim, ?_⟩
    · simp [kinds, ← first, kerberos, token]
    · split at decided
      · rename_i t given
        simpa [token] using given?_isSome_iff.mp ⟨t, given⟩
      · cases decided
  · cases decided

theorem credentials?_of_credible (credible : o.Credible) : ∃ credentials, o.credentials? = .ok credentials := by
  obtain ⟨paired, named, one, basic, sendable⟩ := credible
  obtain ⟨grant, granted⟩ := passwordGrant?_isOk_iff.mpr ⟨paired, named⟩
  have first := passwordGrant?_eq_ok granted
  unfold credentials?
  rw [granted]
  rw [kinds, ← first] at one
  have signOn : grant = none → o.auth ≠ .basic := by
    rintro rfl mode
    simp [← paired, basic mode] at first
  cases grant with
  | none =>
    have signOn := signOn rfl
    cases kerberos : o.kerberos with
    | none =>
      cases token : o.token with
      | none => simp [kerberos, token] at one
      | some t =>
        obtain ⟨t', given⟩ := given?_isSome_iff.mpr (sendable t token)
        refine ⟨.token t', ?_⟩
        change (if o.auth = .basic then _ else _) = _
        rw [if_neg signOn, given]
        rfl
    | some source =>
      cases token : o.token with
      | none => exact ⟨.kerberos source, if_neg signOn⟩
      | some t => simp [kerberos, token] at one
  | some pair =>
    obtain ⟨kerberos, token⟩ : o.kerberos = none ∧ o.token = none := by
      cases kerberos : o.kerberos <;> cases token : o.token <;> simp_all
    rw [kerberos, token]
    change ∃ c, (if o.auth = .basic then _ else _) = Except.ok c
    split
    · exact ⟨_, rfl⟩
    · exact ⟨_, rfl⟩

/-! ### Headers -/

theorem HeaderName.eq_authorization_iff {n : HeaderName} : n = .authorization ↔ n.chars = "authorization".toList := by
  constructor
  · rintro rfl
    rfl
  · intro same
    obtain ⟨chars, _⟩ := n
    subst same
    rfl

theorem name_eq_authorization_iff {s : String} {n : HeaderName} (parsed : HeaderName.parse? s = .ok n) :
    n = .authorization ↔ Text.sameLetters s.toList "authorization".toList = true := by
  have plain : Text.lower "authorization".toList = "authorization".toList := by decide
  have chars : n.chars = Text.lower s.toList := by
    unfold HeaderName.parse? at parsed
    dsimp only at parsed
    split at parsed
    · cases parsed
      rfl
    · cases parsed
  rw [HeaderName.eq_authorization_iff, chars, Text.sameLetters, plain, beq_iff_eq]

theorem header?_isOk_iff {h : String × String} : (∃ header, header? h = .ok header) ↔ Allows h := by
  unfold header? Allows
  cases name : HeaderName.parse? h.1 with
  | error e => simp
  | ok n =>
    have other : Text.sameLetters h.1.toList "authorization".toList = false ↔ n ≠ .authorization := by
      rw [Ne, name_eq_authorization_iff name, Bool.not_eq_true]
    rw [other]
    dsimp only
    by_cases authorization : n = .authorization
    · simp [authorization]
    · rw [if_neg authorization]
      cases HeaderValue.parse? h.2 <;> simp [authorization]

/-! ### All checks -/

theorem trusting_iff : o.Trusting ↔ ¬ (o.insecure && o.hasAuthorities) = true ∧
    ¬ (o.rootStore = .system && (o.insecure || o.hasAuthorities)) = true := by
  have none : o.hasAuthorities = false ↔ o.caFile = none ∧ o.caCerts = [] := by simp [hasAuthorities]
  constructor
  · rintro ⟨insecure, system⟩
    rw [← none] at insecure system
    simp only [Bool.and_eq_true, Bool.or_eq_true, decide_eq_true_eq, not_and]
    refine ⟨fun on => by simp [insecure on], fun store => ?_⟩
    obtain ⟨off, without⟩ := system store
    simp [off, without]
  · rintro ⟨insecure, system⟩
    simp only [Bool.and_eq_true, Bool.or_eq_true, decide_eq_true_eq, not_and, not_or, Bool.not_eq_true] at insecure system
    exact ⟨fun on => none.mp (insecure on), fun store => (system store).imp_right none.mp⟩

theorem acceptable_of_validate (valid : o.validate idna = .ok s) : o.Acceptable idna := by
  obtain ⟨root, yields⟩ := yields_of_validate valid
  have located := root?_isOk_iff.mp ⟨root, yields.located⟩
  have credible := credible_of_credentials? yields.credentials
  have headers := fun h member => header?_isOk_iff.mp (Except.mapM_isOk_iff.mp ⟨_, yields.headers⟩ h member)
  unfold validate at valid
  rw [yields.located, yields.credentials] at valid
  change (if _ then _ else _) = _ at valid
  rcases ite_eq_iff.mp valid with ⟨_, valid⟩ | ⟨insecure, valid⟩
  · cases valid
  rcases ite_eq_iff.mp valid with ⟨_, valid⟩ | ⟨system, valid⟩
  · cases valid
  rcases ite_eq_iff.mp valid with ⟨_, valid⟩ | ⟨margin, valid⟩
  · cases valid
  rcases ite_eq_iff.mp valid with ⟨_, valid⟩ | ⟨timeout, _⟩
  · cases valid
  exact ⟨located, credible, trusting_iff.mpr ⟨insecure, system⟩, Nat.not_lt.mp margin, Nat.pos_of_ne_zero timeout, headers,
    endpoint?_isOk_iff.mp ⟨_, yields.tokenUrl⟩, endpoint?_isOk_iff.mp ⟨_, yields.revokeUrl⟩⟩

theorem validate_of_acceptable (acceptable : o.Acceptable idna) : ∃ s, o.validate idna = .ok s := by
  obtain ⟨located, credible, trusting, margin, timeout, headers, tokenEndpoint, revokeEndpoint⟩ := acceptable
  obtain ⟨root, located⟩ := root?_isOk_iff.mpr located
  obtain ⟨credentials, decided⟩ := credentials?_of_credible credible
  obtain ⟨insecure, system⟩ := trusting_iff.mp trusting
  obtain ⟨hs, read⟩ := Except.mapM_isOk_iff.mpr fun h member => header?_isOk_iff.mpr (headers h member)
  obtain ⟨tokenUrl, token⟩ : ∃ url, endpoint? idna root .token o.tokenEndpoint (pathFor credentials) = .ok url :=
    endpoint?_isOk_iff.mpr tokenEndpoint
  obtain ⟨revokeUrl, revoke⟩ : ∃ url, endpoint? idna root .revoke o.revokeEndpoint revokePath = .ok url :=
    endpoint?_isOk_iff.mpr revokeEndpoint
  cases valid : o.validate idna with
  | ok s => exact ⟨s, rfl⟩
  | error e =>
    -- A refusal is followed from check to check, and none of them can be where it comes from.
    exfalso
    unfold validate at valid
    rw [located, decided] at valid
    change (if _ then _ else _) = _ at valid
    rcases ite_eq_iff.mp valid with ⟨wrong, _⟩ | ⟨_, valid⟩
    · exact insecure wrong
    rcases ite_eq_iff.mp valid with ⟨wrong, _⟩ | ⟨_, valid⟩
    · exact system wrong
    rcases ite_eq_iff.mp valid with ⟨wrong, _⟩ | ⟨_, valid⟩
    · exact Nat.not_lt.mpr margin wrong
    rcases ite_eq_iff.mp valid with ⟨wrong, _⟩ | ⟨_, valid⟩
    · exact Nat.ne_of_gt timeout wrong
    rw [read, revoke] at valid
    cases credentials <;>
    · dsimp only [pathFor] at token valid
      rw [token] at valid
      cases valid

/-- Options are accepted exactly if every check passes. -/
theorem validate_isOk_iff : (∃ s, o.validate idna = .ok s) ↔ o.Acceptable idna :=
  ⟨fun ⟨_, valid⟩ => acceptable_of_validate valid, validate_of_acceptable⟩

end Options
end EngineClient
