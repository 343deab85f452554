import EngineClient.Proofs.Accept.Options
import EngineClient.Proofs.Accept.Roots

/-!
# Connections that are set up

Options that are accepted ask for a client, and a client is set up exactly if its roots can be gathered and its proxy
can be named. Only this depends on files.
-/

namespace EngineClient

/-- A proxy has a URL with a host. -/
def ProxySettings.Named (p : ProxySettings) : Prop :=
  ∃ uri, Uri.parse? p.url = .ok uri ∧ uri.host?.isSome = true

theorem Proxy.ofSettings_isOk_iff {p : ProxySettings} : (∃ proxy, Proxy.ofSettings p = .ok proxy) ↔ p.Named := by
  unfold Proxy.ofSettings ProxySettings.Named
  cases Uri.parse? p.url with
  | error e => simp
  | ok uri => cases host : uri.host? <;> simp [host]

/-! ### Clients -/

theorem Client.build_isOk_iff {s : ClientSettings} : (∃ c, build fs s = .ok c) ↔
    (∀ sources, s.trust = .custom sources → ∃ roots, TrustStore.load fs sources = .ok roots) ∧
    (∃ defaults, DefaultHeaders.ofSettings s.userAgent s.defaultHeaders = .ok defaults) ∧
    ∀ p ∈ s.proxy, p.Named := by
  unfold build
  dsimp only
  cases s.trust <;> cases s.proxy <;>
    simp [-bind_pure_comp, Except.bind_isOk_iff, Except.map_isOk_iff, Except.mapError_isOk_iff, Proxy.ofSettings_isOk_iff,
      pure, Except.pure]

namespace Options
variable {o : Options}

/-- Roots are asked for exactly if sources are given. -/
theorem trust_eq_custom_iff (trusting : o.Trusting) {sources : List CaSource} :
    o.trust = .custom sources ↔ sources = o.caSources ∧ sources ≠ [] := by
  have none : o.caFile = none ∧ o.caCerts = [] → o.caSources = [] := by
    rintro ⟨file, certificates⟩
    simp [caSources, file, certificates]
  unfold trust
  split
  · rename_i insecure
    have empty := none (trusting.insecure insecure)
    simp [empty]
  split
  · rename_i system
    have empty := none (trusting.system system).2
    simp [empty]
  split
  · rename_i empty
    simp [List.isEmpty_iff.mp empty]
  · rename_i some
    rw [Trust.custom.injEq]
    constructor
    · rintro rfl
      exact ⟨rfl, fun empty => some (by simp [empty])⟩
    · rintro ⟨rfl, _⟩
      rfl

theorem agent_isOk : ∃ defaults, DefaultHeaders.ofSettings "ovirtsdk/0.1.0" [] = .ok defaults := by
  have agent : ∃ v, HeaderValue.parse? "ovirtsdk/0.1.0" = .ok v := HeaderValue.parseBytes?_isOk_iff.mpr (by decide)
  obtain ⟨v, agent⟩ := agent
  exact Except.bind_isOk_iff.mpr ⟨v, agent, _, rfl⟩

/-- What is logged of options that are accepted. -/
theorem warnings_of_validate (valid : o.validate idna = .ok s) :
    s.warnings = [] ∨ ∃ url, s.warnings = [.plainConnection url] := by
  unfold validate at valid
  obtain ⟨root, _, valid⟩ := Except.bind_eq_ok valid
  obtain ⟨_, _, valid⟩ := Except.bind_eq_ok valid
  dsimp only at valid
  iterate 4
    rcases ite_eq_iff.mp valid with ⟨_, valid⟩ | ⟨_, valid⟩
    · cases valid
  obtain ⟨_, _, valid⟩ := Except.bind_eq_ok valid
  obtain ⟨_, _, valid⟩ := Except.bind_eq_ok valid
  obtain ⟨_, _, valid⟩ := Except.bind_eq_ok valid
  obtain rfl := (Except.ok.inj valid).symm
  dsimp only
  split
  · exact .inr ⟨_, rfl⟩
  · exact .inl rfl

end Options

/-- An event that tells of options, or of the connection that was set up with them. -/
inductive LogEvent.Notice : LogEvent → Prop
  | created (url : String) : Notice (.created url)
  | plainConnection (url : String) : Notice (.plainConnection url)
  | plainAllowed : Notice .plainAllowed
  | unverified : Notice .unverified

namespace Connection
variable {o : Options}

theorem notices_of_create (idna : Idna) (fs : Files) (o : Options) : ∀ e ∈ (create idna fs o).1, e.Notice := by
  intro e member
  unfold create at member
  split at member
  · cases member
  · rename_i s valid
    have warned : ∀ e ∈ s.warnings ++ Client.warnings s.client, e.Notice := by
      intro e member
      rcases List.mem_append.mp member with own | client
      · rcases Options.warnings_of_validate valid with none | ⟨url, one⟩
        · simp [none] at own
        · obtain rfl : e = .plainConnection url := by simpa [one] using own
          exact .plainConnection url
      · have kinds : e = .plainAllowed ∨ e = .unverified := by
          unfold Client.warnings at client
          grind
        rcases kinds with rfl | rfl
        · exact .plainAllowed
        · exact .unverified
    dsimp only at member
    split at member
    · exact warned e member
    · rcases List.mem_append.mp member with before | last
      · exact warned e before
      · obtain rfl := List.mem_singleton.mp last
        exact .created _

theorem create_isOk_iff (idna : Idna) (fs : Files) (o : Options) : (∃ c, (create idna fs o).2 = .ok c) ↔
    o.Acceptable idna ∧ (∀ source ∈ o.caSources, source.Sound fs) ∧ ∀ p ∈ o.proxy, p.Named := by
  have sources (trusting : o.Trusting) :
      (∀ sources, o.trust = .custom sources → ∃ roots, TrustStore.load fs sources = .ok roots) ↔
        ∀ source ∈ o.caSources, source.Sound fs := by
    simp only [Options.trust_eq_custom_iff trusting, TrustStore.load_isOk_iff]
    constructor
    · intro loads source member
      exact (loads _ ⟨rfl, List.ne_nil_of_mem member⟩).2 source member
    · rintro sound _ ⟨rfl, some⟩
      exact ⟨some, sound⟩
  rw [← Options.validate_isOk_iff]
  unfold create
  cases valid : o.validate idna with
  | error e => simp
  | ok s =>
    obtain ⟨u, yields⟩ := Options.yields_of_validate valid
    have trusting := (Options.acceptable_of_validate valid).trusting
    have built : (∃ c, Client.build fs s.client = .ok c) ↔
        (∀ source ∈ o.caSources, source.Sound fs) ∧ ∀ p ∈ o.proxy, p.Named := by
      rw [yields.client, Client.build_isOk_iff]
      exact and_congr (sources trusting) (and_iff_right Options.agent_isOk)
    simp only [Except.ok.injEq, exists_eq', true_and]
    rw [← built]
    cases Client.build fs s.client <;> simp

theorem error_of_create (refused : (create idna fs o).2 = .error e) : ∃ cause, e = .options cause := by
  unfold create at refused
  split at refused
  · rename_i cause _
    cases refused
    exact ⟨cause, rfl⟩
  · dsimp only at refused
    split at refused
    · rename_i cause _
      cases refused
      exact ⟨.client cause, rfl⟩
    · cases refused

end Connection

/-- A connection is set up exactly with acceptable options whose roots can be gathered and whose proxy has a host. What
fails is always an error of options, and nothing is logged but notices of them: no network is at hand. Which options are
refused before roots are gathered is decided without any file. -/
theorem options_decide_setup (idna : Idna) (fs : Files) (o : Options) :
    ((∃ c, (Connection.create idna fs o).2 = .ok c) ↔
      o.Acceptable idna ∧ (∀ source ∈ o.caSources, source.Sound fs) ∧ ∀ p ∈ o.proxy, p.Named) ∧
    (∀ e, (Connection.create idna fs o).2 = .error e → ∃ cause, e = .options cause) ∧
    (∀ event ∈ (Connection.create idna fs o).1, event.Notice) ∧
    (¬ o.Acceptable idna → ∃ cause, ∀ fs', Connection.create idna fs' o = ([], .error (.options cause))) := by
  refine ⟨Connection.create_isOk_iff idna fs o, fun e => Connection.error_of_create, Connection.notices_of_create idna fs o, ?_⟩
  intro unacceptable
  cases refused : o.validate idna with
  | ok s => exact (unacceptable (Options.acceptable_of_validate refused)).elim
  | error cause =>
    refine ⟨cause, fun fs' => ?_⟩
    unfold Connection.create
    rw [refused]

end EngineClient
