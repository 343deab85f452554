import EngineClient.Proofs.Accept.Connection

/-!
# Roots from sources

Custom trust is all or nothing. Either every source is read to its end and gives certificates that are accepted, and
the roots are all of them in order, or the first source that fails decides the error and there is no client. Parsing
armoured text and accepting certificates are parameters here; the functions in use are one choice of them.
-/

namespace EngineClient

/-! ### Lists of attempts -/

/-- All attempts succeed exactly with what each of them gives, in order. -/
theorem Except.mapM_eq_ok_iff {f : α → Except ε β} {xs : List α} {ys : List β} :
    xs.mapM f = .ok ys ↔ List.Forall₂ (fun x y => f x = .ok y) xs ys := by
  induction xs generalizing ys with
  | nil => cases ys <;> simp [pure, Except.pure]
  | cons x xs ih =>
    rw [List.mapM_cons]
    constructor
    · intro all
      obtain ⟨y, first, all⟩ := Except.bind_eq_ok all
      obtain ⟨ys, rest, all⟩ := Except.bind_eq_ok all
      cases all
      exact .cons first (ih.mp rest)
    · intro each
      cases each with
      | cons first rest =>
        rw [first, ih.mpr rest]
        rfl

/-- Attempts fail as the first one does that fails; those after it are not made. -/
theorem Except.mapM_eq_error_iff {f : α → Except ε β} {xs : List α} : xs.mapM f = .error e ↔
    ∃ before x after, xs = before ++ x :: after ∧ (∀ y ∈ before, ∃ b, f y = .ok b) ∧ f x = .error e := by
  induction xs with
  | nil => simp [pure, Except.pure]
  | cons x xs ih =>
    rw [List.mapM_cons]
    cases first : f x with
    | error e' =>
      constructor
      · intro fails
        cases fails
        exact ⟨[], x, xs, rfl, by simp, first⟩
      · rintro ⟨before, y, after, split, passed, fails⟩
        cases before with
        | nil =>
          obtain ⟨rfl, rfl⟩ := List.cons.inj split
          exact congrArg Except.error (Except.error.inj (first.symm.trans fails))
        | cons z before =>
          obtain ⟨rfl, _⟩ := List.cons.inj split
          obtain ⟨b, made⟩ := passed x List.mem_cons_self
          cases first.symm.trans made
    | ok b =>
      have later : (Except.ok b >>= fun y => xs.mapM f >>= fun ys => pure (y :: ys)) = .error e ↔ xs.mapM f = .error e := by
        cases xs.mapM f <;> simp [bind, Except.bind, pure, Except.pure]
      rw [later, ih]
      constructor
      · rintro ⟨before, y, after, rfl, passed, fails⟩
        exact ⟨x :: before, y, after, rfl, List.forall_mem_cons.mpr ⟨⟨b, first⟩, passed⟩, fails⟩
      · rintro ⟨before, y, after, split, passed, fails⟩
        cases before with
        | nil =>
          obtain ⟨rfl, rfl⟩ := List.cons.inj split
          cases first.symm.trans fails
        | cons z before =>
          obtain ⟨rfl, rfl⟩ := List.cons.inj split
          exact ⟨before, y, after, rfl, (List.forall_mem_cons.mp passed).2, fails⟩

theorem Except.forM_eq_map {f : α → Except ε Unit} (xs : List α) : xs.forM f = (xs.mapM f).map fun _ => () := by
  induction xs with
  | nil => rfl
  | cons x xs ih =>
    rw [List.mapM_cons]
    change (f x >>= fun _ => xs.forM f) = _
    rw [ih]
    cases f x with
    | error e => rfl
    | ok _ => cases xs.mapM f <;> rfl

theorem Except.mapError_eq_ok_iff {x : Except ε α} {f : ε → δ} : x.mapError f = .ok a ↔ x = .ok a := by
  cases x <;> simp [Except.mapError]

theorem Except.mapError_eq_error_iff {x : Except ε α} {f : ε → δ} :
    x.mapError f = .error d ↔ ∃ e, x = .error e ∧ d = f e := by
  cases x <;> simp [Except.mapError, eq_comm]

/-! ### Single sources -/

/-- A way to parse armoured text, which is told whether lines keep their ends. -/
abbrev Pem.Parser := Bool → Bytes → Except Pem.Error (List Bytes)

abbrev Certificate.Checker := Bytes → Except Certificate.Error Unit

namespace CaSource

/-- The certificates of a source by any way to parse them. -/
def readBy (parse : Pem.Parser) (fs : Files) : CaSource → Except TrustError (List Bytes)
  | .file path =>
    match fs.open? path with
    | .error e => .error (.unopened path e)
    | .ok (.unreadable e) => .error (.unread path e)
    | .ok (.file bytes) => (parse true bytes).mapError (.malformedFile path)
  | .pem bytes => (parse false bytes).mapError .malformedBytes

theorem read_eq (fs : Files) : read fs = readBy Pem.certificates fs := by
  funext source
  cases source <;> rfl

/-- A source is there and parses to its end, as these certificates. -/
inductive Reads (parse : Pem.Parser) (fs : Files) : CaSource → List Bytes → Prop
  | file (opened : fs.open? path = .ok (.file bytes)) (parsed : parse true bytes = .ok certificates) :
    Reads parse fs (.file path) certificates
  | pem (parsed : parse false bytes = .ok certificates) : Reads parse fs (.pem bytes) certificates

/-- A source gives certificates, at least one, and all of them are accepted. -/
structure Gives (parse : Pem.Parser) (check : Certificate.Checker) (fs : Files) (source : CaSource)
    (certificates : List Bytes) : Prop where
  reads : source.Reads parse fs certificates
  filled : certificates ≠ []
  accepted : ∀ c ∈ certificates, check c = .ok ()

/-- What is wrong with a source. Of several certificates that are not accepted the first one counts. -/
inductive Fails (parse : Pem.Parser) (check : Certificate.Checker) (fs : Files) : CaSource → TrustError → Prop
  | unopened (closed : fs.open? path = .error e) : Fails parse check fs (.file path) (.unopened path e)
  | unread (opened : fs.open? path = .ok (.unreadable e)) : Fails parse check fs (.file path) (.unread path e)
  | malformedFile (opened : fs.open? path = .ok (.file bytes)) (broken : parse true bytes = .error e) :
    Fails parse check fs (.file path) (.malformedFile path e)
  | malformedBytes (broken : parse false bytes = .error e) : Fails parse check fs (.pem bytes) (.malformedBytes e)
  | noCertificate (reads : source.Reads parse fs []) : Fails parse check fs source (.noCertificate source)
  | badCertificate (reads : source.Reads parse fs (before ++ c :: after)) (accepted : ∀ good ∈ before, check good = .ok ())
    (refused : check c = .error e) : Fails parse check fs source (.badCertificate e)

section
variable {parse : Pem.Parser} {check : Certificate.Checker} {fs : Files} {source : CaSource}

theorem readBy_eq_ok_iff : source.readBy parse fs = .ok certificates ↔ source.Reads parse fs certificates := by
  constructor
  · intro read
    cases source with
    | file path =>
      simp only [readBy] at read
      split at read
      · cases read
      · cases read
      · rename_i bytes opened
        exact .file opened (Except.mapError_eq_ok_iff.mp read)
    | pem bytes => exact .pem (Except.mapError_eq_ok_iff.mp read)
  · rintro (⟨opened, parsed⟩ | parsed)
    · simp only [readBy, opened]
      exact Except.mapError_eq_ok_iff.mpr parsed
    · exact Except.mapError_eq_ok_iff.mpr parsed

/-- A source that cannot be read or parsed is wrong in one of four ways. -/
theorem fails_of_readBy (failed : source.readBy parse fs = .error e) : source.Fails parse check fs e := by
  cases source with
  | file path =>
    simp only [readBy] at failed
    split at failed
    · rename_i closed
      cases failed
      exact .unopened closed
    · rename_i opened
      cases failed
      exact .unread opened
    · rename_i opened
      obtain ⟨cause, broken, rfl⟩ := Except.mapError_eq_error_iff.mp failed
      exact .malformedFile opened broken
  | pem bytes =>
    obtain ⟨cause, broken, rfl⟩ := Except.mapError_eq_error_iff.mp failed
    exact .malformedBytes broken

end
end CaSource

namespace TrustStore
open CaSource
variable {parse : Pem.Parser} {check : Certificate.Checker} {fs : Files} {source : CaSource} {sources : List CaSource}

theorem rootsOf_of_read {read : CaSource → Except TrustError (List Bytes)} (found : read source = .ok certificates)
    (filled : certificates ≠ []) : rootsOf read check source =
      (certificates.mapM fun c => (check c).mapError TrustError.badCertificate).map fun _ => certificates := by
  unfold rootsOf
  rw [found]
  change (if certificates.isEmpty = true then _ else _) = _
  rw [if_neg (by simpa using filled)]
  change (certificates.forM (fun c => (check c).mapError TrustError.badCertificate) >>= fun _ => pure certificates) = _
  rw [Except.forM_eq_map]
  cases certificates.mapM fun c => (check c).mapError TrustError.badCertificate <;> rfl

theorem rootsOf_of_empty {read : CaSource → Except TrustError (List Bytes)} (found : read source = .ok []) :
    rootsOf read check source = .error (.noCertificate source) := by
  unfold rootsOf
  rw [found]
  rfl

theorem rootsOf_of_error {read : CaSource → Except TrustError (List Bytes)} (failed : read source = .error e) :
    rootsOf read check source = .error e := by
  unfold rootsOf
  rw [failed]
  rfl

theorem rootsOf_of_gives (gives : source.Gives parse check fs certificates) :
    rootsOf (readBy parse fs) check source = .ok certificates := by
  obtain ⟨reads, filled, accepted⟩ := gives
  rw [rootsOf_of_read (readBy_eq_ok_iff.mpr reads) filled]
  obtain ⟨us, passed⟩ : ∃ us, (certificates.mapM fun c => (check c).mapError TrustError.badCertificate) = .ok us :=
    Except.mapM_isOk_iff.mpr fun c member => ⟨(), Except.mapError_eq_ok_iff.mpr (accepted c member)⟩
  rw [passed]
  rfl

theorem refused_first {before after : List Bytes} (accepted : ∀ good ∈ before, check good = .ok ())
    (refused : check c = .error e) : (before ++ c :: after).mapM (fun c => (check c).mapError TrustError.badCertificate) =
      .error (.badCertificate e) := by
  refine Except.mapM_eq_error_iff.mpr ⟨before, c, after, rfl, fun good member => ⟨(), ?_⟩, ?_⟩
  · exact Except.mapError_eq_ok_iff.mpr (accepted good member)
  · exact Except.mapError_eq_error_iff.mpr ⟨e, refused, rfl⟩

theorem rootsOf_of_fails (fails : source.Fails parse check fs e) : rootsOf (readBy parse fs) check source = .error e := by
  cases fails with
  | unopened closed => exact rootsOf_of_error (by simp [readBy, closed])
  | unread opened => exact rootsOf_of_error (by simp [readBy, opened])
  | malformedFile opened broken => exact rootsOf_of_error (by simp [readBy, opened, broken, Except.mapError])
  | malformedBytes broken => exact rootsOf_of_error (by simp [readBy, broken, Except.mapError])
  | noCertificate reads => exact rootsOf_of_empty (readBy_eq_ok_iff.mpr reads)
  | badCertificate reads accepted refused =>
    rw [rootsOf_of_read (readBy_eq_ok_iff.mpr reads) (by simp), refused_first accepted refused]
    rfl

/-- A source gives its certificates or fails. -/
theorem gives_or_fails (parse : Pem.Parser) (check : Certificate.Checker) (fs : Files) (source : CaSource) :
    (∃ certificates, source.Gives parse check fs certificates) ∨ ∃ e, source.Fails parse check fs e := by
  cases found : source.readBy parse fs with
  | error e => exact .inr ⟨e, fails_of_readBy found⟩
  | ok certificates =>
    have reads := readBy_eq_ok_iff.mp found
    by_cases empty : certificates = []
    · subst empty
      exact .inr ⟨_, .noCertificate reads⟩
    cases checked : certificates.mapM check with
    | ok us =>
      refine .inl ⟨certificates, reads, empty, fun c member => ?_⟩
      obtain ⟨_, accepted⟩ := Except.mapM_isOk_iff.mp ⟨us, checked⟩ c member
      exact accepted
    | error e =>
      obtain ⟨before, c, after, rfl, accepted, refused⟩ := Except.mapM_eq_error_iff.mp checked
      refine .inr ⟨_, .badCertificate reads (fun good member => ?_) refused⟩
      obtain ⟨_, passed⟩ := accepted good member
      exact passed

theorem rootsOf_eq_ok_iff :
    rootsOf (readBy parse fs) check source = .ok certificates ↔ source.Gives parse check fs certificates := by
  refine ⟨fun made => ?_, rootsOf_of_gives⟩
  rcases gives_or_fails parse check fs source with ⟨certificates', gives⟩ | ⟨e, fails⟩
  · obtain rfl := Except.ok.inj (made.symm.trans (rootsOf_of_gives gives))
    exact gives
  · cases made.symm.trans (rootsOf_of_fails fails)

theorem rootsOf_eq_error_iff : rootsOf (readBy parse fs) check source = .error e ↔ source.Fails parse check fs e := by
  refine ⟨fun failed => ?_, rootsOf_of_fails⟩
  rcases gives_or_fails parse check fs source with ⟨certificates, gives⟩ | ⟨e', fails⟩
  · cases failed.symm.trans (rootsOf_of_gives gives)
  · obtain rfl := Except.error.inj (failed.symm.trans (rootsOf_of_fails fails))
    exact fails

/-! ### All sources -/

/-- Roots that are all certificates of some sources, each of which gives its own. -/
def Holds (parse : Pem.Parser) (check : Certificate.Checker) (fs : Files) (sources : List CaSource) (roots : List Bytes) :
    Prop :=
  sources ≠ [] ∧ ∃ held, List.Forall₂ (Gives parse check fs) sources held ∧ roots = held.flatten

/-- Why there are no roots: no source is given, or the first one that fails. -/
inductive Lacks (parse : Pem.Parser) (check : Certificate.Checker) (fs : Files) : List CaSource → TrustError → Prop
  | noSource : Lacks parse check fs [] .noRoots
  | source (given : ∀ s ∈ before, ∃ certificates, s.Gives parse check fs certificates) (fails : s.Fails parse check fs e) :
    Lacks parse check fs (before ++ s :: after) e

theorem gather_eq (read : CaSource → Except TrustError (List Bytes)) (given : sources ≠ []) :
    gather read check sources = (sources.mapM (rootsOf read check)).map List.flatten := by
  unfold gather
  cases all : sources.mapM (rootsOf read check) with
  | error e => rfl
  | ok roots =>
    have length := (Except.mapM_eq_ok_iff.mp all).length_eq
    have filled : ¬ roots.isEmpty = true := by
      intro empty
      rw [List.isEmpty_iff.mp empty] at length
      exact given (List.length_eq_zero_iff.mp length)
    change (if roots.isEmpty = true then _ else _) = _
    rw [if_neg filled]
    rfl

theorem gather_eq_ok_iff : gather (readBy parse fs) check sources = .ok roots ↔ Holds parse check fs sources roots := by
  by_cases none : sources = []
  · subst none
    constructor
    · intro made
      cases made
    · rintro ⟨given, _⟩
      exact absurd rfl given
  rw [gather_eq _ none]
  have each : ∀ held, sources.mapM (rootsOf (readBy parse fs) check) = .ok held ↔
      List.Forall₂ (Gives parse check fs) sources held := by
    intro held
    simp only [Except.mapM_eq_ok_iff, rootsOf_eq_ok_iff]
  constructor
  · intro made
    obtain ⟨held, all, rfl⟩ := Except.map_eq_ok made
    exact ⟨none, held, (each held).mp all, rfl⟩
  · rintro ⟨_, held, all, rfl⟩
    rw [(each held).mpr all]
    rfl

theorem gather_eq_error_iff : gather (readBy parse fs) check sources = .error e ↔ Lacks parse check fs sources e := by
  by_cases none : sources = []
  · subst none
    constructor
    · intro failed
      cases failed
      exact .noSource
    · intro lacks
      generalize none : ([] : List CaSource) = sources at lacks
      cases lacks with
      | noSource => rfl
      | source _ _ => simp at none
  rw [gather_eq _ none]
  have same : (sources.mapM (rootsOf (readBy parse fs) check)).map List.flatten = .error e ↔
      sources.mapM (rootsOf (readBy parse fs) check) = .error e := by
    cases sources.mapM (rootsOf (readBy parse fs) check) <;> simp [Except.map]
  rw [same, Except.mapM_eq_error_iff]
  simp only [rootsOf_eq_ok_iff, rootsOf_eq_error_iff]
  constructor
  · rintro ⟨before, s, after, rfl, given, fails⟩
    exact .source given fails
  · intro lacks
    cases lacks with
    | noSource => exact absurd rfl none
    | source given fails => exact ⟨_, _, _, rfl, given, fails⟩

theorem load_eq (fs : Files) (sources : List CaSource) :
    load fs sources = gather (readBy Pem.certificates fs) Certificate.check sources := by
  rw [load, read_eq]

end TrustStore

/-! ### Clients and connections -/

namespace Client
variable {fs : Files} {s : ClientSettings} {sources : List CaSource}

theorem roots_of_build (custom : s.trust = .custom sources) (built : build fs s = .ok c) :
    ∃ roots, TrustStore.load fs sources = .ok roots ∧ c.roots = some roots := by
  unfold build at built
  rw [custom] at built
  obtain ⟨found, trusted, built⟩ := Except.bind_eq_ok built
  obtain ⟨roots, loaded, rfl⟩ := Except.map_eq_ok trusted
  obtain ⟨_, _, built⟩ := Except.bind_eq_ok built
  -- The proxy says nothing about the roots.
  split at built <;> obtain ⟨_, _, built⟩ := Except.bind_eq_ok built <;> cases built <;>
    exact ⟨roots, Except.mapError_eq_ok_iff.mp loaded, rfl⟩

theorem build_of_lost (custom : s.trust = .custom sources) (lost : TrustStore.load fs sources = .error e) :
    build fs s = .error (.setup (.trust e)) := by
  unfold build
  rw [custom]
  dsimp only
  rw [lost]
  rfl

end Client

namespace Connection
variable {fs : Files} {o : Options}

theorem roots_of_create (given : o.caSources ≠ []) (created : (create idna fs o).2 = .ok c) :
    ∃ roots, TrustStore.load fs o.caSources = .ok roots ∧ c.client.roots = some roots := by
  obtain ⟨s, u, yields, valid, built, _⟩ := yields_of_create (Prod.ext rfl created)
  have trusting := (Options.acceptable_of_validate valid).trusting
  have custom : s.client.trust = .custom o.caSources := by
    rw [yields.client]
    exact (Options.trust_eq_custom_iff trusting).mpr ⟨rfl, given⟩
  exact Client.roots_of_build custom built

theorem create_of_lost (given : o.caSources ≠ []) (lost : TrustStore.load fs o.caSources = .error e) :
    (∃ cause, (create idna fs o).2 = .error (.options cause)) ∧
      (o.Acceptable idna → (create idna fs o).2 = .error (.options (.client (.setup (.trust e))))) := by
  constructor
  · cases made : (create idna fs o).2 with
    | error e =>
      obtain ⟨cause, rfl⟩ := error_of_create made
      exact ⟨cause, rfl⟩
    | ok c =>
      obtain ⟨_, loaded, _⟩ := roots_of_create given made
      cases loaded.symm.trans lost
  · intro acceptable
    obtain ⟨s, valid⟩ := Options.validate_isOk_iff.mpr acceptable
    obtain ⟨u, yields⟩ := Options.yields_of_validate valid
    have custom : s.client.trust = .custom o.caSources := by
      rw [yields.client]
      exact (Options.trust_eq_custom_iff acceptable.trusting).mpr ⟨rfl, given⟩
    unfold create
    rw [valid]
    dsimp only
    rw [Client.build_of_lost custom lost]

end Connection

/-- Roots from sources are all of their certificates in order, for any way to parse and to accept them, if there are
sources and each of them can be read, parses to its end, and holds certificates, all accepted. Otherwise the error is that
of the first source that fails, whatever comes after it; a client that is to trust the sources, or a connection, is then
not set up, and the error is one of its settings. -/
theorem custom_trust_all_or_nothing (idna : Idna) (fs : Files) (sources : List CaSource) :
    (∀ parse check,
      (∀ roots, TrustStore.gather (CaSource.readBy parse fs) check sources = .ok roots ↔
        TrustStore.Holds parse check fs sources roots) ∧
      (∀ e, TrustStore.gather (CaSource.readBy parse fs) check sources = .error e ↔
        TrustStore.Lacks parse check fs sources e)) ∧
    TrustStore.load fs sources = TrustStore.gather (CaSource.readBy Pem.certificates fs) Certificate.check sources ∧
    (∀ s : ClientSettings, s.trust = .custom sources →
      (∀ c, Client.build fs s = .ok c → ∃ roots,
        TrustStore.Holds Pem.certificates Certificate.check fs sources roots ∧ c.roots = some roots) ∧
      (∀ e, TrustStore.Lacks Pem.certificates Certificate.check fs sources e →
        Client.build fs s = .error (.setup (.trust e)))) ∧
    (∀ o : Options, o.caSources = sources → sources ≠ [] →
      (∀ c, (Connection.create idna fs o).2 = .ok c → ∃ roots,
        TrustStore.Holds Pem.certificates Certificate.check fs sources roots ∧ c.client.roots = some roots) ∧
      (∀ e, TrustStore.Lacks Pem.certificates Certificate.check fs sources e →
        (∃ cause, (Connection.create idna fs o).2 = .error (.options cause)) ∧
        (o.Acceptable idna → (Connection.create idna fs o).2 = .error (.options (.client (.setup (.trust e))))))) := by
  have holds : ∀ {roots}, TrustStore.load fs sources = .ok roots →
      TrustStore.Holds Pem.certificates Certificate.check fs sources roots := by
    intro roots loaded
    rw [TrustStore.load_eq] at loaded
    exact TrustStore.gather_eq_ok_iff.mp loaded
  have lost : ∀ {e}, TrustStore.Lacks Pem.certificates Certificate.check fs sources e →
      TrustStore.load fs sources = .error e := by
    intro e lacks
    rw [TrustStore.load_eq]
    exact TrustStore.gather_eq_error_iff.mpr lacks
  refine ⟨fun parse check => ⟨fun roots => TrustStore.gather_eq_ok_iff, fun e => TrustStore.gather_eq_error_iff⟩,
    TrustStore.load_eq fs sources, fun s custom => ⟨fun c built => ?_, fun e lacks => ?_⟩, ?_⟩
  · obtain ⟨roots, loaded, kept⟩ := Client.roots_of_build custom built
    exact ⟨roots, holds loaded, kept⟩
  · exact Client.build_of_lost custom (lost lacks)
  · rintro o rfl given
    refine ⟨fun c created => ?_, fun e lacks => Connection.create_of_lost given (lost lacks)⟩
    obtain ⟨roots, loaded, kept⟩ := Connection.roots_of_create given created
    exact ⟨roots, holds loaded, kept⟩

namespace Sample

/-- The least that is accepted as a certificate. -/
def certificate : Bytes :=
  [0x30, 0x19, 0x30, 0x12, 0xA0, 3, 2, 1, 2, 2, 1, 1, 0x30, 0, 0x30, 0, 0x30, 0, 0x30, 0, 0x30, 0, 0x30, 0, 3, 1, 0]

def armour : String :=
  "-----BEGIN CERTIFICATE-----\nMBkwEqADAgECAgEBMAAwADAAMAAwADAAAwEA\n-----END CERTIFICATE-----\n"

/-- A certificate that breaks off. -/
def armourCut : String :=
  "-----BEGIN CERTIFICATE-----\nMBkwEqADAgECAgEB\n"

/-- A file of two certificates. -/
def authorities : Files where
  open? path := if path = "/etc/pki/ca.pem" then .ok (.file (Text.utf8 (armour ++ armour))) else .error .notFound

def trusting (more : List String) : Options :=
  { caFile := some "/etc/pki/ca.pem", caCerts := armour :: more }

end Sample

/-- Three certificates of two sources; none of them once a third source breaks off. -/
theorem custom_trust_all_or_nothing_cut_short :
    TrustStore.Holds Pem.certificates Certificate.check Sample.authorities (Sample.trusting []).caSources
      [Sample.certificate, Sample.certificate, Sample.certificate] ∧
    TrustStore.Lacks Pem.certificates Certificate.check Sample.authorities (Sample.trusting [Sample.armourCut]).caSources
      (.malformedBytes (.openSection (Text.utf8 "CERTIFICATE"))) ∧
    ∃ cause, (Connection.create .ascii Sample.authorities (Sample.trusting [Sample.armourCut])).2 = .error (.options cause) := by
  obtain ⟨whole, _⟩ := custom_trust_all_or_nothing .ascii Sample.authorities (Sample.trusting []).caSources
  obtain ⟨broken, _, _, connections⟩ :=
    custom_trust_all_or_nothing .ascii Sample.authorities (Sample.trusting [Sample.armourCut]).caSources
  have lacks := ((broken Pem.certificates Certificate.check).2 (.malformedBytes (.openSection (Text.utf8 "CERTIFICATE")))).mp
    (by decide +kernel)
  exact ⟨((whole Pem.certificates Certificate.check).1 _).mp (by decide +kernel), lacks,
    ((connections _ rfl (by decide)).2 _ lacks).1⟩

end EngineClient
