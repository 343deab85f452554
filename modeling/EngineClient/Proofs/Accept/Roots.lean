import EngineClient.Proofs.Outbound
import EngineClient.Trust.Store

/-!
# Roots that can be gathered

Roots are gathered from sources exactly if there are any and each can be read, holds a certificate and holds none that
is bad. `gather` is followed for any reader and any check.
-/

namespace EngineClient

/-- A source can be read, and what it holds are certificates, at least one. -/
def CaSource.Sound (fs : Files) (source : CaSource) : Prop :=
  ∃ certificates, source.read fs = .ok certificates ∧ certificates ≠ [] ∧
    ∀ c ∈ certificates, Certificate.check c = .ok ()

namespace TrustStore
variable {read : CaSource → Except TrustError (List Bytes)} {check : Bytes → Except Certificate.Error Unit}

theorem forM_isOk_iff {certificates : List Bytes} :
    certificates.forM (fun c => (check c).mapError TrustError.badCertificate) = .ok () ↔
      ∀ c ∈ certificates, check c = .ok () := by
  induction certificates with
  | nil => simp [pure, Except.pure]
  | cons c rest ih =>
    rw [List.forall_mem_cons, ← ih]
    change ((check c).mapError TrustError.badCertificate >>= fun _ => rest.forM _) = _ ↔ _
    cases check c with
    | error e => simp [Except.mapError, bind, Except.bind]
    | ok u => simp [Except.mapError, bind, Except.bind]

theorem rootsOf_isOk_iff {source : CaSource} : (∃ roots, rootsOf read check source = .ok roots) ↔
    ∃ certificates, read source = .ok certificates ∧ certificates ≠ [] ∧ ∀ c ∈ certificates, check c = .ok () := by
  unfold rootsOf
  cases given : read source with
  | error e => simp [bind, Except.bind]
  | ok certificates =>
    cases certificates with
    | nil => simp [bind, Except.bind, throw, throwThe, MonadExceptOf.throw]
    | cons c rest =>
      simp only [Except.ok.injEq, exists_eq_left', ne_eq, reduceCtorEq, not_false_eq_true, true_and]
      rw [← forM_isOk_iff]
      change (∃ roots, (List.forM (c :: rest) _ >>= fun _ => _) = Except.ok roots) ↔ _
      cases List.forM (c :: rest) fun c => (check c).mapError TrustError.badCertificate with
      | error e => simp [bind, Except.bind]
      | ok u => simp [bind, Except.bind, pure, Except.pure]

theorem gather_isOk_iff {sources : List CaSource} : (∃ roots, gather read check sources = .ok roots) ↔
    sources ≠ [] ∧ ∀ source ∈ sources, ∃ certificates, read source = .ok certificates ∧ certificates ≠ [] ∧
      ∀ c ∈ certificates, check c = .ok () := by
  have each : (∀ source ∈ sources, ∃ roots, rootsOf read check source = .ok roots) ↔ _ :=
    forall₂_congr fun source _ => rootsOf_isOk_iff
  rw [← each, ← Except.mapM_isOk_iff]
  unfold gather
  cases sources with
  | nil => simp [bind, Except.bind, pure, Except.pure, throw, throwThe, MonadExceptOf.throw]
  | cons source rest =>
    rw [List.mapM_cons]
    cases rootsOf read check source with
    | error e => simp [bind, Except.bind]
    | ok first =>
      cases rest.mapM (rootsOf read check) with
      | error e => simp [bind, Except.bind]
      | ok others => simp [bind, Except.bind, pure, Except.pure]

theorem load_isOk_iff {fs : Files} {sources : List CaSource} : (∃ roots, load fs sources = .ok roots) ↔
    sources ≠ [] ∧ ∀ source ∈ sources, source.Sound fs :=
  gather_isOk_iff

end TrustStore
end EngineClient
