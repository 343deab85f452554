import EngineClient.Proofs.Alone.Token

/-!
# When tokens expire

A token is used for its lifetime, counted from its issue, less the margin or half of the lifetime, whichever is less.
`expiry_exact` says so in nanoseconds. Moments that cannot be named change nothing: a token whose end is none never
expires, and any other one has expired where the end of the margin is none.
-/

namespace EngineClient

theorem Instant.add?_eq_some_iff {moment later : Instant} {d : Span} :
    moment.add? d = some later ↔ moment.nanos + d.nanos < bound ∧ later.nanos = moment.nanos + d.nanos := by
  obtain ⟨n⟩ := later
  unfold add?
  split
  · rename_i named
    simp [named, eq_comm]
  · rename_i beyond
    simp [beyond]

namespace AccessToken

section
variable {t : AccessToken} {moment now later ends : Instant} {value : String} {life elapsed margin wider : Span}

theorem Near.mono (near : t.Near now margin) (after : now.nanos ≤ later.nanos) (more : margin.nanos ≤ wider.nanos) :
    t.Near later wider := by
  obtain ⟨life, ends, lifetime, expires, close⟩ := near
  have wide : Nat.min margin.nanos (life.nanos / 2) ≤ Nat.min wider.nanos (life.nanos / 2) :=
    Nat.le_min_of_le_of_le (Nat.le_trans (Nat.min_le_left _ _) more) (Nat.min_le_right _ _)
  exact ⟨life, ends, lifetime, expires, by omega⟩

/-- Less than a nanosecond of the margin is lost where the lifetime is halved, and that decides nothing. -/
theorem le_add_half_iff (l e m : Nat) : l ≤ e + Nat.min m (l / 2) ↔ 2 * l ≤ 2 * e + Nat.min (2 * m) l := by
  have left : Nat.min m (l / 2) = min m (l / 2) := rfl
  have right : Nat.min (2 * m) l = min (2 * m) l := rfl
  rw [left, right]
  omega

section Issued
variable (issued : issued? moment value (some life) = some t)
include issued

theorem isExpired_iff_elapsed (named : moment.add? life = some ends) (reached : moment.add? elapsed = some now) :
    t.isExpired now margin = true ↔ life.nanos ≤ elapsed.nanos + Nat.min margin.nanos (life.nanos / 2) := by
  obtain ⟨_, _, lifetime, expires⟩ := issued?_eq_some issued
  have expires : t.expiresAt = some ends := expires.trans named
  obtain ⟨_, now_eq⟩ := Instant.add?_eq_some_iff.mp reached
  obtain ⟨_, ends_eq⟩ := Instant.add?_eq_some_iff.mp named
  rw [isExpired_iff_near ⟨_, _, _, issued⟩]
  constructor
  · rintro ⟨life', ends', lifetime', expires', close⟩
    obtain rfl := Option.some.inj (lifetime.symm.trans lifetime')
    obtain rfl := Option.some.inj (expires.symm.trans expires')
    omega
  · intro close
    exact ⟨life, ends, lifetime, expires, by omega⟩

theorem isExpired_of_unnamed (unnamed : moment.add? life = none) (now : Instant) (margin : Span) :
    t.isExpired now margin = false := by
  obtain ⟨_, _, _, expires⟩ := issued?_eq_some issued
  have endless : t.expiresAt = none := expires.trans unnamed
  rw [isExpired, endless]

theorem isExpired_mono (expired : t.isExpired now margin = true) (after : now.nanos ≤ later.nanos)
    (more : margin.nanos ≤ wider.nanos) : t.isExpired later wider = true := by
  rw [isExpired_iff_near ⟨_, _, _, issued⟩] at expired ⊢
  exact expired.mono after more

theorem isExpired_fresh (lives : 0 < life.nanos) (margin : Span) : t.isExpired moment margin = false := by
  cases named : moment.add? life with
  | none => exact isExpired_of_unnamed issued named moment margin
  | some ends =>
    have begun : moment.add? .zero = some moment := by
      obtain ⟨within, _⟩ := Instant.add?_eq_some_iff.mp named
      exact Instant.add?_eq_some_iff.mpr ⟨Nat.lt_of_le_of_lt (Nat.le_add_right _ _) within, rfl⟩
    have half : Nat.min margin.nanos (life.nanos / 2) ≤ life.nanos / 2 := Nat.min_le_right _ _
    have zero : Span.zero.nanos = 0 := rfl
    rw [← Bool.not_eq_true, isExpired_iff_elapsed issued named begun, zero]
    omega

theorem isExpired_over (reached : moment.add? elapsed = some now) (past : life.nanos ≤ elapsed.nanos) (margin : Span) :
    t.isExpired now margin = true := by
  -- The end lies no later than a moment that has been named.
  obtain ⟨within, _⟩ := Instant.add?_eq_some_iff.mp reached
  have named : moment.add? life = some ⟨moment.nanos + life.nanos⟩ :=
    Instant.add?_eq_some_iff.mpr ⟨by omega, rfl⟩
  rw [isExpired_iff_elapsed issued named reached]
  omega

end Issued
end
end AccessToken

/-- A token that is issued for a lifetime has expired exactly when the time since its issue and the margin, of which
half of the lifetime counts at most, make up the lifetime; if its end cannot be named it never does. So it expires no
earlier for a narrower margin, not at once, and in any case at its end. -/
theorem expiry_exact (issued : AccessToken.issued? moment value (some life) = some t) :
    (∀ ends, moment.add? life = some ends → ∀ elapsed now margin, moment.add? elapsed = some now →
      (t.isExpired now margin = true ↔ life.nanos ≤ elapsed.nanos + Nat.min margin.nanos (life.nanos / 2)) ∧
      (t.isExpired now margin = true ↔ 2 * life.nanos ≤ 2 * elapsed.nanos + Nat.min (2 * margin.nanos) life.nanos)) ∧
    (moment.add? life = none → ∀ now margin, t.isExpired now margin = false) ∧
    (∀ now later margin wider, now.nanos ≤ later.nanos → margin.nanos ≤ wider.nanos →
      t.isExpired now margin = true → t.isExpired later wider = true) ∧
    (0 < life.nanos → ∀ margin, t.isExpired moment margin = false) ∧
    ∀ elapsed now, moment.add? elapsed = some now → life.nanos ≤ elapsed.nanos → ∀ margin,
      t.isExpired now margin = true := by
  refine ⟨fun ends named elapsed now margin reached => ?_, AccessToken.isExpired_of_unnamed issued,
    fun now later margin wider after more expired => AccessToken.isExpired_mono issued expired after more,
    AccessToken.isExpired_fresh issued, fun elapsed now reached past => AccessToken.isExpired_over issued reached past⟩
  have elapses : t.isExpired now margin = true ↔ _ := AccessToken.isExpired_iff_elapsed issued named reached
  exact ⟨elapses, elapses.trans (AccessToken.le_add_half_iff _ _ _)⟩

namespace Sample

/-- A lifetime up to the last moment that can be named. -/
def longest : Span :=
  ⟨Instant.bound - 1 - Instant.start.nanos⟩

/-- The longest margin: 64 bits of seconds and what is less than one more. -/
def widest : Span :=
  .ofParts 0xFFFFFFFFFFFFFFFF 999999999

end Sample

/-- A token that ends with the last moment: no earlier than halfway, and expired then although the margin reaches past
all moments; one that ends a nanosecond later lasts. -/
theorem expiry_exact_last_moment : ∃ t t' middle before,
    AccessToken.issued? .start "T1" (some Sample.longest) = some t ∧
    AccessToken.issued? .start "T1" (some ⟨Sample.longest.nanos + 1⟩) = some t' ∧
    Instant.start.add? ⟨(Sample.longest.nanos + 1) / 2⟩ = some middle ∧ middle.add? Sample.widest = none ∧
    Instant.start.add? ⟨(Sample.longest.nanos - 1) / 2⟩ = some before ∧
    t.isExpired middle Sample.widest = true ∧ t.isExpired before Sample.widest = false ∧
    t'.isExpired ⟨Instant.bound - 1⟩ Sample.widest = false := by
  obtain ⟨t, issued⟩ := Option.isSome_iff_exists.mp
    (by decide +kernel : (AccessToken.issued? .start "T1" (some Sample.longest)).isSome = true)
  obtain ⟨t', issued'⟩ := Option.isSome_iff_exists.mp
    (by decide +kernel : (AccessToken.issued? .start "T1" (some ⟨Sample.longest.nanos + 1⟩)).isSome = true)
  have named : Instant.start.add? Sample.longest = some ⟨Instant.bound - 1⟩ := by decide +kernel
  have middle : Instant.start.add? ⟨(Sample.longest.nanos + 1) / 2⟩ =
      some ⟨Instant.start.nanos + (Sample.longest.nanos + 1) / 2⟩ := by decide +kernel
  have before : Instant.start.add? ⟨(Sample.longest.nanos - 1) / 2⟩ =
      some ⟨Instant.start.nanos + (Sample.longest.nanos - 1) / 2⟩ := by decide +kernel
  refine ⟨t, t', _, _, issued, issued', middle, by decide +kernel, before, ?_, ?_, ?_⟩
  · exact ((expiry_exact issued).1 _ named _ _ _ middle).1.mpr (by decide +kernel)
  · rw [← Bool.not_eq_true, ((expiry_exact issued).1 _ named _ _ _ before).1]
    decide +kernel
  · exact (expiry_exact issued').2.1 (by decide +kernel) _ _

end EngineClient
