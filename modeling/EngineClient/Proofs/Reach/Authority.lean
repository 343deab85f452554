import EngineClient.Proofs.Reach.Origin

/-!
# Authorities that are accepted

What the check of an authority makes of a run of characters that it only counts, and of the parts that an authority is
put together from. All parts pass in any form that reading brings them into, but for a few characters of names.
-/

namespace EngineClient
open Text

namespace Uri
variable {c : Char} {cs : List Char}

/-! ### Characters -/

/-- Characters that may stand somewhere in an authority. -/
def mayStand (c : Char) : Bool :=
  isAuthorityChar c || c == '%'

/-- Characters of names that may stand in no authority. -/
def isQuirk (c : Char) : Bool :=
  "\"\x60\x7b\x7d".toList.contains c

theorem mayStand_of_next {seen seen' : Seen} (accepted : seen.next c = .ok seen') : mayStand c = true := by
  unfold Seen.next at accepted
  dsimp only at accepted
  iterate 5
    split at accepted
    · rename_i same
      rw [same]
      decide
  split at accepted
  · rename_i allowed
    rw [mayStand, allowed, Bool.true_or]
  · cases accepted

theorem mayStand_of_foldlM {seen seen' : Seen} (accepted : cs.foldlM Seen.next seen = .ok seen') :
    ∀ c ∈ cs, mayStand c = true := by
  induction cs generalizing seen with
  | nil => simp
  | cons c rest ih =>
    rw [List.foldlM_cons] at accepted
    obtain ⟨between, first, later⟩ := Except.bind_eq_ok accepted
    exact List.forall_mem_cons.mpr ⟨mayStand_of_next first, ih later⟩

theorem mayStand_of_checkAuthority (accepted : checkAuthority cs = .ok ()) : ∀ c ∈ cs, mayStand c = true := by
  unfold checkAuthority at accepted
  obtain ⟨seen, folded, _⟩ := Except.bind_eq_ok accepted
  exact mayStand_of_foldlM folded

theorem not_quirk_of_mayStand (stands : mayStand c = true) : isQuirk c = false := by
  by_contra quirk
  rw [Bool.not_eq_false, isQuirk, List.contains_iff_mem] at quirk
  have none : Avoids mayStand "\"\x60\x7b\x7d".toList := by decide
  rw [none c quirk] at stands
  cases stands

/-! ### Runs -/

/-- Characters that are only counted. -/
def isLoose (c : Char) : Bool :=
  mayStand c && !"[]@".toList.contains c

/-- What has been seen after a run of characters that are only counted. -/
def Seen.after (s : Seen) (cs : List Char) : Seen :=
  { s with
    colons := s.colons + cs.count ':'
    percent := s.percent || cs.contains '%'
    endsInAt := s.endsInAt && cs.isEmpty }

theorem next_of_loose {s : Seen} (loose : isLoose c = true) (few : s.colons + [c].count ':' ≤ 8) :
    s.next c = .ok (s.after [c]) := by
  simp only [isLoose, mayStand, Bool.and_eq_true, Bool.or_eq_true, Bool.not_eq_true'] at loose
  obtain ⟨stands, other⟩ := loose
  obtain ⟨opening, closing, mark⟩ : c ≠ '[' ∧ c ≠ ']' ∧ c ≠ '@' := by simpa using other
  unfold Seen.next Seen.after
  dsimp only
  by_cases colon : c = ':'
  · have room : ¬ s.colons ≥ 8 := by
      rw [colon, List.count_singleton_self] at few
      omega
    rw [if_pos colon, if_neg room]
    simp [colon]
  rw [if_neg colon, if_neg opening, if_neg closing, if_neg mark]
  by_cases percent : c = '%'
  · rw [if_pos percent]
    simp [percent]
  · rw [if_neg percent, if_pos (stands.resolve_right (by simpa using percent))]
    simp [colon, mark, Ne.symm percent]

theorem Seen.after_nil (s : Seen) : s.after [] = s := by
  simp [after]

theorem count_colon_cons (c : Char) (cs : List Char) : (c :: cs).count ':' = [c].count ':' + cs.count ':' := by
  rw [← List.count_append]
  rfl

theorem Seen.after_after (s : Seen) (c : Char) (cs : List Char) : (s.after [c]).after cs = s.after (c :: cs) := by
  simp [after, Nat.add_assoc, count_colon_cons c cs, Bool.or_assoc]

/-- A run of characters that are only counted is summed up by how many of them are colons and whether one is a percent
sign. -/
theorem foldlM_of_loose {s : Seen} (loose : ∀ c ∈ cs, isLoose c = true) (few : s.colons + cs.count ':' ≤ 8) :
    cs.foldlM Seen.next s = .ok (s.after cs) := by
  induction cs generalizing s with
  | nil =>
    rw [s.after_nil]
    rfl
  | cons c rest ih =>
    obtain ⟨first, others⟩ := List.forall_mem_cons.mp loose
    rw [count_colon_cons] at few
    have own : s.next c = .ok (s.after [c]) := next_of_loose first (by omega)
    have room : (s.after [c]).colons + rest.count ':' ≤ 8 := by
      change s.colons + [c].count ':' + rest.count ':' ≤ 8
      omega
    have later := ih others room
    rw [s.after_after] at later
    rw [List.foldlM_cons, own]
    exact later

/-! ### Parts of authorities -/

/-- Characters that leave nothing behind. -/
def isPlain (c : Char) : Bool :=
  isLoose c && c != ':' && c != '%'

theorem sparesEscapes_loose : SparesEscapes (!isLoose ·) :=
  ⟨by decide, forall_alphanum (by decide)⟩

theorem plain_of_alphanum : ∀ c, c.isAlphanum = true → (!isPlain c) = false :=
  forall_alphanum (by decide)

theorem loose_of_avoids (avoids : Avoids (!isLoose ·) cs) : ∀ c ∈ cs, isLoose c = true := by
  intro c member
  simpa using avoids c member

theorem foldlM_of_plain (some : cs ≠ []) (plain : Avoids (!isPlain ·) cs) (s : Seen) (few : s.colons ≤ 8) :
    cs.foldlM Seen.next s = .ok { s with endsInAt := false } := by
  have each : ∀ c ∈ cs, isLoose c = true ∧ c ≠ ':' ∧ c ≠ '%' := by
    intro c member
    simpa [isPlain, and_assoc] using plain c member
  have colons : cs.count ':' = 0 := List.count_eq_zero.mpr fun member => (each _ member).2.1 rfl
  have percent : cs.contains '%' = false := by
    simpa using fun member => (each _ member).2.2 rfl
  rw [foldlM_of_loose (fun c member => (each c member).1) (by omega), Seen.after, colons, percent]
  simp [some]

theorem count_userText (cs : List Char) : (Url.userText cs).count ':' ≤ 1 := by
  have spares : SparesEscapes (· == ':') := ⟨by decide, forall_alphanum (by decide)⟩
  have kept : ∀ b, Url.standsInUser b = true → (charOf b == ':') = false := forall_byte (by decide +kernel)
  have escaped : ∀ cs, (Url.escape Url.standsInUser cs).count ':' = 0 := by
    intro cs
    refine List.count_eq_zero.mpr fun member => ?_
    have other := avoids_percentEncode spares kept _ _ member
    cases other
  unfold Url.userText
  dsimp only
  split
  · simp [escaped]
  · simp [escaped]

/-- What stands before the host leaves nothing behind but that it ends in a mark. -/
theorem foldlM_userInfo (cs : List Char) : ∃ e, (Url.userInfo cs).foldlM Seen.next {} = .ok { endsInAt := e } := by
  rw [Url.userInfo_eq]
  split
  · exact ⟨false, rfl⟩
  · have kept : ∀ b, Url.standsInUser b = true → (!isLoose (charOf b)) = false := forall_byte (by decide +kernel)
    have loose := loose_of_avoids (Url.avoids_userText sparesEscapes_loose (by decide) kept cs)
    have few := count_userText cs
    have walked : (Url.userText cs).foldlM Seen.next {} = .ok (Seen.after {} (Url.userText cs)) :=
      foldlM_of_loose loose (by dsimp only; omega)
    refine ⟨true, ?_⟩
    rw [List.foldlM_append, walked]
    simp [bind, Except.bind, Seen.next, Seen.after, pure, Except.pure]

theorem plain_of_permitted (permitted : Host.isForbidden c = false) (other : isQuirk c = false) : isPlain c = true := by
  have ascii : ∀ n < 0x80, Host.isForbidden (.ofNat n) = false → isQuirk (.ofNat n) = false → isPlain (.ofNat n) = true := by
    decide +kernel
  have small : c.toNat < 0x7F := by
    simp only [Host.isForbidden, Bool.or_eq_false_iff, decide_eq_false_iff_not] at permitted
    omega
  have own := ascii c.toNat (by omega)
  rw [Char.ofNat_toNat] at own
  exact own permitted other

/-- A host that has no character of those that no authority takes opens as many brackets as it closes. -/
theorem foldlM_host {host : List Char} (written : Host.Written host) (clear : Avoids isQuirk host) (e : Bool) :
    ∃ b, host.foldlM Seen.next { endsInAt := e } = .ok { opened := b, closed := b } := by
  cases written with
  | name some permitted =>
    have plain : Avoids (!isPlain ·) host := fun c member => by
      simp [plain_of_permitted (permitted c member) (clear c member)]
    exact ⟨false, foldlM_of_plain some plain _ (Nat.zero_le 8)⟩
  | address4 n =>
    have plain := Address.avoids_text4 plain_of_alphanum (by decide) n
    exact ⟨false, foldlM_of_plain (Address.text4_ne_nil n) plain _ (Nat.zero_le 8)⟩
  | @address6 gs eight =>
    have loose := loose_of_avoids (Address.avoids_inside6 sparesEscapes_loose.2 (by decide) gs)
    -- The colons of an address are counted as those before a port are: eight are the most that pass.
    have few := Address.count_inside6 eight
    have walked : (Address.inside6 gs).foldlM Seen.next { opened := true } =
        .ok (Seen.after { opened := true } (Address.inside6 gs)) :=
      foldlM_of_loose loose (by dsimp only; omega)
    refine ⟨true, ?_⟩
    rw [Address.text6_eq, List.cons_append, List.foldlM_cons]
    change (List.foldlM Seen.next { opened := true } (Address.inside6 gs ++ [']'])) = _
    rw [List.foldlM_append, walked]
    simp [bind, Except.bind, Seen.next, Seen.after, pure, Except.pure]

/-- The text of a port, with the colon before it. -/
def portText : Option Nat → List Char
  | none => []
  | some p => ':' :: Nat.toDigits 10 p

theorem foldlM_port (port : Option Nat) (b : Bool) :
    ∃ n ≤ 1, (portText port).foldlM Seen.next { opened := b, closed := b } = .ok { opened := b, closed := b, colons := n } := by
  cases port with
  | none => exact ⟨0, by decide, rfl⟩
  | some p =>
    have digits : Avoids (!isPlain ·) (Nat.toDigits 10 p) := avoids_toDigits plain_of_alphanum (by decide) (by decide) p
    refine ⟨1, by decide, ?_⟩
    rw [portText, List.foldlM_cons]
    exact foldlM_of_plain Nat.toDigits_ne_nil digits _ (Nat.le_add_left 1 7)

end Uri

theorem WebUrl.authority_eq (u : WebUrl) : u.authority = u.userInfo ++ u.host ++ Uri.portText u.port := by
  unfold authority
  cases u.port <;> rfl

/-- The authority of a URL in normal form is accepted unless its host is a name with a character that no authority
takes. -/
theorem WebUrl.Normal.checkAuthority_iff {u : WebUrl} (normal : u.Normal) :
    Uri.checkAuthority u.authority = .ok () ↔ Avoids Uri.isQuirk u.host := by
  rw [u.authority_eq]
  constructor
  · intro accepted c member
    exact Uri.not_quirk_of_mayStand (Uri.mayStand_of_checkAuthority accepted c (by simp [member]))
  · intro clear
    obtain ⟨given, user⟩ := normal.user
    obtain ⟨e, first⟩ := Uri.foldlM_userInfo given
    obtain ⟨b, second⟩ := Uri.foldlM_host normal.host clear e
    obtain ⟨n, few, third⟩ := Uri.foldlM_port u.port b
    unfold Uri.checkAuthority
    rw [user, List.foldlM_append, List.foldlM_append, first]
    change ((List.foldlM _ _ u.host >>= fun s => List.foldlM _ s _) >>= _) = _
    rw [second]
    change (List.foldlM _ _ _ >>= _) = _
    rw [third]
    simp [bind, Except.bind, few]

end EngineClient
