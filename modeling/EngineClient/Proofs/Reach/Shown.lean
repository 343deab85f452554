import EngineClient.Proofs.Reach.Authority
import EngineClient.Proofs.Text.Utf8
import EngineClient.Transport.Client

/-!
# Characters that can be seen

A URI is read from a text only if no character before its fragment is a space or one of those below it, so that none
of its parts has one. What base64 writes has no control character. Bytes of such texts cannot end the line they stand on.
-/

namespace EngineClient
open Text

/-! ### Characters and bytes -/

/-- Control characters of ASCII. -/
def Text.isControl (c : Char) : Bool :=
  c.toNat < 0x20 || c.toNat == 0x7F

/-- The space and the control characters below it. -/
def Text.isHidden (c : Char) : Bool :=
  c.toNat ≤ 0x20

/-- Bytes that neither end a line nor divide it. -/
def Text.Unbroken (bs : Bytes) : Prop :=
  ∀ b ∈ bs, 0x20 < b.toNat

/-- Bytes that do not end a line: there is no control byte but the tab. -/
def Text.OneLine (bs : Bytes) : Prop :=
  ∀ b ∈ bs, (b.toNat = 0x09 ∨ 0x20 ≤ b.toNat) ∧ b.toNat ≠ 0x7F

namespace Text
variable {cs : List Char}

theorem isHidden_eq_false_iff {c : Char} : isHidden c = false ↔ 0x20 < c.toNat := by
  simp [isHidden]

theorem isControl_eq_false_iff {c : Char} : isControl c = false ↔ 0x20 ≤ c.toNat ∧ c.toNat ≠ 0x7F := by
  simp [isControl]

/-- A byte of a character of ASCII is its number; the bytes of all others are greater. -/
theorem unbroken_encode (avoids : Avoids isHidden cs) : Unbroken (encode cs) := by
  intro b member
  obtain ⟨c, among, inside⟩ := List.mem_flatMap.mp member
  have above := isHidden_eq_false_iff.mp (avoids c among)
  rcases mem_utf8EncodeChar inside with same | beyond <;> omega

theorem oneLine_encode (avoids : Avoids isControl cs) : OneLine (encode cs) := by
  intro b member
  obtain ⟨c, among, inside⟩ := List.mem_flatMap.mp member
  obtain ⟨above, other⟩ := isControl_eq_false_iff.mp (avoids c among)
  rcases mem_utf8EncodeChar inside with same | beyond <;> omega

theorem sparesEscapes_isHidden : SparesEscapes isHidden :=
  ⟨by decide, forall_alphanum (by decide)⟩

end Text

theorem oneLine_iff {bs : Bytes} : OneLine bs ↔ bs.all isValueByte = true := by
  rw [List.all_eq_true]
  refine forall_congr' fun b => forall_congr' fun _ => ?_
  simp only [isValueByte, Bool.or_eq_true, Bool.and_eq_true, beq_iff_eq, bne_iff_ne, decide_eq_true_eq,
    UInt8.le_iff_toNat_le, ne_eq, ← UInt8.toNat_inj]
  change _ ↔ b.toNat = 9 ∨ 0x20 ≤ b.toNat ∧ ¬ b.toNat = 0x7F
  omega

theorem HeaderValue.oneLine (v : HeaderValue) : OneLine v.bytes :=
  oneLine_iff.mpr v.clean

/-! ### URIs -/

namespace Uri

theorem shown_of_mayStand (stands : mayStand c = true) : isHidden c = false := by
  rcases Bool.or_eq_true_iff.mp stands with allowed | percent
  · rcases Bool.or_eq_true_iff.mp allowed with alphanum | mark
    · exact sparesEscapes_isHidden.2 c alphanum
    · have each : Avoids isHidden "!$&'()*+,-.:;=@[]_~".toList := by decide
      exact each c (List.contains_iff_mem.mp mark)
  · obtain rfl : c = '%' := by simpa using percent
    decide

theorem avoids_of_checkAuthority (accepted : checkAuthority cs = .ok ()) : Avoids isHidden cs :=
  fun c member => shown_of_mayStand (mayStand_of_checkAuthority accepted c member)

theorem shown_of_isPathChar (allowed : isPathChar c = true) : isHidden c = false := by
  simp only [isPathChar, Bool.or_eq_true, Bool.and_eq_true, beq_iff_eq, decide_eq_true_eq] at allowed
  exact isHidden_eq_false_iff.mpr (by omega)

theorem shown_of_isQueryChar (allowed : isQueryChar c = true) : isHidden c = false := by
  simp only [isQueryChar, Bool.or_eq_true, Bool.and_eq_true, beq_iff_eq, decide_eq_true_eq] at allowed
  exact isHidden_eq_false_iff.mpr (by omega)

/-- No part of a URI has a hidden character. -/
structure Shown (u : Uri) : Prop where
  authority : Avoids isHidden (u.authority.getD [])
  path : Avoids isHidden u.path
  query : Avoids isHidden (u.query.getD [])

def beforeFragment (cs : List Char) : List Char :=
  cs.takeWhile (· != '#')

theorem beforeFragment_append {front : List Char} (clear : '#' ∉ front) (rest : List Char) :
    beforeFragment (front ++ rest) = front ++ beforeFragment rest := by
  refine List.takeWhile_append_of_pos fun c member => ?_
  rw [bne_iff_ne]
  rintro rfl
  exact clear member

theorem shown_of_splitPath {path : List Char} {query : Option (List Char)} (cut : splitPath cs = .ok (path, query)) :
    Avoids isHidden path ∧ Avoids isHidden (query.getD []) ∧ Avoids isHidden (beforeFragment cs) := by
  unfold splitPath at cut
  unfold beforeFragment
  dsimp only at cut
  generalize cs.takeWhile (· != '#') = shown at cut ⊢
  have whole := List.takeWhile_append_dropWhile (p := (· != '?')) (l := shown)
  rw [drop_takeWhile] at cut
  split at cut
  · cases cut
  rename_i allowed
  have front : Avoids isHidden (shown.takeWhile (· != '?')) := by
    intro c member
    simp only [Bool.not_eq_true, Bool.not_eq_false'] at allowed
    exact shown_of_isPathChar (List.all_eq_true.mp allowed c member)
  split at cut
  · rename_i rest
    cases cut
    rw [rest, List.append_nil] at whole
    exact ⟨front, avoids_nil, whole ▸ front⟩
  · rename_i mark query' rest
    split at cut
    · rename_i allowed'
      cases cut
      have back : Avoids isHidden query' := fun c member => shown_of_isQueryChar (List.all_eq_true.mp allowed' c member)
      have separator : mark = '?' := by
        have ends := List.head?_dropWhile_not (· != '?') shown
        rw [rest] at ends
        simpa using ends
      refine ⟨front, back, ?_⟩
      rw [← whole, rest, separator]
      exact avoids_append.mpr ⟨front, avoids_cons.mpr ⟨by decide, back⟩⟩
    · cases cut

theorem shown_of_parseAbsolute {name : String} {uri : Uri} (parsed : parseAbsolute name cs = .ok uri) :
    uri.Shown ∧ Avoids isHidden (beforeFragment cs) := by
  unfold parseAbsolute at parsed
  dsimp only at parsed
  split at parsed
  · cases parsed
  obtain ⟨_, accepted, parsed⟩ := Except.bind_eq_ok parsed
  split at parsed
  · cases parsed
  obtain ⟨⟨path, query⟩, cut, parsed⟩ := Except.bind_eq_ok parsed
  cases parsed
  have authority := avoids_of_checkAuthority accepted
  rw [drop_takeWhile] at cut
  obtain ⟨path, query, shown⟩ := shown_of_splitPath cut
  refine ⟨⟨authority, path, query⟩, ?_⟩
  -- A fragment begins after the authority.
  have clear : '#' ∉ cs.takeWhile (!endsAuthority ·) := fun member =>
    absurd (List.mem_takeWhile_imp member) (by decide)
  rw [← List.takeWhile_append_dropWhile (p := (!endsAuthority ·)) (l := cs), beforeFragment_append clear]
  exact avoids_append.mpr ⟨authority, shown⟩

theorem shown_of_isSchemeChar (allowed : isSchemeChar c = true) : isHidden c = false := by
  simp only [isSchemeChar, Bool.or_eq_true, beq_iff_eq] at allowed
  rcases allowed with ((alphanum | rfl) | rfl) | rfl
  · exact sparesEscapes_isHidden.2 c alphanum
  · decide
  · decide
  · decide

theorem splitScheme_eq_ok {scheme : Option String} (cut : splitScheme cs = .ok (scheme, rest)) :
    (scheme = none ∧ rest = cs) ∨ ∃ front, cs = front ++ rest ∧ Avoids isHidden front ∧ '#' ∉ front := by
  unfold splitScheme at cut
  dsimp only at cut
  rw [drop_takeWhile] at cut
  split at cut
  · cases cut
    exact .inl ⟨rfl, rfl⟩
  · rename_i rest' stripped
    have whole : cs = cs.takeWhile isSchemeChar ++ "://".toList ++ rest' := by
      rw [List.append_assoc, ← stripFront?_eq_some_iff.mp stripped, List.takeWhile_append_dropWhile]
    have named : Avoids isHidden (cs.takeWhile isSchemeChar ++ "://".toList) := by
      refine avoids_append.mpr ⟨fun c member => shown_of_isSchemeChar (List.mem_takeWhile_imp member), ?_⟩
      decide
    have clear : '#' ∉ cs.takeWhile isSchemeChar ++ "://".toList := by
      intro member
      rcases List.mem_append.mp member with inside | mark
      · exact absurd (List.mem_takeWhile_imp inside) (by decide)
      · exact absurd mark (by decide)
    have found : ∀ {scheme' : String}, Except.ok (some scheme', rest') = (Except.ok (scheme, rest) : Except UriError _) →
        ∃ front, cs = front ++ rest ∧ Avoids isHidden front ∧ '#' ∉ front := by
      rintro _ ⟨⟩
      exact ⟨_, whole, named, clear⟩
    split at cut
    · exact .inr (found cut)
    split at cut
    · exact .inr (found cut)
    split at cut
    · cases cut
      exact .inl ⟨rfl, rfl⟩
    split at cut
    · cases cut
    · exact .inr (found cut)

/-- Whatever the form of the URI, all of a text is checked that comes before the fragment. -/
theorem shown_of_parse? {uri : Uri} (parsed : parse? s = .ok uri) :
    uri.Shown ∧ Avoids isHidden (beforeFragment s.toList) := by
  unfold parse? at parsed
  dsimp only at parsed
  split at parsed
  · cases parsed
  split at parsed
  · cases parsed
  · rename_i star
    cases parsed
    rw [star]
    have shown : Avoids isHidden ['*'] := avoids_cons.mpr ⟨by decide, avoids_nil⟩
    exact ⟨⟨avoids_nil, shown, avoids_nil⟩, shown⟩
  · rename_i rest slash
    obtain ⟨⟨path, query⟩, cut, parsed⟩ := Except.bind_eq_ok parsed
    cases parsed
    obtain ⟨path, query, shown⟩ := shown_of_splitPath cut
    exact ⟨⟨avoids_nil, path, query⟩, shown⟩
  · obtain ⟨⟨scheme, rest⟩, cut, parsed⟩ := Except.bind_eq_ok parsed
    dsimp only at parsed
    split at parsed
    · rcases splitScheme_eq_ok cut with ⟨none, _⟩ | ⟨front, whole, named, clear⟩
      · cases none
      obtain ⟨shown, later⟩ := shown_of_parseAbsolute parsed
      refine ⟨shown, ?_⟩
      rw [whole, beforeFragment_append clear]
      exact avoids_append.mpr ⟨named, later⟩
    · obtain ⟨_, accepted, parsed⟩ := Except.bind_eq_ok parsed
      have authority := avoids_of_checkAuthority accepted
      split at parsed
      · cases parsed
      · rename_i all
        cases parsed
        have whole : s.toList.takeWhile (!endsAuthority ·) = s.toList :=
          (List.takeWhile_prefix _).eq_of_length_le (Nat.le_of_not_lt all)
        refine ⟨⟨authority, avoids_nil, avoids_nil⟩, ?_⟩
        rw [whole] at authority
        exact authority.subset (List.takeWhile_prefix _).subset

/-! ### What is sent of a URI -/

section Sent
variable {u : Uri}

theorem Shown.target (shown : u.Shown) : Unbroken (utf8 u.target) := by
  unfold Uri.target utf8
  rw [String.toList_ofList]
  refine unbroken_encode (avoids_append.mpr ⟨?_, ?_⟩)
  · unfold sentPath
    split
    · exact avoids_cons.mpr ⟨by decide, avoids_nil⟩
    · exact shown.path
  · have query := shown.query
    cases given : u.query with
    | none => exact avoids_nil
    | some q =>
      rw [given] at query
      exact avoids_cons.mpr ⟨by decide, query⟩

theorem Shown.host (shown : u.Shown) : Avoids isHidden (u.host?.getD []) := by
  have within : u.hostAndPort ⊆ u.authority.getD [] := by
    intro c member
    exact List.mem_reverse.mp ((List.takeWhile_prefix _).subset (List.mem_reverse.mp member))
  have whole := shown.authority.subset within
  unfold host?
  cases u.authority with
  | none => exact avoids_nil
  | some authority =>
    rw [Option.map_some, Option.getD_some]
    split
    · rename_i rest same
      rw [same] at whole
      obtain ⟨bracket, rest⟩ := avoids_cons.mp whole
      refine avoids_cons.mpr ⟨bracket, avoids_append.mpr ⟨rest.subset (List.takeWhile_prefix _).subset, ?_⟩⟩
      exact avoids_cons.mpr ⟨by decide, avoids_nil⟩
    · exact whole.subset (List.takeWhile_prefix _).subset

theorem Shown.hostAndNumber (shown : u.Shown) (n : Nat) :
    Unbroken (utf8 (String.ofList (u.host?.getD []) ++ ":" ++ Text.decimal n)) := by
  unfold utf8
  rw [String.toList_append, String.toList_append, String.toList_ofList]
  have colon : Avoids isHidden ":".toList := avoids_cons.mpr ⟨by decide, avoids_nil⟩
  have number : Avoids isHidden (decimal n).toList := avoids_decimal sparesEscapes_isHidden.2 n
  exact unbroken_encode (avoids_append.mpr ⟨avoids_append.mpr ⟨shown.host, colon⟩, number⟩)

theorem Shown.hostHeader (shown : u.Shown) : Unbroken (utf8 u.hostHeader) := by
  have host : Unbroken (utf8 (String.ofList (u.host?.getD []))) := by
    unfold utf8
    rw [String.toList_ofList]
    exact unbroken_encode shown.host
  unfold Uri.hostHeader
  dsimp only
  split
  · exact host
  · split
    · exact host
    · exact shown.hostAndNumber _

end Sent
end Uri

/-! ### Values that are written by the client -/

theorem Text.Base64.printed_letter : ∀ n < 64, isControl (letter n) = false := by
  decide

theorem Text.Base64.printed_encode (bs : Bytes) : Avoids isControl (encode bs) := by
  have pad : isControl '=' = false := by decide
  induction bs using encode.induct with
  | case1 => exact avoids_nil
  | case2 a =>
    have small := a.toNat_lt
    have first := printed_letter (a.toNat * 16 / 64) (by omega)
    have second := printed_letter (a.toNat * 16 % 64) (by omega)
    simp [encode, avoids_cons, avoids_nil, first, second, pad]
  | case3 a b =>
    have small := a.toNat_lt
    have small' := b.toNat_lt
    have first := printed_letter ((a.toNat * 256 + b.toNat) * 4 / 4096) (by omega)
    have second := printed_letter ((a.toNat * 256 + b.toNat) * 4 / 64 % 64) (by omega)
    have third := printed_letter ((a.toNat * 256 + b.toNat) * 4 % 64) (by omega)
    simp [encode, avoids_cons, avoids_nil, first, second, third, pad]
  | case4 a b c rest ih =>
    have small := a.toNat_lt
    have small' := b.toNat_lt
    have small'' := c.toNat_lt
    have first := printed_letter (((a.toNat * 256 + b.toNat) * 256 + c.toNat) / 262144) (by omega)
    have second := printed_letter (((a.toNat * 256 + b.toNat) * 256 + c.toNat) / 4096 % 64) (by omega)
    have third := printed_letter (((a.toNat * 256 + b.toNat) * 256 + c.toNat) / 64 % 64) (by omega)
    have fourth := printed_letter (((a.toNat * 256 + b.toNat) * 256 + c.toNat) % 64) (by omega)
    simp [encode, avoids_cons, first, second, third, fourth, ih]

theorem HeaderValue.bytes_literal {s : String} (avoids : Avoids isControl s.toList) : (literal s).bytes = utf8 s := by
  have allowed := List.all_eq_true.mp (oneLine_iff.mp (oneLine_encode avoids))
  change (utf8 s).filter isValueByte = utf8 s
  rw [List.filter_eq_self]
  exact allowed

@[simp]
theorem HeaderValue.bytes_markSensitive (v : HeaderValue) : v.markSensitive.bytes = v.bytes := rfl

/-- Nothing is left out of an authorization that is base64 behind the name of its scheme. -/
theorem HeaderValue.bytes_literal_base64 (scheme : String) (plain : Avoids isControl scheme.toList) (bs : Bytes) :
    (literal (scheme ++ String.ofList (Base64.encode bs))).bytes = utf8 (scheme ++ String.ofList (Base64.encode bs)) := by
  have encoded : Avoids isControl (String.ofList (Base64.encode bs)).toList := by
    rw [String.toList_ofList]
    exact Base64.printed_encode bs
  refine bytes_literal ?_
  rw [String.toList_append]
  exact avoids_append.mpr ⟨plain, encoded⟩

end EngineClient
