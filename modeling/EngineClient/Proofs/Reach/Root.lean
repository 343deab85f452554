import EngineClient.Proofs.Accept.Options
import EngineClient.Proofs.Reach.Target

/-!
# One root for many spellings

The root of the API has the same URL whether it is written without a slash at its end, with some, or with the version
of the API in its last segment. What is written behind a URL comes behind the segments that its path leads through.
-/

namespace EngineClient
open Text

/-! ### Longer texts -/

namespace Text
variable {p : Char → Bool} {cs tail : List Char}

theorem getLast?_dropWhile (some : cs.dropWhile p ≠ []) : (cs.dropWhile p).getLast? = cs.getLast? := by
  have whole := congrArg List.getLast? (@List.takeWhile_append_dropWhile _ p cs)
  rwa [List.getLast?_append_of_ne_nil _ some] at whole

theorem dropWhile_ne_nil (some : cs ≠ []) (last : ∀ c ∈ cs.getLast?, p c = false) : cs.dropWhile p ≠ [] := by
  intro none
  have every := List.dropWhile_eq_nil_iff.mp none _ (List.getLast_mem some)
  rw [last _ (List.getLast?_eq_some_getLast some)] at every
  cases every

theorem trimBoth_of_last (some : cs ≠ []) (last : ∀ c ∈ cs.getLast?, p c = false) : trimBoth p cs = cs.dropWhile p := by
  refine trimEnd_of_last fun c member => last c ?_
  rwa [trimStart, getLast?_dropWhile (dropWhile_ne_nil some last)] at member

theorem trimBoth_append (some : cs ≠ []) (last : ∀ c ∈ cs.getLast?, p c = false) (avoids : Avoids p tail) :
    trimBoth p (cs ++ tail) = trimBoth p cs ++ tail := by
  have last' : ∀ c ∈ (cs ++ tail).getLast?, p c = false := by
    intro c member
    rw [List.getLast?_append, Option.mem_def, Option.or_eq_some_iff] at member
    rcases member with later | ⟨_, own⟩
    · exact avoids c (List.mem_of_getLast? later)
    · exact last c own
  rw [trimBoth_of_last some last, trimBoth_of_last (by simp [some]) last', List.dropWhile_append, if_neg]
  simpa using dropWhile_ne_nil some last

end Text

namespace Url
variable {raw tail : List Char}

theorem significant_append (some : raw ≠ []) (last : ∀ c ∈ raw.getLast?, isEdge c = false) (avoids : Avoids isEdge tail) :
    significant (String.ofList (raw ++ tail)) = significant (String.ofList raw) ++ tail := by
  have whole : tail.filter (!isLineBreak ·) = tail := by
    refine List.filter_eq_self.mpr fun c member => ?_
    have inner := avoids c member
    by_contra other
    simp only [Bool.not_eq_true', Bool.not_eq_false, isLineBreak, Bool.or_eq_true, beq_iff_eq] at other
    rcases other with (rfl | rfl) | rfl <;> exact absurd inner (by decide)
  rw [significant, significant, String.toList_ofList, String.toList_ofList, trimBoth_append some last avoids,
    List.filter_append, whole]

theorem splitScheme_append (cut : splitScheme raw = .ok (name, rest)) (tail : List Char) :
    splitScheme (raw ++ tail) = .ok (name, rest ++ tail) := by
  unfold splitScheme at cut ⊢
  dsimp only at cut ⊢
  split at cut
  · rename_i rest' shape
    have short : (raw.takeWhile isSchemeChar).length < raw.length := by
      have length := congrArg List.length shape
      rw [List.length_drop, List.length_cons] at length
      omega
    rw [List.takeWhile_append, if_neg (Nat.ne_of_lt short), List.drop_append_of_le_length (Nat.le_of_lt short), shape]
    dsimp only [List.cons_append]
    split at cut
    · rename_i letter
      cases cut
      exact if_pos letter
    · cases cut
  · cases cut

theorem splitTail_of_avoids {cs : List Char} (avoids : Avoids endsPath cs) : splitTail cs = (cs, none, none) := by
  have marks : ∀ c ∈ cs, (c != '?') = true ∧ (c != '#') = true := by
    intro c member
    simpa [endsPath] using avoids c member
  have body : cs.takeWhile (· != '#') = cs := List.takeWhile_eq_self_iff.mpr fun c member => (marks c member).2
  have path : cs.takeWhile (· != '?') = cs := List.takeWhile_eq_self_iff.mpr fun c member => (marks c member).1
  unfold splitTail
  dsimp only
  rw [body, path, List.drop_length]

theorem avoids_of_splitTail {cs : List Char} (cut : splitTail cs = (path, none, none)) : Avoids endsPath cs := by
  unfold splitTail at cut
  simp only [Prod.mk.injEq, drop_takeWhile] at cut
  obtain ⟨_, query, fragment⟩ := cut
  have hash : ∀ c ∈ cs, (c != '#') = true := by
    split at fragment
    · rename_i none
      exact List.dropWhile_eq_nil_iff.mp none
    · cases fragment
  have body : cs.takeWhile (· != '#') = cs := List.takeWhile_eq_self_iff.mpr hash
  rw [body] at query
  have mark : ∀ c ∈ cs, (c != '?') = true := by
    split at query
    · rename_i none
      exact List.dropWhile_eq_nil_iff.mp none
    · cases query
  intro c member
  have first := mark c member
  have second := hash c member
  simp only [bne_iff_ne] at first second
  simp [endsPath, first, second]

/-- What is written behind a URL without query and fragment goes on with its path. -/
theorem web?_append (read : web? idna scheme cs = .ok u) (query : u.query = none) (fragment : u.fragment = none) :
    ∃ path, Path.Rooted path ∧ u.path = Path.normalize path ∧
      ∀ tail, (∀ c ∈ tail.head?, c = '/') → Avoids endsPath tail →
        web? idna scheme (cs ++ tail) = .ok { u with path := Path.normalize (path ++ tail) } := by
  obtain ⟨user, host, port, parts, rfl⟩ := web?_eq_ok_iff.mp read
  have clear : Avoids endsPath (tailOf cs) := by
    have parts : splitTail (tailOf cs) = ((splitTail (tailOf cs)).1, none, none) :=
      Prod.ext rfl (Prod.ext (Option.map_eq_none_iff.mp query) (Option.map_eq_none_iff.mp fragment))
    exact avoids_of_splitTail parts
  -- More than slashes stands before the tail, as there is a host.
  have some : cs.dropWhile Path.isSeparator ≠ [] := by
    intro none
    rw [authorityOf, none] at parts
    cases parts
  have path : splitTail (tailOf cs) = (tailOf cs, none, none) := splitTail_of_avoids clear
  refine ⟨tailOf cs, ?_, by rw [path], fun tail slash avoids => ?_⟩
  · intro c first
    have stops : endsAuthority true c = true := by
      have head := List.head?_dropWhile_not (!endsAuthority true ·) (cs.dropWhile Path.isSeparator)
      rw [← tailOf, Option.mem_def.mp first] at head
      simpa using head
    have other := clear c (List.mem_of_mem_head? first)
    simp only [endsPath, Bool.or_eq_false_iff] at other
    simpa [endsAuthority, other.1, other.2, Path.isSeparator] using stops
  · have behind : (cs ++ tail).dropWhile Path.isSeparator = cs.dropWhile Path.isSeparator ++ tail := by
      rw [List.dropWhile_append, if_neg (by simpa using some)]
    have ends : tail.takeWhile (!endsAuthority true ·) = [] ∧ tail.dropWhile (!endsAuthority true ·) = tail := by
      cases tail with
      | nil => exact ⟨rfl, rfl⟩
      | cons c r =>
        obtain rfl := slash c rfl
        exact ⟨rfl, rfl⟩
    have front : authorityOf (cs ++ tail) = authorityOf cs := by
      rw [authorityOf, behind, List.takeWhile_append, ends.1, List.append_nil]
      split
      · rename_i whole
        exact ((List.takeWhile_prefix _).eq_of_length whole).symm
      · rfl
    have back : tailOf (cs ++ tail) = tailOf cs ++ tail := by
      rw [tailOf, behind, List.dropWhile_append, ends.2]
      split
      · rename_i none
        rw [tailOf, List.isEmpty_iff.mp none]
        rfl
      · rfl
    have path' := splitTail_of_avoids (avoids_append.mpr ⟨clear, avoids⟩)
    refine web?_eq_ok_iff.mpr ⟨user, host, port, by rw [front, parts], ?_⟩
    rw [back, path, path']

theorem parse?_of_web (cut : splitScheme (significant s) = .ok (name, rest)) (named : String.ofList name = scheme.name)
    (read : web? idna scheme rest = .ok u) : parse? idna s = .ok (.web u) := by
  unfold parse?
  rw [cut]
  change (if String.ofList name = "http" then _ else _) = _
  rw [named]
  cases scheme with
  | http =>
    rw [if_pos (by rfl), read]
    rfl
  | https =>
    rw [if_neg (by decide)]
    change (if _ then _ else _) = _
    rw [if_pos (by rfl), read]
    rfl

theorem ne_nil_of_parse? (parsed : parse? idna (String.ofList raw) = .ok url) : raw ≠ [] := by
  rintro rfl
  have empty : parse? idna (String.ofList []) = .error .relative := rfl
  cases empty.symm.trans parsed

theorem parse?_append (last : ∀ c ∈ raw.getLast?, isEdge c = false) (parsed : parse? idna (String.ofList raw) = .ok (.web u))
    (query : u.query = none) (fragment : u.fragment = none) :
    ∃ path, Path.Rooted path ∧ u.path = Path.normalize path ∧
      ∀ tail, (∀ c ∈ tail.head?, c = '/') → Avoids isEdge tail → Avoids endsPath tail →
        parse? idna (String.ofList (raw ++ tail)) = .ok (.web { u with path := Path.normalize (path ++ tail) }) := by
  obtain ⟨name, rest, cut, named, read⟩ := parse?_eq_web parsed
  obtain ⟨path, rooted, same, longer⟩ := web?_append read query fragment
  refine ⟨path, rooted, same, fun tail slash plain avoids => ?_⟩
  have cut' := splitScheme_append cut tail
  rw [← significant_append (ne_nil_of_parse? parsed) last plain] at cut'
  exact parse?_of_web cut' named (longer tail slash avoids)

end Url

/-! ### Paths of roots -/

namespace Options
open EngineClient.Path

/-- The path of the root that a text leads to, without slashes at its end. -/
def basePathOf (path : List Char) : List Char :=
  trimEnd isSlash (normalize (rootPath (normalize path)))

section Paths
variable {path : List Char}

theorem rootPath_of_trimEnd {cs ds : List Char} (same : trimEnd isSlash cs = trimEnd isSlash ds) :
    rootPath cs = rootPath ds := by
  rw [rootPath, rootPath, same]

/-- A path that names no version is kept but for the slashes at its end. -/
theorem basePathOf_plain (plain : ¬ "/v4".toList <:+ trimEnd isSlash (normalize path)) :
    basePathOf path = trimEnd isSlash (normalize path) := by
  have unnamed : stripBack? "/v4".toList (trimEnd isSlash (normalize path)) = none := by
    refine Option.eq_none_iff_forall_ne_some.mpr fun rest stripped => plain ?_
    rw [stripBack?_eq_some_iff.mp stripped]
    exact List.suffix_append _ _
  have kept : rootPath (normalize path) = trimEnd isSlash (normalize path) := by
    rw [rootPath, unnamed]
    rfl
  obtain ⟨ss, written, standing⟩ := standing_normalize path
  have whole := fun s member => (standing s member).whole
  have standing' : ∀ s ∈ ss.rdropWhile List.isEmpty, Standing s :=
    fun s member => standing s ((List.rdropWhile_prefix _ _).subset member)
  rw [basePathOf, kept, written, trimEnd_write whole, trimEnd_normalize_write standing', ← trimEnd_write whole,
    trimEnd_trimEnd]

theorem trimEnd_slashes (rooted : Rooted path) (k : Nat) :
    trimEnd isSlash (normalize (path ++ write (List.replicate k []))) = trimEnd isSlash (normalize path) := by
  cases k with
  | zero => rw [List.replicate_zero, write_nil, List.append_nil]
  | succ k =>
    have standing : ∀ s ∈ List.replicate (k + 1) [], Standing s := fun s member => by
      rw [List.eq_of_mem_replicate member]
      exact standing_nil
    rw [normalize_append rooted (by simp) standing, write_append, write_replicate, trimEnd_replicate rfl, trimEnd_normalize]

/-- The version is taken off, and what stood before it is the root. -/
theorem basePathOf_version (rooted : Rooted path) (k : Nat) :
    basePathOf (path ++ write ("v4".toList :: List.replicate k [])) = trimEnd isSlash (normalize path) := by
  have version : Standing "v4".toList := ⟨by decide, by decide, by decide⟩
  have standing : ∀ s ∈ "v4".toList :: List.replicate k [], Standing s := by
    intro s member
    rcases List.mem_cons.mp member with rfl | slash
    · exact version
    · rw [List.eq_of_mem_replicate slash]
      exact standing_nil
  have trimmed : trimEnd isSlash (normalize (path ++ write ("v4".toList :: List.replicate k []))) =
      write (lead path) ++ "/v4".toList := by
    rw [normalize_append rooted (by simp) standing, write_append, write_cons, write_replicate, ← List.cons_append,
      ← List.append_assoc, trimEnd_replicate rfl]
    refine trimEnd_of_last fun c last => ?_
    rw [List.getLast?_append_of_ne_nil _ (by simp)] at last
    obtain rfl : '4' = c := Option.some.inj last
    rfl
  have named : rootPath (normalize (path ++ write ("v4".toList :: List.replicate k []))) = write (lead path) := by
    rw [rootPath, trimmed, stripBack?_eq_some_iff.mpr rfl]
    rfl
  rw [basePathOf, named, trimEnd_normalize_write (standing_lead path), trimEnd_normalize]

end Paths

/-! ### Roots -/

section Roots
variable {o : Options} {u : WebUrl} {s : Settings}

/-- The root of a URL that has been read. -/
def rootOf (u : WebUrl) : WebUrl :=
  u.withPath (rootPath u.path)

theorem root?_of_parse? {url : String} (parsed : Url.parse? idna (String.ofList (trim url.toList)) = .ok (.web u)) :
    root? idna url = .ok (rootOf u) := by
  have some : (trim url.toList).isEmpty = false := by simpa using Url.ne_nil_of_parse? parsed
  unfold root?
  dsimp only
  rw [some, parsed]
  rfl

theorem parse?_of_root? {url : String} (located : root? idna url = .ok root) :
    ∃ u, Url.parse? idna (String.ofList (trim url.toList)) = .ok (.web u) ∧ root = rootOf u := by
  obtain ⟨u, parsed, _⟩ := root?_isOk_iff.mp ⟨root, located⟩
  exact ⟨u, parsed, Except.ok.inj (located.symm.trans (root?_of_parse? parsed))⟩

/-- The text of an endpoint that options leave open. -/
theorem endpoint?_none (root : WebUrl) (option : EndpointOption) (path : String)
    (normal : normalize path.toList = path.toList) : endpoint? idna root option none path =
      .ok (String.ofList (root.scheme.name.toList ++ "://".toList ++ (root.authority ++ path.toList))) := by
  have origin : (root.withPath path.toList).origin = root.origin := rfl
  simp only [endpoint?, WebUrl.text, origin, WebUrl.origin_eq]
  simp [WebUrl.withPath, normal]

/-- Endpoints are written for the place that a root is at, whatever its path. -/
theorem endpoint?_rootOf {path : List Char} (option : EndpointOption) (given : Option String) (default : String) :
    endpoint? idna (rootOf { u with path := path }) option given default = endpoint? idna (rootOf u) option given default := by
  cases given <;> rfl

end Roots
end Options

/-- Settings that lead to the same root and to the same endpoints. -/
structure Settings.SamePlace (s s' : Settings) : Prop where
  baseUrl : s.baseUrl = s'.baseUrl
  basePath : s.basePath = s'.basePath
  tokenUrl : s.tokenUrl = s'.tokenUrl
  revokeUrl : s.revokeUrl = s'.revokeUrl

namespace Options
open EngineClient.Path
variable {o : Options} {u : WebUrl} {s : Settings}

theorem Acceptable.withUrl (acceptable : o.Acceptable idna) {url : String}
    (parsed : Url.parse? idna (String.ofList (trim url.toList)) = .ok (.web u)) : { o with url := url }.Acceptable idna where
  located := ⟨u, parsed, (Url.normal_of_parse? parsed).host.ne_nil⟩
  credible :=
    have credible := acceptable.credible
    ⟨credible.paired, credible.named, credible.one, credible.basic, credible.sendable⟩
  trusting := ⟨acceptable.trusting.insecure, acceptable.trusting.system⟩
  margin := acceptable.margin
  timeout := acceptable.timeout
  headers := acceptable.headers
  tokenEndpoint := acceptable.tokenEndpoint
  revokeEndpoint := acceptable.revokeEndpoint

/-- Two URLs that differ in their paths lead to the same place if the roots have the same path in the end. -/
theorem samePlace_of_path (valid : o.validate idna = .ok s) {url : String} {path : List Char}
    (parsed : Url.parse? idna (String.ofList (trim o.url.toList)) = .ok (.web u))
    (parsed' : Url.parse? idna (String.ofList (trim url.toList)) = .ok (.web { u with path := path }))
    (same : trimEnd isSlash (normalize (rootPath path)) = s.basePath) :
    ∃ s', { o with url := url }.validate idna = .ok s' ∧ s'.SamePlace s := by
  obtain ⟨root, yields⟩ := yields_of_validate valid
  obtain rfl : root = rootOf u := Except.ok.inj (yields.located.symm.trans (root?_of_parse? parsed))
  have acceptable := acceptable_of_validate valid
  obtain ⟨s', valid'⟩ := validate_of_acceptable (acceptable.withUrl parsed')
  obtain ⟨root', yields'⟩ := yields_of_validate valid'
  obtain rfl : root' = rootOf { u with path := path } :=
    Except.ok.inj (yields'.located.symm.trans (root?_of_parse? parsed'))
  have credentials : s'.credentials = s.credentials := Except.ok.inj (yields'.credentials.symm.trans yields.credentials)
  have basePath : s'.basePath = s.basePath := yields'.basePath.trans same
  refine ⟨s', valid', ⟨?_, basePath, ?_, ?_⟩⟩
  · rw [yields'.baseUrl_eq, yields.baseUrl_eq, basePath]
    rfl
  · have token := yields'.tokenUrl
    rw [endpoint?_rootOf, credentials] at token
    exact Except.ok.inj (token.symm.trans yields.tokenUrl)
  · have revoke := yields'.revokeUrl
    rw [endpoint?_rootOf] at revoke
    exact Except.ok.inj (revoke.symm.trans yields.revokeUrl)

theorem Yields.basePath_eq (yields : o.Yields idna (rootOf u) s) :
    s.basePath = trimEnd isSlash (normalize (rootPath u.path)) :=
  yields.basePath

theorem Yields.basePath_rooted (yields : o.Yields idna root s) : s.basePath = [] ∨ s.basePath.head? = some '/' := by
  obtain ⟨ss, written, _⟩ := yields.basePath_written
  rw [written]
  cases ss with
  | nil => exact .inl rfl
  | cons t rest => exact .inr rfl

theorem Yields.avoids_baseUrl (yields : o.Yields idna root s) : Avoids endsPath s.baseUrl := by
  have formed := (root?_eq_ok yields.located).1.formed
  have authority : Avoids endsPath root.authority := by
    intro c member
    have stands := formed.authority c member
    simp only [Uri.endsAuthority, Bool.or_eq_false_iff] at stands
    simp [endsPath, stands.1.2, stands.2]
  have path : Avoids endsPath s.basePath := by
    rw [yields.basePath, trimEnd_eq_rdropWhile]
    exact formed.path.subset (List.rdropWhile_prefix _ _).subset
  have scheme : Avoids endsPath root.scheme.name.toList := by
    cases root.scheme <;> decide
  rw [yields.baseUrl_eq]
  exact avoids_append.mpr ⟨avoids_append.mpr ⟨scheme, by decide⟩, avoids_append.mpr ⟨authority, path⟩⟩

theorem normalize_pathFor (credentials : Credentials) :
    normalize (pathFor credentials).toList = (pathFor credentials).toList := by
  have paths : normalize signOnPath.toList = signOnPath.toList ∧ normalize ticketPath.toList = ticketPath.toList := by decide
  cases credentials with
  | kerberos source => exact paths.2
  | password _ _ | token _ | basic _ => exact paths.1

/-- Text of slashes and versions behind a URL changes nothing if the root has the same path in the end. -/
theorem samePlace_of_tail (valid : o.validate idna = .ok s)
    (parsed : Url.parse? idna (String.ofList (trim o.url.toList)) = .ok (.web u))
    (last : ∀ c ∈ o.url.toList.getLast?, isBlank c = false ∧ Url.isEdge c = false)
    (query : u.query = none) (fragment : u.fragment = none) :
    ∃ path, Rooted path ∧ u.path = normalize path ∧ ∀ tail, (∀ c ∈ tail.head?, c = '/') → tail ⊆ "/v4".toList →
      basePathOf (path ++ tail) = s.basePath →
        ∃ s', { o with url := o.url ++ String.ofList tail }.validate idna = .ok s' ∧ s'.SamePlace s := by
  have some : o.url.toList ≠ [] := by
    intro none
    rw [none] at parsed
    exact Url.ne_nil_of_parse? parsed rfl
  have blank : ∀ c ∈ o.url.toList.getLast?, isBlank c = false := fun c member => (last c member).1
  have edge : ∀ c ∈ (trim o.url.toList).getLast?, Url.isEdge c = false := by
    intro c member
    rw [trim, trimBoth_of_last some blank, getLast?_dropWhile (dropWhile_ne_nil some blank)] at member
    exact (last c member).2
  obtain ⟨path, rooted, same, longer⟩ := Url.parse?_append edge parsed query fragment
  refine ⟨path, rooted, same, fun tail slash within base => ?_⟩
  have avoids : ∀ {p : Char → Bool}, Avoids p "/v4".toList → Avoids p tail := fun clear => clear.subset within
  have whole : trim (o.url ++ String.ofList tail).toList = trim o.url.toList ++ tail := by
    rw [String.toList_append, String.toList_ofList]
    exact trimBoth_append some blank (avoids (by decide))
  have parsed' := longer tail slash (avoids (by decide)) (avoids (by decide))
  rw [← whole] at parsed'
  exact samePlace_of_path valid parsed parsed' base

/-- The root of accepted options is the place that their URL names and a path that is empty or begins with a slash and
does not end in one. Sign-on endpoints that are left open are at the same place. A URL without query and fragment that
does not name the version of the API may be written with slashes at its end, and with the version before them. -/
theorem root_has_one_form (valid : o.validate idna = .ok s) : ∃ u,
    Url.parse? idna (String.ofList (trim o.url.toList)) = .ok (.web u) ∧
    (s.basePath = [] ∨ s.basePath.head? = some '/') ∧ s.basePath.getLast? ≠ some '/' ∧
    s.baseUrl = u.scheme.name.toList ++ "://".toList ++ (u.authority ++ s.basePath) ∧ Avoids endsPath s.baseUrl ∧
    (o.tokenEndpoint = none → s.tokenUrl =
      String.ofList (u.scheme.name.toList ++ "://".toList ++ (u.authority ++ (pathFor s.credentials).toList))) ∧
    (o.revokeEndpoint = none → s.revokeUrl =
      String.ofList (u.scheme.name.toList ++ "://".toList ++ (u.authority ++ revokePath.toList))) ∧
    ((∀ c ∈ o.url.toList.getLast?, isBlank c = false ∧ Url.isEdge c = false) → u.query = none → u.fragment = none →
      ¬ "/v4".toList <:+ trimEnd isSlash u.path → ∀ k, ∀ version ∈ [[], "/v4".toList], ∃ s',
        { o with url := o.url ++ String.ofList (version ++ List.replicate k '/') }.validate idna = .ok s' ∧ s'.SamePlace s) := by
  obtain ⟨root, yields⟩ := yields_of_validate valid
  obtain ⟨u, parsed, rfl⟩ := parse?_of_root? yields.located
  refine ⟨u, parsed, yields.basePath_rooted, ?_, yields.baseUrl_eq, yields.avoids_baseUrl, ?_, ?_, ?_⟩
  · intro slash
    rw [yields.basePath] at slash
    have other : isSlash '/' = false := getLast?_trimEnd _ slash
    cases other
  · intro none
    have token := yields.tokenUrl
    rw [none, endpoint?_none _ _ _ (normalize_pathFor s.credentials)] at token
    exact (Except.ok.inj token).symm
  · intro none
    have revoke := yields.revokeUrl
    rw [none, endpoint?_none _ _ _ (by decide)] at revoke
    exact (Except.ok.inj revoke).symm
  · intro last query fragment plain k version member
    obtain ⟨path, rooted, same, longer⟩ := samePlace_of_tail valid parsed last query fragment
    rw [same] at plain
    have base : trimEnd isSlash (normalize path) = s.basePath := by
      rw [yields.basePath_eq, same]
      exact (basePathOf_plain plain).symm
    have slashes : List.replicate k '/' ⊆ "/v4".toList := fun c inside => by
      rw [List.eq_of_mem_replicate inside]
      decide
    simp only [List.mem_cons, List.not_mem_nil, or_false] at member
    rcases member with rfl | rfl
    · refine longer _ (fun c first => ?_) slashes ?_
      · exact List.eq_of_mem_replicate (List.mem_of_mem_head? first)
      · rw [List.nil_append, ← write_replicate, basePathOf, rootPath_of_trimEnd (trimEnd_slashes rooted k), ← base]
        exact basePathOf_plain plain
    · refine longer _ (fun c first => (Option.some.inj first).symm) ?_ ?_
      · exact List.append_subset.mpr ⟨List.Subset.refl _, slashes⟩
      · rw [← base, ← basePathOf_version rooted k, write_cons, write_replicate]
        rfl

/-- The version and three slashes behind it are taken off. -/
theorem root_has_one_form_versioned : ∃ s s', Sample.options.validate .ascii = .ok s ∧
    s.basePath = "/ovirt-engine/api".toList ∧
    { Sample.options with url := "https://engine.example.com/ovirt-engine/api/v4///" }.validate .ascii = .ok s' ∧
    s'.SamePlace s := by
  have computed : (Sample.options.validate .ascii).map Settings.basePath = .ok "/ovirt-engine/api".toList := by decide +kernel
  obtain ⟨s, valid, basePath⟩ := Except.map_eq_ok computed
  obtain ⟨u, parsed, _, _, _, _, _, _, spellings⟩ := root_has_one_form valid
  have read : Url.parse? .ascii (String.ofList (trim Sample.options.url.toList)) = .ok (.web
      ⟨.https, [], "engine.example.com".toList, none, "/ovirt-engine/api".toList, none, none⟩) := by
    decide +kernel
  obtain rfl := Url.web.inj (Except.ok.inj (parsed.symm.trans read))
  have ends : Sample.options.url.toList.getLast? = some 'i' := by decide
  have last : ∀ c ∈ Sample.options.url.toList.getLast?, isBlank c = false ∧ Url.isEdge c = false := by
    intro c member
    obtain rfl := Option.some.inj (ends.symm.trans member)
    exact ⟨by decide, by decide⟩
  obtain ⟨s', valid', same⟩ := spellings last rfl rfl (by decide) 3 "/v4".toList (by simp)
  exact ⟨s, s', valid, basePath, valid', same⟩

end Options
end EngineClient
