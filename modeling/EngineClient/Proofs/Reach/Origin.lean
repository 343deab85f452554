import EngineClient.Api.Root
import EngineClient.Proofs.Reach.Host
import EngineClient.Proofs.Reach.Segments

/-!
# Origins

Which characters the parts of a URL are written with. No part of an origin has a character that ends an authority,
and no path has one that ends a path, so that the origin is read back from all that is written after it.
-/

namespace EngineClient
open Text

/-! ### Hosts -/

theorem Uri.sparesEscapes_endsAuthority : SparesEscapes Uri.endsAuthority :=
  ⟨by decide, forall_alphanum (by decide)⟩

theorem Host.Written.ne_nil (written : Host.Written host) : host ≠ [] := by
  cases written with
  | name some _ => exact some
  | address4 n => exact Address.text4_ne_nil n
  | address6 _ => exact List.cons_ne_nil _ _

theorem Host.Written.avoids (written : Host.Written host) : Avoids Uri.endsAuthority host := by
  have spares := Uri.sparesEscapes_endsAuthority.2
  cases written with
  | name _ permitted =>
    intro c member
    have allowed := permitted c member
    by_contra ends
    simp only [Uri.endsAuthority, Bool.not_eq_false, Bool.or_eq_true, beq_iff_eq] at ends
    rcases ends with (rfl | rfl) | rfl <;> exact absurd allowed (by decide)
  | address4 n => exact Address.avoids_text4 spares (by decide) n
  | address6 _ =>
    refine avoids_cons.mpr ⟨by decide, avoids_append.mpr ⟨?_, avoids_cons.mpr ⟨by decide, avoids_nil⟩⟩⟩
    exact Address.avoids_inside6 spares (by decide) _

/-! ### URLs -/

/-- What stands between the scheme and the path. -/
def WebUrl.authority (u : WebUrl) : List Char :=
  u.userInfo ++ u.host ++ match u.port with
    | none => []
    | some p => ':' :: Nat.toDigits 10 p

theorem WebUrl.origin_eq (u : WebUrl) : u.origin = u.scheme.name.toList ++ "://".toList ++ u.authority := by
  unfold origin authority
  cases u.port with
  | none => simp
  | some p => simp

theorem drop_takeWhile (p : Char → Bool) (cs : List Char) : cs.drop (cs.takeWhile p).length = cs.dropWhile p := by
  have whole := @List.drop_left _ (cs.takeWhile p) (cs.dropWhile p)
  rwa [List.takeWhile_append_dropWhile] at whole

/-- A URL is made of parts that can be told apart. -/
structure WebUrl.Formed (u : WebUrl) : Prop where
  authority : Avoids Uri.endsAuthority u.authority
  nonempty : u.authority ≠ []
  path : Avoids endsPath u.path
  rooted : ∀ c ∈ u.path.head?, c = '/'

/-- The parts of a URL are in the form that reading brings them into. -/
structure WebUrl.Normal (u : WebUrl) : Prop where
  user : ∃ cs, u.userInfo = Url.userInfo cs
  host : Host.Written u.host
  path : ∃ ss, u.path = Path.write ss ∧ ∀ s ∈ ss, Path.Standing s
  query : ∀ q ∈ u.query, ∃ cs, q = Url.escape Url.standsInQuery cs

namespace Url

/-- What stands before the host, without the mark at its end. -/
def userText (cs : List Char) : List Char :=
  let name := cs.takeWhile (· != ':')
  let password := cs.drop (name.length + 1)
  escape standsInUser name ++ if password.isEmpty then [] else ':' :: escape standsInUser password

theorem userInfo_eq (cs : List Char) :
    userInfo cs = if (userText cs).isEmpty then [] else userText cs ++ ['@'] := rfl

theorem avoids_userText {bad : Char → Bool} (spares : SparesEscapes bad) (colon : bad ':' = false)
    (kept : ∀ b, standsInUser b = true → bad (charOf b) = false) (cs : List Char) : Avoids bad (userText cs) := by
  have escaped : ∀ cs, Avoids bad (escape standsInUser cs) := fun cs => avoids_percentEncode spares kept _
  refine avoids_append.mpr ⟨escaped _, ?_⟩
  split
  · exact avoids_nil
  · exact avoids_cons.mpr ⟨colon, escaped _⟩

theorem endsAuthority_of_standsInUser : ∀ b, standsInUser b = true → Uri.endsAuthority (charOf b) = false :=
  forall_byte (by decide +kernel)

theorem avoids_userInfo (cs : List Char) : Avoids Uri.endsAuthority (userInfo cs) := by
  rw [userInfo_eq]
  split
  · exact avoids_nil
  · have text := avoids_userText Uri.sparesEscapes_endsAuthority (by decide) endsAuthority_of_standsInUser cs
    exact avoids_append.mpr ⟨text, avoids_cons.mpr ⟨by decide, avoids_nil⟩⟩

/-- What a URL has between the separators behind its scheme and its path. -/
def authorityOf (cs : List Char) : List Char :=
  (cs.dropWhile Path.isSeparator).takeWhile (!endsAuthority true ·)

/-- What a URL has behind its authority. -/
def tailOf (cs : List Char) : List Char :=
  (cs.dropWhile Path.isSeparator).dropWhile (!endsAuthority true ·)

theorem web?_eq_ok_iff : web? idna scheme cs = .ok u ↔ ∃ user host port,
    authority? idna (authorityOf cs) = .ok (user, host, port) ∧
      u = { scheme, userInfo := user, host
            port := port.filter (· != scheme.defaultPort)
            path := Path.normalize (splitTail (tailOf cs)).1
            query := (splitTail (tailOf cs)).2.1.map (escape standsInQuery)
            fragment := (splitTail (tailOf cs)).2.2.map (escape standsInFragment) } := by
  have back : (cs.dropWhile Path.isSeparator).drop (authorityOf cs).length = tailOf cs := drop_takeWhile _ _
  unfold web?
  dsimp only
  rw [← authorityOf, back]
  constructor
  · intro read
    obtain ⟨⟨user, host, port⟩, parts, read⟩ := Except.bind_eq_ok read
    exact ⟨user, host, port, parts, (Except.ok.inj read).symm⟩
  · rintro ⟨user, host, port, parts, rfl⟩
    rw [parts]
    rfl

theorem normal_of_web? (read : web? idna scheme cs = .ok u) : u.Normal := by
  obtain ⟨user, host, port, parts, rfl⟩ := web?_eq_ok_iff.mp read
  unfold authority? at parts
  dsimp only at parts
  split at parts
  · cases parts
  obtain ⟨host', parsed, parts⟩ := Except.bind_eq_ok parts
  obtain ⟨_, _, parts⟩ := Except.bind_eq_ok parts
  cases parts
  refine ⟨?_, Host.written_of_parse? parsed, Path.standing_normalize _, fun q member => ?_⟩
  · dsimp only
    cases (splitUser (authorityOf cs)).1 with
    | none => exact ⟨[], rfl⟩
    | some given => exact ⟨given, rfl⟩
  · obtain ⟨given, _, rfl⟩ := Option.map_eq_some_iff.mp (Option.mem_def.mp member)
    exact ⟨given, rfl⟩

theorem parse?_eq_web (parsed : parse? idna s = .ok (.web u)) : ∃ name rest,
    splitScheme (significant s) = .ok (name, rest) ∧ String.ofList name = u.scheme.name ∧ web? idna u.scheme rest = .ok u := by
  have own : ∀ {scheme cs u}, web? idna scheme cs = .ok u → u.scheme = scheme := by
    intro scheme cs u read
    obtain ⟨_, _, _, _, rfl⟩ := web?_eq_ok_iff.mp read
    rfl
  unfold parse? at parsed
  obtain ⟨⟨name, rest⟩, split, parsed⟩ := Except.bind_eq_ok parsed
  refine ⟨name, rest, split, ?_⟩
  dsimp only at parsed
  split at parsed
  · rename_i http
    obtain ⟨u', read, parsed⟩ := Except.bind_eq_ok parsed
    cases parsed
    rw [own read]
    exact ⟨http, read⟩
  split at parsed
  · rename_i https
    obtain ⟨u', read, parsed⟩ := Except.bind_eq_ok parsed
    cases parsed
    rw [own read]
    exact ⟨https, read⟩
  split at parsed
  · obtain ⟨_, _, parsed⟩ := Except.bind_eq_ok parsed
    cases parsed
  split at parsed <;>
  · obtain ⟨_, _, parsed⟩ := Except.bind_eq_ok parsed
    cases parsed

theorem normal_of_parse? (parsed : parse? idna s = .ok (.web u)) : u.Normal := by
  obtain ⟨_, _, _, _, read⟩ := parse?_eq_web parsed
  exact normal_of_web? read

end Url

theorem WebUrl.Normal.formed {u : WebUrl} (normal : u.Normal) : u.Formed := by
  obtain ⟨⟨given, user⟩, host, ⟨ss, path, standing⟩, _⟩ := normal
  refine ⟨?_, ?_, ?_, ?_⟩
  · unfold authority
    rw [user]
    refine avoids_append.mpr ⟨avoids_append.mpr ⟨Url.avoids_userInfo given, host.avoids⟩, ?_⟩
    split
    · exact avoids_nil
    · exact avoids_cons.mpr ⟨by decide, avoids_toDigits Uri.sparesEscapes_endsAuthority.2 (by decide) (by decide) _⟩
  · simp [authority, host.ne_nil]
  · rw [path]
    exact Path.avoids_write (by decide) fun s member =>
      (standing s member).avoids Path.sparesEscapes_endsPath Path.endsPath_of_stands
  · rw [path]
    exact Path.rooted_write ss

/-! ### Reading back -/

namespace Uri

theorem parse?_eq_parseAbsolute (web : WebScheme) (rest : List Char) :
    parse? (String.ofList (web.name.toList ++ "://".toList ++ rest)) =
      if (String.ofList (web.name.toList ++ "://".toList ++ rest)).utf8ByteSize > maxLength then .error .tooLong
      else parseAbsolute web.name rest := by
  unfold parse?
  rw [String.toList_ofList]
  dsimp only
  split
  · rfl
  · cases web <;> rfl

theorem parse?_web {web : WebScheme} {rest : List Char} {uri : Uri}
    (parsed : parse? (String.ofList (web.name.toList ++ "://".toList ++ rest)) = .ok uri) :
    parseAbsolute web.name rest = .ok uri := by
  rw [parse?_eq_parseAbsolute] at parsed
  split at parsed
  · cases parsed
  · exact parsed

theorem path_of_splitPath {cs path : List Char} {query : Option (List Char)} (cut : splitPath cs = .ok (path, query)) :
    path = cs.takeWhile (!endsPath ·) := by
  have both : (cs.takeWhile (· != '#')).takeWhile (· != '?') = cs.takeWhile (!endsPath ·) := by
    rw [List.takeWhile_takeWhile]
    refine congrArg (cs.takeWhile ·) (funext fun c => ?_)
    by_cases mark : c = '?' <;> by_cases hash : c = '#' <;> simp [endsPath, mark, hash]
  unfold splitPath at cut
  dsimp only at cut
  rw [both] at cut
  split at cut
  · cases cut
  · split at cut
    · cases cut
      rfl
    · split at cut
      · cases cut
        rfl
      · cases cut

theorem parseAbsolute_eq_ok {name : String} {cs : List Char} {uri : Uri} (parsed : parseAbsolute name cs = .ok uri) :
    uri.scheme = some name ∧ uri.authority = some (cs.takeWhile (!endsAuthority ·)) ∧
      uri.path = (cs.dropWhile (!endsAuthority ·)).takeWhile (!endsPath ·) := by
  unfold parseAbsolute at parsed
  dsimp only at parsed
  split at parsed
  · cases parsed
  obtain ⟨_, _, parsed⟩ := Except.bind_eq_ok parsed
  split at parsed
  · cases parsed
  obtain ⟨⟨path, query⟩, cut, parsed⟩ := Except.bind_eq_ok parsed
  cases parsed
  rw [drop_takeWhile] at cut
  exact ⟨rfl, rfl, path_of_splitPath cut⟩

/-- What has no character that ends an authority is cut off where one follows. -/
theorem cut_authority {front rest : List Char} (avoids : Avoids endsAuthority front)
    (ends : ∀ c ∈ rest.head?, endsAuthority c = true) :
    (front ++ rest).takeWhile (!endsAuthority ·) = front ∧ (front ++ rest).dropWhile (!endsAuthority ·) = rest := by
  have passes : ∀ c ∈ front, (!endsAuthority c) = true := fun c member => by simp [avoids c member]
  rw [List.takeWhile_append_of_pos passes, List.dropWhile_append_of_pos passes]
  cases rest with
  | nil => exact ⟨List.append_nil front, rfl⟩
  | cons c r => simp [ends c rfl]

/-- An authority is read back from a URL of the web, and the path after it up to where a path ends. -/
theorem parse?_authority {web : WebScheme} {front rest : List Char} {uri : Uri} (avoids : Avoids endsAuthority front)
    (ends : ∀ c ∈ rest.head?, endsAuthority c = true)
    (parsed : parse? (String.ofList (web.name.toList ++ "://".toList ++ (front ++ rest))) = .ok uri) :
    uri.scheme = some web.name ∧ uri.authority = some front ∧ uri.path = rest.takeWhile (!endsPath ·) := by
  obtain ⟨name, authority, path⟩ := parseAbsolute_eq_ok (parse?_web parsed)
  obtain ⟨cut, behind⟩ := cut_authority avoids ends
  rw [cut] at authority
  rw [behind] at path
  exact ⟨name, authority, path⟩

end Uri

/-! ### The root -/

theorem Text.trimEnd_append {p : Char → Bool} {front : List Char} (last : ∀ c ∈ front.getLast?, p c = false)
    (cs : List Char) : trimEnd p (front ++ cs) = front ++ trimEnd p cs := by
  have whole : front.reverse.dropWhile p = front.reverse := by
    rw [List.getLast?_eq_head?_reverse] at last
    cases shape : front.reverse with
    | nil => rfl
    | cons c r =>
      rw [shape] at last
      simp [last c rfl]
  unfold trimEnd
  rw [List.reverse_append, List.dropWhile_append, whole]
  split
  · rename_i none
    rw [List.isEmpty_iff.mp none]
    simp
  · simp

theorem WebUrl.Normal.withPath {u : WebUrl} (normal : u.Normal) (path : List Char) : (u.withPath path).Normal where
  user := normal.user
  host := normal.host
  path := Path.standing_normalize path
  query := fun _ none => by cases none

namespace Options
variable {o : Options} {u : WebUrl} {s : Settings}

theorem root?_eq_ok {url : String} (read : root? idna url = .ok u) : u.Normal ∧ u.text = u.origin ++ u.path := by
  unfold root? at read
  dsimp only at read
  split at read
  · cases read
  · split at read
    · cases read
    · cases read
    · rename_i u' parsed
      cases read
      refine ⟨(Url.normal_of_parse? parsed).withPath _, ?_⟩
      simp [WebUrl.text, WebUrl.withPath, WebUrl.origin]

/-- The URL of the root is its origin and its path. -/
theorem Yields.baseUrl_eq (yields : o.Yields idna u s) :
    s.baseUrl = u.scheme.name.toList ++ "://".toList ++ (u.authority ++ s.basePath) := by
  obtain ⟨normal, whole⟩ := root?_eq_ok yields.located
  have formed := normal.formed
  have last : ∀ c ∈ (u.scheme.name.toList ++ "://".toList ++ u.authority).getLast?, Text.isSlash c = false := by
    intro c member
    rw [List.getLast?_append_of_ne_nil _ formed.nonempty] at member
    have ends := formed.authority c (List.mem_of_getLast? member)
    simp only [Uri.endsAuthority, Bool.or_eq_false_iff] at ends
    exact ends.1.1
  rw [yields.baseUrl, yields.basePath, whole, u.origin_eq, Text.trimEnd_append last, List.append_assoc]

/-- The path of the root is written with segments that stand as they are. -/
theorem Yields.basePath_written (yields : o.Yields idna u s) :
    ∃ ss, s.basePath = Path.write ss ∧ ∀ t ∈ ss, Path.Standing t := by
  obtain ⟨ss, path, standing⟩ := (root?_eq_ok yields.located).1.path
  refine ⟨ss.rdropWhile List.isEmpty, ?_, fun t member => standing t ((List.rdropWhile_prefix _ _).subset member)⟩
  rw [yields.basePath, path, Path.trimEnd_write fun t member => (standing t member).whole]

end Options
end EngineClient
