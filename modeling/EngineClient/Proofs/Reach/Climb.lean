import EngineClient.Proofs.Reach.Link

/-!
# Links that climb

A server takes dot segments out of the path of a request. A link below the root that has such segments may lead it
above the root: it comes back exactly if it then goes down through the segments that it has climbed.
-/

namespace EngineClient
open Text

namespace Path

/-! ### Paths as servers read them -/

/-- The segments of a path, each with a slash before it. -/
def parts (path : List Char) : List (List Char) :=
  (path.splitOn '/').drop 1

/-- The path that is left when the dot segments are taken out. -/
def removeDots (path : List Char) : List Char :=
  write (((parts path).foldl (pass List.tail) []).reverse ++ ending (parts path))

section Parts
variable {ss : List (List Char)}

theorem clear_of_whole {s : List Char} (whole : Avoids isSeparator s) : Avoids (· == '/') s := by
  intro c member
  have other := whole c member
  simp only [isSeparator, Bool.or_eq_false_iff] at other
  exact other.1

theorem parts_write (clear : ∀ s ∈ ss, Avoids (· == '/') s) : parts (write ss) = ss := by
  have cut := splitOnP_write (p := (· == '/')) rfl [] clear
  rw [parts, List.splitOn_eq_splitOnP, ← List.nil_append (write ss), cut]
  rfl

theorem parts_write_append (clear : ∀ s ∈ ss, Avoids (· == '/') s) (rest : List Char) :
    parts (write ss ++ '/' :: rest) = ss ++ rest.splitOn '/' := by
  have cut := splitOnP_write (p := (· == '/')) rfl [] clear
  rw [parts, List.splitOn_append_cons_self, List.splitOn_eq_splitOnP, ← List.nil_append (write ss), cut]
  rfl

theorem clear_parts (path : List Char) : ∀ s ∈ parts path, Avoids (· == '/') s := by
  intro s member
  exact avoids_splitOnP _ _ s (List.mem_of_mem_drop member)

end Parts

/-! ### Courses -/

/-- How a walk stands to where it began: so far up, and then down through segments that are listed last first. -/
structure Course where
  above : Nat := 0
  below : List (List Char) := []

def Course.next (c : Course) (s : List Char) : Course :=
  match step s, c.below with
  | .stay, _ => c
  | .up, [] => { c with above := c.above + 1 }
  | .up, _ :: rest => { c with below := rest }
  | .down, below => { c with below := s :: below }

def course (ss : List (List Char)) : Course :=
  ss.foldl Course.next {}

/-- Where a walk has come that began at a place. -/
def Course.from (c : Course) (done : List (List Char)) : List (List Char) :=
  c.below ++ done.drop c.above

theorem Course.from_next (c : Course) (done : List (List Char)) (s : List Char) :
    (c.next s).from done = pass List.tail (c.from done) s := by
  obtain ⟨above, below⟩ := c
  unfold next pass Course.from
  cases step s with
  | stay => rfl
  | up =>
    cases below with
    | nil => simp
    | cons t rest => rfl
  | down => rfl

theorem foldl_tail (ss done : List (List Char)) : ss.foldl (pass List.tail) done = (course ss).from done := by
  -- For a walk that is under way, since where it began is lost after the first step.
  have walk : ∀ c : Course, ss.foldl (pass List.tail) (c.from done) = (ss.foldl Course.next c).from done := by
    induction ss with
    | nil => exact fun _ => rfl
    | cons s rest ih =>
      intro c
      rw [List.foldl_cons, List.foldl_cons, ← c.from_next, ih]
  exact walk {}

/-- The segments that a walk has gone down through in the end, and what a dot segment at its end leaves. -/
def reached (ss : List (List Char)) : List (List Char) :=
  (course ss).below.reverse ++ ending ss

theorem clear_reached {ss : List (List Char)} (clear : ∀ s ∈ ss, Avoids (· == '/') s) :
    ∀ s ∈ reached ss, Avoids (· == '/') s := by
  have own : (course ss).below = ss.foldl (pass List.tail) [] := by
    rw [foldl_tail, Course.from, List.drop_nil, List.append_nil]
  intro s member
  rcases List.mem_append.mp member with below | last
  · rw [own, List.mem_reverse] at below
    rcases mem_foldl_pass List.tail_subset below with impossible | ⟨among, _⟩
    · cases impossible
    · exact clear s among
  · rw [mem_ending last]
    exact avoids_nil

/-- A walk that never goes up stays below where it began. -/
theorem above_of_no_up {ss : List (List Char)} (level : ∀ s ∈ ss, step s ≠ .up) : (course ss).above = 0 := by
  have kept : ∀ c : Course, (ss.foldl Course.next c).above = c.above := by
    induction ss with
    | nil => exact fun _ => rfl
    | cons s rest ih =>
      intro c
      rw [List.foldl_cons, ih fun t member => level t (List.mem_cons_of_mem _ member)]
      have first := level s List.mem_cons_self
      unfold Course.next
      split <;> simp_all
  exact kept {}

/-- What is left of a path that goes on from segments that stand as they are. -/
theorem removeDots_eq {bs ts : List (List Char)} {path : List Char} (read : parts path = bs ++ ts)
    (down : ∀ s ∈ bs, step s = .down) : removeDots path = write (bs.rdrop (course ts).above ++ reached ts) := by
  have last : ending (bs ++ ts) = ending ts := by
    cases ts with
    | nil =>
      rw [List.append_nil, ending_of_down down]
      rfl
    | cons t rest => exact ending_append (List.cons_ne_nil t rest)
  rw [removeDots, read, last, List.foldl_append, foldl_pass down, List.append_nil, foldl_tail, Course.from,
    List.reverse_append, ← List.rdrop_eq_reverse_drop_reverse, List.append_assoc]
  rfl

example : removeDots "/a/b/c/./%2e%2E/../g".toList = "/a/g".toList := by decide

end Path

namespace ApiRoot

/-- A path is the one of the root or lies below it. -/
def Contains (root : ApiRoot) (path : List Char) : Prop :=
  ∃ p, Hangs p ∧ path = root.path ++ p

/-- The segments that a request for a path has behind those of the root. The path of a request is never empty. -/
def behind (root : ApiRoot) (p : List Char) : List (List Char) :=
  let rest := trimStart isSlash p
  if rest.isEmpty then if root.path.isEmpty then [[]] else []
  else (rest.takeWhile (!endsPath ·)).splitOn '/'

variable {root : ApiRoot}

theorem contains_write_iff {bs ss : List (List Char)} (path : root.path = Path.write bs)
    (clear : ∀ s ∈ bs, Avoids (· == '/') s) (clear' : ∀ s ∈ ss, Avoids (· == '/') s) :
    root.Contains (Path.write ss) ↔ bs <+: ss := by
  unfold Contains
  rw [path]
  constructor
  · rintro ⟨p, hangs, same⟩
    have read := congrArg Path.parts same
    rw [Path.parts_write clear'] at read
    rcases hangs with rfl | slash
    · rw [List.append_nil, Path.parts_write clear] at read
      rw [read]
    · obtain ⟨rest, rfl⟩ : ∃ rest, p = '/' :: rest := List.head?_eq_some_iff.mp slash
      rw [Path.parts_write_append clear] at read
      rw [read]
      exact List.prefix_append _ _
  · rintro ⟨rest, rfl⟩
    refine ⟨Path.write rest, ?_, Path.write_append bs rest⟩
    cases rest with
    | nil => exact .inl rfl
    | cons s rest => exact .inr rfl

section Sent
variable {web : WebScheme} {front tail : List Char} {bs : List (List Char)} {uri : Uri}

/-- A URL that begins with the one of the root is cut where a path ends. -/
theorem path_of_parse? (url : root.url = web.name.toList ++ "://".toList ++ (front ++ root.path))
    (avoids : Avoids Uri.endsAuthority front) (path : root.path = Path.write bs) (standing : ∀ s ∈ bs, Path.Standing s)
    (slash : ∀ c ∈ tail.head?, c = '/') (parsed : Uri.parse? (String.ofList (root.url ++ tail)) = .ok uri) :
    uri.scheme = some web.name ∧ uri.path = root.path ++ tail.takeWhile (!endsPath ·) := by
  have rootAvoids : ∀ c ∈ root.path, (!endsPath c) = true := by
    intro c member
    rw [path] at member
    have avoids := Path.avoids_write (by decide) (fun s among =>
      (standing s among).avoids Path.sparesEscapes_endsPath Path.endsPath_of_stands) c member
    rw [avoids]
    rfl
  have shape : root.url ++ tail = web.name.toList ++ "://".toList ++ (front ++ (root.path ++ tail)) := by
    rw [url]
    simp
  have ends : ∀ c ∈ (root.path ++ tail).head?, Uri.endsAuthority c = true := by
    intro c first
    rw [path] at first
    cases bs with
    | nil =>
      rw [slash c first]
      decide
    | cons s rest =>
      obtain rfl : '/' = c := Option.some.inj first
      decide
  rw [shape] at parsed
  obtain ⟨scheme, _, path'⟩ := Uri.parse?_authority avoids ends parsed
  rw [List.takeWhile_append_of_pos rootAvoids] at path'
  exact ⟨scheme, path'⟩

/-- The path of a request goes on behind the segments of the root. -/
theorem parts_sentPath (url : root.url = web.name.toList ++ "://".toList ++ (front ++ root.path))
    (avoids : Avoids Uri.endsAuthority front) (path : root.path = Path.write bs) (standing : ∀ s ∈ bs, Path.Standing s)
    (p : List Char) (parsed : Uri.parse? (String.ofList (root.below p)) = .ok uri) :
    Path.parts uri.sentPath = bs ++ root.behind p := by
  have clear : ∀ s ∈ bs, Avoids (· == '/') s := fun s member => Path.clear_of_whole (standing s member).whole
  unfold below at parsed
  unfold behind Uri.sentPath
  dsimp only
  split at parsed
  · rename_i none
    have slash : ∀ c ∈ ([] : List Char).head?, c = '/' := fun _ none => by cases none
    obtain ⟨scheme, path'⟩ := path_of_parse? url avoids path standing slash parsed
    rw [List.takeWhile_nil, List.append_nil] at path'
    rw [if_pos none, scheme, path', path]
    cases bs with
    | nil => rfl
    | cons s rest =>
      have whole := Path.parts_write clear
      simpa [Path.write_cons] using whole
  · rename_i some
    have slash : ∀ c ∈ ('/' :: trimStart isSlash p).head?, c = '/' := fun c first => (Option.some.inj first).symm
    obtain ⟨scheme, path'⟩ := path_of_parse? url avoids path standing slash parsed
    have cut : ('/' :: trimStart isSlash p).takeWhile (!endsPath ·) = '/' :: (trimStart isSlash p).takeWhile (!endsPath ·) := rfl
    rw [cut] at path'
    rw [if_neg some, path', path, ← Path.parts_write_append clear]
    simp

end Sent

theorem ofSettings_path (s : Settings) : (ofSettings s).path = s.basePath := rfl

end ApiRoot

/-- The path of the root as a server reads it, and what it makes of the path of a request for a link. It is the path of
the root or below it exactly if the link, once it has climbed, goes down through the segments that it has climbed; a link
without steps up stays below. -/
theorem links_climb (created : Connection.create idna fs o = (log, .ok c)) :
    c.root.path = Path.write (Path.parts c.root.path) ∧
    ∀ (href : String) (p : List Char), c.root.pathOf? href.toList = some p →
      c.followLink href = c.send (.get (String.ofList p)) ∧
      ∀ a out, c.client.outbound (c.root.draft (.get (String.ofList p)) a) = .ok out →
        Path.removeDots out.uri.sentPath = Path.write
          ((Path.parts c.root.path).rdrop (Path.course (c.root.behind p)).above ++ Path.reached (c.root.behind p)) ∧
        (c.root.Contains (Path.removeDots out.uri.sentPath) ↔
          (Path.parts c.root.path).rtake (Path.course (c.root.behind p)).above <+: Path.reached (c.root.behind p)) ∧
        ((∀ s ∈ c.root.behind p, Path.step s ≠ .up) → c.root.Contains (Path.removeDots out.uri.sentPath)) := by
  obtain ⟨s, u, yields, _, _, made⟩ := Connection.yields_of_create created
  have root : c.root = ApiRoot.ofSettings s := by
    rw [made]
    rfl
  obtain ⟨bs, path, standing⟩ := yields.basePath_written
  rw [← ApiRoot.ofSettings_path s, ← root] at path
  have url : c.root.url = u.scheme.name.toList ++ "://".toList ++ (u.authority ++ c.root.path) := by
    rw [root]
    exact yields.baseUrl_eq
  have clear : ∀ t ∈ bs, Avoids (· == '/') t := fun t member => Path.clear_of_whole (standing t member).whole
  have down : ∀ t ∈ bs, Path.step t = .down := fun t member => (standing t member).down
  have parts : Path.parts c.root.path = bs := by rw [path, Path.parts_write clear]
  have avoids := (Options.root?_eq_ok yields.located).1.formed.authority
  refine ⟨by rw [parts, path], fun href p spelled => ⟨Connection.followLink_of_path spelled, fun a out leaves => ?_⟩⟩
  obtain ⟨_, parsed, _⟩ := Connection.outbound_get leaves
  have read := ApiRoot.parts_sentPath url avoids path standing p parsed
  have left := Path.removeDots_eq read down
  generalize hts : c.root.behind p = ts at *
  have clearTs : ∀ t ∈ ts, Avoids (· == '/') t := fun t member =>
    Path.clear_parts out.uri.sentPath t (by rw [read]; exact List.mem_append_right _ member)
  have contains : c.root.Contains (Path.removeDots out.uri.sentPath) ↔
      bs.rtake (Path.course ts).above <+: Path.reached ts := by
    -- The segments of the root are those that are kept, which both have in common, and those that the link has climbed.
    have whole : bs.rdrop (Path.course ts).above ++ bs.rtake (Path.course ts).above = bs := List.take_append_drop _ _
    have clear' : ∀ t ∈ bs.rdrop (Path.course ts).above ++ Path.reached ts, Avoids (· == '/') t := by
      intro t member
      rcases List.mem_append.mp member with kept | new
      · exact clear t (List.mem_of_mem_take kept)
      · exact Path.clear_reached clearTs t new
    have behind : bs.rdrop (Path.course ts).above ++ bs.rtake (Path.course ts).above <+:
        bs.rdrop (Path.course ts).above ++ Path.reached ts ↔ bs.rtake (Path.course ts).above <+: Path.reached ts :=
      List.prefix_append_right_inj _
    rw [whole] at behind
    rw [left, ApiRoot.contains_write_iff path clear clear', behind]
  rw [parts]
  refine ⟨left, contains, fun level => contains.mpr ?_⟩
  rw [Path.above_of_no_up level, List.rtake_zero]
  exact List.nil_prefix

/-- A link that climbs to the segment before and takes the way back down is one below the root. -/
theorem links_climb_back : ∃ log c out, Connection.create .ascii {} Sample.options = (log, .ok c) ∧
    c.followLink "/ovirt-engine/api/../api/vms" = c.send (.get "/../api/vms") ∧
    c.client.outbound (c.root.draft (.get "/../api/vms") (.literal "Bearer T1")) = .ok out ∧
    Path.removeDots out.uri.sentPath = "/ovirt-engine/api/vms".toList ∧
    c.root.Contains (Path.removeDots out.uri.sentPath) := by
  have computed : (Connection.create .ascii {} Sample.options).2.map (fun c => (c.root.path,
      c.root.pathOf? "/ovirt-engine/api/../api/vms".toList, c.root.behind "/../api/vms".toList,
      (c.client.outbound (c.root.draft (.get "/../api/vms") (.literal "Bearer T1"))).isOk)) =
      .ok ("/ovirt-engine/api".toList, some "/../api/vms".toList, ["..".toList, "api".toList, "vms".toList], true) := by
    decide +kernel
  obtain ⟨c, made, read⟩ := Except.map_eq_ok computed
  simp only [Prod.mk.injEq] at read
  obtain ⟨path, spelled, behind, leaves⟩ := read
  have created := Connection.create_eq_of_ok made
  cases sent : c.client.outbound (c.root.draft (.get "/../api/vms") (.literal "Bearer T1")) with
  | error e =>
    rw [sent] at leaves
    cases leaves
  | ok out =>
    obtain ⟨_, links⟩ := links_climb created
    obtain ⟨followed, paths⟩ := links "/ovirt-engine/api/../api/vms" _ spelled
    obtain ⟨left, contains, _⟩ := paths (.literal "Bearer T1") out sent
    rw [path, behind] at left contains
    exact ⟨_, c, out, created, followed, sent, left.trans (by decide), contains.mpr (by decide)⟩

/-- A link below the root leads out of it, to another service of the same engine. -/
theorem link_climbs_out : (Connection.create .ascii {} Sample.options).2.map (fun c =>
    (c.root.path, c.root.pathOf? "/ovirt-engine/api/../sso/logout".toList,
      (c.client.outbound (c.root.draft (.get "/../sso/logout") (.literal "Bearer T1"))).map fun out =>
        Path.removeDots out.uri.sentPath)) =
    .ok ("/ovirt-engine/api".toList, some "/../sso/logout".toList, .ok "/ovirt-engine/sso/logout".toList) := by
  decide +kernel

end EngineClient
