import EngineClient.Proofs.Reach.Target
import EngineClient.Proofs.Text.Form

/-!
# The parts of a URL

The URL of a request is taken apart again behind that of the root: a path, the parameters that belong to it and those
after the question mark. Two requests have one URL exactly if they have the same parts.
-/

namespace EngineClient
open Text

structure UrlParts where
  /-- The path without its leading slashes. -/
  path : List Char
  matrix : List Form.Field
  query : List Form.Field
  deriving DecidableEq

namespace Request

def parts (r : Request) : UrlParts :=
  { path := trimStart isSlash r.path.toList, matrix := r.matrix, query := r.query }

/-- The path has no character that begins parameters; it is written without escapes. -/
def PathStands (r : Request) : Prop :=
  ';' ∉ r.path.toList ∧ '?' ∉ r.path.toList

end Request

namespace ApiRoot

/-- The name and the value of a parameter that belongs to the path. -/
def matrixField? (cs : List Char) : Option Form.Field :=
  let (name, value) := Form.cut '=' cs
  do
    let name ← string? (percentDecode name)
    let value ← string? (percentDecode value)
    return (name, value)

/-- Takes a URL below the root apart. -/
def partsOf? (r : ApiRoot) (url : List Char) : Option UrlParts := do
  let rest ← stripFront? r.url url
  let (left, right) := Form.cut '?' rest
  match Form.pieces ';' left with
  | [] => none
  | front :: parameters =>
    let matrix ← parameters.mapM matrixField?
    return { path := front.drop 1, matrix, query := Form.parse right }

/-! ### Parameters of the path -/

/-- A parameter without the semicolon in front. -/
def matrixField (f : Form.Field) : List Char :=
  matrixText f.1 ++ '=' :: matrixText f.2

theorem separators_matrixText (s : String) : ';' ∉ matrixText s ∧ '=' ∉ matrixText s ∧ '?' ∉ matrixText s := by
  have each : ∀ b : UInt8, ';' ∉ (if isUnreserved b then [charOf b] else percentByte b) ∧
      '=' ∉ (if isUnreserved b then [charOf b] else percentByte b) ∧
      '?' ∉ (if isUnreserved b then [charOf b] else percentByte b) := forall_byte (by decide +kernel)
  refine ⟨fun member => ?_, fun member => ?_, fun member => ?_⟩ <;> obtain ⟨b, _, inside⟩ := List.mem_flatMap.mp member
  · exact (each b).1 inside
  · exact (each b).2.1 inside
  · exact (each b).2.2 inside

theorem separators_matrixField (f : Form.Field) : ';' ∉ matrixField f ∧ '?' ∉ matrixField f := by
  have name := separators_matrixText f.1
  have value := separators_matrixText f.2
  simp [matrixField, name, value]

theorem matrixField?_matrixField (f : Form.Field) : matrixField? (matrixField f) = some f := by
  have clear := (separators_matrixText f.1).2.1
  have read : ∀ s, string? (percentDecode (matrixText s)) = some s := by
    intro s
    rw [matrixText, percentDecode_percentEncode plain_isUnreserved, string?, utf8, decode?_encode, Option.map_some,
      String.ofList_toList]
  rw [matrixField?, matrixField, Form.cut_separator clear]
  simp [read]

theorem mapM_matrixField? (fields : List Form.Field) : (fields.map matrixField).mapM matrixField? = some fields := by
  induction fields with
  | nil => rfl
  | cons f rest ih => simp [matrixField?_matrixField, ih]

theorem matrix_eq_intercalate (front : List Char) (fields : List Form.Field) :
    front ++ fields.flatMap matrixPart = List.intercalate [';'] (front :: fields.map matrixField) := by
  induction fields generalizing front with
  | nil => simp [List.intercalate]
  | cons f rest ih =>
    have later := ih (matrixField f)
    have here : matrixPart f = ';' :: matrixField f := rfl
    rw [List.flatMap_cons, here, List.cons_append, later]
    simp [List.intercalate]

/-! ### The URL of a request -/

/-- The path of a request behind the URL of the root. -/
def front (request : Request) : List Char :=
  if request.parts.path.isEmpty then [] else '/' :: request.parts.path

theorem drop_front (request : Request) : (front request).drop 1 = request.parts.path := by
  unfold front
  split
  · rename_i empty
    rw [List.isEmpty_iff.mp empty]
    rfl
  · rfl

theorem clear_front {request : Request} (stands : request.PathStands) : ';' ∉ front request ∧ '?' ∉ front request := by
  have within : request.parts.path ⊆ request.path.toList := (List.dropWhile_suffix isSlash).subset
  have clear : ∀ c, c ≠ '/' → c ∉ request.path.toList → c ∉ front request := by
    intro c other absent member
    unfold front at member
    split at member
    · cases member
    · rcases List.mem_cons.mp member with same | inside
      · exact other same
      · exact absent (within inside)
  exact ⟨clear ';' (by decide) stands.1, clear '?' (by decide) stands.2⟩

theorem tailFor_eq (request : Request) : tailFor request = front request ++ request.matrix.flatMap matrixPart ++
    if request.query.isEmpty then [] else '?' :: Form.render request.query :=
  rfl

theorem cut_query {left : List Char} (clear : '?' ∉ left) (fields : List Form.Field) :
    Form.cut '?' (left ++ if fields.isEmpty then [] else '?' :: Form.render fields) = (left, Form.render fields) := by
  cases fields with
  | nil =>
    have whole := Form.cut_clear clear
    rw [← List.append_nil left] at whole
    simpa [Form.render] using whole
  | cons f rest => exact Form.cut_separator clear _

theorem partsOf?_urlFor (root : ApiRoot) {request : Request} (stands : request.PathStands) :
    root.partsOf? (root.urlFor request) = some request.parts := by
  obtain ⟨semicolon, mark⟩ := clear_front stands
  have left : '?' ∉ front request ++ request.matrix.flatMap matrixPart := by
    intro member
    rcases List.mem_append.mp member with inside | inside
    · exact mark inside
    · obtain ⟨f, _, inside⟩ := List.mem_flatMap.mp inside
      have apart := (separators_matrixField f).2
      rcases List.mem_cons.mp inside with same | inside
      · cases same
      · exact apart inside
  have clear : ∀ p ∈ front request :: request.matrix.map matrixField, ';' ∉ p := by
    intro p member
    rcases List.mem_cons.mp member with rfl | member
    · exact semicolon
    · obtain ⟨f, _, rfl⟩ := List.mem_map.mp member
      exact (separators_matrixField f).1
  have stripped : stripFront? root.url (root.urlFor request) = some (tailFor request) :=
    stripFront?_eq_some_iff.mpr (urlFor_eq root request)
  have cut : Form.cut '?' (tailFor request) =
      (front request ++ request.matrix.flatMap matrixPart, Form.render request.query) := by
    rw [tailFor_eq]
    exact cut_query left request.query
  have pieces : Form.pieces ';' (front request ++ request.matrix.flatMap matrixPart) =
      front request :: request.matrix.map matrixField := by
    rw [matrix_eq_intercalate]
    exact Form.pieces_join clear (List.cons_ne_nil _ _)
  unfold partsOf?
  simp only [stripped, Option.bind_eq_bind, Option.bind_some, cut, pieces, mapM_matrixField?, drop_front, Form.parse_render]
  rfl

theorem urlFor_of_parts (root : ApiRoot) {a b : Request} (same : a.parts = b.parts) : root.urlFor a = root.urlFor b := by
  have path : trimStart isSlash a.path.toList = trimStart isSlash b.path.toList := congrArg UrlParts.path same
  have matrix : a.matrix = b.matrix := congrArg UrlParts.matrix same
  have query : a.query = b.query := congrArg UrlParts.query same
  simp only [urlFor, path, matrix, query]

/-- The parts of a request are read back from its URL below any root, whatever characters its parameters have. So two
requests with paths written as they stand have one URL exactly if their parameters are the same and their paths differ
in leading slashes only. -/
theorem urlFor_read_back (root : ApiRoot) (request : Request) (stands : request.PathStands) :
    root.partsOf? (root.urlFor request) = some request.parts ∧
    ∀ other : Request, other.PathStands → (root.urlFor request = root.urlFor other ↔ request.parts = other.parts) := by
  have read := root.partsOf?_urlFor stands
  refine ⟨read, fun other stands' => ⟨fun same => ?_, root.urlFor_of_parts⟩⟩
  rw [same, root.partsOf?_urlFor stands'] at read
  exact (Option.some.inj read).symm

end ApiRoot

namespace Sample

/-- Separators, escapes and spaces stand in the parameters; some are empty, and some repeat. -/
def layered : Request :=
  { Request.get "//vms/a=b" with
    matrix := [("a;=?", "1+1%41"), ("", ""), ("", ""), ("schlüssel", "😀 /")]
    query := [("", ""), ("a&b", "c=d e+%2B"), ("", ""), ("schlüssel", "😀?;")] }

end Sample

theorem urlFor_read_back_layered : ∃ s, Options.validate .ascii Sample.options = .ok s ∧
    String.ofList ((ApiRoot.ofSettings s).urlFor Sample.layered) = "https://engine.example.com/ovirt-engine/api/vms/a=b" ++
      ";a%3B%3D%3F=1%2B1%2541;=;=;schl%C3%BCssel=%F0%9F%98%80%20%2F" ++
      "?=&a%26b=c%3Dd+e%2B%252B&=&schl%C3%BCssel=%F0%9F%98%80%3F%3B" ∧
    Sample.layered.PathStands ∧
    (ApiRoot.ofSettings s).partsOf? ((ApiRoot.ofSettings s).urlFor Sample.layered) = some
      { path := "vms/a=b".toList, matrix := Sample.layered.matrix, query := Sample.layered.query } ∧
    (ApiRoot.ofSettings s).urlFor Sample.layered ≠ (ApiRoot.ofSettings s).urlFor Sample.parametrized := by
  have computed : (Options.validate .ascii Sample.options).map
      (fun s => String.ofList ((ApiRoot.ofSettings s).urlFor Sample.layered)) =
      .ok ("https://engine.example.com/ovirt-engine/api/vms/a=b" ++
        ";a%3B%3D%3F=1%2B1%2541;=;=;schl%C3%BCssel=%F0%9F%98%80%20%2F" ++
        "?=&a%26b=c%3Dd+e%2B%252B&=&schl%C3%BCssel=%F0%9F%98%80%3F%3B") := by
    decide +kernel
  obtain ⟨s, valid, url⟩ := Except.map_eq_ok computed
  have stands : Sample.layered.PathStands := by
    unfold Request.PathStands
    decide
  have plain : Sample.parametrized.PathStands := by
    unfold Request.PathStands
    decide
  obtain ⟨read, injective⟩ := ApiRoot.urlFor_read_back (.ofSettings s) Sample.layered stands
  have path : trimStart isSlash Sample.layered.path.toList = "vms/a=b".toList := by decide
  refine ⟨s, valid, url, stands, ?_, ?_⟩
  · rw [read, Request.parts, path]
  · intro same
    have parts := (injective _ plain).mp same
    exact absurd (congrArg UrlParts.query parts) (by decide)

end EngineClient
