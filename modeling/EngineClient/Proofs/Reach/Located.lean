import EngineClient.Api.Root
import EngineClient.Api.Service
import EngineClient.Proofs.Reach.Segments
import Mathlib.Data.List.Forall2

/-!
# Paths of services

A handle is reached by names, from a collection of the root or from a path of its own. Its path is the join of the names
without the slashes around them; the same path given at once leads to the same place. Requests are made at this path, and
those of actions one name below it.
-/

namespace EngineClient
open Text

namespace Service
variable {s path parent : String}

/-! ### Names and slashes around them -/

/-- A text is slashes around another one, at whose ends there are none. -/
structure Strips (given bare : String) : Prop where
  around : ∃ m n, given.toList = List.replicate m '/' ++ bare.toList ++ List.replicate n '/'
  first : bare.toList.head? ≠ some '/'
  last : bare.toList.getLast? ≠ some '/'

/-- A text has something besides slashes. -/
def Names (s : String) : Prop :=
  ∃ c ∈ s.toList, c ≠ '/'

/-- A path that has no slash at its ends and is not that of the root. -/
structure Placed (path : String) : Prop where
  below : path ≠ ""
  first : path.toList.head? ≠ some '/'
  last : path.toList.getLast? ≠ some '/'

/-- A text without the slashes around it. -/
def bare (s : String) : String :=
  String.ofList (trimSlashes s.toList)

theorem toList_bare (s : String) : (bare s).toList = (trimStart isSlash s.toList).rdropWhile isSlash :=
  String.toList_ofList

theorem trimStart_of_head {cs : List Char} (first : cs.head? ≠ some '/') : trimStart isSlash cs = cs := by
  cases cs with
  | nil => rfl
  | cons c rest =>
    refine List.dropWhile_cons_of_neg fun slash => first ?_
    rw [List.head?_cons, beq_iff_eq.mp slash]

theorem eq_replicate_of_slashes {cs : List Char} (slashes : ∀ c ∈ cs, isSlash c = true) : ∃ n, cs = List.replicate n '/' :=
  ⟨cs.length, List.eq_replicate_iff.mpr ⟨rfl, fun c member => beq_iff_eq.mp (slashes c member)⟩⟩

theorem head?_bare (s : String) : (bare s).toList.head? ≠ some '/' := by
  intro slash
  have front : (trimStart isSlash s.toList).head? = some '/' := by
    obtain ⟨back, whole⟩ := List.rdropWhile_prefix isSlash (trimStart isSlash s.toList)
    rw [← whole, List.head?_append, ← toList_bare, slash, Option.some_or]
  have other := List.head?_dropWhile_not isSlash s.toList
  rw [trimStart] at front
  rw [front] at other
  cases other

theorem getLast?_bare (s : String) : (bare s).toList.getLast? ≠ some '/' := by
  intro slash
  rw [toList_bare] at slash
  cases getLast?_trimEnd '/' slash

theorem strips_bare (s : String) : Strips s (bare s) := by
  refine ⟨?_, head?_bare s, getLast?_bare s⟩
  obtain ⟨m, front⟩ := eq_replicate_of_slashes fun c member => List.mem_takeWhile_imp (p := isSlash) (l := s.toList) member
  obtain ⟨n, back⟩ := eq_replicate_of_slashes fun c member =>
    List.mem_rtakeWhile_imp (p := isSlash) (l := trimStart isSlash s.toList) member
  refine ⟨m, n, ?_⟩
  rw [toList_bare, List.append_assoc, ← back, List.rdropWhile_append_rtakeWhile, ← front, trimStart,
    List.takeWhile_append_dropWhile]

theorem Placed.toList_ne_nil (placed : Placed path) : path.toList ≠ [] := fun empty =>
  placed.below (String.toList_eq_nil_iff.mp empty)

theorem placed_bare (names : Names s) : Placed (bare s) := by
  refine ⟨fun root => ?_, head?_bare s, getLast?_bare s⟩
  obtain ⟨m, n, whole⟩ := (strips_bare s).around
  obtain ⟨c, member, other⟩ := names
  rw [whole, root] at member
  simp only [String.toList_empty, List.append_nil, List.mem_append, List.mem_replicate] at member
  rcases member with ⟨_, same⟩ | ⟨_, same⟩ <;> exact other same

/-- There is only one way to leave the slashes out. -/
theorem Strips.bare_eq (strips : Strips given s) : bare given = s := by
  obtain ⟨⟨m, n, whole⟩, first, last⟩ := strips
  have slashes : ∀ k, ∀ c ∈ List.replicate k '/', isSlash c = true := by
    intro k c member
    rw [List.eq_of_mem_replicate member]
    rfl
  have back : trimEnd isSlash s.toList = s.toList := trimEnd_of_last fun c member => by
    rw [isSlash, beq_eq_false_iff_ne]
    rintro rfl
    exact last member
  have front : trimEnd isSlash (trimStart isSlash (s.toList ++ List.replicate n '/')) = s.toList := by
    by_cases empty : s.toList = []
    · rw [empty, List.nil_append, trimStart, List.dropWhile_eq_nil_iff.mpr (slashes n)]
      rfl
    · rw [trimStart_of_head (by rwa [List.head?_append_of_ne_nil _ empty]), trimEnd_replicate rfl, back]
  rw [bare, trimSlashes, trimBoth, whole, List.append_assoc, trimStart, List.dropWhile_append_of_pos (slashes m),
    ← trimStart, front, String.ofList_toList]

theorem bare_of_placed (placed : Placed path) : bare path = path :=
  Strips.bare_eq ⟨⟨0, 0, by simp⟩, placed.first, placed.last⟩

/-! ### Joined paths -/

theorem join_of_placed (placed : Placed parent) (child : String) : join parent child = parent ++ "/" ++ bare child := by
  rw [join, if_neg (by simp [placed.below])]
  rfl

theorem placed_join (placed : Placed parent) (names : Names child) : Placed (join parent child) := by
  have child := placed_bare names
  rw [join_of_placed placed]
  refine ⟨fun root => ?_, ?_, ?_⟩
  · have empty := congrArg String.toList root
    simp at empty
  · rw [String.toList_append, String.toList_append, List.append_assoc, List.head?_append_of_ne_nil _ placed.toList_ne_nil]
    exact placed.first
  · rw [String.toList_append, List.getLast?_append_of_ne_nil _ child.toList_ne_nil]
    exact child.last

end Service

/-! ### Handles -/

/-- The collections of the root that have a name of their own. -/
def Collection.known : List Collection :=
  [.vms, .hosts, .clusters, .dataCenters, .storageDomains, .templates, .networks, .disks, .users, .events]

/-- A collection or a single resource. -/
inductive Handle
  | collection (c : Collection)
  | entity (e : Entity)
  deriving DecidableEq

namespace Handle
open Service

def path : Handle → String
  | collection c => c.path
  | entity e => e.path

/-- The member of a collection, or the collection of a resource, of a name. -/
def below : Handle → String → Handle
  | collection c, id => entity (c.entity id)
  | entity e, name => collection (e.collection name)

/-- The handle that a chain of names leads to. -/
def follow (h : Handle) (names : List String) : Handle :=
  names.foldl below h

/-- How a chain begins at the root. -/
inductive Begins : String → Handle → Prop
  | collection (known : c ∈ Collection.known) : Begins c.path (collection c)
  | service (path : String) : Begins path (entity (.ofPath path))

variable {h h' : Handle} {names : List String}

theorem path_below (h : Handle) (name : String) : (h.below name).path = join h.path name := by
  cases h <;> rfl

theorem follow_cons (h : Handle) (name : String) (names : List String) :
    h.follow (name :: names) = (h.below name).follow names := rfl

theorem path_of_begins (begins : Begins first h) (names : Names first) : h.path = bare first ∧ Placed h.path := by
  cases begins with
  | collection known =>
    have plain : ∀ c ∈ Collection.known, bare c.path = c.path := by decide
    have placed := placed_bare names
    rw [plain _ known] at placed
    exact ⟨(plain _ known).symm, placed⟩
  | service path => exact ⟨rfl, placed_bare names⟩

/-- A chain keeps its path free from slashes at the ends, and adds one name after another. -/
theorem path_follow (placed : Placed h.path) (named : ∀ name ∈ names, Names name) :
    (h.follow names).path = String.intercalate "/" (h.path :: names.map bare) ∧ Placed (h.follow names).path := by
  induction names generalizing h with
  | nil => exact ⟨String.intercalate_singleton.symm, placed⟩
  | cons name names ih =>
    obtain ⟨first, rest⟩ := List.forall_mem_cons.mp named
    have below := path_below h name
    obtain ⟨joined, ends⟩ := ih (h := h.below name) (below ▸ placed_join placed first) rest
    refine ⟨?_, ends⟩
    rw [follow_cons, joined, below, join_of_placed placed, List.map_cons, String.intercalate_cons_cons]
    exact String.intercalate_cons_append

/-- Where a chain goes on depends on the path alone. -/
theorem path_follow_congr (same : h.path = h'.path) (names : List String) :
    (h.follow names).path = (h'.follow names).path := by
  induction names generalizing h h' with
  | nil => exact same
  | cons name names ih => exact ih (by rw [path_below, path_below, same])

end Handle

/-! ### Requests of handles -/

/-- The parameters of a listing, in their order. -/
def ListOptions.fields (o : ListOptions) : List Form.Field :=
  [("search", o.search), ("case_sensitive", o.caseSensitive.map yesNo), ("max", o.max.map decimal), ("follow", o.follow)]
    |>.filterMap fun (name, value) => value.map (name, ·)

def GetOptions.fields (o : GetOptions) : List Form.Field :=
  (o.follow.map ("follow", ·)).toList

/-- The requests that can be made to a handle, with what they have behind its path and as parameters. -/
inductive Handle.Makes : Handle → Request → String → List Form.Field → Prop
  | list (c : Collection) (o : ListOptions) : Makes (.collection c) (c.list o) "" o.fields
  | add (c : Collection) (body : Bytes) : Makes (.collection c) (c.add body) "" []
  | get (e : Entity) (o : GetOptions) : Makes (.entity e) (e.get o) "" o.fields
  | update (e : Entity) (body : Bytes) : Makes (.entity e) (e.update body) "" []
  | remove (e : Entity) : Makes (.entity e) e.remove "" []
  | action (e : Entity) (strips : Service.Strips name bare) (body : Bytes) :
    Makes (.entity e) (e.action name body) ("/" ++ bare) []

/-- A request is made at a place, with parameters after the question mark only. -/
structure Request.At (r : Request) (place : String) (fields : List Form.Field) : Prop where
  path : r.path = place
  matrix : r.matrix = []
  query : r.query = fields

namespace Request
variable {r : Request} {place : String} {fields : List Form.Field}

theorem At.addQuery? (made : r.At place fields) (name : String) (value : Option String) :
    (r.addQuery? name value).At place (fields ++ (value.map (name, ·)).toList) := by
  cases value with
  | none => exact (List.append_nil fields).symm ▸ made
  | some value => exact ⟨made.path, made.matrix, congrArg (· ++ [(name, value)]) made.query⟩

theorem At.askAllContent (made : r.At place fields) (allContent : Bool) : (r.askAllContent allContent).At place fields := by
  unfold Request.askAllContent
  split
  · exact ⟨made.path, made.matrix, made.query⟩
  · exact made

theorem at_list (o : ListOptions) (made : r.At place []) : (o.apply r).At place o.fields := by
  have asked := (((made.addQuery? "search" o.search).addQuery? "case_sensitive" (o.caseSensitive.map yesNo)).addQuery? "max"
    (o.max.map decimal)).addQuery? "follow" o.follow
  have fields : o.fields = [] ++ (o.search.map ("search", ·)).toList ++
      ((o.caseSensitive.map yesNo).map ("case_sensitive", ·)).toList ++ ((o.max.map decimal).map ("max", ·)).toList ++
      (o.follow.map ("follow", ·)).toList := by
    unfold ListOptions.fields
    cases o.search <;> cases o.caseSensitive <;> cases o.max <;> cases o.follow <;> rfl
  rw [fields]
  exact asked.askAllContent o.allContent

theorem at_get (o : GetOptions) (made : r.At place []) : (o.apply r).At place o.fields :=
  (made.addQuery? "follow" o.follow).askAllContent o.allContent

end Request

namespace Handle
variable {h : Handle} {r : Request}

theorem Makes.at (makes : h.Makes r added fields) (placed : Service.Placed h.path) : r.At (h.path ++ added) fields := by
  cases makes with
  | list c o =>
    rw [String.append_empty]
    exact Request.at_list o ⟨rfl, rfl, rfl⟩
  | get e o =>
    rw [String.append_empty]
    exact Request.at_get o ⟨rfl, rfl, rfl⟩
  | add c body => exact ⟨(String.append_empty).symm, rfl, rfl⟩
  | update e body => exact ⟨(String.append_empty).symm, rfl, rfl⟩
  | remove e => exact ⟨(String.append_empty).symm, rfl, rfl⟩
  | action e strips body =>
    refine ⟨?_, rfl, rfl⟩
    rw [← String.append_assoc, ← strips.bare_eq]
    exact Service.join_of_placed placed _

end Handle

/-- Where a request goes whose path begins with a name. -/
theorem ApiRoot.urlFor_at (root : ApiRoot) {r : Request} {place : String} (made : r.At place fields)
    (first : place.toList.head? ≠ some '/') (below : place.toList ≠ []) : root.urlFor r =
      root.url ++ '/' :: place.toList ++ if fields.isEmpty then [] else '?' :: Form.render fields := by
  rw [urlFor, made.path, made.matrix, made.query, Service.trimStart_of_head first, List.isEmpty_eq_false_iff.mpr below]
  simp

/-- A chain of names leads to the join of the names without the slashes around them, a path without slashes at its ends.
The path given at once leads to the same place, from which every chain goes on alike. A request to a handle goes to its
path, or for an action to one name below it, and then has its parameters. -/
theorem chain_led_by_names (begins : Handle.Begins first h)
    (named : ∀ name ∈ first :: links, Service.Names name) :
    (∃ names, List.Forall₂ Service.Strips (first :: links) names ∧ (h.follow links).path = String.intercalate "/" names) ∧
    (h.follow links).path.toList.head? ≠ some '/' ∧ (h.follow links).path.toList.getLast? ≠ some '/' ∧
    (Entity.ofPath (h.follow links).path).path = (h.follow links).path ∧
    (∀ more, ((Handle.entity (.ofPath (h.follow links).path)).follow more).path = ((h.follow links).follow more).path) ∧
    ∀ (root : ApiRoot) request added fields, (h.follow links).Makes request added fields →
      root.urlFor request = root.url ++ '/' :: ((h.follow links).path ++ added).toList ++
        if fields.isEmpty then [] else '?' :: Form.render fields := by
  obtain ⟨firstNames, rest⟩ := List.forall_mem_cons.mp named
  obtain ⟨start, placed⟩ := Handle.path_of_begins begins firstNames
  obtain ⟨joined, ends⟩ := Handle.path_follow placed rest
  have same : (Entity.ofPath (h.follow links).path).path = (h.follow links).path := Service.bare_of_placed ends
  refine ⟨⟨(first :: links).map Service.bare, ?_, ?_⟩, ends.first, ends.last, same,
    fun more => Handle.path_follow_congr (h := .entity _) same more, fun root request added fields makes => ?_⟩
  · exact List.forall₂_map_right_iff.mpr (List.forall₂_same.mpr fun name _ => Service.strips_bare name)
  · rw [joined, start, List.map_cons]
  · have some := ends.toList_ne_nil
    refine root.urlFor_at (makes.at ends) ?_ ?_ <;> rw [String.toList_append]
    · rw [List.head?_append_of_ne_nil _ some]
      exact ends.first
    · exact List.append_ne_nil_of_left_ne_nil some _

namespace Sample

def apiRoot : ApiRoot where
  url := "https://engine.example.com/ovirt-engine/api".toList
  path := "/ovirt-engine/api".toList
  mediaType := .xml
  headers := []

end Sample

/-- A path with a slash in the middle is a start like others, and slashes around later names are left out. -/
theorem chain_led_by_names_slashed :
    (∀ name ∈ ["/vms//123/", "nics", "/7/"], Service.Names name) ∧
    Handle.Begins "/vms//123/" (.entity (.ofPath "/vms//123/")) ∧
    (Handle.entity (.ofPath "/vms//123/")).follow ["nics", "/7/"] = .entity ⟨"vms//123/nics/7"⟩ ∧
    (Entity.ofPath "vms//123/nics/7").path = "vms//123/nics/7" ∧
    Sample.apiRoot.urlFor ((Entity.mk "vms//123/nics/7").get { follow := some "vm" }) =
      "https://engine.example.com/ovirt-engine/api/vms//123/nics/7?follow=vm".toList := by
  have named : ∀ name ∈ ["/vms//123/", "nics", "/7/"], Service.Names name := by
    simp only [List.forall_mem_cons]
    exact ⟨⟨'v', by decide⟩, ⟨'n', by decide⟩, ⟨'7', by decide⟩, nofun⟩
  have begins := Handle.Begins.service "/vms//123/"
  have reached : (Handle.entity (.ofPath "/vms//123/")).follow ["nics", "/7/"] = .entity ⟨"vms//123/nics/7"⟩ := by
    decide +kernel
  obtain ⟨_, _, _, same, _, made⟩ := chain_led_by_names begins named
  rw [reached] at same made
  refine ⟨named, begins, reached, same, ?_⟩
  rw [made Sample.apiRoot _ _ _ (.get ⟨"vms//123/nics/7"⟩ { follow := some "vm" })]
  decide +kernel

/-- The request of an action does not go to the path of its service. -/
theorem action_below_path : Handle.Begins "vms" (.collection .vms) ∧
    (Handle.collection .vms).follow ["123"] = .entity ⟨"vms/123"⟩ ∧
    Sample.apiRoot.urlFor ((Entity.mk "vms/123").action "start" []) ≠ Sample.apiRoot.url ++ '/' :: "vms/123".toList :=
  ⟨.collection (c := .vms) (by decide), by decide +kernel, by decide +kernel⟩

end EngineClient
