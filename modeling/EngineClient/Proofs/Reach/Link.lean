import EngineClient.Proofs.Alone.Send
import EngineClient.Proofs.Reach.Target

/-!
# Links and paths

A link is taken for a path below the root exactly if it is the URL or the path of the root with that path behind it. It
is followed by a request for the path; any other link is refused before anything is done.
-/

namespace EngineClient
open Text

namespace ApiRoot

/-- A path that can stand behind the root: nothing, or a slash and more. -/
def Hangs (p : List Char) : Prop :=
  p = [] ∨ p.head? = some '/'

/-- A link is the root with a path behind it, as a URL or as an absolute path. -/
def Spells (root : ApiRoot) (href p : List Char) : Prop :=
  href = root.url ++ p ∨ (href.head? = some '/' ∧ href = root.path ++ p)

theorem filter_hangs {rest : Option (List Char)} :
    (rest.filter fun p => p.isEmpty || p.head? = some '/') = some p ↔ rest = some p ∧ Hangs p := by
  rw [Option.filter_eq_some_iff]
  simp [Hangs]

/-- A URL does not begin with a slash, so that no link is taken for both forms. -/
theorem pathOf?_eq_some_iff {root : ApiRoot} (scheme : root.url.head? = some 'h') {href p : List Char} :
    root.pathOf? href = some p ↔ Hangs p ∧ root.Spells href p := by
  unfold pathOf?
  dsimp only
  rw [filter_hangs, and_comm]
  refine and_congr_right fun _ => ?_
  unfold Spells
  by_cases slash : href.head? = some '/'
  · have other : ∀ q, href ≠ root.url ++ q := by
      intro q same
      rw [same, List.head?_append, scheme] at slash
      cases slash
    have none : stripFront? root.url href = none :=
      Option.eq_none_iff_forall_ne_some.mpr fun q stripped => other q (stripFront?_eq_some_iff.mp stripped)
    simp [slash, none, other p, stripFront?_eq_some_iff]
  · simp [slash, stripFront?_eq_some_iff]

/-- The URL of a path below the root. -/
def below (root : ApiRoot) (p : List Char) : List Char :=
  root.url ++ if (trimStart isSlash p).isEmpty then [] else '/' :: trimStart isSlash p

theorem urlFor_get (root : ApiRoot) (p : List Char) : root.urlFor (.get (String.ofList p)) = root.below p := by
  simp [urlFor, below, Request.get]

end ApiRoot

namespace Connection
variable {c : Connection}

theorem scheme_of_create (created : create idna fs o = (log, .ok c)) : c.root.url.head? = some 'h' := by
  obtain ⟨s, u, yields, _, _, made⟩ := yields_of_create created
  have url : c.root.url = s.baseUrl := by
    rw [made]
    rfl
  rw [url, yields.baseUrl_eq]
  cases u.scheme <;> rfl

theorem followLink_of_path {href : String} (path : c.root.pathOf? href.toList = some p) :
    c.followLink href = c.send (.get (String.ofList p)) := by
  rw [followLink, path]

theorem followLink_of_stray {href : String} (stray : c.root.pathOf? href.toList = none) :
    (c.followLink href).run = .done (.error (.invalidLink href)) := by
  rw [followLink, stray]
  rfl

/-- What leaves for a path below the root. -/
theorem outbound_get {out : Outbound} (leaves : c.client.outbound (c.root.draft (.get (String.ofList p)) a) = .ok out) :
    out.method = .get ∧ Uri.parse? (String.ofList (c.root.below p)) = .ok out.uri ∧ out.body = [] := by
  obtain ⟨accepted, method, _, body⟩ := Client.outbound_eq_ok leaves
  refine ⟨method, ?_, body⟩
  rw [← c.root.urlFor_get p]
  exact Draft.parse_of_target? accepted

end Connection

/-- The links that are taken for a path are the two that spell it. Both are followed by one request: on an open
connection a credential is obtained, and the URL below the root is asked for with it. No other link changes anything or
makes a request. -/
theorem links_spell_paths (created : Connection.create idna fs o = (log, .ok c)) :
    (∀ href p, c.root.pathOf? href = some p ↔ ApiRoot.Hangs p ∧ c.root.Spells href p) ∧
    (∀ p, ApiRoot.Hangs p → ∀ href, c.root.Spells href p →
      c.followLink (String.ofList href) = c.send (.get (String.ofList p)) ∧
      (∀ s, s.Rests → ∃ events, c.Follows s events ((c.followLink (String.ofList href)).alone s).2 ∧
        c.Sending (.get (String.ofList p)) ((c.followLink (String.ofList href)).alone s).2.wire.today events
          ((c.followLink (String.ofList href)).alone s).1) ∧
      c.root.urlFor (.get (String.ofList p)) = c.root.below p ∧
      ∀ a out, c.client.outbound (c.root.draft (.get (String.ofList p)) a) = .ok out →
        out.method = .get ∧ Uri.parse? (String.ofList (c.root.below p)) = .ok out.uri ∧ out.body = []) ∧
    ∀ href : String, c.root.pathOf? href.toList = none →
      (c.followLink href).run = .done (.error (.invalidLink href)) := by
  have scheme := Connection.scheme_of_create created
  refine ⟨fun href p => ApiRoot.pathOf?_eq_some_iff scheme, ?_, fun href => Connection.followLink_of_stray⟩
  intro p hangs href spells
  have path : c.root.pathOf? (String.ofList href).toList = some p := by
    rw [String.toList_ofList]
    exact (ApiRoot.pathOf?_eq_some_iff scheme).mpr ⟨hangs, spells⟩
  have follows := Connection.followLink_of_path path
  refine ⟨follows, ?_, c.root.urlFor_get p, fun a out => Connection.outbound_get⟩
  intro s rests
  rw [follows]
  exact c.send_alone (.get (String.ofList p)) rests

/-- Both links to a path with two slashes in front lead to the same place. A link that goes on within the last segment of
the root, or within the name of its host, leads astray. -/
theorem links_spell_paths_slashes : ∃ log c, Connection.create .ascii {} Sample.options = (log, .ok c) ∧
    c.followLink "https://engine.example.com/ovirt-engine/api//vms" = c.followLink "/ovirt-engine/api//vms" ∧
    c.root.urlFor (.get "//vms") = "https://engine.example.com/ovirt-engine/api/vms".toList ∧
    (c.followLink "/ovirt-engine/apivms").run = .done (.error (.invalidLink "/ovirt-engine/apivms")) ∧
    (c.followLink "https://engine.example.com.evil/ovirt-engine/api").run =
      .done (.error (.invalidLink "https://engine.example.com.evil/ovirt-engine/api")) := by
  have computed : (Connection.create .ascii {} Sample.options).2.map (fun c => (c.root.url, c.root.path)) =
      .ok ("https://engine.example.com/ovirt-engine/api".toList, "/ovirt-engine/api".toList) := by
    decide +kernel
  obtain ⟨c, made, read⟩ := Except.map_eq_ok computed
  obtain ⟨url, path⟩ := Prod.mk.inj read
  have created := Connection.create_eq_of_ok made
  obtain ⟨_, paths, strays⟩ := links_spell_paths created
  have hangs : ApiRoot.Hangs "//vms".toList := .inr rfl
  have first := paths _ hangs "https://engine.example.com/ovirt-engine/api//vms".toList (.inl (by rw [url]; decide))
  have second := paths _ hangs "/ovirt-engine/api//vms".toList (.inr (by rw [path]; decide))
  simp only [String.ofList_toList] at first second
  refine ⟨_, c, created, first.1.trans second.1.symm, ?_, strays _ ?_, strays _ ?_⟩
  · rw [first.2.2.1, ApiRoot.below, url]
    decide
  · rw [ApiRoot.pathOf?, url, path]
    decide
  · rw [ApiRoot.pathOf?, url, path]
    decide

end EngineClient
