import EngineClient.Proofs.Headers.Sources

/-!
# Negotiated headers

The version of the API and the media types. Each is given once by the connection or, in its place, by the request; what
is configured under such a name is added, so that a request carries one value exactly if the name is not configured.
-/

namespace EngineClient

/-- What headers say under a name. -/
def valuesOf (n : HeaderName) (hs : List Header) : List HeaderValue :=
  (hs.filter fun h => h.1 = n).map Prod.snd

/-- Whether a header of the name is configured, in any spelling. -/
def Options.Configures (o : Options) (n : HeaderName) : Prop :=
  ∃ given ∈ o.headers, HeaderName.parse? given.1 = .ok n

/-- The values of a name that the connection gives unless the request has it: one of them and what is configured. -/
inductive Request.Negotiates (request : Request) (n : HeaderName) (usual : HeaderValue) (configured : List HeaderValue) :
    List HeaderValue → Prop
  | own (has : (n, v) ∈ request.headers) : Negotiates request n usual configured (configured ++ [v])
  | lacking (lacks : request.sets n = false) : Negotiates request n usual configured (usual :: configured)

theorem valuesOf_append (n : HeaderName) (hs hs' : List Header) :
    valuesOf n (hs ++ hs') = valuesOf n hs ++ valuesOf n hs' := by
  simp only [valuesOf, List.filter_append, List.map_append]

theorem valuesOf_eq_nil_iff {hs : List Header} : valuesOf n hs = [] ↔ ∀ h ∈ hs, h.1 ≠ n := by
  simp [valuesOf]

theorem valuesOf_of_mem {hs : List Header} (distinct : (hs.map Prod.fst).Nodup) (member : (n, v) ∈ hs) :
    valuesOf n hs = [v] := by
  induction hs with
  | nil => cases member
  | cons h hs ih =>
    obtain ⟨apart, rest⟩ := List.nodup_cons.mp distinct
    rw [← List.singleton_append, valuesOf_append]
    rcases List.mem_cons.mp member with rfl | later
    · have others : valuesOf n hs = [] :=
        valuesOf_eq_nil_iff.mpr fun other among named => apart (List.mem_map.mpr ⟨other, among, named⟩)
      rw [others]
      simp [valuesOf]
    · have other : h.1 ≠ n := fun same => apart (same ▸ List.mem_map_of_mem later)
      rw [ih rest later]
      simp [valuesOf, other]

theorem valuesOf_of_lacks {request : Request} (lacks : request.sets n = false) : valuesOf n request.headers = [] := by
  rw [Request.sets, List.any_eq_false] at lacks
  exact valuesOf_eq_nil_iff.mpr fun h member same => lacks h member (decide_eq_true same)

theorem names_configured {given : List (String × String)} (read : List.Forall₂ Configured given configured) :
    (∃ h ∈ configured, h.1 = n) ↔ ∃ g ∈ given, HeaderName.parse? g.1 = .ok n := by
  induction read with
  | nil => simp
  | cons first _ ih => simp only [List.exists_mem_cons_iff, ih, first.name, Except.ok.injEq]

theorem Options.configures_iff {o : Options} (read : List.Forall₂ Configured o.headers configured) :
    o.Configures n ↔ valuesOf n configured ≠ [] := by
  rw [Configures, ← names_configured read, ne_eq, valuesOf_eq_nil_iff]
  simp

theorem Request.Negotiates.length_eq {request : Request}
    (negotiates : request.Negotiates n value configured values) : values.length = configured.length + 1 := by
  cases negotiates with
  | own has => rw [List.length_append, List.length_singleton]
  | lacking lacks => rw [List.length_cons]

/-! ### Requests below the root -/

section
variable (request : Request)

theorem Request.negotiates (distinct : (request.headers.map Prod.fst).Nodup) (n : HeaderName) (usual : HeaderValue)
    (configured : List HeaderValue) : request.Negotiates n usual configured
      ((if request.sets n = false then [usual] else []) ++ configured ++ valuesOf n request.headers) := by
  cases known : request.sets n with
  | false =>
    rw [if_pos rfl, valuesOf_of_lacks known, List.append_nil]
    exact .lacking known
  | true =>
    obtain ⟨⟨m, v⟩, member, same⟩ := List.any_eq_true.mp known
    obtain rfl : m = n := of_decide_eq_true same
    rw [if_neg (by decide), valuesOf_of_mem distinct member, List.nil_append]
    exact .own member

theorem Options.valuesOf_usual (o : Options) : valuesOf .version (o.usual request) = [.literal "4"] ∧
    valuesOf .accept (o.usual request) =
      (if request.sets .accept = false then [.literal o.mediaType.name] else []) ∧
    valuesOf .contentType (o.usual request) =
      if (request.body.isSome && !request.sets .contentType) = true then [.literal o.mediaType.name] else [] := by
  unfold usual
  cases request.sets .accept <;> cases request.sets .contentType <;> cases request.body.isSome <;> exact ⟨rfl, rfl, rfl⟩

theorem Options.valuesOf_written (o : Options) (configured : List Header) (credential : HeaderValue)
    (other : n ≠ .authorization) : valuesOf n (o.written configured request credential) =
      valuesOf n (o.usual request) ++ valuesOf n configured ++ valuesOf n request.headers := by
  have own : valuesOf n (request.headers.filter fun h => h.1 ≠ .authorization) = valuesOf n request.headers := by
    rw [valuesOf, List.filter_filter]
    refine congrArg (List.map Prod.snd) (List.filter_congr fun h _ => ?_)
    by_cases same : h.1 = n <;> simp [same, other]
  have last : valuesOf n [(.authorization, credential)] = [] := by simp [valuesOf, other.symm]
  rw [written, valuesOf_append, valuesOf_append, valuesOf_append, own, last, List.append_nil]

end

theorem Connection.valuesOf_of_outbound (created : create idna fs o = (log, .ok c)) (request : Request)
    (leaves : c.client.outbound (c.root.draft request credential) = .ok out) (agent : n ≠ .userAgent)
    (coding : n ≠ .acceptEncoding) (other : n ≠ .authorization) : valuesOf n out.headers.toList =
      valuesOf n (o.usual request) ++ valuesOf n c.root.headers ++ valuesOf n request.headers := by
  rw [← o.valuesOf_written request c.root.headers credential other, valuesOf, toList_of_outbound created leaves,
    c.root.allHeaders_draft, headersFor_of_create created, o.filter_completed agent coding, HeaderMap.filter_grouped]
  rfl

/-- A request that has no header twice and leaves the version alone carries the version of the API, one media type to
accept and, with a body, one that it has. To each is added what is configured under its name, and nothing else: there is
one value exactly if the name is not configured. -/
theorem negotiated_once_unless_configured (created : Connection.create idna fs o = (log, .ok c))
    (distinct : (request.headers.map Prod.fst).Nodup) (unversioned : request.sets .version = false)
    (leaves : c.client.outbound (c.root.draft request credential) = .ok out) :
    let usual := HeaderValue.literal o.mediaType.name
    let configured n := valuesOf n c.root.headers
    let carried n := valuesOf n out.headers.toList
    (∀ n, o.Configures n ↔ configured n ≠ []) ∧
    carried .version = .literal "4" :: configured .version ∧
    request.Negotiates .accept usual (configured .accept) (carried .accept) ∧
    (request.body.isSome → request.Negotiates .contentType usual (configured .contentType) (carried .contentType)) ∧
    ((carried .version).length = 1 ↔ ¬ o.Configures .version) ∧
    ((carried .accept).length = 1 ↔ ¬ o.Configures .accept) ∧
    (request.body.isSome → ((carried .contentType).length = 1 ↔ ¬ o.Configures .contentType)) := by
  dsimp only
  have configures : ∀ n, o.Configures n ↔ valuesOf n c.root.headers ≠ [] := fun n =>
    Options.configures_iff (Connection.configured_of_create created).1
  have single : ∀ {n : HeaderName} {values : List HeaderValue}, values.length = (valuesOf n c.root.headers).length + 1 →
      (values.length = 1 ↔ ¬ o.Configures n) := by
    intro n values length
    rw [configures, not_not, length, ← List.length_eq_zero_iff]
    omega
  obtain ⟨version, accept, contentType⟩ := o.valuesOf_usual request
  have carried := fun n => Connection.valuesOf_of_outbound (n := n) created request leaves
  have versions : valuesOf .version out.headers.toList = .literal "4" :: valuesOf .version c.root.headers := by
    rw [carried _ (by decide) (by decide) (by decide), version, valuesOf_of_lacks unversioned, List.append_nil]
    rfl
  have accepts : request.Negotiates .accept (.literal o.mediaType.name) (valuesOf .accept c.root.headers)
      (valuesOf .accept out.headers.toList) := by
    rw [carried _ (by decide) (by decide) (by decide), accept]
    exact request.negotiates distinct _ _ _
  have types : request.body.isSome = true → request.Negotiates .contentType (.literal o.mediaType.name)
      (valuesOf .contentType c.root.headers) (valuesOf .contentType out.headers.toList) := by
    intro body
    rw [carried _ (by decide) (by decide) (by decide), contentType]
    simp only [body, Bool.true_and, Bool.not_eq_true']
    exact request.negotiates distinct _ _ _
  refine ⟨configures, versions, accepts, types, single ?_, single accepts.length_eq, fun body => single (types body).length_eq⟩
  rw [versions, List.length_cons]

namespace Sample

/-- A request that says what its body is. -/
def typed : Request :=
  { Request.post "vms" with
    body := some (Text.utf8 "name")
    headers := [(.contentType, .literal "text/plain")] }

end Sample

/-- A media type is configured, in capitals, and the body is of a type of its own. -/
theorem negotiated_once_unless_configured_capitals : ∃ log c out,
    Connection.create .ascii {} Sample.demanding = (log, .ok c) ∧ (Sample.typed.headers.map Prod.fst).Nodup ∧
    Sample.typed.sets .version = false ∧ c.client.outbound (c.root.draft Sample.typed Sample.bearer) = .ok out ∧
    valuesOf .version out.headers.toList = [.literal "4"] ∧
    valuesOf .accept out.headers.toList = [.literal "application/xml", .literal "application/json"] ∧
    valuesOf .contentType out.headers.toList = [.literal "text/plain"] ∧
    Sample.demanding.Configures .accept ∧ ¬ Sample.demanding.Configures .contentType := by
  have computed : (Connection.create .ascii {} Sample.demanding).2.map (fun c =>
      (c.root.headers, (c.client.outbound (c.root.draft Sample.typed Sample.bearer)).toBool)) =
      .ok ([(Sample.role, .literal "a"), (.accept, .literal "application/json"), (Sample.role, .literal "b")], true) := by
    decide +kernel
  obtain ⟨c, made, values⟩ := Except.map_eq_ok computed
  obtain ⟨headers, accepted⟩ := Prod.mk.inj values
  have created := Connection.create_eq_of_ok made
  obtain ⟨out, leaves⟩ := Except.exists_of_toBool accepted
  have distinct : (Sample.typed.headers.map Prod.fst).Nodup := List.nodup_singleton _
  have unversioned : Sample.typed.sets .version = false := by decide +kernel
  obtain ⟨configures, version, accept, contentType, _⟩ :=
    negotiated_once_unless_configured created distinct unversioned leaves
  have body := contentType rfl
  dsimp only at configures version accept body
  rw [headers] at version accept body
  refine ⟨_, c, out, created, distinct, unversioned, leaves, version.trans (by decide +kernel), ?_, ?_, ?_, ?_⟩
  · generalize valuesOf .accept out.headers.toList = carried at accept ⊢
    cases accept with
    | own has => exact absurd (Prod.mk.inj (List.mem_singleton.mp has)).1 (by decide)
    | lacking _ => decide +kernel
  · generalize valuesOf .contentType out.headers.toList = carried at body ⊢
    cases body with
    | own has =>
      obtain rfl := (Prod.mk.inj (List.mem_singleton.mp has)).2
      decide +kernel
    | lacking lacks => exact absurd lacks (by decide +kernel)
  all_goals rw [configures, headers]; decide +kernel

def Sample.negotiating : Options :=
  { url := options.url, token := some ⟨"T1"⟩, headers := [("Accept", "application/json")] }

/-- A media type that is configured does not replace the one that the connection gives. -/
theorem media_type_given_twice : (Request.get "vms").headers = [] ∧
    (Connection.create .ascii {} Sample.negotiating).2.map (fun c =>
      (c.client.outbound (c.root.draft (.get "vms") Sample.bearer)).map fun out => valuesOf .accept out.headers.toList) =
      .ok (.ok [.literal "application/xml", .literal "application/json"]) := by
  refine ⟨rfl, ?_⟩
  decide +kernel

end EngineClient
