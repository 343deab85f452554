import EngineClient.Proofs.Accept.Gathered
import EngineClient.Proofs.Headers.Negotiated

/-!
# Headers that are missing

Default headers are gone through by name, in the order of the configuration. A name that the request has by then is
passed over; of any other, all values are added. No name comes twice, so that none finds what another has added, and
the request itself can be asked throughout.
-/

namespace EngineClient

/-! ### Names of a map -/

namespace HeaderMap
variable {m : HeaderMap}

theorem appendAll_append (m : HeaderMap) (hs hs' : List Header) :
    m.appendAll (hs ++ hs') = (m.appendAll hs).appendAll hs' := by
  simp only [appendAll, List.foldl_append]

theorem contains_iff : m.contains n = true ↔ n ∈ m.names :=
  List.contains_iff_mem

theorem contains_appendAll_of_other {hs : List Header} (other : ∀ h ∈ hs, h.1 ≠ n) :
    (m.appendAll hs).contains n = m.contains n := by
  induction hs generalizing m with
  | nil => rfl
  | cons h hs ih =>
    obtain ⟨first, rest⟩ := List.forall_mem_cons.mp other
    show ((m.append h.1 h.2).appendAll hs).contains n = m.contains n
    rw [ih rest, contains, names_append, contains]
    split
    · rfl
    · simp [Ne.symm first]

theorem appendTo_last {gs : List (HeaderName × List HeaderValue)} (new : n ∉ gs.map Prod.fst) (vs : List HeaderValue)
    (v : HeaderValue) : appendTo n v (gs ++ [(n, vs)]) = gs ++ [(n, vs ++ [v])] := by
  induction gs with
  | nil => simp [appendTo]
  | cons g gs ih =>
    obtain ⟨other, later⟩ := not_or.mp fun found => new (List.mem_cons.mpr found)
    rw [List.cons_append, appendTo, if_neg (Ne.symm other), ih later, List.cons_append]

/-- The values of a new name make one group, behind all others. -/
theorem groups_appendAll_of_new (new : m.contains n = false) {vs : List HeaderValue} (some : vs ≠ []) :
    (m.appendAll (vs.map fun v => (n, v))).groups = m.groups ++ [(n, vs)] := by
  have absent : n ∉ m.groups.map Prod.fst := by simpa [contains, names] using new
  -- From the end: the first value makes the group, and each later one finds it behind all others.
  induction vs using List.reverseRecOn with
  | nil => exact absurd rfl some
  | append_singleton vs v ih =>
    rw [List.map_append, appendAll_append]
    show appendTo n v (m.appendAll (vs.map fun v => (n, v))).groups = _
    cases vs with
    | nil => exact appendTo_of_not_mem absent v
    | cons w vs => rw [ih (List.cons_ne_nil w vs), appendTo_last absent]

theorem mem_names_of_mem_toList (member : h ∈ m.toList) : h.1 ∈ m.names := by
  obtain ⟨g, among, inside⟩ := List.mem_flatMap.mp member
  obtain ⟨v, _, rfl⟩ := List.mem_map.mp inside
  exact List.mem_map_of_mem among

theorem getAll_of_absent (absent : m.contains n = false) : m.getAll n = [] := by
  refine List.eq_nil_iff_forall_not_mem.mpr fun v given => ?_
  rw [contains_of_getAll given] at absent
  cases absent

theorem Filled.getAll_ne_nil (filled : m.Filled) (known : n ∈ m.names) : m.getAll n ≠ [] := by
  obtain ⟨groups⟩ := m
  simp only [Filled, names, getAll] at filled known ⊢
  induction groups with
  | nil => cases known
  | cons g gs ih =>
    obtain ⟨here, later⟩ := List.forall_mem_cons.mp filled
    rw [valuesIn]
    split
    · exact here
    · rename_i other
      exact ih later ((List.mem_cons.mp known).resolve_left (Ne.symm other))

theorem filter_names (p : HeaderName → Bool) (f : HeaderName → List HeaderValue) (ns : List HeaderName) :
    ((ns.flatMap fun n => (f n).map fun v => (n, v)).filter fun h => p h.1) =
      (ns.filter p).flatMap fun n => (f n).map fun v => (n, v) := by
  induction ns with
  | nil => rfl
  | cons n ns ih =>
    rw [List.flatMap_cons, List.filter_append, ih, List.filter_cons]
    cases wanted : p n <;> simp [List.filter_map, Function.comp_def, wanted]

end HeaderMap

namespace DefaultHeaders
variable {defaults request : HeaderMap}

/-- What is done for one name: its values are added unless the request has it by then. -/
def supply (defaults request : HeaderMap) (n : HeaderName) : HeaderMap :=
  if request.contains n then request else request.appendAll ((defaults.getAll n).map fun v => (n, v))

/-! ### One name -/

theorem supply_eq (defaults request : HeaderMap) (n : HeaderName) : supply defaults request n =
    request.appendAll (if request.contains n then [] else (defaults.getAll n).map fun v => (n, v)) := by
  unfold supply
  split <;> rfl

theorem contains_supply (other : k ≠ n) : (supply defaults request n).contains k = request.contains k := by
  unfold supply
  split
  · rfl
  · refine HeaderMap.contains_appendAll_of_other fun h member => ?_
    obtain ⟨v, _, rfl⟩ := List.mem_map.mp member
    exact Ne.symm other

/-- What else is missing does not depend on it. -/
theorem missing_supply {ns : List HeaderName} (other : n ∉ ns) :
    (ns.filter fun k => !(supply defaults request n).contains k) = ns.filter fun k => !request.contains k := by
  refine List.filter_congr fun k member => ?_
  have apart : k ≠ n := fun same => other (same ▸ member)
  rw [contains_supply apart]

theorem groups_supply (given : defaults.getAll n ≠ []) : (supply defaults request n).groups =
    request.groups ++ if request.contains n then [] else [(n, defaults.getAll n)] := by
  unfold supply
  cases new : request.contains n with
  | true => simp
  | false => simpa using HeaderMap.groups_appendAll_of_new new given

/-! ### All names -/

theorem foldl_supply {ns : List HeaderName} (distinct : ns.Nodup) : ns.foldl (supply defaults) request =
    request.appendAll
      ((ns.filter fun n => !request.contains n).flatMap fun n => (defaults.getAll n).map fun v => (n, v)) := by
  -- The request changes along the names, but what is missing of the names to come does not.
  induction ns generalizing request with
  | nil => rfl
  | cons n ns ih =>
    obtain ⟨first, rest⟩ := List.nodup_cons.mp distinct
    rw [List.foldl_cons, ih rest, missing_supply first, supply_eq, ← HeaderMap.appendAll_append, List.filter_cons]
    cases request.contains n <;> simp

theorem groups_foldl_supply {ns : List HeaderName} (distinct : ns.Nodup) (given : ∀ n ∈ ns, defaults.getAll n ≠ []) :
    (ns.foldl (supply defaults) request).groups =
      request.groups ++ (ns.filter fun n => !request.contains n).map fun n => (n, defaults.getAll n) := by
  induction ns generalizing request with
  | nil => simp
  | cons n ns ih =>
    obtain ⟨first, rest⟩ := List.nodup_cons.mp distinct
    obtain ⟨here, later⟩ := List.forall_mem_cons.mp given
    rw [List.foldl_cons, ih rest later, missing_supply first, groups_supply here, List.filter_cons]
    cases request.contains n <;> simp

/-- The request itself can be asked for each name: no name is there because of another. -/
theorem foldl_names (distinct : defaults.names.Nodup) :
    defaults.names.foldl (supply defaults) request = apply defaults request := by
  rw [foldl_supply distinct, ← HeaderMap.filter_names (fun n => !request.contains n),
    ← HeaderMap.toList_of_nodup distinct, apply]

/-! ### What is added -/

theorem apply_of_contains (present : ∀ n ∈ defaults.names, request.contains n = true) :
    apply defaults request = request := by
  have missing : (defaults.toList.filter fun h => !request.contains h.1) = [] := by
    simp only [List.filter_eq_nil_iff, Bool.not_eq_true', Bool.not_eq_false]
    exact fun h member => present h.1 (HeaderMap.mem_names_of_mem_toList member)
  rw [apply, missing]
  rfl

section Filled
variable (distinct : defaults.names.Nodup) (filled : defaults.Filled)
include distinct filled

theorem groups_apply : (apply defaults request).groups = request.groups ++
    (defaults.names.filter fun n => !request.contains n).map fun n => (n, defaults.getAll n) := by
  rw [← foldl_names distinct, groups_foldl_supply distinct fun n known => filled.getAll_ne_nil known]

theorem names_apply :
    (apply defaults request).names = request.names ++ defaults.names.filter fun n => !request.contains n := by
  simp [HeaderMap.names, groups_apply distinct filled, Function.comp_def]

theorem toList_apply : (apply defaults request).toList =
    request.toList ++ defaults.toList.filter fun h => !request.contains h.1 := by
  rw [HeaderMap.toList, groups_apply distinct filled, List.flatMap_append, List.flatMap_map,
    HeaderMap.toList_of_nodup distinct, HeaderMap.filter_names (fun n => !request.contains n)]
  rfl

theorem contains_apply (named : n ∈ defaults.names) : (apply defaults request).contains n = true := by
  rw [HeaderMap.contains_iff, names_apply distinct filled, List.mem_append, List.mem_filter]
  cases present : request.contains n with
  | true => exact .inl (HeaderMap.contains_iff.mp present)
  | false => exact .inr ⟨named, rfl⟩

/-- A second time nothing is missing. -/
theorem apply_apply : apply defaults (apply defaults request) = apply defaults request :=
  apply_of_contains fun _ named => contains_apply distinct filled named

end Filled

theorem getAll_apply (defaults request : HeaderMap) (n : HeaderName) : (apply defaults request).getAll n =
    if request.contains n then request.getAll n else valuesOf n defaults.toList := by
  rw [apply, HeaderMap.getAll_appendAll, List.filter_filter, valuesOf]
  cases known : request.contains n with
  | true =>
    have none : (defaults.toList.filter fun h => decide (h.1 = n) && !request.contains h.1) = [] := by
      simp only [List.filter_eq_nil_iff, Bool.and_eq_true, decide_eq_true_eq]
      rintro h _ ⟨rfl, absent⟩
      rw [known] at absent
      cases absent
    simp [none]
  | false =>
    have all : (defaults.toList.filter fun h => decide (h.1 = n) && !request.contains h.1) =
        defaults.toList.filter fun h => h.1 = n := by
      refine List.filter_congr fun h _ => ?_
      by_cases same : h.1 = n <;> simp [same, known]
    simp [all, HeaderMap.getAll_of_absent known]

/-! ### What is configured -/

theorem parse?_eq_ok_iff {given : String × String} : parse? given = .ok h ↔ Configured given h := by
  constructor
  · intro read
    obtain ⟨n, named, read⟩ := Except.bind_eq_ok read
    obtain ⟨v, valued, read⟩ := Except.bind_eq_ok read
    cases read
    exact ⟨named, valued⟩
  · rintro ⟨named, valued⟩
    rw [parse?, named, valued]
    rfl

theorem mapM_parse?_eq_ok_iff {extra : List (String × String)} :
    extra.mapM parse? = .ok hs ↔ List.Forall₂ Configured extra hs := by
  simp only [Except.mapM_eq_ok_iff, parse?_eq_ok_iff]

/-- Defaults are accepted if each of them can be read, the user agent in front. -/
theorem ofSettings_eq_ok_iff {userAgent : String} {extra : List (String × String)} :
    ofSettings userAgent extra = .ok defaults ↔
      ∃ given, List.Forall₂ Configured (("user-agent", userAgent) :: extra) given ∧ defaults = .ofList given := by
  have named : HeaderName.parse? "user-agent" = .ok .userAgent := by decide +kernel
  constructor
  · intro accepted
    obtain ⟨agent, valued, accepted⟩ := Except.bind_eq_ok accepted
    obtain ⟨hs, read, accepted⟩ := Except.bind_eq_ok accepted
    cases accepted
    exact ⟨(.userAgent, agent) :: hs, .cons ⟨named, valued⟩ (mapM_parse?_eq_ok_iff.mp read), rfl⟩
  · rintro ⟨given, configured, rfl⟩
    cases configured with
    | @cons _ h _ hs first rest =>
      obtain ⟨n, agent⟩ := h
      obtain rfl : HeaderName.userAgent = n := Except.ok.inj (named.symm.trans first.name)
      rw [ofSettings, first.value, mapM_parse?_eq_ok_iff.mpr rest]
      rfl

end DefaultHeaders

/-- A layer of default headers leaves every name of a request as it is and gives each other name of the configuration,
behind all that is there, all the values configured for it in their order, whatever the spelling of the name; nothing
else is added. Going through the defaults name by name, with each looked up in what the request has become, comes to
the same, and a second time there is nothing left to add. -/
theorem defaults_where_missing (accepted : DefaultHeaders.ofSettings userAgent extra = .ok defaults) : ∃ given,
    List.Forall₂ Configured (("user-agent", userAgent) :: extra) given ∧ ∀ request,
      let applied := DefaultHeaders.apply defaults request
      (∀ n, applied.getAll n = if request.contains n then request.getAll n else valuesOf n given) ∧
      applied.names = request.names ++ (given.map Prod.fst).eraseDups.filter (fun n => !request.contains n) ∧
      applied.toList = request.toList ++ (HeaderMap.grouped given).filter (fun h => !request.contains h.1) ∧
      defaults.names.foldl (DefaultHeaders.supply defaults) request = applied ∧
      DefaultHeaders.apply defaults applied = applied := by
  obtain ⟨given, configured, rfl⟩ := DefaultHeaders.ofSettings_eq_ok_iff.mp accepted
  have distinct := HeaderMap.nodup_names_ofList given
  have filled := HeaderMap.filled_ofList given
  refine ⟨given, configured, fun request => ⟨fun n => ?_, ?_, ?_, ?_, ?_⟩⟩
  · rw [DefaultHeaders.getAll_apply, HeaderMap.toList_ofList, valuesOf, HeaderMap.filter_grouped]
    rfl
  · rw [DefaultHeaders.names_apply distinct filled, HeaderMap.names_ofList]
  · rw [DefaultHeaders.toList_apply distinct filled, HeaderMap.toList_ofList]
  · exact DefaultHeaders.foldl_names distinct
  · exact DefaultHeaders.apply_apply distinct filled

namespace Sample

/-- Two names are configured twice, one of them by the user agent. -/
def repeated : List (String × String) :=
  [("X-Role", "a"), ("Accept", "text/plain"), ("x-role", "b"), ("USER-AGENT", "probe/2")]

def twofold : HeaderMap :=
  .ofList [(.accept, .literal "application/xml"), (.accept, .literal "application/json")]

end Sample

/-- The media types of the request stand alone; the other names come with both of their values. -/
theorem defaults_where_missing_repeated : ∃ defaults,
    DefaultHeaders.ofSettings "probe/1" Sample.repeated = .ok defaults ∧
    (DefaultHeaders.apply defaults Sample.twofold).toList =
      [(.accept, .literal "application/xml"), (.accept, .literal "application/json"), (.userAgent, .literal "probe/1"),
        (.userAgent, .literal "probe/2"), (Sample.role, .literal "a"), (Sample.role, .literal "b")] ∧
    DefaultHeaders.apply defaults (DefaultHeaders.apply defaults Sample.twofold) =
      DefaultHeaders.apply defaults Sample.twofold := by
  obtain ⟨defaults, accepted⟩ := Except.exists_of_toBool
    (x := DefaultHeaders.ofSettings "probe/1" Sample.repeated) (by decide +kernel)
  obtain ⟨given, configured, all⟩ := defaults_where_missing accepted
  have read : (("user-agent", "probe/1") :: Sample.repeated).mapM DefaultHeaders.parse? =
      .ok [(.userAgent, .literal "probe/1"), (Sample.role, .literal "a"), (.accept, .literal "text/plain"),
        (Sample.role, .literal "b"), (.userAgent, .literal "probe/2")] := by decide +kernel
  obtain rfl := Except.ok.inj (read.symm.trans (DefaultHeaders.mapM_parse?_eq_ok_iff.mpr configured))
  obtain ⟨_, _, list, _, twice⟩ := all Sample.twofold
  exact ⟨defaults, accepted, list.trans (by decide +kernel), twice⟩

end EngineClient
