import EngineClient.Proofs.Outbound

/-!
# Headers by name

A map that is made of a list has each name where it comes first in the list, with all of its values there. A header of
a new name comes after all others.
-/

namespace EngineClient
namespace HeaderMap

/-- Headers by name: each name where it comes first, with all of its headers there. -/
def grouped (hs : List Header) : List Header :=
  (hs.map Prod.fst).eraseDups.flatMap fun n => hs.filter fun h => h.1 = n

/-- Headers and one more, unless they have its name. -/
def supplied (h : Header) (hs : List Header) : List Header :=
  if hs.any fun other => other.1 = h.1 then hs else hs ++ [h]

/-! ### Names -/

theorem names_append (m : HeaderMap) (n : HeaderName) (v : HeaderValue) :
    (m.append n v).names = if n ∈ m.names then m.names else m.names ++ [n] :=
  names_appendTo n v m.groups

theorem ofList_concat (hs : List Header) (h : Header) : ofList (hs ++ [h]) = (ofList hs).append h.1 h.2 := by
  simp only [ofList, appendAll, List.foldl_append, List.foldl_cons, List.foldl_nil]

theorem names_ofList (hs : List Header) : (ofList hs).names = (hs.map Prod.fst).eraseDups := by
  induction hs using List.reverseRecOn with
  | nil => rfl
  | append_singleton hs h ih =>
    rw [ofList_concat, names_append, ih, List.map_append, List.eraseDups_append]
    by_cases known : h.1 ∈ hs.map Prod.fst
    · simp [known, List.removeAll]
    · simp [known, List.removeAll, List.eraseDups_cons]

theorem nodup_of_names {m m' : HeaderMap} (names : m'.names = if k ∈ m.names then m.names else m.names ++ [k])
    (distinct : m.names.Nodup) : m'.names.Nodup := by
  rw [names]
  split
  · exact distinct
  · rename_i fresh
    exact List.nodup_append'.mpr ⟨distinct, List.nodup_singleton k, by simpa using fresh⟩

theorem nodup_appendAll {m : HeaderMap} (distinct : m.names.Nodup) (hs : List Header) : (m.appendAll hs).names.Nodup := by
  induction hs generalizing m with
  | nil => exact distinct
  | cons h hs ih => exact ih (nodup_of_names (names_append m h.1 h.2) distinct)

theorem nodup_names_ofList (hs : List Header) : (ofList hs).names.Nodup :=
  nodup_appendAll (m := empty) List.nodup_nil hs

/-! ### Values -/

/-- A map whose names differ lists the values of each name in turn. -/
theorem toList_of_nodup {m : HeaderMap} (nodup : m.names.Nodup) :
    m.toList = m.names.flatMap fun n => (m.getAll n).map fun v => (n, v) := by
  obtain ⟨groups⟩ := m
  simp only [HeaderMap.names, HeaderMap.toList, HeaderMap.getAll] at nodup ⊢
  induction groups with
  | nil => rfl
  | cons g gs ih =>
    obtain ⟨first, rest⟩ := List.nodup_cons.mp nodup
    have later : ((gs.map Prod.fst).flatMap fun n => (valuesIn n (g :: gs)).map fun v => (n, v)) =
        (gs.map Prod.fst).flatMap fun n => (valuesIn n gs).map fun v => (n, v) := by
      refine List.flatMap_congr fun n member => ?_
      have other : g.1 ≠ n := fun same => first (same ▸ member)
      rw [valuesIn, if_neg other]
    rw [List.flatMap_cons, List.map_cons, List.flatMap_cons, ih rest, later, valuesIn, if_pos rfl]

theorem toList_ofList (hs : List Header) : (ofList hs).toList = grouped hs := by
  rw [toList_of_nodup (nodup_names_ofList hs), names_ofList, grouped]
  refine List.flatMap_congr fun n _ => ?_
  rw [getAll_ofList, List.map_map]
  refine (List.map_congr_left fun h member => ?_).trans (List.map_id _)
  obtain ⟨_, same⟩ := List.mem_filter.mp member
  obtain rfl : h.1 = n := of_decide_eq_true same
  rfl

theorem flatMap_alone {ns : List HeaderName} (nodup : ns.Nodup) (n : HeaderName) (hs : List Header) :
    (ns.flatMap fun k => if k = n then hs else []) = if n ∈ ns then hs else [] := by
  induction ns with
  | nil => rfl
  | cons k ns ih =>
    obtain ⟨first, rest⟩ := List.nodup_cons.mp nodup
    rw [List.flatMap_cons, ih rest]
    by_cases same : k = n
    · subst same
      simp [first]
    · simp [same, Ne.symm same]

/-- Of each name the headers are the same, in the same order. -/
theorem filter_grouped (hs : List Header) (n : HeaderName) :
    ((grouped hs).filter fun h => h.1 = n) = hs.filter fun h => h.1 = n := by
  have once : ∀ k, ((hs.filter fun h => h.1 = k).filter fun h => h.1 = n) =
      if k = n then hs.filter fun h => h.1 = n else [] := by
    intro k
    rw [List.filter_filter]
    split
    · rename_i same
      simp [same]
    · rename_i other
      simp only [List.filter_eq_nil_iff, Bool.and_eq_true, decide_eq_true_eq]
      rintro h _ ⟨here, there⟩
      exact other (there.symm.trans here)
  have nodup : (hs.map Prod.fst).eraseDups.Nodup := names_ofList hs ▸ nodup_names_ofList hs
  rw [grouped, List.filter_flatMap, List.flatMap_congr fun k _ => once k, flatMap_alone nodup]
  split
  · rfl
  · rename_i absent
    refine (List.filter_eq_nil_iff.mpr fun h member found => ?_).symm
    obtain rfl : h.1 = n := of_decide_eq_true found
    exact absent (List.mem_eraseDups.mpr (List.mem_map_of_mem member))

/-! ### One more header -/

theorem filter_supplied {h : Header} {n : HeaderName} (other : h.1 ≠ n) (hs : List Header) :
    ((supplied h hs).filter fun h => h.1 = n) = hs.filter fun h => h.1 = n := by
  unfold supplied
  split
  · rfl
  · simp [other]

theorem appendTo_of_not_mem {gs : List (HeaderName × List HeaderValue)} (new : n ∉ gs.map Prod.fst) (v : HeaderValue) :
    appendTo n v gs = gs ++ [(n, [v])] := by
  induction gs with
  | nil => rfl
  | cons g gs ih =>
    obtain ⟨other, later⟩ := not_or.mp fun found => new (List.mem_cons.mpr found)
    rw [appendTo, if_neg (Ne.symm other), ih later, List.cons_append]

theorem insertTo_of_not_mem {gs : List (HeaderName × List HeaderValue)} (new : n ∉ gs.map Prod.fst) (v : HeaderValue) :
    insertTo n v gs = gs ++ [(n, [v])] := by
  induction gs with
  | nil => rfl
  | cons g gs ih =>
    obtain ⟨other, later⟩ := not_or.mp fun found => new (List.mem_cons.mpr found)
    rw [insertTo, if_neg (Ne.symm other), ih later, List.cons_append]

theorem toList_append_of_new {m : HeaderMap} (new : m.contains n = false) (v : HeaderValue) :
    (m.append n v).toList = m.toList ++ [(n, v)] := by
  have absent : n ∉ m.groups.map Prod.fst := by simpa [contains, names] using new
  rw [append, toList, appendTo_of_not_mem absent, List.flatMap_append]
  rfl

theorem insert_of_new {m : HeaderMap} (new : m.contains n = false) (v : HeaderValue) : m.insert n v = m.append n v := by
  have absent : n ∉ m.groups.map Prod.fst := by simpa [contains, names] using new
  rw [insert, append, insertTo_of_not_mem absent, appendTo_of_not_mem absent]

/-- Headers of different names stand as they are. -/
theorem grouped_of_nodup {hs : List Header} (nodup : (hs.map Prod.fst).Nodup) : grouped hs = hs := by
  induction hs using List.reverseRecOn with
  | nil => rfl
  | append_singleton hs h ih =>
    rw [List.map_append, List.nodup_append] at nodup
    obtain ⟨before, _, apart⟩ := nodup
    have absent : h.1 ∉ (hs.map Prod.fst).eraseDups := fun known =>
      apart h.1 (List.mem_eraseDups.mp known) h.1 (List.mem_singleton_self _) rfl
    have new : (ofList hs).contains h.1 = false := by
      rw [contains, names_ofList]
      simpa using absent
    rw [← toList_ofList, ofList_concat, toList_append_of_new new, toList_ofList, ih before]

/-- Each name has a value. -/
def Filled (m : HeaderMap) : Prop :=
  ∀ g ∈ m.groups, g.2 ≠ []

theorem Filled.append {m : HeaderMap} (filled : m.Filled) (n : HeaderName) (v : HeaderValue) : (m.append n v).Filled := by
  obtain ⟨groups⟩ := m
  simp only [Filled, HeaderMap.append] at filled ⊢
  induction groups with
  | nil =>
    intro g member
    cases List.mem_singleton.mp member
    exact List.cons_ne_nil v []
  | cons first rest ih =>
    obtain ⟨here, later⟩ := List.forall_mem_cons.mp filled
    rw [appendTo]
    split
    · exact List.forall_mem_cons.mpr ⟨by simp, later⟩
    · exact List.forall_mem_cons.mpr ⟨here, ih later⟩

theorem filled_ofList (hs : List Header) : (ofList hs).Filled := by
  induction hs using List.reverseRecOn with
  | nil => exact fun g member => by cases member
  | append_singleton hs h ih =>
    rw [ofList_concat]
    exact ih.append h.1 h.2

theorem Filled.contains {m : HeaderMap} (filled : m.Filled) (n : HeaderName) :
    m.contains n = m.toList.any fun h => h.1 = n := by
  rw [Bool.eq_iff_iff, HeaderMap.contains, List.contains_iff_mem, List.any_eq_true]
  constructor
  · intro known
    obtain ⟨g, member, rfl⟩ := List.mem_map.mp known
    obtain ⟨v, value⟩ := List.exists_mem_of_ne_nil _ (filled g member)
    exact ⟨(g.1, v), List.mem_flatMap.mpr ⟨g, member, List.mem_map_of_mem value⟩, decide_eq_true rfl⟩
  · rintro ⟨h, member, same⟩
    obtain ⟨g, among, inside⟩ := List.mem_flatMap.mp member
    obtain ⟨v, _, rfl⟩ := List.mem_map.mp inside
    obtain rfl : g.1 = n := of_decide_eq_true same
    exact List.mem_map_of_mem among

theorem Filled.toList_append_missing {m : HeaderMap} (filled : m.Filled) (n : HeaderName) (v : HeaderValue) :
    (if m.contains n then m else m.append n v).toList = supplied (n, v) m.toList := by
  rw [supplied, ← filled.contains]
  cases known : m.contains n with
  | true => rfl
  | false => exact toList_append_of_new known v

end HeaderMap
end EngineClient
