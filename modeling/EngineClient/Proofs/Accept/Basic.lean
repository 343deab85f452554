import EngineClient.Proofs.Headers.Encoded
import EngineClient.Proofs.Outbound
import EngineClient.Proofs.Text.Form

/-!
# Credentials in a header

A name and a password are joined by a colon and written in base64, for an engine and for a proxy alike. A recipient cuts
the text at its first colon, so that a name with a colon is read as another one. Nothing refuses such a name.
-/

namespace EngineClient
open Text

/-! ### Reading -/

namespace HeaderValue

/-- The text behind the name of the scheme, decoded. -/
def basicText? (v : HeaderValue) : Option (List Char) := do
  let bytes ← v.encoded? "Basic "
  decode? bytes

/-- The name and the password that a recipient reads: what stands before the first colon and what stands after it. -/
def basicPair? (v : HeaderValue) : Option (String × String) := do
  let text ← v.basicText?
  if ':' ∈ text then
    let (username, password) := Form.cut ':' text
    return (String.ofList username, String.ofList password)
  else none

end HeaderValue

theorem basicText?_basicAuthorization (u p : String) :
    (basicAuthorization u p).basicText? = some (u.toList ++ ':' :: p.toList) := by
  have joined : (u ++ ":" ++ p).toList = u.toList ++ ':' :: p.toList := by
    rw [String.toList_append, String.toList_append, List.append_assoc]
    rfl
  unfold HeaderValue.basicText?
  rw [HeaderValue.encoded?_basicAuthorization, Option.bind_eq_bind, Option.bind_some, utf8, decode?_encode, joined]

theorem basicPair?_basicAuthorization (u p : String) :
    (basicAuthorization u p).basicPair? =
      some ((Form.cut ':' (u.toList ++ ':' :: p.toList)).map String.ofList String.ofList) := by
  have colon : ':' ∈ u.toList ++ ':' :: p.toList := by simp
  unfold HeaderValue.basicPair?
  rw [basicText?_basicAuthorization]
  simp only [Option.bind_eq_bind, Option.bind_some]
  rw [if_pos colon]
  rfl

/-- What stands before the first separator has none. -/
theorem Text.Form.not_mem_cut (c : Char) (cs : List Char) : c ∉ (cut c cs).1 := by
  intro member
  have passes := List.mem_takeWhile_imp member
  simp at passes

theorem basicPair?_eq_some_iff {u p : String} :
    (basicAuthorization u p).basicPair? = some (u, p) ↔ ':' ∉ u.toList := by
  rw [basicPair?_basicAuthorization]
  constructor
  · intro read
    have front : String.ofList (Form.cut ':' (u.toList ++ ':' :: p.toList)).1 = u :=
      congrArg Prod.fst (Option.some.inj read)
    have clear := Form.not_mem_cut ':' (u.toList ++ ':' :: p.toList)
    rw [← front, String.toList_ofList]
    exact clear
  · intro clear
    rw [Form.cut_separator clear]
    simp

/-- Nothing of the joined text is lost. -/
theorem basicAuthorization_inj {u p u' p' : String} :
    basicAuthorization u p = basicAuthorization u' p' ↔ u ++ ":" ++ p = u' ++ ":" ++ p' := by
  constructor
  · intro same
    have read := congrArg HeaderValue.basicText? same
    rw [basicText?_basicAuthorization, basicText?_basicAuthorization] at read
    have lists := Option.some.inj read
    apply String.toList_inj.mp
    simpa using lists
  · intro same
    unfold basicAuthorization
    rw [same]

/-! ### Where such headers come from -/

/-- A name and a password that are accepted, and the value that they are sent in: by options, to an engine, or by the
settings of a proxy. -/
inductive Presents : String → String → HeaderValue → Prop
  | options (accepted : Options.validate idna o = .ok s) (basic : o.auth = .basic) (username : o.username = some u)
    (password : o.password = some p) (shown : s.credentials = .basic v) : Presents u p.expose v
  | proxy (accepted : Proxy.ofSettings p = .ok q) (username : p.username = some u) (shown : q.authorization = some v) :
    Presents u ((p.password.map Secret.expose).getD "") v

theorem Options.basic_of_validate {o : Options} (valid : o.validate idna = .ok s) (basic : o.auth = .basic) :
    ∃ u p, o.username = some u ∧ o.password = some p ∧ s.credentials = .basic (basicAuthorization u p.expose) := by
  obtain ⟨root, yields⟩ := yields_of_validate valid
  have decided := yields.credentials
  unfold credentials? at decided
  obtain ⟨grant, granted, decided⟩ := Except.bind_eq_ok decided
  -- With other credentials, or none, the options are refused.
  split at decided
  · cases decided
  · rename_i u p _ _
    obtain ⟨username, password⟩ := username_of_passwordGrant? granted
    rw [if_pos basic] at decided
    exact ⟨u, p, username, password, (Except.ok.inj decided).symm⟩
  · rw [if_pos basic] at decided
    cases decided
  · rw [if_pos basic] at decided
    cases decided
  · cases decided

theorem Proxy.authorization_of_ofSettings {p : ProxySettings} (accepted : ofSettings p = .ok q) :
    q.authorization = p.username.map fun u => basicAuthorization u ((p.password.map Secret.expose).getD "") := by
  unfold ofSettings at accepted
  split at accepted
  · cases accepted
  · split at accepted
    · cases accepted
    · cases accepted
      rfl

theorem Presents.value_eq (presents : Presents u p v) : v = basicAuthorization u p := by
  cases presents with
  | options accepted basic username password shown =>
    obtain ⟨_, _, username', password', shown'⟩ := Options.basic_of_validate accepted basic
    cases username.symm.trans username'
    cases password.symm.trans password'
    exact Credentials.basic.inj (shown.symm.trans shown')
  | proxy accepted username shown =>
    have written := Proxy.authorization_of_ofSettings accepted
    rw [username, shown] at written
    exact Option.some.inj written

/-- Options with this way of authentication and settings of a proxy with a name always lead to such a value. What is
read from it is the name and the password exactly if the name has no colon; with a colon in it, another name is read,
and other accepted credentials are sent in the same value. Names without a colon are never confused. -/
theorem basic_pairs_read_back (o : Options) (proxy : ProxySettings) :
    (∀ s, o.validate idna = .ok s → o.auth = .basic → ∃ u p v, o.username = some u ∧ o.password = some p ∧
      s.credentials = .basic v ∧ Presents u p.expose v) ∧
    (∀ q u, Proxy.ofSettings proxy = .ok q → proxy.username = some u → ∃ v, q.authorization = some v ∧
      Presents u ((proxy.password.map Secret.expose).getD "") v) ∧
    ∀ u p v, Presents u p v →
      v.basicPair? = some ((Form.cut ':' (u ++ ":" ++ p).toList).map String.ofList String.ofList) ∧
      (v.basicPair? = some (u, p) ↔ ':' ∉ u.toList) ∧
      ∀ u' p' v', Presents u' p' v' →
        (v = v' ↔ u ++ ":" ++ p = u' ++ ":" ++ p') ∧
        (':' ∉ u.toList → ':' ∉ u'.toList → (v = v' ↔ u = u' ∧ p = p')) := by
  refine ⟨fun s accepted basic => ?_, fun q u accepted username => ?_, fun u p v presents => ?_⟩
  · obtain ⟨u, p, username, password, shown⟩ := Options.basic_of_validate accepted basic
    exact ⟨u, p, _, username, password, shown, .options accepted basic username password shown⟩
  · have shown := Proxy.authorization_of_ofSettings accepted
    rw [username] at shown
    exact ⟨_, shown, .proxy accepted username shown⟩
  · rw [presents.value_eq]
    refine ⟨?_, basicPair?_eq_some_iff, fun u' p' v' presents' => ?_⟩
    · rw [basicPair?_basicAuthorization]
      simp
    rw [presents'.value_eq]
    refine ⟨basicAuthorization_inj, fun clear clear' => ⟨fun same => ?_, ?_⟩⟩
    · -- Both pairs are what is read from the one value.
      have read := basicPair?_eq_some_iff (p := p).mpr clear
      rw [same, basicPair?_eq_some_iff.mpr clear'] at read
      exact ⟨(congrArg Prod.fst (Option.some.inj read)).symm, (congrArg Prod.snd (Option.some.inj read)).symm⟩
    · rintro ⟨rfl, rfl⟩
      rfl

namespace Sample

def named (username password : String) : Options where
  url := "https://engine.example.com/ovirt-engine/api"
  username := some username
  password := some ⟨password⟩
  auth := .basic

def nameOnly (username : String) : ProxySettings where
  url := "http://proxy:3128"
  username := some username

end Sample

/-- A colon in a password does no harm, and a proxy without a password reads an empty one. -/
theorem basic_pairs_read_back_password : ∃ s v q v',
    Options.validate .ascii (Sample.named "joe" "se:cret") = .ok s ∧ s.credentials = .basic v ∧
    v.basicPair? = some ("joe", "se:cret") ∧
    Proxy.ofSettings (Sample.nameOnly "joe") = .ok q ∧ q.authorization = some v' ∧
    v'.basicPair? = some ("joe", "") ∧ v ≠ v' := by
  obtain ⟨s, accepted⟩ : ∃ s, Options.validate .ascii (Sample.named "joe" "se:cret") = .ok s :=
    Except.exists_of_toBool (by decide +kernel)
  obtain ⟨q, accepted'⟩ : ∃ q, Proxy.ofSettings (Sample.nameOnly "joe") = .ok q :=
    Except.exists_of_toBool (by decide +kernel)
  have clear : ':' ∉ "joe".toList := by decide
  obtain ⟨options, proxies, pairs⟩ := basic_pairs_read_back (Sample.named "joe" "se:cret") (Sample.nameOnly "joe")
  obtain ⟨u, p, v, username, password, shown, presents⟩ := options s accepted rfl
  obtain ⟨v', shown', presents'⟩ := proxies q "joe" accepted' rfl
  cases username
  cases password
  obtain ⟨_, read, others⟩ := pairs _ _ _ presents
  obtain ⟨_, read', _⟩ := pairs _ _ _ presents'
  refine ⟨s, v, q, v', accepted, shown, read.mpr clear, accepted', shown', read'.mpr clear, fun same => ?_⟩
  have equal := ((others _ _ _ presents').2 clear clear).mp same
  exact absurd equal.2 (by decide)

/-- A name with a colon is accepted and is read as another name with another password, which are accepted as well and
sent in the same value. -/
theorem basic_name_with_colon_read_wrong : ∃ s s' v,
    Options.validate .ascii (Sample.named "a:b" "c") = .ok s ∧ s.credentials = .basic v ∧
    Options.validate .ascii (Sample.named "a" "b:c") = .ok s' ∧ s'.credentials = .basic v ∧
    v.basicPair? = some ("a", "b:c") := by
  have joined : basicAuthorization "a:b" "c" = basicAuthorization "a" "b:c" := basicAuthorization_inj.mpr (by decide)
  obtain ⟨s, accepted⟩ : ∃ s, Options.validate .ascii (Sample.named "a:b" "c") = .ok s :=
    Except.exists_of_toBool (by decide +kernel)
  obtain ⟨s', accepted'⟩ : ∃ s, Options.validate .ascii (Sample.named "a" "b:c") = .ok s :=
    Except.exists_of_toBool (by decide +kernel)
  obtain ⟨_, _, username, password, shown⟩ := Options.basic_of_validate accepted rfl
  obtain ⟨_, _, username', password', shown'⟩ := Options.basic_of_validate accepted' rfl
  cases username
  cases password
  cases username'
  cases password'
  refine ⟨s, s', _, accepted, shown, accepted', ?_, ?_⟩
  · rw [joined]
    exact shown'
  · rw [joined]
    exact basicPair?_eq_some_iff.mpr (by decide)

end EngineClient
