import EngineClient.Api.TokenCache
import EngineClient.Proofs.Secrecy.Document
import Mathlib.Data.List.Forall2

/-!
# Answers with other tokens

An answer of the sign-on service in which every access token is replaced by another one is read as the first one was:
the same errors, with the same texts, or tokens that differ in their values only.
-/

namespace EngineClient

/-- How many bytes a text takes in a form. -/
def Text.Form.size (s : String) : Nat :=
  (Text.encode (Text.Form.encodeText s)).length

theorem Text.encode_append (cs ds : List Char) : encode (cs ++ ds) = encode cs ++ encode ds :=
  List.flatMap_append ..

/-- How long a form is depends on how much space its last value takes up. -/
theorem Text.Form.length_render (fields : List Field) (name : String) (same : size v' = size v) :
    (encode (render (fields ++ [(name, v')]))).length = (encode (render (fields ++ [(name, v)]))).length := by
  have last : ∀ w, render [(name, w)] = encodeField (name, w) := fun w => by simp [render]
  induction fields with
  | nil =>
    have split : ∀ w, (encode (render [(name, w)])).length = (encode (encodeText name ++ ['='])).length + size w := by
      intro w
      rw [last, encodeField, List.append_cons, encode_append, List.length_append, size]
    rw [List.nil_append, List.nil_append, split, split, same]
  | cons f rest ih =>
    have more : ∀ w, render (f :: (rest ++ [(name, w)])) = encodeField f ++ '&' :: render (rest ++ [(name, w)]) := by
      intro w
      cases rest <;> simp [render, List.intercalate_cons_cons]
    have split : ∀ w, (encode (render (f :: (rest ++ [(name, w)])))).length =
        (encode (encodeField f ++ ['&'])).length + (encode (render (rest ++ [(name, w)]))).length := by
      intro w
      rw [more, List.append_cons, encode_append, List.length_append]
    rw [List.cons_append, List.cons_append, split, split, ih]

/-- Secrets that take up the same space in a form. -/
def Secret.Twin (a b : Secret) : Prop :=
  Text.Form.size a.expose = Text.Form.size b.expose

namespace AccessToken

/-- Texts that are tokens which can be sent, and that take up the same space in a form. -/
structure Interchangeable (s s' : String) : Prop where
  named : s.isEmpty = false
  named' : s'.isEmpty = false
  sendable : (bearer? s).isSome
  sendable' : (bearer? s').isSome
  size : Text.Form.size s = Text.Form.size s'

/-- Tokens that differ in their values only. -/
structure Twin (t t' : AccessToken) : Prop where
  value : t.value.Twin t'.value
  lifetime : t'.lifetime = t.lifetime
  expiresAt : t'.expiresAt = t.expiresAt

theorem Twin.refl (t : AccessToken) : t.Twin t :=
  ⟨rfl, rfl, rfl⟩

variable {t t' : AccessToken}

theorem Twin.isExpired (twins : t.Twin t') (now : Instant) (margin : Span) :
    t'.isExpired now margin = t.isExpired now margin := by
  unfold AccessToken.isExpired cappedMargin
  rw [twins.lifetime, twins.expiresAt]

theorem Twin.describe (twins : t.Twin t') : t'.describe = t.describe := by
  unfold AccessToken.describe
  rw [twins.expiresAt]
  rfl

theorem issued_twin (alike : Interchangeable s s') (now : Instant) (lifetime : Option Span) :
    ∃ t t', issued? now s lifetime = some t ∧ issued? now s' lifetime = some t' ∧ t.Twin t' := by
  obtain ⟨a, first⟩ := Option.isSome_iff_exists.mp alike.sendable
  obtain ⟨a', second⟩ := Option.isSome_iff_exists.mp alike.sendable'
  unfold issued?
  rw [first, second]
  exact ⟨_, _, rfl, rfl, alike.size, rfl, rfl⟩

end AccessToken

namespace Answer

/-! ### Documents -/

/-- Members of one name. Of a name that names a token, the tokens may be different. -/
inductive SameMember (rel : Json.Value → Json.Value → Prop) : String × Json.Value → String × Json.Value → Prop
  | value (values : rel v v') : SameMember rel (k, v) (k, v')
  | token (alike : AccessToken.Interchangeable s s') :
    SameMember rel ("access_token", .string s) ("access_token", .string s')

/-- Documents that are the same but for members, at any depth, that name access tokens. -/
inductive Reissued : Json.Value → Json.Value → Prop
  | same (v : Json.Value) : Reissued v v
  | array (items : List.Forall₂ Reissued vs vs') : Reissued (.array vs) (.array vs')
  | object (members : List.Forall₂ (SameMember Reissued) ms ms') : Reissued (.object ms) (.object ms')

/-- An answer may also be a list in a list, which names its token by its place. -/
inductive ReissuedAnswer : Json.Value → Json.Value → Prop
  | named (values : Reissued v v') : ReissuedAnswer v v'
  | listed (alike : AccessToken.Interchangeable s s') (items : List.Forall₂ Reissued vs vs')
    (more : List.Forall₂ Reissued ws ws') :
    ReissuedAnswer (.array (.array (.string s :: vs) :: ws)) (.array (.array (.string s' :: vs') :: ws'))

/-- Texts of two answers that differ in access tokens only, each as long as the other as it stands there. -/
structure Reissues (body body' : Bytes) : Prop where
  text : Json.Parallel body body'
  values : ∀ v v', Json.Value.read? body = .ok v → Json.Value.read? body' = .ok v' → ReissuedAnswer v v'

section Values
variable {v v' : Json.Value} {vs vs' : List Json.Value}

theorem text?_reissued (values : Reissued v v') : text? v = text? v' := by
  cases values with
  | same => rfl
  | array _ => rfl
  | object _ => rfl

theorem seconds?_reissued (values : Reissued v v') : seconds? v = seconds? v' := by
  cases values with
  | same => rfl
  | array _ => rfl
  | object _ => rfl

theorem find_reissued {ms ms' : List (String × Json.Value)} (members : List.Forall₂ (SameMember Reissued) ms ms')
    (name : String) :
    Option.Rel (SameMember Reissued) (ms.find? fun m => m.1 == name) (ms'.find? fun m => m.1 == name) := by
  induction members with
  | nil => exact .none
  | @cons m m' rest rest' same _ ih =>
    have key : m'.1 = m.1 := by cases same <;> rfl
    by_cases found : (m.1 == name) = true
    · have found' : (m'.1 == name) = true := by rwa [key]
      simp only [List.find?_cons, found, found']
      exact .some same
    · have missed : ¬ (m'.1 == name) = true := by rwa [key]
      simp only [List.find?_cons, found, missed]
      exact ih

theorem member_reissued {ms ms' : List (String × Json.Value)} (members : List.Forall₂ (SameMember Reissued) ms ms')
    (name : String) : SameMember Reissued (name, member name ms) (name, member name ms') := by
  have found := find_reissued (List.forall₂_reverse_iff.mpr members) name
  unfold member
  cases first : ms.reverse.find? fun m => m.1 == name with
  | none =>
    rw [first] at found
    generalize ms'.reverse.find? (fun m => m.1 == name) = second at found ⊢
    cases found
    exact .value (.same _)
  | some m =>
    rw [first] at found
    have named : m.1 = name := by simpa using List.find?_some first
    subst named
    generalize ms'.reverse.find? (fun m' => m'.1 == m.1) = second at found ⊢
    cases found with
    | some same =>
      cases same with
      | value values => exact .value values
      | token alike => exact .token alike

theorem item_reissued (items : List.Forall₂ Reissued vs vs') (i : Nat) :
    Reissued ((vs[i]?).getD .null) ((vs'[i]?).getD .null) := by
  induction items generalizing i with
  | nil => exact .same _
  | cons values _ ih =>
    cases i with
    | zero => exact values
    | succ i => exact ih i

end Values

/-! ### Reading -/

/-- What two answers name as their tokens. -/
inductive Named : Option String → Option String → Prop
  | same (s : Option String) : Named s s
  | reissued (alike : AccessToken.Interchangeable s s') : Named (some s) (some s')

/-- Answers that differ in their tokens only. -/
structure Twin (a a' : Answer) : Prop where
  accessToken : Named a.accessToken a'.accessToken
  tokenType : a'.tokenType = a.tokenType
  expiresIn : a'.expiresIn = a.expiresIn
  error : a'.error = a.error
  errorDescription : a'.errorDescription = a.errorDescription

theorem Twin.refl (a : Answer) : a.Twin a :=
  ⟨.same _, rfl, rfl, rfl, rfl⟩

theorem text?_token {v v' : Json.Value} (same : SameMember Reissued ("access_token", v) ("access_token", v')) :
    Except.Related Named (text? v) (text? v') := by
  cases same with
  | value values =>
    rw [text?_reissued values]
    exact .of_eq .same _
  | token alike => exact .ok (.reissued alike)

theorem SameMember.other {rel : Json.Value → Json.Value → Prop} (same : SameMember rel (k, v) (k, v'))
    (other : k ≠ "access_token") : rel v v' := by
  cases same with
  | value values => exact values
  | token _ => exact (other rfl).elim

theorem ofMembers_twin {ms ms' : List (String × Json.Value)} (members : List.Forall₂ (SameMember Reissued) ms ms') :
    Except.Related Twin (ofMembers ms) (ofMembers ms') := by
  have text : ∀ name, name ≠ "access_token" → text? (member name ms) = text? (member name ms') :=
    fun name other => text?_reissued ((member_reissued members name).other other)
  have seconds := seconds?_reissued ((member_reissued members "expires_in").other (by decide))
  unfold ofMembers
  rw [text "error" (by decide), text "error_description" (by decide), seconds, text "token_type" (by decide)]
  refine (text?_token (member_reissued members _)).bind fun token token' named => ?_
  refine Except.related_bind _ fun error => ?_
  refine Except.related_bind _ fun description => ?_
  refine Except.related_bind _ fun expiresIn => ?_
  refine Except.related_bind _ fun tokenType => ?_
  exact .ok ⟨named, rfl, rfl, rfl, rfl⟩

section Items
variable {vs vs' : List Json.Value}

theorem ofItems_twin (first : Except.Related Named (text? ((vs[0]?).getD .null)) (text? ((vs'[0]?).getD .null)))
    (rest : ∀ i, 0 < i → Reissued ((vs[i]?).getD .null) ((vs'[i]?).getD .null)) (length : vs'.length = vs.length) :
    Except.Related Twin (ofItems vs) (ofItems vs') := by
  have text : ∀ i, 0 < i → text? ((vs[i]?).getD .null) = text? ((vs'[i]?).getD .null) :=
    fun i later => text?_reissued (rest i later)
  unfold ofItems
  dsimp only
  rw [text 1 (by decide), seconds?_reissued (rest 2 (by decide)), text 3 (by decide), text 4 (by decide), length]
  refine first.bind fun token token' named => ?_
  refine Except.related_bind _ fun tokenType => ?_
  refine Except.related_bind _ fun expiresIn => ?_
  refine Except.related_bind _ fun error => ?_
  refine Except.related_bind _ fun description => ?_
  by_cases long : vs.length > 5
  · simp only [if_pos long]
    exact .error _
  · simp only [if_neg long]
    exact .ok ⟨named, rfl, rfl, rfl, rfl⟩

theorem ofItems_reissued (items : List.Forall₂ Reissued vs vs') : Except.Related Twin (ofItems vs) (ofItems vs') := by
  refine ofItems_twin ?_ (fun i _ => item_reissued items i) items.length_eq.symm
  rw [text?_reissued (item_reissued items 0)]
  exact .of_eq .same _

theorem ofItems_listed (alike : AccessToken.Interchangeable s s') (items : List.Forall₂ Reissued vs vs') :
    Except.Related Twin (ofItems (.string s :: vs)) (ofItems (.string s' :: vs')) := by
  refine ofItems_twin (.ok (.reissued alike)) (fun i later => ?_) (by simp [items.length_eq])
  obtain ⟨i, rfl⟩ := Nat.exists_eq_succ_of_ne_zero (Nat.ne_of_gt later)
  exact item_reissued items i

end Items

theorem subject_reissued {v v' : Json.Value} (values : Reissued v v') : Reissued (subject v) (subject v') := by
  cases values with
  | same => exact .same _
  | object members => exact .object members
  | array items =>
    cases items with
    | nil => exact .same _
    | cons first _ => exact first

theorem ofValue_reissued {v v' : Json.Value} (values : ReissuedAnswer v v') :
    Except.Related Twin (ofValue v) (ofValue v') := by
  cases values with
  | listed alike items _ => exact ofItems_listed alike items
  | named values =>
    have subjects := subject_reissued values
    unfold ofValue
    generalize subject v = found at subjects ⊢
    generalize subject v' = found' at subjects ⊢
    cases subjects with
    | same => exact .of_eq .refl _
    | array items => exact ofItems_reissued items
    | object members => exact ofMembers_twin members

section Bodies
variable {body body' : Bytes}

theorem read_reissues (reissues : Reissues body body') : Except.Related Twin (read body) (read body') := by
  unfold read
  rcases (Json.read_parallel reissues.text).split with ⟨e, first, second⟩ | ⟨v, v', first, second, _⟩
  · -- The error names a line and a column, which depend on where lines end.
    rw [first, second]
    dsimp only
    rw [Json.place_of_lines reissues.text.lines]
    exact .error _
  · have values := reissues.values v v' first second
    rw [first, second]
    exact ofValue_reissued values

theorem reportedError?_reissues (reissues : Reissues body body') : reportedError? body' = reportedError? body := by
  unfold reportedError?
  rcases (read_reissues reissues).split with ⟨e, first, second⟩ | ⟨a, a', first, second, twins⟩
  · rw [first, second]
  · rw [first, second]
    dsimp only
    rw [twins.error, twins.errorDescription]

theorem token_reissues (reissues : Reissues body body') (now : Instant) (status : Status) :
    Except.Related AccessToken.Twin (token now status body) (token now status body') := by
  unfold token
  rcases (read_reissues reissues).split with ⟨e, first, second⟩ | ⟨a, a', first, second, twins⟩
  · rw [first, second]
    exact .of_eq .refl _
  obtain ⟨named, tokenType, expiresIn, error, description⟩ := twins
  rw [first, second]
  dsimp only
  rw [tokenType, expiresIn, error, description]
  cases a.error with
  | some code => exact .error _
  | none =>
    generalize a.accessToken = value at named ⊢
    generalize a'.accessToken = value' at named ⊢
    cases named with
    | same => exact .of_eq .refl _
    | @reissued s s' alike =>
      obtain ⟨t, t', issued, issued', twins⟩ := AccessToken.issued_twin alike now (a.expiresIn.bind Seconds.span?)
      have kept : (some s).filter (!·.isEmpty) = some s := by simp [Option.filter, alike.named]
      have kept' : (some s').filter (!·.isEmpty) = some s' := by simp [Option.filter, alike.named']
      rw [kept, kept']
      dsimp only
      split
      · exact .error _
      · split
        · exact .error _
        · rw [issued, issued']
          exact .ok twins

end Bodies

end Answer

/-! ### Replies -/

/-- Frames of one kind and one size. -/
inductive Frame.Twin : Frame → Frame → Prop
  | data (size : bytes'.length = bytes.length) : Twin (.data bytes) (.data bytes')
  | trailers (headers : HeaderMap) : Twin (.trailers headers) (.trailers headers)

/-- Replies that come in frames of the same sizes and whose bodies differ in access tokens only. -/
structure Reply.Twin (r r' : Reply) : Prop where
  status : r'.status = r.status
  fault : r'.fault = r.fault
  frames : List.Forall₂ Frame.Twin r.frames r'.frames
  body : Answer.Reissues r.data r'.data

def Frame.contents : Frame → Bytes
  | .data bytes => bytes
  | .trailers _ => []

theorem readFrames_twin {fs fs' : List Frame} (frames : List.Forall₂ Frame.Twin fs fs') (limit : Nat)
    (fault : Option Failure) {got got' : Bytes} (size : got'.length = got.length) :
    Except.Related (fun b b' => b = got ++ fs.flatMap Frame.contents ∧ b' = got' ++ fs'.flatMap Frame.contents)
      (readFrames limit fault got fs) (readFrames limit fault got' fs') := by
  induction frames generalizing got got' with
  | nil =>
    cases fault with
    | none => exact .ok (by simp)
    | some f => exact .error _
  | cons same _ ih =>
    cases same with
    | trailers headers => exact ih size
    | @data bytes bytes' size' =>
      unfold readFrames
      dsimp only
      rw [size, size']
      split
      · exact .error _
      · have longer : (got' ++ bytes').length = (got ++ bytes).length := by simp [size, size']
        refine (ih longer).imp fun b b' whole => ?_
        simpa [Frame.contents] using whole

section Replies
variable {r r' : Reply}

theorem Reply.read_twin (twins : r.Twin r') (limit : Nat) :
    Except.Related Answer.Reissues (r.read limit) (r'.read limit) := by
  have contents : ∀ r : Reply, r.data = r.frames.flatMap Frame.contents := by
    intro r
    refine congrArg (List.flatMap · r.frames) (funext fun frame => ?_)
    cases frame <;> rfl
  have body := twins.body
  rw [contents, contents] at body
  unfold Reply.read
  rw [twins.fault]
  refine (readFrames_twin twins.frames limit r.fault rfl).imp ?_
  rintro _ _ ⟨rfl, rfl⟩
  exact body

theorem TokenCache.tokenOf_twin {reply reply' : Except ClientError Reply} (twins : Except.Related Reply.Twin reply reply')
    (c : Client) (now : Instant) : Except.Related AccessToken.Twin (tokenOf c now reply) (tokenOf c now reply') := by
  cases twins with
  | error e => exact .error _
  | @ok r r' twins =>
    unfold tokenOf
    dsimp only
    rcases (r.read_twin twins c.settings.maxBodySize).split with ⟨e, read, read'⟩ | ⟨body, body', read, read', reissues⟩
    · rw [read, read']
      exact .error _
    · rw [read, read', twins.status]
      dsimp only
      rcases (Answer.token_reissues reissues now r.status).split with ⟨e, token, token'⟩ | ⟨t, t', token, token', same⟩
      · rw [token, token']
        exact .error _
      · rw [token, token']
        exact .ok same

theorem SignOn.revocationEvent_twin {reply reply' : Except ClientError Reply}
    (twins : Except.Related Reply.Twin reply reply') (limit : Nat) :
    revocationEvent limit reply' = revocationEvent limit reply := by
  cases twins with
  | error e => rfl
  | @ok r r' twins =>
    unfold revocationEvent
    dsimp only
    rcases (r.read_twin twins limit).split with ⟨e, read, read'⟩ | ⟨body, body', read, read', reissues⟩
    · rw [read, read', twins.status]
    · rw [read, read', twins.status]
      dsimp only
      rw [Answer.reportedError?_reissues reissues]

end Replies
end EngineClient
