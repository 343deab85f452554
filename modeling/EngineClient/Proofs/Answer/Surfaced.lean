import EngineClient.Proofs.Answer.Decided

/-!
# Errors that surface

An object with an error is reported with it exactly as long as the other members can be read. One that cannot hides the
error, and the status decides what is reported in its place.
-/

namespace EngineClient
namespace Answer

/-- A document that is an object, or a list that begins with one. -/
inductive Presents (members : List (String × Json.Value)) : Json.Value → Prop
  | object : Presents members (.object members)
  | first (rest : List Json.Value) : Presents members (.array (.object members :: rest))

/-- What the members of an answer other than the error have to be: texts, and seconds for the end, each or null. -/
structure Typed (members : List (String × Json.Value)) (description : Option String) : Prop where
  accessToken : ∃ v t, Json.Named "access_token" members v ∧ IsText v t
  tokenType : ∃ v t, Json.Named "token_type" members v ∧ IsText v t
  expiresIn : ∃ v t, Json.Named "expires_in" members v ∧ IsSeconds v t
  errorDescription : ∃ v, Json.Named "error_description" members v ∧ IsText v description

section
variable {members : List (String × Json.Value)}

theorem read_of_presents (document : Json.Value.read? body = .ok v) (presents : Presents members v) :
    read body = ofMembers members := by
  rw [read_of_document document]
  cases presents <;> rfl

theorem ofMembers_of_typed (error : Json.Named "error" members (.string code)) (typed : Typed members description) :
    ∃ a, ofMembers members = .ok a ∧ a.error = some code ∧ a.errorDescription = description := by
  obtain ⟨tokenValue, token, accessToken, isToken⟩ := typed.accessToken
  obtain ⟨typeValue, type, tokenType, isType⟩ := typed.tokenType
  obtain ⟨endValue, seconds, expiresIn, isSeconds⟩ := typed.expiresIn
  obtain ⟨descriptionValue, errorDescription, isDescription⟩ := typed.errorDescription
  let p : Parts := ⟨tokenValue, typeValue, endValue, .string code, descriptionValue⟩
  have parts : p.In (.object members) := .members accessToken tokenType expiresIn error errorDescription
  have say : p.Say ⟨token, type, seconds, some code, description⟩ :=
    ⟨isToken, isType, isSeconds, .text code, isDescription⟩
  exact ⟨_, ofMembers_eq_ok_iff.mpr ⟨p, parts, say⟩, rfl, rfl⟩

theorem typed_of_ofMembers (reads : ofMembers members = .ok a) : Typed members a.errorDescription := by
  obtain ⟨p, parts, say⟩ := ofMembers_eq_ok_iff.mp reads
  cases parts with
  | members accessToken tokenType expiresIn error errorDescription =>
    exact ⟨⟨_, _, accessToken, say.accessToken⟩, ⟨_, _, tokenType, say.tokenType⟩, ⟨_, _, expiresIn, say.expiresIn⟩,
      ⟨_, errorDescription, say.errorDescription⟩⟩

end
end Answer

/-- An error that an answer reports is the error of the call, with its description, whatever the status is, if the
other members are texts and seconds. If one is not, the status is the error, or under a status of success that member. -/
theorem reported_error_surfaces (document : Json.Value.read? body = .ok v) (presents : Answer.Presents members v)
    (error : Json.Named "error" members (.string code)) (now : Instant) (status : Status) :
    (∀ description, Answer.Typed members description →
      Answer.token now status body = .error (.signOn code (description.getD ""))) ∧
    ((¬ ∃ description, Answer.Typed members description) → ∃ e, Answer.ofMembers members = .error e ∧
      Answer.token now status body = .error (if status.isSuccess then .badAnswer e
        else .signOn (Text.decimal status.code) (status.phrase?.getD "unexpected status"))) := by
  have reads := Answer.read_of_presents document presents
  constructor
  · intro description typed
    obtain ⟨a, made, reported, described⟩ := Answer.ofMembers_of_typed error typed
    rw [← described]
    exact Answer.token_of_refuses (.reported (Answer.read_eq_ok_iff.mp (reads.trans made)) reported) now
  · intro untyped
    cases made : Answer.ofMembers members with
    | ok a => exact absurd ⟨_, Answer.typed_of_ofMembers made⟩ untyped
    | error e =>
      refine ⟨e, rfl, ?_⟩
      cases success : status.isSuccess with
      | true => exact Answer.token_of_refuses (.unreadable (reads.trans made) success) now
      | false => exact Answer.token_of_refuses (.unreadableFailure (reads.trans made) success) now

namespace Sample

/-- An error, with its description. -/
def denied : Bytes :=
  Text.utf8 "\x7b\"error\": \"access_denied\", \"error_description\": \"locked\"\x7d"

/-- An error, and an end that is no number of seconds. -/
def hidden : Bytes :=
  Text.utf8 "\x7b\"error\":\"access_denied\",\"expires_in\":-1\x7d"

def leaf : String ⊕ Int → Json.Value
  | .inl s => .string s
  | .inr n => .number (.integer n)

/-- The two members of an object, the first a text, the other a text or a number. -/
def pair? : Json.Value → Option (String × String × String × (String ⊕ Int))
  | .object [(name, .string s), (other, .string t)] => some (name, s, other, .inl t)
  | .object [(name, .string s), (other, .number (.integer n))] => some (name, s, other, .inr n)
  | _ => none

theorem pair?_eq_some {v : Json.Value} (pair : pair? v = some (name, s, other, x)) :
    v = .object [(name, .string s), (other, leaf x)] := by
  unfold pair? at pair
  split at pair
  · cases pair
    rfl
  · cases pair
    rfl
  · cases pair

theorem named_first {other : String × Json.Value} (differs : other.1 ≠ name) :
    Json.Named name [(name, v), other] v := by
  have split : [(name, v), other] = [] ++ (name, v) :: [other] := rfl
  rw [split]
  exact .last fun m among => List.mem_singleton.mp among ▸ differs

theorem named_second {other : String × Json.Value} : Json.Named name [other, (name, v)] v := by
  have split : [other, (name, v)] = [other] ++ (name, v) :: [] := rfl
  rw [split]
  exact .last fun m among => by cases among

theorem denied_typed : Answer.Typed [("error", .string "access_denied"), ("error_description", .string "locked")]
    (some "locked") where
  accessToken := ⟨_, _, .missing (by decide), .nothing⟩
  tokenType := ⟨_, _, .missing (by decide), .nothing⟩
  expiresIn := ⟨_, _, .missing (by decide), .nothing⟩
  errorDescription := ⟨_, named_second, .text _⟩

end Sample

/-- Two errors on their way, one with its description and one with an end before its beginning. -/
theorem reported_error_surfaces_described : ∃ v v' members members', Json.Value.read? Sample.denied = .ok v ∧
    Answer.Presents members v ∧ Json.Named "error" members (.string "access_denied") ∧
    (∀ status, Answer.token .start status Sample.denied = .error (.signOn "access_denied" "locked")) ∧
    Json.Value.read? Sample.hidden = .ok v' ∧ Answer.Presents members' v' ∧
    Json.Named "error" members' (.string "access_denied") ∧
    Answer.token .start ⟨403⟩ Sample.hidden = .error (.signOn "403" "Forbidden") := by
  have described : (Json.Value.read? Sample.denied).map Sample.pair? =
      .ok (some ("error", "access_denied", "error_description", .inl "locked")) := by decide +kernel
  have ending : (Json.Value.read? Sample.hidden).map Sample.pair? =
      .ok (some ("error", "access_denied", "expires_in", .inr (-1))) := by decide +kernel
  obtain ⟨v, document, pair⟩ := Except.map_eq_ok described
  obtain ⟨v', document', pair'⟩ := Except.map_eq_ok ending
  obtain rfl := Sample.pair?_eq_some pair
  obtain rfl := Sample.pair?_eq_some pair'
  refine ⟨_, _, _, _, document, .object, Sample.named_first (by decide), fun status => ?_, document', .object,
    Sample.named_first (by decide), ?_⟩
  · exact (reported_error_surfaces document .object (Sample.named_first (by decide)) .start status).1 _ Sample.denied_typed
  · have untyped : ¬ ∃ description, Answer.Typed
        [("error", .string "access_denied"), ("expires_in", Sample.leaf (.inr (-1)))] description := by
      rintro ⟨_, typed⟩
      obtain ⟨ends, t, named, seconds⟩ := typed.expiresIn
      obtain rfl := Answer.member_of_named named
      cases seconds
    obtain ⟨e, _, hidden⟩ :=
      (reported_error_surfaces document' .object (Sample.named_first (by decide)) .start ⟨403⟩).2 untyped
    exact hidden

/-- A negative number of seconds hides the error from the caller, under any status. -/
theorem reported_error_hidden :
    (Json.Value.read? Sample.hidden).map Sample.pair? =
      .ok (some ("error", "access_denied", "expires_in", .inr (-1))) ∧
    Answer.token .start ⟨400⟩ Sample.hidden = .error (.signOn "400" "Bad Request") ∧
    Answer.token .start ⟨200⟩ Sample.hidden = .error (.badAnswer .notSeconds) := by
  decide +kernel

end EngineClient
