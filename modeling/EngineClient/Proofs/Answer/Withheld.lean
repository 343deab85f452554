import EngineClient.Proofs.Answer.Spellings

/-!
# Tokens in refusals

Two answers that differ in their access tokens only, both refused: texts, lists and objects leave no trace in the error.
A number or a boolean is no token, and under a status of success it is quoted. A number that is out of range leaves the
place where the reading ended.
-/

namespace EngineClient

/-! ### Values in the place of a token -/

namespace Json

/-- A number or a boolean. -/
inductive Tree.Simple : Tree σ ν → Prop
  | bool (b : Bool) : Simple (.bool b)
  | number (n : ν) : Simple (.number n)

/-- Values of one type; texts are not empty. -/
inductive Written.Alike : Written → Written → Prop
  | strings (filled : s ≠ "") (filled' : s' ≠ "") : Alike (.string s) (.string s')
  | numbers (n n' : Numeral) : Alike (.number n) (.number n')
  | booleans (b b' : Bool) : Alike (.bool b) (.bool b')
  | arrays (items items' : List Written) : Alike (.array items) (.array items')
  | objects (members members' : List (String × Written)) : Alike (.object members) (.object members')

theorem Written.value?_array {v : Value} (value : Written.value? (.array items) = some v) : ∃ vs, v = .array vs := by
  rw [Written.value?] at value
  obtain ⟨vs, _, same⟩ := Option.map_eq_some_iff.mp value
  exact ⟨vs, same.symm⟩

theorem Written.value?_object {v : Value} (value : Written.value? (.object members) = some v) : ∃ ms, v = .object ms := by
  rw [Written.value?] at value
  obtain ⟨ms, _, same⟩ := Option.map_eq_some_iff.mp value
  exact ⟨ms, same.symm⟩

end Json

namespace Answer
open Json

/-- An object with something as its access token. -/
def withToken (before after : List (String × Tree String ν)) (x : Tree String ν) : Tree String ν :=
  .object (before ++ ("access_token", x) :: after)

/-- What a refusal under a status of success tells of an access token. -/
structure Tells (x : Written) (body : Bytes) (e : AuthError) : Prop where
  quoted : ∀ w, Value.read? body = .ok w → x.Simple → ∃ v, x.value? = some v ∧ e = .badAnswer (.notString (kindOf v))
  misplaced : ∀ r, Value.read? body = .error r →
    e = .badAnswer (.unreadable .numberRange (place body r.left).1 (place body r.left).2)

/-- A value that is not taken as a token, and named by its type. -/
def NoText (x : Written) : Prop :=
  ∀ v, x.value? = some v → text? v = .error (.notString (kindOf v))

section Values
variable {before after : List (String × Written)} {front back : List (String × Value)} {x x' : Written} {v : Value}

theorem noText_bool (b : Bool) : NoText (.bool b) := by
  intro v value
  rw [Written.value?] at value
  cases value
  rfl

theorem noText_number (n : Numeral) : NoText (.number n) := by
  intro v value
  rw [Written.value?] at value
  obtain ⟨m, _, rfl⟩ := Option.map_eq_some_iff.mp value
  rfl

theorem noText_array (items : List Written) : NoText (.array items) := by
  intro v value
  obtain ⟨vs, rfl⟩ := Written.value?_array value
  rfl

theorem noText_object (members : List (String × Written)) : NoText (.object members) := by
  intro v value
  obtain ⟨ms, rfl⟩ := Written.value?_object value
  rfl

/-- The members around a token have values that do not depend on it, or there is none for any token. -/
theorem value?_withToken (before : List (String × Written)) (last : "access_token" ∉ after.map Prod.fst) :
    (∃ front back, "access_token" ∉ back.map Prod.fst ∧
      ∀ x, Written.value? (withToken before after x) = (Written.value? x).map (withToken front back)) ∨
    ∀ x, Written.value? (withToken before after x) = none := by
  rcases Written.members?_around before after "access_token" with ⟨front, back, names, around⟩ | none
  · refine .inl ⟨front, back, names ▸ last, fun x => ?_⟩
    rw [withToken, Written.value?, around, Option.map_map]
    rfl
  · exact .inr fun x => by rw [withToken, Written.value?, none]; rfl

/-- A token that can be read changes nothing else of an answer. -/
theorem ofValue_withToken (last : "access_token" ∉ back.map Prod.fst) (found : text? v = .ok t) :
    ofValue (withToken front back v) =
      (ofValue (withToken front back .null)).map fun a => { a with accessToken := t } := by
  have none : text? .null = .ok none := rfl
  change ofMembers _ = (ofMembers _).map _
  simp only [ofMembers, member_last last, found, none, member_other (show "access_token" ≠ "error" by decide),
    member_other (show "access_token" ≠ "error_description" by decide),
    member_other (show "access_token" ≠ "expires_in" by decide), member_other (show "access_token" ≠ "token_type" by decide)]
  cases text? (member "error" (front ++ back)) with
  | error e => rfl
  | ok error =>
    cases text? (member "error_description" (front ++ back)) with
    | error e => rfl
    | ok errorDescription =>
      cases seconds? (member "expires_in" (front ++ back)) with
      | error e => rfl
      | ok expiresIn => cases text? (member "token_type" (front ++ back)) <;> rfl

/-- The token is looked at before all other members. -/
theorem ofValue_withToken_unreadable (last : "access_token" ∉ back.map Prod.fst) (unreadable : text? v = .error e) :
    ofValue (withToken front back v) = .error e := by
  change ofMembers _ = _
  simp only [ofMembers, member_last last, unreadable]
  rfl

/-- Texts of two tokens, or values that are no texts; those with parts are named by their type alone. -/
theorem alike_cases (alike : x.Alike x') :
    (∃ s s', x = .string s ∧ x' = .string s' ∧ s ≠ "" ∧ s' ≠ "") ∨
    NoText x ∧ NoText x' ∧ (x.Simple ∨ ∀ v v', x.value? = some v → x'.value? = some v' → kindOf v = kindOf v') := by
  cases alike with
  | strings filled filled' => exact .inl ⟨_, _, rfl, rfl, filled, filled'⟩
  | numbers n n' => exact .inr ⟨noText_number n, noText_number n', .inl (.number n)⟩
  | booleans b b' => exact .inr ⟨noText_bool b, noText_bool b', .inl (.bool b)⟩
  | arrays items items' =>
    refine .inr ⟨noText_array items, noText_array items', .inr fun v v' value value' => ?_⟩
    obtain ⟨vs, rfl⟩ := Written.value?_array value
    obtain ⟨vs', rfl⟩ := Written.value?_array value'
    rfl
  | objects members members' =>
    refine .inr ⟨noText_object members, noText_object members', .inr fun v v' value value' => ?_⟩
    obtain ⟨ms, rfl⟩ := Written.value?_object value
    obtain ⟨ms', rfl⟩ := Written.value?_object value'
    rfl

end Values

/-! ### Bodies with a token -/

section Bodies
variable {before after : List (String × Written)} {x x' : Written} {body body' : Bytes} {e e' : AuthError}

theorem read_of_defect (fails : Value.read? body = .error r) :
    read body = .error (.unreadable r.defect (place body r.left).1 (place body r.left).2) := by
  rw [read, fails]

theorem refused_of_unreadable (fails : read body = .error a) (refused : token now status body = .error e) :
    e = if status.isSuccess then .badAnswer a else statusError status := by
  rw [token_of_unreadable fails] at refused
  exact (Except.error.inj refused).symm

/-- An answer with a token that is no text cannot be read. -/
theorem read_of_other (last : "access_token" ∉ after.map Prod.fst)
    (written : Written.read? body = .ok (withToken before after x)) (other : NoText x) :
    (∃ w v, Value.read? body = .ok w ∧ x.value? = some v ∧ read body = .error (.notString (kindOf v))) ∨
    ∃ left, Value.read? body = .error ⟨.numberRange, left⟩ := by
  rcases read_written written with ⟨w, whole, document⟩ | ⟨_, range⟩
  · rcases value?_withToken before last with ⟨front, back, last, valued⟩ | none
    · rw [valued] at whole
      obtain ⟨v, value, rfl⟩ := Option.map_eq_some_iff.mp whole
      refine .inl ⟨_, v, document, value, ?_⟩
      rw [read_of_document document, ofValue_withToken_unreadable last (other v value)]
    · cases whole.symm.trans (none x)
  · exact .inr range

theorem exists_read_of_other (last : "access_token" ∉ after.map Prod.fst)
    (written : Written.read? body = .ok (withToken before after x)) (other : NoText x) : ∃ a, read body = .error a := by
  rcases read_of_other last written other with ⟨_, v, _, _, fails⟩ | ⟨left, range⟩
  · exact ⟨_, fails⟩
  · exact ⟨_, read_of_defect range⟩

/-- Two answers around texts are the same but for the texts, or neither can be read. -/
theorem read_of_texts (last : "access_token" ∉ after.map Prod.fst)
    (written : Written.read? body = .ok (withToken before after (.string s)))
    (written' : Written.read? body' = .ok (withToken before after (.string s'))) :
    (∃ rest w w', Value.read? body = .ok w ∧ Value.read? body' = .ok w' ∧
      read body = Except.map (fun a : Answer => { a with accessToken := some s }) rest ∧
      read body' = Except.map (fun a : Answer => { a with accessToken := some s' }) rest) ∨
    (∃ left, Value.read? body = .error ⟨.numberRange, left⟩) ∧ ∃ left, Value.read? body' = .error ⟨.numberRange, left⟩ := by
  rcases value?_withToken before last with ⟨front, back, last, valued⟩ | none
  · have reads : ∀ {body s}, Written.read? body = .ok (withToken before after (.string s)) →
        ∃ w, Value.read? body = .ok w ∧
          read body = (ofValue (withToken front back .null)).map fun a => { a with accessToken := some s } := by
      intro body s written
      have value := valued (.string s)
      rw [Written.value?, Option.map_some] at value
      rcases read_written written with ⟨w, whole, document⟩ | ⟨none, _⟩
      · obtain rfl := Option.some.inj (value.symm.trans whole)
        exact ⟨_, document, by rw [read_of_document document, ofValue_withToken last rfl]⟩
      · cases none.symm.trans value
    obtain ⟨w, document, read⟩ := reads written
    obtain ⟨w', document', read'⟩ := reads written'
    exact .inl ⟨_, w, w', document, document', read, read'⟩
  · have range : ∀ {body s}, Written.read? body = .ok (withToken before after (.string s)) →
        ∃ left, Value.read? body = .error ⟨.numberRange, left⟩ := by
      intro body s written
      rcases read_written written with ⟨w, whole, _⟩ | ⟨_, range⟩
      · cases whole.symm.trans (none (.string s))
      · exact range
    exact .inr ⟨range written, range written'⟩

/-- Why an answer with a text as its token is refused: the text itself is looked at last, and not named. -/
def reason (a : Answer) (status : Status) : AuthError :=
  match a.error with
  | some code => .signOn code (a.errorDescription.getD "")
  | none =>
    if !status.isSuccess then statusError status
    else match a.tokenType.filter fun t => !Text.sameLetters t.toList "bearer".toList with
      | some t => .unsupportedTokenType t
      | none => .badAnswer .tokenNotSendable

theorem refused_of_text (reads : read body = .ok a) (given : a.accessToken = some s) (filled : s ≠ "")
    (refused : token now status body = .error e) : e = a.reason status := by
  have decodes : ∀ {a'}, Decodes body a' → a' = a := fun decoded =>
    Except.ok.inj ((read_eq_ok_iff.mpr decoded).symm.trans reads)
  rcases token_cases now status body with ⟨a, value, t, decoded, offers, bears⟩ | ⟨e', refuses⟩
  · cases refused.symm.trans (token_of_offers decoded offers bears)
  obtain rfl := Except.error.inj (refused.symm.trans (token_of_refuses refuses now))
  cases refuses with
  | unreadable fails | unreadableFailure fails => cases reads.symm.trans fails
  | reported decoded reported =>
    rw [decodes decoded] at reported ⊢
    simp only [reason, reported]
  | failure decoded silent failure =>
    rw [decodes decoded] at silent
    simp only [reason, silent, failure]
    rfl
  | tokenless decoded silent success missing =>
    rw [decodes decoded, given] at missing
    rcases missing with none | empty
    · cases none
    · exact absurd (Option.some.inj empty) filled
  | otherType decoded silent success named filled typed other =>
    rw [decodes decoded] at silent typed
    simp only [reason, silent, success, otherType_iff.mpr ⟨typed, other⟩]
    rfl
  | unsendable decoded silent success named filled bearer unsendable =>
    rw [decodes decoded] at silent bearer
    simp only [reason, silent, success, bearer_iff.mpr bearer]
    rfl

/-- Two texts that are not taken as tokens are refused for the same reason. -/
theorem refused_alike {rest : Except AnswerError Answer}
    (reads : read body = rest.map fun a => { a with accessToken := some s })
    (reads' : read body' = rest.map fun a => { a with accessToken := some s' }) (filled : s ≠ "") (filled' : s' ≠ "")
    (refused : token now status body = .error e) (refused' : token now status body' = .error e') : e = e' := by
  cases rest with
  | error a => exact (refused_of_unreadable reads refused).trans (refused_of_unreadable reads' refused').symm
  | ok a => exact (refused_of_text reads rfl filled refused).trans (refused_of_text reads' rfl filled' refused').symm

theorem tells_of_range (range : Value.read? body = .error ⟨.numberRange, left⟩) (success : status.isSuccess = true)
    (refused : token now status body = .error e) : Tells x body e where
  quoted w document := by cases document.symm.trans range
  misplaced r fails := by
    obtain rfl := Except.error.inj (range.symm.trans fails)
    rw [refused_of_unreadable (read_of_defect range) refused, success]
    rfl

theorem tells_of_other (last : "access_token" ∉ after.map Prod.fst)
    (written : Written.read? body = .ok (withToken before after x)) (other : NoText x) (success : status.isSuccess = true)
    (refused : token now status body = .error e) : Tells x body e := by
  rcases read_of_other last written other with ⟨w, v, document, value, fails⟩ | ⟨left, range⟩
  · have same := refused_of_unreadable fails refused
    rw [success] at same
    exact ⟨fun _ _ _ => ⟨v, value, same⟩, fun r misread => by cases misread.symm.trans document⟩
  · exact tells_of_range range success refused

theorem tells_of_text (text : ¬ x.Simple) (document : Value.read? body = .ok w) : Tells x body e where
  quoted _ _ simple := absurd simple text
  misplaced r fails := by cases fails.symm.trans document

end Bodies

end Answer

/-- Two answers that differ in a token only are refused alike if the tokens are texts that cannot be sent, lists or
objects. Under another status than one of success they are refused alike in any case. Under a status of success a number
or a boolean is quoted, and of a number out of range the place is told where the reading ended. -/
theorem refusals_withhold_texts {before after : List (String × Json.Written)} {x x' : Json.Written}
    (last : "access_token" ∉ after.map Prod.fst) (alike : x.Alike x')
    (written : Json.Written.read? body = .ok (Answer.withToken before after x))
    (written' : Json.Written.read? body' = .ok (Answer.withToken before after x'))
    (refused : Answer.token now status body = .error e) (refused' : Answer.token now status body' = .error e') :
    (status.isSuccess = false → e = e') ∧
    (status.isSuccess = true → Answer.Tells x body e ∧ Answer.Tells x' body' e') ∧
    ∀ w w', Json.Value.read? body = .ok w → Json.Value.read? body' = .ok w' → ¬ x.Simple → e = e' := by
  rcases Answer.alike_cases alike with ⟨s, s', rfl, rfl, filled, filled'⟩ | ⟨other, other', kinds⟩
  · rcases Answer.read_of_texts last written written' with
      ⟨rest, w, w', document, document', reads, reads'⟩ | ⟨⟨left, range⟩, left', range'⟩
    · have same := Answer.refused_alike reads reads' filled filled' refused refused'
      exact ⟨fun _ => same, fun _ => ⟨Answer.tells_of_text nofun document, Answer.tells_of_text nofun document'⟩,
        fun _ _ _ _ _ => same⟩
    · refine ⟨fun failure => ?_, fun success => ?_, fun w _ document => by cases document.symm.trans range⟩
      · rw [Answer.refused_of_unreadable (Answer.read_of_defect range) refused,
          Answer.refused_of_unreadable (Answer.read_of_defect range') refused', failure]
        rfl
      · exact ⟨Answer.tells_of_range range success refused, Answer.tells_of_range range' success refused'⟩
  · refine ⟨fun failure => ?_, fun success => ?_, fun w w' document document' text => ?_⟩
    · obtain ⟨a, fails⟩ := Answer.exists_read_of_other last written other
      obtain ⟨a', fails'⟩ := Answer.exists_read_of_other last written' other'
      rw [Answer.refused_of_unreadable fails refused, Answer.refused_of_unreadable fails' refused', failure]
      rfl
    · exact ⟨Answer.tells_of_other last written other success refused,
        Answer.tells_of_other last written' other' success refused'⟩
    · rcases Answer.read_of_other last written other with ⟨_, v, _, value, fails⟩ | ⟨left, range⟩
      · rcases Answer.read_of_other last written' other' with ⟨_, v', _, value', fails'⟩ | ⟨left, range⟩
        · rw [Answer.refused_of_unreadable fails refused, Answer.refused_of_unreadable fails' refused',
            kinds.resolve_left text v v' value value']
        · cases document'.symm.trans range
      · cases document.symm.trans range

namespace Sample

/-- An answer with nothing but something as its token. -/
def bearing (token : String) : Bytes :=
  Text.utf8 ("\x7b\"access_token\":" ++ token ++ "\x7d")

/-- The token of an object that has nothing else, a number or a text. -/
def lone? : Json.Written → Option (Json.Numeral ⊕ String)
  | .object [("access_token", .number m)] => some (.inl m)
  | .object [("access_token", .string s)] => some (.inr s)
  | _ => none

theorem lone?_eq_some {t : Json.Written} (found : lone? t = some x) : t = Answer.withToken [] [] (spelled x) := by
  unfold lone? at found
  split at found
  · cases found
    rfl
  · cases found
    rfl
  · cases found

theorem bearing_written (token : String) (x : Json.Numeral ⊕ String)
    (read : (Json.Written.read? (bearing token)).map lone? = .ok (some x)) :
    Json.Written.read? (bearing token) = .ok (Answer.withToken [] [] (spelled x)) := by
  obtain ⟨t, document, found⟩ := Except.map_eq_ok read
  rw [document, lone?_eq_some found]

end Sample

/-- Two texts with a line break, and two numbers under a status that is none of success. -/
theorem refusals_withhold_texts_broken :
    Json.Written.read? (Sample.bearing "\"a\\nb\"") = .ok (Answer.withToken [] [] (.string "a\nb")) ∧
    Json.Written.read? (Sample.bearing "\"c\\n\"") = .ok (Answer.withToken [] [] (.string "c\n")) ∧
    (∃ e, Answer.token .start ⟨200⟩ (Sample.bearing "\"a\\nb\"") = .error e ∧
      Answer.token .start ⟨200⟩ (Sample.bearing "\"c\\n\"") = .error e) ∧
    ∃ e, Answer.token .start ⟨400⟩ (Sample.bearing "4711") = .error e ∧
      Answer.token .start ⟨400⟩ (Sample.bearing "4712") = .error e := by
  have text := Sample.bearing_written "\"a\\nb\"" (.inr "a\nb") (by decide +kernel)
  have text' := Sample.bearing_written "\"c\\n\"" (.inr "c\n") (by decide +kernel)
  have number := Sample.bearing_written "4711" (.inl (.ofInt 4711)) (by decide +kernel)
  have number' := Sample.bearing_written "4712" (.inl (.ofInt 4712)) (by decide +kernel)
  obtain ⟨w, document⟩ : ∃ w, Json.Value.read? (Sample.bearing "\"a\\nb\"") = .ok w :=
    Except.exists_of_toBool (by decide +kernel)
  obtain ⟨w', document'⟩ : ∃ w, Json.Value.read? (Sample.bearing "\"c\\n\"") = .ok w :=
    Except.exists_of_toBool (by decide +kernel)
  have refuses : ∀ {r : Except AuthError AccessToken}, r.toBool = false → ∃ e, r = .error e := by
    rintro (e | t) none
    · exact ⟨e, rfl⟩
    · cases none
  obtain ⟨e, refused⟩ := refuses (r := Answer.token .start ⟨200⟩ (Sample.bearing "\"a\\nb\"")) (by decide +kernel)
  obtain ⟨e', refused'⟩ := refuses (r := Answer.token .start ⟨200⟩ (Sample.bearing "\"c\\n\"")) (by decide +kernel)
  obtain ⟨d, failure⟩ := refuses (r := Answer.token .start ⟨400⟩ (Sample.bearing "4711")) (by decide +kernel)
  obtain ⟨d', failure'⟩ := refuses (r := Answer.token .start ⟨400⟩ (Sample.bearing "4712")) (by decide +kernel)
  have texts := refusals_withhold_texts List.not_mem_nil (.strings (by decide) (by decide)) text text' refused refused'
  have numbers := refusals_withhold_texts List.not_mem_nil (.numbers _ _) number number' failure failure'
  obtain rfl := texts.2.2 w w' document document' nofun
  obtain rfl := numbers.1 rfl
  exact ⟨text, text', ⟨e, refused, refused'⟩, d, failure, failure'⟩

/-- Two numbers leave two errors, and each is told. -/
theorem numbers_quoted_in_refusals :
    (Json.Written.read? (Sample.bearing "4711")).map Sample.lone? = .ok (some (.inl (.ofInt 4711))) ∧
    (Json.Written.read? (Sample.bearing "4712")).map Sample.lone? = .ok (some (.inl (.ofInt 4712))) ∧
    Answer.token .start ⟨200⟩ (Sample.bearing "4711") = .error (.badAnswer (.notString (.integer 4711))) ∧
    Answer.token .start ⟨200⟩ (Sample.bearing "4712") = .error (.badAnswer (.notString (.integer 4712))) ∧
    AuthError.message (.badAnswer (.notString (.integer 4711))) =
      "invalid SSO response: invalid type: integer \x604711\x60, expected a string" := by
  decide +kernel

end EngineClient
