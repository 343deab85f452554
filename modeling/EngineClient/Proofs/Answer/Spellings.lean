import EngineClient.Proofs.Answer.Decided
import EngineClient.Proofs.Answer.Numerals

/-!
# Ends of tokens, as numbers and as texts

An answer may give the seconds to the end of its token as a number or as a text. For whole numbers of 64 bits without a
sign the two come to the same. All others are refused as numbers, and as texts they stand for no end at all.
-/

namespace EngineClient

/-! ### Values around a place -/

namespace Json.Written

theorem members?_append (xs ys : List (String × Written)) :
    members? (xs ++ ys) = (members? xs).bind fun vs => (members? ys).map (vs ++ ·) := by
  induction xs with
  | nil => simp [members?]
  | cons x xs ih =>
    rw [List.cons_append, members?, members?, ih]
    cases value? x.2 with
    | none => rfl
    | some v =>
      cases members? xs with
      | none => rfl
      | some vs => cases members? ys <;> rfl

theorem names_members? (valued : members? ms = some vs) : vs.map Prod.fst = ms.map Prod.fst := by
  induction ms generalizing vs with
  | nil =>
    rw [members?] at valued
    cases valued
    rfl
  | cons m ms ih =>
    rw [members?] at valued
    obtain ⟨v, _, valued⟩ := Option.bind_eq_some_iff.mp valued
    obtain ⟨rest, later, rfl⟩ := Option.map_eq_some_iff.mp valued
    rw [List.map_cons, List.map_cons, ih later]

/-- Members around one of them have values of their own, under the same names, or the object has none. -/
theorem members?_around (before after : List (String × Written)) (name : String) :
    (∃ front back, back.map Prod.fst = after.map Prod.fst ∧ ∀ x, members? (before ++ (name, x) :: after) =
      (value? x).map fun v => front ++ (name, v) :: back) ∨
    ∀ x, members? (before ++ (name, x) :: after) = none := by
  have split : ∀ x, members? (before ++ (name, x) :: after) = (members? before).bind fun front =>
      ((value? x).bind fun v => (members? after).map ((name, v) :: ·)).map (front ++ ·) := by
    intro x
    rw [members?_append, members?]
  cases first : members? before with
  | none => exact .inr fun x => by rw [split, first]; rfl
  | some front =>
    cases last : members? after with
    | none =>
      refine .inr fun x => ?_
      rw [split, first, last]
      cases value? x <;> rfl
    | some back =>
      refine .inl ⟨front, back, names_members? last, fun x => ?_⟩
      rw [split, first, last]
      cases value? x <;> rfl

/-- The same of the items around the third one. -/
theorem items?_around (first second : Written) (after : List Written) :
    (∃ v w back, ∀ x, items? (first :: second :: x :: after) = (value? x).map fun u => v :: w :: u :: back) ∨
    ∀ x, items? (first :: second :: x :: after) = none := by
  have split : ∀ x, items? (first :: second :: x :: after) = (value? first).bind fun v => ((value? second).bind fun w =>
      ((value? x).bind fun u => (items? after).map (u :: ·)).map (w :: ·)).map (v :: ·) := by
    intro x
    rw [items?, items?, items?]
  cases before : value? first with
  | none => exact .inr fun x => by rw [split, before]; rfl
  | some v =>
    cases next : value? second with
    | none => exact .inr fun x => by rw [split, before, next]; rfl
    | some w =>
      cases last : items? after with
      | none =>
        refine .inr fun x => ?_
        rw [split, before, next, last]
        cases value? x <;> rfl
      | some back =>
        refine .inl ⟨v, w, back, fun x => ?_⟩
        rw [split, before, next, last]
        cases value? x <;> rfl

theorem value?_listed (others : List Written) :
    (∃ vs, ∀ x, value? (.array (x :: others)) = (value? x).map fun v => .array (v :: vs)) ∨
    ∀ x, value? (.array (x :: others)) = none := by
  have split : ∀ x, value? (.array (x :: others)) = ((value? x).bind fun v => (items? others).map (v :: ·)).map .array := by
    intro x
    rw [value?, items?]
  cases rest : items? others with
  | none =>
    refine .inr fun x => ?_
    rw [split, rest]
    cases value? x <;> rfl
  | some vs =>
    refine .inl ⟨vs, fun x => ?_⟩
    rw [split, rest]
    cases value? x <;> rfl

end Json.Written

namespace Answer
open Json

/-- An answer with its end left open: an object, alone or as the first item of a list, whose last member of the name is
missing, or a list of the parts without the third one. -/
inductive Frame (ν : Type)
  | object (before after : List (String × Tree String ν)) (last : "expires_in" ∉ after.map Prod.fst)
  | first (before after : List (String × Tree String ν)) (last : "expires_in" ∉ after.map Prod.fst)
      (others : List (Tree String ν))
  | parts (accessToken tokenType : Tree String ν) (after others : List (Tree String ν))

/-- The document with something as the end. -/
def Frame.fill (x : Tree String ν) : Frame ν → Tree String ν
  | object before after _ => .object (before ++ ("expires_in", x) :: after)
  | first before after _ others => .array (.object (before ++ ("expires_in", x) :: after) :: others)
  | parts accessToken tokenType after others => .array (.array (accessToken :: tokenType :: x :: after) :: others)

/-- What stands around an end has a value that does not depend on it, or there is none for any end. -/
theorem value?_fill (f : Frame Numeral) :
    (∃ g : Frame Number, ∀ x : Written, Written.value? (f.fill x) = x.value?.map g.fill) ∨
    ∀ x : Written, Written.value? (f.fill x) = none := by
  cases f with
  | object before after last =>
    rcases Written.members?_around before after "expires_in" with ⟨front, back, names, around⟩ | none
    · refine .inl ⟨.object front back (names ▸ last), fun x => ?_⟩
      rw [Frame.fill, Written.value?, around, Option.map_map]
      rfl
    · exact .inr fun x => by rw [Frame.fill, Written.value?, none]; rfl
  | first before after last others =>
    rcases Written.value?_listed others with ⟨vs, listed⟩ | none
    · rcases Written.members?_around before after "expires_in" with ⟨front, back, names, around⟩ | none
      · refine .inl ⟨.first front back (names ▸ last) vs, fun x => ?_⟩
        rw [Frame.fill, listed, Written.value?, around, Option.map_map, Option.map_map]
        rfl
      · exact .inr fun x => by rw [Frame.fill, listed, Written.value?, none]; rfl
    · exact .inr fun x => none _
  | parts accessToken tokenType after others =>
    rcases Written.value?_listed others with ⟨vs, listed⟩ | none
    · rcases Written.items?_around accessToken tokenType after with ⟨token, type, back, around⟩ | none
      · refine .inl ⟨.parts token type back vs, fun x => ?_⟩
        rw [Frame.fill, listed, Written.value?, around, Option.map_map, Option.map_map]
        rfl
      · exact .inr fun x => by rw [Frame.fill, listed, Written.value?, none]; rfl
    · exact .inr fun x => none _

/-! ### Answers around an end -/

section Members
variable {before after : List (String × Value)}

theorem member_last (last : name ∉ after.map Prod.fst) (v : Value) : member name (before ++ (name, v) :: after) = v :=
  member_of_named (.last fun m among same => last (List.mem_map.mpr ⟨m, among, same⟩))

theorem member_other (other : name' ≠ name) (v : Value) :
    member name (before ++ (name', v) :: after) = member name (before ++ after) := by
  unfold member
  simp [List.find?_append, other]

/-- An object is an answer whatever its end is, as long as that can be read. -/
theorem ofMembers_around (last : "expires_in" ∉ after.map Prod.fst) (found : seconds? v = .ok s) :
    ofMembers (before ++ ("expires_in", v) :: after) =
      (ofMembers (before ++ ("expires_in", .null) :: after)).map fun a => { a with expiresIn := s } := by
  have none : seconds? .null = .ok none := rfl
  simp only [ofMembers, member_last last, found, none,
    member_other (show "expires_in" ≠ "access_token" by decide), member_other (show "expires_in" ≠ "error" by decide),
    member_other (show "expires_in" ≠ "error_description" by decide),
    member_other (show "expires_in" ≠ "token_type" by decide)]
  cases text? (member "access_token" (before ++ after)) with
  | error e => rfl
  | ok accessToken =>
    cases text? (member "error" (before ++ after)) with
    | error e => rfl
    | ok error =>
      cases text? (member "error_description" (before ++ after)) with
      | error e => rfl
      | ok errorDescription => cases text? (member "token_type" (before ++ after)) <;> rfl

end Members

/-- So is a list of the parts. -/
theorem ofItems_around {accessToken tokenType : Value} {after : List Value} (found : seconds? v = .ok s) :
    ofItems (accessToken :: tokenType :: v :: after) =
      (ofItems (accessToken :: tokenType :: .null :: after)).map fun a => { a with expiresIn := s } := by
  have none : seconds? .null = .ok none := rfl
  unfold ofItems
  simp only [List.getElem?_cons_zero, List.getElem?_cons_succ, Option.getD_some, found, none, List.length_cons]
  cases text? accessToken with
  | error e => rfl
  | ok accessToken =>
    cases text? tokenType with
    | error e => rfl
    | ok tokenType =>
      cases text? (after[0]?.getD .null) with
      | error e => rfl
      | ok error =>
        cases text? (after[1]?.getD .null) with
        | error e => rfl
        | ok errorDescription => split <;> rfl

theorem ofValue_fill (g : Frame Number) (found : seconds? v = .ok s) :
    ofValue (g.fill v) = (ofValue (g.fill .null)).map fun a => { a with expiresIn := s } := by
  cases g with
  | object before after last => exact ofMembers_around last found
  | first before after last others => exact ofMembers_around last found
  | parts accessToken tokenType after others => exact ofItems_around found

theorem expiresIn_of_in {p : Parts} (g : Frame Number) (parts : p.In (subject (g.fill v))) : p.expiresIn = v := by
  have object : ∀ {before after : List (String × Value)}, "expires_in" ∉ after.map Prod.fst →
      p.In (.object (before ++ ("expires_in", v) :: after)) → p.expiresIn = v := by
    intro before after last parts
    cases parts with
    | members _ _ expiresIn _ _ => rw [← member_of_named expiresIn, member_last last]
  cases g with
  | object before after last => exact object last parts
  | first before after last others => exact object last parts
  | parts accessToken tokenType after others =>
    cases parts with
    | items places =>
      simp only [List.cons_append, List.cons.injEq] at places
      exact places.2.2.1.symm

/-- An end that cannot be read leaves no answer. -/
theorem ofValue_fill_unreadable (g : Frame Number) (unreadable : seconds? v = .error e) :
    ∃ e, ofValue (g.fill v) = .error e := by
  cases made : ofValue (g.fill v) with
  | error e => exact ⟨e, rfl⟩
  | ok a =>
    obtain ⟨p, parts, say⟩ := ofValue_eq_ok_iff.mp made
    have found := seconds?_eq_ok_iff.mpr say.expiresIn
    rw [expiresIn_of_in g parts, unreadable] at found
    cases found

/-! ### Bodies around an end -/

/-- A body is an answer around an end that can be read, as these seconds or as none. -/
def Holds (f : Frame Numeral) (s : Option Seconds) (body : Bytes) : Prop :=
  ∃ (x : Written) (v : Value), Written.read? body = .ok (f.fill x) ∧ x.value? = some v ∧ seconds? v = .ok s

/-- Two results are the same but for the places where the bodies turn out not to be readable. -/
inductive Agree : Except AuthError AccessToken → Except AuthError AccessToken → Prop
  | same (x : Except AuthError AccessToken) : Agree x x
  | unreadable (d : Defect) (line column line' column' : Nat) :
      Agree (.error (.badAnswer (.unreadable d line column))) (.error (.badAnswer (.unreadable d line' column')))

section Bodies
variable {f : Frame Numeral} {g : Frame Number} {body body' : Bytes}

theorem read_of_range (range : Value.read? body = .error ⟨.numberRange, left⟩) :
    ∃ line column, read body = .error (.unreadable .numberRange line column) := by
  rw [read, range]
  exact ⟨_, _, rfl⟩

theorem read_of_holds (valued : ∀ x : Written, Written.value? (f.fill x) = x.value?.map g.fill) (holds : Holds f s body) :
    read body = (ofValue (g.fill .null)).map fun a => { a with expiresIn := s } := by
  obtain ⟨x, v, written, value, found⟩ := holds
  have whole : Written.value? (f.fill x) = some (g.fill v) := by rw [valued, value]; rfl
  rcases read_written written with ⟨w, own, document⟩ | ⟨none, _⟩
  · obtain rfl := Option.some.inj (own.symm.trans whole)
    rw [read_of_document document, ofValue_fill g found]
  · cases none.symm.trans whole

theorem range_of_written (written : Written.read? body = .ok t) (unvalued : t.value? = none) :
    ∃ line column, read body = .error (.unreadable .numberRange line column) := by
  rcases read_written written with ⟨w, own, _⟩ | ⟨_, left, range⟩
  · cases own.symm.trans unvalued
  · exact read_of_range range

theorem token_of_unreadable (fails : read body = .error e) (now : Instant) (status : Status) :
    token now status body = .error (if status.isSuccess then .badAnswer e else statusError status) := by
  cases success : status.isSuccess with
  | true => exact token_of_refuses (.unreadable fails success) now
  | false => exact token_of_refuses (.unreadableFailure fails success) now

theorem token_of_map {r : Except AnswerError Answer} (reads : read body = r.map fun a => { a with expiresIn := s })
    (reads' : read body' = r.map fun a => { a with expiresIn := s' }) (span : s.bind Seconds.span? = s'.bind Seconds.span?)
    (now : Instant) (status : Status) : token now status body = token now status body' := by
  rw [token, token, reads, reads']
  cases r with
  | error e => rfl
  | ok a => simp only [Except.map, span]

theorem agree_of_holds (holds : Holds f s body) (holds' : Holds f s' body')
    (span : s.bind Seconds.span? = s'.bind Seconds.span?) (now : Instant) (status : Status) :
    Agree (token now status body) (token now status body') := by
  rcases value?_fill f with ⟨g, valued⟩ | none
  · rw [token_of_map (read_of_holds valued holds) (read_of_holds valued holds') span]
    exact .same _
  · obtain ⟨_, _, written, _⟩ := holds
    obtain ⟨_, _, written', _⟩ := holds'
    obtain ⟨line, column, fails⟩ := range_of_written written (none _)
    obtain ⟨line', column', fails'⟩ := range_of_written written' (none _)
    rw [token_of_unreadable fails, token_of_unreadable fails']
    cases status.isSuccess with
    | true => exact .unreadable _ line column line' column'
    | false => exact .same _

/-- A token lives for what its end says. -/
theorem lifetime_of_holds (holds : Holds f s body) (given : token now status body = .ok t) :
    t.lifetime = s.bind Seconds.span? ∧ t.expiresAt = (s.bind Seconds.span?).bind now.add? := by
  obtain ⟨a, value, reads, _, issued⟩ := token_eq_ok given
  obtain ⟨_, _, lifetime, expiresAt⟩ := AccessToken.issued?_eq_some issued
  rcases value?_fill f with ⟨g, valued⟩ | none
  · rw [read_of_holds valued holds] at reads
    obtain ⟨_, _, rfl⟩ := Except.map_eq_ok reads
    exact ⟨lifetime, expiresAt⟩
  · obtain ⟨_, _, written, _⟩ := holds
    obtain ⟨_, _, fails⟩ := range_of_written written (none _)
    cases reads.symm.trans fails

/-- An end that has no value, or one that is no seconds, makes the answer unreadable. -/
theorem read_of_unusable {x : Written} (written : Written.read? body = .ok (f.fill x))
    (unusable : ∀ v, x.value? = some v → ∃ e, seconds? v = .error e) : ∃ e, read body = .error e := by
  rcases read_written written with ⟨w, own, document⟩ | ⟨_, left, range⟩
  · rcases value?_fill f with ⟨g, valued⟩ | none
    · rw [valued] at own
      obtain ⟨v, value, rfl⟩ := Option.map_eq_some_iff.mp own
      obtain ⟨e, unreadable⟩ := unusable v value
      rw [read_of_document document]
      exact ofValue_fill_unreadable g unreadable
    · cases own.symm.trans (none x)
  · obtain ⟨line, column, fails⟩ := read_of_range range
    exact ⟨_, fails⟩

end Bodies

/-! ### Whole numbers -/

section Whole
variable {n : Int} {f : Frame Numeral}

theorem holds_number (written : Written.read? body = .ok (f.fill (.number (.ofInt n)))) (low : 0 ≤ n)
    (high : n < 0x10000000000000000) : Holds f (some (.number n.toNat)) body := by
  refine ⟨_, .number (.integer n), written, ?_, ?_⟩
  · rw [Written.value?, Numeral.number?_ofInt low high]
    rfl
  · exact if_pos low

theorem holds_text (written : Written.read? body = .ok (f.fill (.string s))) : Holds f (some (.text s)) body :=
  ⟨_, .string s, written, by rw [Written.value?], rfl⟩

theorem holds_null (written : Written.read? body = .ok (f.fill .null)) : Holds f none body :=
  ⟨_, .null, written, by rw [Written.value?], rfl⟩

theorem span?_toString (n : Int) : (Seconds.text (toString n)).span? =
    if 0 ≤ n ∧ n < 0x10000000000000000 then some (.seconds n.toNat) else none := by
  have limit : n ≤ (0xFFFFFFFFFFFFFFFF : Nat) ↔ n < 0x10000000000000000 := by omega
  simp only [Seconds.span?, Text.unsigned?_toString, limit]
  split <;> rfl

theorem unusable_number (unusable : n < 0 ∨ 0x10000000000000000 ≤ n) (v : Value)
    (valued : Written.value? (.number (.ofInt n)) = some v) : ∃ e, seconds? v = .error e := by
  rw [Written.value?] at valued
  obtain ⟨m, found, rfl⟩ := Option.map_eq_some_iff.mp valued
  rcases Numeral.number?_ofInt_unusable unusable found with ⟨k, negative, rfl⟩ | ⟨b, rfl⟩
  · exact ⟨_, if_neg (by omega)⟩
  · exact ⟨_, rfl⟩

end Whole
end Answer

/-- Seconds to the end of a token lead to the same result as a number and as a text, if they are a whole number of 64 bits
without a sign. Of all other whole numbers the number is refused, while the text is read as if no end were given, so that a
token with it never expires. -/
theorem spellings_of_seconds (n : Int) (f : Answer.Frame Json.Numeral)
    (number : Json.Written.read? body = .ok (f.fill (.number (.ofInt n))))
    (text : Json.Written.read? body' = .ok (f.fill (.string (toString n)))) (now : Instant) (status : Status) :
    (0 ≤ n → n < 0x10000000000000000 → Answer.Agree (Answer.token now status body) (Answer.token now status body') ∧
      ∀ t, Answer.token now status body = .ok t → t.lifetime = some (.seconds n.toNat)) ∧
    (n < 0 ∨ 0x10000000000000000 ≤ n →
      (∃ e, Answer.token now status body =
        .error (if status.isSuccess then .badAnswer e else Answer.statusError status)) ∧
      (∀ t, Answer.token now status body' = .ok t → t.lifetime = none ∧ ∀ later margin, t.isExpired later margin = false) ∧
      ∀ endless, Json.Written.read? endless = .ok (f.fill .null) →
        Answer.Agree (Answer.token now status body') (Answer.token now status endless)) := by
  have texts := Answer.holds_text text
  refine ⟨fun low high => ?_, fun unusable => ⟨?_, ?_, ?_⟩⟩
  · have numbers := Answer.holds_number number low high
    have span := (Answer.span?_toString n).trans (if_pos ⟨low, high⟩)
    refine ⟨Answer.agree_of_holds numbers texts span.symm now status, fun t given => ?_⟩
    exact (Answer.lifetime_of_holds numbers given).1
  all_goals have span := (Answer.span?_toString n).trans (if_neg (by omega))
  · obtain ⟨e, fails⟩ := Answer.read_of_unusable number (Answer.unusable_number unusable)
    exact ⟨e, Answer.token_of_unreadable fails now status⟩
  · intro t given
    obtain ⟨lifetime, expiresAt⟩ := Answer.lifetime_of_holds texts given
    rw [Option.bind_some, span] at lifetime expiresAt
    exact ⟨lifetime, fun later margin => by rw [AccessToken.isExpired, expiresAt]; rfl⟩
  · exact fun endless blank => Answer.agree_of_holds texts (Answer.holds_null blank) span now status

namespace Sample

/-- A token with an end. -/
def lasting (ends : String) : Bytes :=
  Text.utf8 ("\x7b\"access_token\":\"T1\",\"expires_in\":" ++ ends ++ "\x7d")

def around : Answer.Frame Json.Numeral :=
  .object [("access_token", .string "T1")] [] (by decide)

def spelled : Json.Numeral ⊕ String → Json.Written
  | .inl m => .number m
  | .inr s => .string s

/-- The end of a token, a number or a text. -/
def end? : Json.Written → Option (Json.Numeral ⊕ String)
  | .object [("access_token", .string "T1"), ("expires_in", .number m)] => some (.inl m)
  | .object [("access_token", .string "T1"), ("expires_in", .string s)] => some (.inr s)
  | _ => none

theorem end?_eq_some {t : Json.Written} (found : end? t = some x) : t = around.fill (spelled x) := by
  unfold end? at found
  split at found
  · cases found
    rfl
  · cases found
    rfl
  · cases found

theorem lasting_written (ends : String) (x : Json.Numeral ⊕ String)
    (read : (Json.Written.read? (lasting ends)).map end? = .ok (some x)) :
    Json.Written.read? (lasting ends) = .ok (around.fill (spelled x)) := by
  obtain ⟨t, document, found⟩ := Except.map_eq_ok read
  rw [document, end?_eq_some found]

end Sample

/-- An hour in both spellings, and a negative number in both. -/
theorem spellings_of_seconds_hour :
    Answer.Agree (Answer.token .start ⟨200⟩ (Sample.lasting "3600")) (Answer.token .start ⟨200⟩ (Sample.lasting "\"3600\"")) ∧
    (∃ t, Answer.token .start ⟨200⟩ (Sample.lasting "3600") = .ok t ∧ t.lifetime = some (.seconds 3600)) ∧
    (∃ e, Answer.token .start ⟨200⟩ (Sample.lasting "-1") = .error (.badAnswer e)) ∧
    ∃ t, Answer.token .start ⟨200⟩ (Sample.lasting "\"-1\"") = .ok t ∧ t.lifetime = none ∧
      ∀ later margin, t.isExpired later margin = false := by
  have hour := spellings_of_seconds 3600 Sample.around (Sample.lasting_written "3600" (.inl (.ofInt 3600)) (by decide +kernel))
    (Sample.lasting_written "\"3600\"" (.inr (toString (3600 : Int))) (by decide +kernel)) .start ⟨200⟩
  have negative := spellings_of_seconds (-1) Sample.around (Sample.lasting_written "-1" (.inl (.ofInt (-1))) (by decide +kernel))
    (Sample.lasting_written "\"-1\"" (.inr (toString (-1 : Int))) (by decide +kernel)) .start ⟨200⟩
  obtain ⟨agree, lives⟩ := hour.1 (by decide) (by decide)
  obtain ⟨t, given⟩ : ∃ t, Answer.token .start ⟨200⟩ (Sample.lasting "3600") = .ok t :=
    Except.exists_of_toBool (by decide +kernel)
  obtain ⟨t', given'⟩ : ∃ t, Answer.token .start ⟨200⟩ (Sample.lasting "\"-1\"") = .ok t :=
    Except.exists_of_toBool (by decide +kernel)
  obtain ⟨refused, endless, _⟩ := negative.2 (.inl (by decide))
  exact ⟨agree, ⟨t, given, lives t given⟩, refused, t', given', endless t' given'⟩

/-- A negative number of seconds is refused, while its text gives a token without an end. -/
theorem spellings_of_seconds_differ :
    (Json.Written.read? (Sample.lasting "-1")).map Sample.end? = .ok (some (.inl (.ofInt (-1)))) ∧
    (Json.Written.read? (Sample.lasting "\"-1\"")).map Sample.end? = .ok (some (.inr (toString (-1 : Int)))) ∧
    Answer.token .start ⟨200⟩ (Sample.lasting "-1") = .error (.badAnswer .notSeconds) ∧
    (Answer.token .start ⟨200⟩ (Sample.lasting "\"-1\"")).map (fun t => (t.lifetime, t.expiresAt)) = .ok (none, none) := by
  decide +kernel

end EngineClient
