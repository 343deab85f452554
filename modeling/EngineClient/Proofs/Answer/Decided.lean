import EngineClient.Proofs.Answer.Decoded

/-!
# From answers to tokens

Whether an answer gives a token and which one, or which of its defects is the error: the first of seven, in the order
in which they are listed. Each outcome has its exact condition on the status and on what the body says.
-/

namespace EngineClient

/-! ### Tokens in headers -/

theorem HeaderValue.parse?_eq_ok_iff : parse? s = .ok v ↔ v.bytes = Text.utf8 s ∧ v.sensitive = false := by
  unfold parse? parseBytes?
  constructor
  · intro parsed
    split at parsed
    · cases parsed
      exact ⟨rfl, rfl⟩
    · cases parsed
  · rintro ⟨bytes, plain⟩
    obtain ⟨bs, sensitive, clean⟩ := v
    dsimp only at bytes plain
    subst bytes plain
    rw [dif_pos clean]

theorem HeaderValue.eq_of_bytes {v w : HeaderValue} (bytes : v.bytes = w.bytes)
    (sensitive : v.sensitive = w.sensitive) : v = w := by
  cases v
  cases w
  cases bytes
  cases sensitive
  rfl

namespace AccessToken

/-- What a token is that is issued for a text: it stands as it is behind the word for bearers, and nothing shows it. -/
structure Bears (t : AccessToken) (now : Instant) (value : String) (life : Option Span) : Prop where
  secret : t.value = ⟨value⟩
  bytes : t.authorization.bytes = Text.utf8 ("Bearer " ++ value)
  sensitive : t.authorization.sensitive = true
  lifetime : t.lifetime = life
  expiresAt : t.expiresAt = life.bind now.add?

theorem authorization_of_bearer? {value : String} (bearer : bearer? value = some h) :
    h.bytes = Text.utf8 ("Bearer " ++ value) ∧ h.sensitive = true := by
  unfold bearer? at bearer
  split at bearer
  · rename_i v parsed
    cases bearer
    exact ⟨(HeaderValue.parse?_eq_ok_iff.mp parsed).1, rfl⟩
  · cases bearer

theorem issued?_eq_some {text : String} {life : Option Span} (issued : issued? now text life = some t) :
    t.value = ⟨text⟩ ∧ bearer? text = some t.authorization ∧ t.lifetime = life ∧ t.expiresAt = life.bind now.add? := by
  obtain ⟨authorization, bearer, rfl⟩ := Option.map_eq_some_iff.mp issued
  exact ⟨rfl, bearer, rfl, rfl⟩

theorem issued?_eq_some_iff {value : String} {lifetime : Option Span} :
    issued? now value lifetime = some t ↔ (∃ v, HeaderValue.parse? value = .ok v) ∧ t.Bears now value lifetime := by
  rw [← bearer?_isSome_iff]
  constructor
  · intro issued
    obtain ⟨secret, bearer, life, expires⟩ := issued?_eq_some issued
    obtain ⟨bytes, sensitive⟩ := authorization_of_bearer? bearer
    exact ⟨by rw [bearer]; rfl, secret, bytes, sensitive, life, expires⟩
  · rintro ⟨sendable, bears⟩
    obtain ⟨h, bearer⟩ := Option.isSome_iff_exists.mp sendable
    obtain ⟨bytes, sensitive⟩ := authorization_of_bearer? bearer
    have same : h = t.authorization :=
      HeaderValue.eq_of_bytes (bytes.trans bears.bytes.symm) (sensitive.trans bears.sensitive.symm)
    rw [issued?, bearer, same, Option.map_some, ← bears.secret, ← bears.expiresAt, ← bears.lifetime]

theorem issued?_eq_none {value : String} (unsendable : ¬ ∃ v, HeaderValue.parse? value = .ok v) (now : Instant)
    (life : Option Span) : issued? now value life = none := by
  rw [← bearer?_isSome_iff, Option.not_isSome_iff_eq_none] at unsendable
  rw [issued?, unsendable, Option.map_none]

theorem exists_bears {value : String} (sendable : ∃ v, HeaderValue.parse? value = .ok v) (now : Instant)
    (life : Option Span) : ∃ t : AccessToken, t.Bears now value life := by
  obtain ⟨h, bearer⟩ := Option.isSome_iff_exists.mp (bearer?_isSome_iff.mpr sendable)
  have issued : issued? now value life = some ⟨⟨value⟩, h, life, life.bind now.add?⟩ := by
    rw [issued?, bearer]
    rfl
  exact ⟨_, (issued?_eq_some_iff.mp issued).2⟩

end AccessToken

namespace Answer

/-- When an answer gives a token: the status is one of success, no error is reported, and there is a token that can be
sent, of a type that is left open or says bearer in letters of any case. -/
structure Offers (a : Answer) (status : Status) (value : String) : Prop where
  success : status.isSuccess = true
  silent : a.error = none
  token : a.accessToken = some value
  filled : value ≠ ""
  bearer : ∀ type, a.tokenType = some type → Text.lower type.toList = "bearer".toList
  sendable : ∃ v, HeaderValue.parse? value = .ok v

/-- Why there is no token. A later reason has the conditions under which no earlier one applies. -/
inductive Refuses (status : Status) (body : Bytes) : AuthError → Prop
  | unreadable (fails : read body = .error e) (success : status.isSuccess = true) : Refuses status body (.badAnswer e)
  | unreadableFailure (fails : read body = .error e) (failure : status.isSuccess = false) :
      Refuses status body (.signOn (Text.decimal status.code) (status.phrase?.getD "unexpected status"))
  | reported (decoded : Decodes body a) (reported : a.error = some code) :
      Refuses status body (.signOn code (a.errorDescription.getD ""))
  | failure (decoded : Decodes body a) (silent : a.error = none) (failure : status.isSuccess = false) :
      Refuses status body (.signOn (Text.decimal status.code) (status.phrase?.getD "unexpected status"))
  | tokenless (decoded : Decodes body a) (silent : a.error = none) (success : status.isSuccess = true)
      (missing : a.accessToken = none ∨ a.accessToken = some "") : Refuses status body (.badAnswer .noToken)
  | otherType (decoded : Decodes body a) (silent : a.error = none) (success : status.isSuccess = true)
      (token : a.accessToken = some value) (filled : value ≠ "") (typed : a.tokenType = some type)
      (other : Text.lower type.toList ≠ "bearer".toList) : Refuses status body (.unsupportedTokenType type)
  | unsendable (decoded : Decodes body a) (silent : a.error = none) (success : status.isSuccess = true)
      (token : a.accessToken = some value) (filled : value ≠ "")
      (bearer : ∀ type, a.tokenType = some type → Text.lower type.toList = "bearer".toList)
      (unsendable : ¬ ∃ v, HeaderValue.parse? value = .ok v) : Refuses status body (.badAnswer .tokenNotSendable)

theorem filled_iff {a : Answer} :
    a.accessToken.filter (!·.isEmpty) = some value ↔ a.accessToken = some value ∧ value ≠ "" := by
  rw [Option.filter_eq_some_iff, Bool.not_eq_true', String.isEmpty_eq_false_iff]

theorem tokenless_iff {a : Answer} : a.accessToken.filter (!·.isEmpty) = none ↔
    a.accessToken = none ∨ a.accessToken = some "" := by
  cases given : a.accessToken with
  | none => simp
  | some value => simp [Option.filter_some]

theorem sameLetters_bearer_iff {cs : List Char} :
    Text.sameLetters cs "bearer".toList = true ↔ Text.lower cs = "bearer".toList := by
  have word : Text.lower "bearer".toList = "bearer".toList := by decide
  rw [Text.sameLetters, word, beq_iff_eq]

theorem otherType_iff {a : Answer} :
    (a.tokenType.filter fun t => !Text.sameLetters t.toList "bearer".toList) = some type ↔
      a.tokenType = some type ∧ Text.lower type.toList ≠ "bearer".toList := by
  rw [Option.filter_eq_some_iff, Bool.not_eq_true', ← Bool.not_eq_true, sameLetters_bearer_iff]

theorem bearer_iff {a : Answer} : (a.tokenType.filter fun t => !Text.sameLetters t.toList "bearer".toList) = none ↔
    ∀ type, a.tokenType = some type → Text.lower type.toList = "bearer".toList := by
  rw [Option.filter_eq_none_iff]
  simp only [Bool.not_eq_true', Bool.not_eq_false, sameLetters_bearer_iff]

theorem token_of_offers (decoded : Decodes body a) (offers : a.Offers status value)
    (bears : t.Bears now value (a.expiresIn.bind Seconds.span?)) : token now status body = .ok t := by
  have given := filled_iff.mpr ⟨offers.token, offers.filled⟩
  have issued := AccessToken.issued?_eq_some_iff.mpr ⟨offers.sendable, bears⟩
  simp only [token, read_eq_ok_iff.mpr decoded, offers.silent, offers.success, given, bearer_iff.mpr offers.bearer, issued]
  rfl

theorem token_of_refuses (refuses : Refuses status body e) (now : Instant) : token now status body = .error e := by
  cases refuses with
  | unreadable fails success => simp only [token, fails, success]; rfl
  | unreadableFailure fails failure => simp only [token, fails, failure]; rfl
  | reported decoded reported => simp only [token, read_eq_ok_iff.mpr decoded, reported]
  | failure decoded silent failure => simp only [token, read_eq_ok_iff.mpr decoded, silent, failure]; rfl
  | tokenless decoded silent success missing =>
    simp only [token, read_eq_ok_iff.mpr decoded, silent, success, tokenless_iff.mpr missing]
    rfl
  | otherType decoded silent success named filled typed other =>
    have differs := otherType_iff.mpr ⟨typed, other⟩
    simp only [token, read_eq_ok_iff.mpr decoded, silent, success, filled_iff.mpr ⟨named, filled⟩, differs]
    rfl
  | unsendable decoded silent success named filled bearer unsendable =>
    have unissued := AccessToken.issued?_eq_none unsendable now
    simp only [token, read_eq_ok_iff.mpr decoded, silent, success, filled_iff.mpr ⟨named, filled⟩, bearer_iff.mpr bearer,
      unissued]
    rfl

/-- Every body has one of the two outcomes. -/
theorem token_cases (now : Instant) (status : Status) (body : Bytes) :
    (∃ a value t, Decodes body a ∧ a.Offers status value ∧
      AccessToken.Bears t now value (a.expiresIn.bind Seconds.span?)) ∨ ∃ e, Refuses status body e := by
  cases reads : read body with
  | error e =>
    cases success : status.isSuccess with
    | true => exact .inr ⟨_, .unreadable reads success⟩
    | false => exact .inr ⟨_, .unreadableFailure reads success⟩
  | ok a =>
    have decoded := read_eq_ok_iff.mp reads
    cases reported : a.error with
    | some code => exact .inr ⟨_, .reported decoded reported⟩
    | none =>
      cases success : status.isSuccess with
      | false => exact .inr ⟨_, .failure decoded reported success⟩
      | true =>
        cases given : a.accessToken.filter (!·.isEmpty) with
        | none => exact .inr ⟨_, .tokenless decoded reported success (tokenless_iff.mp given)⟩
        | some value =>
          obtain ⟨named, filled⟩ := filled_iff.mp given
          cases typed : a.tokenType.filter fun t => !Text.sameLetters t.toList "bearer".toList with
          | some type =>
            obtain ⟨typed, other⟩ := otherType_iff.mp typed
            exact .inr ⟨_, .otherType decoded reported success named filled typed other⟩
          | none =>
            have bearer := bearer_iff.mp typed
            by_cases sendable : ∃ v, HeaderValue.parse? value = .ok v
            · obtain ⟨t, bears⟩ := AccessToken.exists_bears sendable now (a.expiresIn.bind Seconds.span?)
              exact .inl ⟨a, value, t, decoded, ⟨success, reported, named, filled, bearer, sendable⟩, bears⟩
            · exact .inr ⟨_, .unsendable decoded reported success named filled bearer sendable⟩

theorem token_eq_ok (h : Answer.token now status body = .ok t) :
    ∃ a value, read body = .ok a ∧ a.accessToken = some value ∧
      AccessToken.issued? now value (a.expiresIn.bind Seconds.span?) = some t := by
  rcases token_cases now status body with ⟨a, value, t', decoded, offers, bears⟩ | ⟨e, refuses⟩
  · obtain rfl := Except.ok.inj (h.symm.trans (token_of_offers decoded offers bears))
    have issued := AccessToken.issued?_eq_some_iff.mpr ⟨offers.sendable, bears⟩
    exact ⟨a, value, read_eq_ok_iff.mpr decoded, offers.token, issued⟩
  · cases h.symm.trans (token_of_refuses refuses now)

theorem token_congr (same : read body' = read body) (now : Instant) (status : Status) :
    token now status body' = token now status body := by
  rw [token, token, same]

end Answer

/-- An answer of the sign-on service gives a token exactly if it offers one, and the token is the one that it names. In
every other case it is refused, for the first of the reasons that apply. Of a list only the first item matters. -/
theorem token_decided (now : Instant) (status : Status) (body : Bytes) :
    (∀ a, Answer.read body = .ok a ↔ Answer.Decodes body a) ∧
    (∀ t, Answer.token now status body = .ok t ↔ ∃ a value, Answer.Decodes body a ∧ a.Offers status value ∧
      t.Bears now value (a.expiresIn.bind Seconds.span?)) ∧
    ((∃ t, Answer.token now status body = .ok t) ↔ ∃ a value, Answer.Decodes body a ∧ a.Offers status value) ∧
    (∀ e, Answer.token now status body = .error e ↔ Answer.Refuses status body e) ∧
    ∀ v rest body' rest', Json.Value.read? body = .ok (.array (v :: rest)) →
      Json.Value.read? body' = .ok (.array (v :: rest')) → Answer.token now status body' = Answer.token now status body := by
  have ends := Answer.token_cases now status body
  refine ⟨fun a => Answer.read_eq_ok_iff, fun t => ⟨fun given => ?_, ?_⟩, ⟨?_, ?_⟩,
    fun e => ⟨fun refused => ?_, fun refuses => Answer.token_of_refuses refuses now⟩, ?_⟩
  · rcases ends with ⟨a, value, t', decoded, offers, bears⟩ | ⟨e, refuses⟩
    · obtain rfl := Except.ok.inj (given.symm.trans (Answer.token_of_offers decoded offers bears))
      exact ⟨a, value, decoded, offers, bears⟩
    · cases given.symm.trans (Answer.token_of_refuses refuses now)
  · rintro ⟨a, value, decoded, offers, bears⟩
    exact Answer.token_of_offers decoded offers bears
  · rintro ⟨t, given⟩
    rcases ends with ⟨a, value, _, decoded, offers, _⟩ | ⟨e, refuses⟩
    · exact ⟨a, value, decoded, offers⟩
    · cases given.symm.trans (Answer.token_of_refuses refuses now)
  · rintro ⟨a, value, decoded, offers⟩
    obtain ⟨t, bears⟩ := AccessToken.exists_bears offers.sendable now (a.expiresIn.bind Seconds.span?)
    exact ⟨t, Answer.token_of_offers decoded offers bears⟩
  · rcases ends with ⟨a, value, t, decoded, offers, bears⟩ | ⟨e', refuses⟩
    · cases refused.symm.trans (Answer.token_of_offers decoded offers bears)
    · obtain rfl := Except.error.inj (refused.symm.trans (Answer.token_of_refuses refuses now))
      exact refuses
  · intro v rest body' rest' document document'
    refine Answer.token_congr ?_ now status
    rw [Answer.read_of_document document, Answer.read_of_document document']
    rfl

namespace Sample

/-- A token with an error behind it. -/
def listed : Bytes :=
  Text.utf8 "[\x7b\"access_token\": \"T1\", \"token_type\": \"BEARER\"\x7d, \x7b\"error\": \"e\"\x7d]"

def single : Bytes :=
  Text.utf8 "[\x7b\"access_token\": \"T1\", \"token_type\": \"BEARER\"\x7d]"

def offer : Answer :=
  { accessToken := some "T1", tokenType := some "BEARER" }

theorem offers_token : offer.Offers ⟨200⟩ "T1" where
  success := rfl
  silent := rfl
  token := rfl
  filled := by decide
  bearer type typed := by cases typed; decide
  sendable := HeaderValue.parseBytes?_isOk_iff.mpr (by decide +kernel)

/-- Two texts that the first item of a list names, and how many items follow. -/
def first? : Json.Value → Option ((String × String) × (String × String) × Nat)
  | .array (.object [(name, .string s), (other, .string t)] :: rest) => some ((name, s), (other, t), rest.length)
  | _ => none

theorem first?_eq_some {v : Json.Value} (first : first? v = some ((name, s), (other, t), n)) :
    ∃ rest, v = .array (.object [(name, .string s), (other, .string t)] :: rest) ∧ rest.length = n := by
  unfold first? at first
  split at first
  · cases first
    exact ⟨_, rfl, rfl⟩
  · cases first

end Sample

/-- A token type in capitals, and an error where it does not matter. -/
theorem token_decided_listed : ∃ v last, Json.Value.read? Sample.listed = .ok (.array [v, last]) ∧
    Json.Value.read? Sample.single = .ok (.array [v]) ∧
    Answer.token .start ⟨200⟩ Sample.single = Answer.token .start ⟨200⟩ Sample.listed ∧
    ∃ t, Answer.token .start ⟨200⟩ Sample.listed = .ok t ∧ t.value = ⟨"T1"⟩ ∧
      t.authorization.bytes = Text.utf8 "Bearer T1" := by
  have both : ((Json.Value.read? Sample.listed).map Sample.first? =
        .ok (some (("access_token", "T1"), ("token_type", "BEARER"), 1))) ∧
      (Json.Value.read? Sample.single).map Sample.first? =
        .ok (some (("access_token", "T1"), ("token_type", "BEARER"), 0)) := by
    decide +kernel
  obtain ⟨v, document, first⟩ := Except.map_eq_ok both.1
  obtain ⟨v', document', first'⟩ := Except.map_eq_ok both.2
  obtain ⟨rest, rfl, one⟩ := Sample.first?_eq_some first
  obtain ⟨rest', rfl, none⟩ := Sample.first?_eq_some first'
  obtain ⟨last, rfl⟩ := List.length_eq_one_iff.mp one
  obtain rfl := List.length_eq_zero_iff.mp none
  have reads : Answer.read Sample.listed = .ok Sample.offer := by decide +kernel
  obtain ⟨decodes, tokens, gives, _, alike⟩ := token_decided .start ⟨200⟩ Sample.listed
  obtain ⟨t, given⟩ := gives.mpr ⟨_, "T1", (decodes _).mp reads, Sample.offers_token⟩
  obtain ⟨a, value, decoded, named, bears⟩ := (tokens t).mp given
  obtain rfl := Except.ok.inj (((decodes a).mpr decoded).symm.trans reads)
  obtain rfl : "T1" = value := Option.some.inj named.token
  exact ⟨_, last, document, document', alike _ _ _ _ document document', t, given, bears.secret, bears.bytes⟩

end EngineClient
