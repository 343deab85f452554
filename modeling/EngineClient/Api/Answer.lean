import EngineClient.Api.Error
import EngineClient.Api.Token
import EngineClient.Json.Reader
import EngineClient.Text.Blank

/-!
# Answers of the sign-on service

An answer is an object, or a list whose first item is one; its members name a token or an error. An error in it
counts whatever the status; without a status of success nothing else does.
-/

namespace EngineClient

/-- When a token ends, as an answer says it: a number of seconds or the text of one. -/
inductive Seconds
  | number (n : Nat)
  | text (s : String)
  deriving DecidableEq

/-- The span of so many seconds of 64 bits; other texts stand for none. -/
def Seconds.span? : Seconds → Option Span
  | .number n => some (.seconds n)
  | .text s => (Text.unsigned? 0xFFFFFFFFFFFFFFFF (Text.trim s.toList)).map Span.seconds

structure Answer where
  accessToken : Option String := none
  tokenType : Option String := none
  expiresIn : Option Seconds := none
  error : Option String := none
  errorDescription : Option String := none
  deriving DecidableEq

namespace Answer

/-! ### Reading -/

def kindOf : Json.Value → JsonKind
  | .null => .null
  | .bool b => .boolean b
  | .number (.integer n) => .integer n
  | .number (.binary b) => .floating b.text
  | .string s => .string s
  | .array _ => .sequence
  | .object _ => .map

/-- A string, or null for none. -/
def text? : Json.Value → Except AnswerError (Option String)
  | .null => .ok none
  | .string s => .ok (some s)
  | v => .error (.notString (kindOf v))

def seconds? : Json.Value → Except AnswerError (Option Seconds)
  | .null => .ok none
  | .number (.integer n) => if 0 ≤ n then .ok (some (.number n.toNat)) else .error .notSeconds
  | .string s => .ok (some (.text s))
  | _ => .error .notSeconds

/-- The last member of a name; null if there is none. -/
def member (name : String) (members : List (String × Json.Value)) : Json.Value :=
  ((members.reverse.find? fun m => m.1 == name).map Prod.snd).getD .null

/-- An answer of the members of an object, looked at in the order of their names. -/
def ofMembers (members : List (String × Json.Value)) : Except AnswerError Answer := do
  let accessToken ← text? (member "access_token" members)
  let error ← text? (member "error" members)
  let errorDescription ← text? (member "error_description" members)
  let expiresIn ← seconds? (member "expires_in" members)
  let tokenType ← text? (member "token_type" members)
  return { accessToken, tokenType, expiresIn, error, errorDescription }

/-- An answer of items in the order of its parts; those left out are none. -/
def ofItems (items : List Json.Value) : Except AnswerError Answer := do
  let item := fun i => (items[i]?).getD .null
  let accessToken ← text? (item 0)
  let tokenType ← text? (item 1)
  let expiresIn ← seconds? (item 2)
  let error ← text? (item 3)
  let errorDescription ← text? (item 4)
  if items.length > 5 then throw (.tooManyItems items.length)
  return { accessToken, tokenType, expiresIn, error, errorDescription }

/-- What of a document is the answer: of a list, its first item. -/
def subject : Json.Value → Json.Value
  | .array items => items.head?.getD .null
  | v => v

def ofValue (v : Json.Value) : Except AnswerError Answer :=
  match subject v with
  | .object members => ofMembers members
  | .array items => ofItems items
  | v => .error (.notAnswer (kindOf v))

def read (body : Bytes) : Except AnswerError Answer :=
  match Json.Value.read? body with
  | .ok v => ofValue v
  | .error e =>
    let (line, column) := Json.place body e.left
    .error (.unreadable e.defect line column)

/-! ### Deciding -/

/-- The error that a body reports, if it is an answer with one, as one text. -/
def reportedError? (body : Bytes) : Option String :=
  match read body with
  | .error _ => none
  | .ok a => a.error.map fun code =>
    match a.errorDescription with
    | none => code
    | some d => code ++ ": " ++ d

def statusError (status : Status) : AuthError :=
  .signOn (Text.decimal status.code) (status.phrase?.getD "unexpected status")

def token (now : Instant) (status : Status) (body : Bytes) : Except AuthError AccessToken :=
  match read body with
  | .error e => if status.isSuccess then .error (.badAnswer e) else .error (statusError status)
  | .ok a =>
    match a.error with
    | some code => .error (.signOn code (a.errorDescription.getD ""))
    | none =>
      if !status.isSuccess then .error (statusError status)
      else match a.accessToken.filter (!·.isEmpty) with
        | none => .error (.badAnswer .noToken)
        | some value =>
          match a.tokenType.filter fun t => !Text.sameLetters t.toList "bearer".toList with
          | some t => .error (.unsupportedTokenType t)
          | none =>
            match AccessToken.issued? now value (a.expiresIn.bind Seconds.span?) with
            | none => .error (.badAnswer .tokenNotSendable)
            | some t => .ok t

end Answer
end EngineClient
