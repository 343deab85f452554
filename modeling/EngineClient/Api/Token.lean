import EngineClient.Http.Header
import EngineClient.Secret
import EngineClient.Text.Quoted
import EngineClient.Time.Span

/-!
# Access tokens

A bearer token and what is known of its life. A token counts as expired a margin before its end; for tokens of
short life the margin is half of it.
-/

namespace EngineClient

structure AccessToken where
  value : Secret
  authorization : HeaderValue
  lifetime : Option Span
  expiresAt : Option Instant
  deriving DecidableEq

namespace AccessToken

/-- The value of the header that a token is sent in, if it can be sent in one. -/
def bearer? (value : String) : Option HeaderValue :=
  match HeaderValue.parse? ("Bearer " ++ value) with
  | .ok v => some v.markSensitive
  | .error _ => none

/-- A token issued now for a lifetime; one whose end cannot be named never expires. -/
def issued? (now : Instant) (value : String) (lifetime : Option Span) : Option AccessToken :=
  (bearer? value).map fun authorization =>
    { value := ⟨value⟩, authorization, lifetime, expiresAt := lifetime.bind now.add? }

/-- A token given by the user, which never expires. -/
def given? (value : String) : Option AccessToken :=
  (bearer? value).map fun authorization =>
    { value := ⟨value⟩, authorization, lifetime := none, expiresAt := none }

/-- The margin that counts for a token. -/
def cappedMargin (t : AccessToken) (margin : Span) : Span :=
  match t.lifetime with
  | none => margin
  | some l => margin.min l.half

def isExpired (now : Instant) (margin : Span) (t : AccessToken) : Bool :=
  match t.expiresAt with
  | none => false
  | some e =>
    match now.add? (t.cappedMargin margin) with
    | none => true
    | some limit => e.nanos ≤ limit.nanos

def remaining (now : Instant) (t : AccessToken) : Option Span :=
  t.expiresAt.map now.remaining

def describe (t : AccessToken) : String :=
  Text.braced "AccessToken" [("value", t.value.describe),
    ("expires_at", Text.described (fun (i : Instant) => (Span.mk i.nanos).text) t.expiresAt)] false

end AccessToken
end EngineClient
