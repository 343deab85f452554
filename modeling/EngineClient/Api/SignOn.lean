import EngineClient.Api.Answer
import EngineClient.Api.Settings
import EngineClient.Text.Base64

/-!
# Signing on

The two requests to the sign-on service: one that exchanges credentials for a token and one that revokes a token.
-/

namespace EngineClient

/-- Credentials that are exchanged for a token. -/
inductive Grant
  | password (username : String) (password : Secret)
  | kerberos (source : TicketSource)

structure SignOn where
  tokenUrl : String
  revokeUrl : String
  grant : Grant

namespace SignOn

def acceptJson : Header := (.accept, .literal "application/json")

def scope : Text.Form.Field := ("scope", "ovirt-app-api")

def grantFields : Grant → List Text.Form.Field
  | .password username password =>
    [("grant_type", "password"), scope, ("username", username), ("password", password.expose)]
  | .kerberos _ => [("grant_type", "urn:ovirt:params:oauth:grant-type:http"), scope]

/-- The header that carries the first token of a negotiation. -/
def negotiation (ticket : Bytes) : Header :=
  (.authorization,
    (HeaderValue.literal ("Negotiate " ++ String.ofList (Text.Base64.encode ticket))).markSensitive)

def formDraft (url : String) (headers : List Header) (fields : List Text.Form.Field) : Draft :=
  { method := .post, url, headers, body := .form (Text.encode (Text.Form.render fields)) }

/-- The URL for which the source of tickets is asked, if there is one. -/
def asked (s : SignOn) : List String :=
  match s.grant with
  | .password .. => []
  | .kerberos _ => [s.tokenUrl]

/-- What is logged before a token is asked for. -/
def requestEvent (s : SignOn) : LogEvent :=
  match s.grant with
  | .password username _ => .tokenRequested s.tokenUrl username
  | .kerberos _ => .ticketRequested s.tokenUrl

/-- The request for a token; the source of tickets, which was asked before, may fail. -/
def tokenDraft (s : SignOn) (before : List String) : Except AuthError Draft :=
  match s.grant with
  | .password .. => .ok (formDraft s.tokenUrl [acceptJson] (grantFields s.grant))
  | .kerberos source =>
    match source.ticket before s.tokenUrl with
    | .error text => .error (.negotiation text)
    | .ok ticket => .ok (formDraft s.tokenUrl [acceptJson, negotiation ticket] (grantFields s.grant))

def revokeDraft (s : SignOn) (token : AccessToken) : Draft :=
  formDraft s.revokeUrl [acceptJson] [("scope", ""), ("token", token.value.expose)]

/-- What is logged of the request to revoke a token. -/
def revocationEvent (limit : Nat) : Except ClientError Reply → LogEvent
  | .error e => .revocationFailed e.message
  | .ok reply =>
    if reply.status.isSuccess then
      match reply.read limit with
      | .ok body =>
        match Answer.reportedError? body with
        | some error => .revocationRejected reply.status.text error
        | none => .tokenRevoked
      | .error e => .revocationUnread e.message
    else .revocationRefused reply.status.text

end SignOn
end EngineClient
