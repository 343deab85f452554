import EngineClient.Http.HeaderMap
import EngineClient.Http.Status
import EngineClient.Secret
import EngineClient.Text.Quoted
import EngineClient.Time.Span

/-!
# What is logged

Events of exchanges, of tokens and of connections, with the fields each shows. Values of headers that carry
credentials, or are marked as sensitive, are replaced by a mark.
-/

namespace EngineClient

inductive LogLevel
  | debug
  | info
  | warn
  deriving DecidableEq, Repr

inductive LogValue
  | text (s : String)
  | number (n : Nat)
  deriving DecidableEq, Repr

/-- Headers on one line, credentials left out. -/
def HeaderMap.render (m : HeaderMap) : String :=
  ", ".intercalate (m.toList.map fun h =>
    h.1.text ++ ": " ++ if h.1.carriesCredentials || h.2.sensitive then Secret.mark
      else h.2.text?.getD "<binary>")

inductive LogEvent
  /-- A request leaves. -/
  | request (method uri headers : String) (bodyLength : Nat)
  | response (method uri : String) (status : Nat) (headers : String)
  | exchangeFailed (method uri error : String)
  | clientClosed
  /-- A request to the API is to be sent, whether or not it can leave. -/
  | dispatched (method url : String)
  /-- The response to a request to the API has been read. -/
  | received (status : String) (bodyLength : Nat)
  /-- The token of a generation was refused with a request, which is made once more. -/
  | refused (generation : Nat) (path : String)
  | tokenRequested (url user : String)
  | ticketRequested (url : String)
  | tokenReused (generation : Nat)
  | flightJoined (generation : Nat)
  | flightBegun (generation : Nat)
  | flightFailed (generation : Nat) (error : String)
  | flightDiscarded (generation : Nat)
  /-- The margin is more than half of the life of a token. -/
  | shortLife (generation : Nat) (lifetime margin : Span)
  | tokenInvalidated (generation : Nat)
  | tokenRevoked
  | created (url : String)
  /-- A connection to an engine goes unencrypted. -/
  | plainConnection (url : String)
  /-- A client may make unencrypted requests. -/
  | plainAllowed
  /-- A client does not check servers. -/
  | unverified
  | revocationRejected (status error : String)
  | revocationUnread (error : String)
  | revocationRefused (status : String)
  | revocationFailed (error : String)
  | closed (url : String)
  deriving DecidableEq, Repr

namespace LogEvent

def level : LogEvent → LogLevel
  | .plainConnection .. | .plainAllowed | .unverified | .revocationRejected .. | .revocationUnread ..
  | .revocationRefused .. | .revocationFailed .. => .warn
  | .closed .. => .info
  | _ => .debug

/-- Whether an event belongs to the log of the wire. -/
def isWire : LogEvent → Bool
  | .request .. | .response .. | .exchangeFailed .. => true
  | _ => false

def message : LogEvent → String
  | .request .. => "request"
  | .response .. => "response"
  | .exchangeFailed .. => "exchange failed"
  | .clientClosed => "HTTP client closed"
  | .dispatched .. => "dispatching request"
  | .received .. => "response received"
  | .refused .. => "request unauthorized; re-authenticating once"
  | .tokenRequested .. => "requesting SSO token"
  | .ticketRequested .. => "requesting SSO token with Kerberos"
  | .tokenReused .. => "reusing cached SSO token"
  | .flightJoined .. => "waiting for in-flight SSO authentication"
  | .flightBegun .. => "starting SSO authentication"
  | .flightFailed .. => "SSO authentication failed"
  | .flightDiscarded .. => "discarding in-flight SSO authentication"
  | .shortLife .. => "SSO token lifetime is short; expiry margin capped at half of it"
  | .tokenInvalidated .. => "invalidating SSO token"
  | .tokenRevoked => "SSO token revoked"
  | .created .. => "connection created"
  | .plainConnection .. => "plain HTTP connection; credentials are sent unencrypted"
  | .plainAllowed =>
    "plain HTTP allowed (TransportSecurity::AllowInsecureHttp); traffic to http:// URLs is not encrypted"
  | .unverified => "TLS certificate verification disabled; the server identity is not checked"
  | .revocationRejected .. => "SSO token revocation rejected"
  | .revocationUnread .. => "reading SSO revoke response failed"
  | .revocationRefused .. | .revocationFailed .. => "SSO token revocation failed"
  | .closed .. => "connection closed"

def fields : LogEvent → List (String × LogValue)
  | .request method uri headers bodyLength =>
    [("method", .text method), ("uri", .text uri), ("headers", .text headers), ("body_len", .number bodyLength)]
  | .response method uri status headers =>
    [("method", .text method), ("uri", .text uri), ("status", .number status), ("headers", .text headers)]
  | .exchangeFailed method uri error => [("method", .text method), ("uri", .text uri), ("error", .text error)]
  | .dispatched method url => [("method", .text method), ("url", .text url)]
  | .received status bodyLength => [("status", .text status), ("body_len", .number bodyLength)]
  | .refused generation path => [("generation", .number generation), ("path", .text path)]
  | .tokenRequested url user => [("url", .text url), ("user", .text user)]
  | .tokenReused generation | .flightJoined generation | .flightBegun generation | .flightDiscarded generation
  | .tokenInvalidated generation => [("generation", .number generation)]
  | .flightFailed generation error => [("generation", .number generation), ("error", .text error)]
  | .shortLife generation lifetime margin =>
    [("generation", .number generation), ("lifetime", .text (Text.described Span.text (some lifetime))),
      ("margin", .text margin.text)]
  | .ticketRequested url | .created url | .plainConnection url | .closed url => [("url", .text url)]
  | .clientClosed | .tokenRevoked | .plainAllowed | .unverified => []
  | .revocationRejected status error => [("status", .text status), ("error", .text error)]
  | .revocationUnread error | .revocationFailed error => [("error", .text error)]
  | .revocationRefused status => [("status", .text status)]

end LogEvent

def Status.text (s : Status) : String :=
  Text.decimal s.code ++ " " ++ s.phrase?.getD "<unknown status code>"

end EngineClient
