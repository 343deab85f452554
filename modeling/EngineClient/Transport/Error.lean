import EngineClient.Http.Header
import EngineClient.Http.Uri
import EngineClient.Time.Span
import EngineClient.Transport.Failure
import EngineClient.Trust.Store

/-!
# Errors of the transport

What can go wrong with an exchange or with setting up a client. Only time running out and failures of the
network or of encryption have a kind that callers may retry on; all others are local.
-/

namespace EngineClient

/-- Why a client cannot be set up. -/
inductive SetupError
  | trust (cause : TrustError)
  | proxyUrl (url : String) (cause : UriError)
  | proxyHost (url : String)
  | other (text : String)
  deriving DecidableEq, Repr

def SetupError.message : SetupError → String
  | .trust e => e.message
  | .proxyUrl url e => "invalid proxy URL '" ++ url ++ "': " ++ e.message
  | .proxyHost url => "invalid proxy URL '" ++ url ++ "': missing host"
  | .other text => text

/-- Why a request cannot be put together. -/
inductive BuildError
  | target (cause : UriError)
  | tooManyHeaders
  deriving DecidableEq, Repr

def BuildError.message : BuildError → String
  | .target e => e.message
  | .tooManyHeaders => "max size reached"

/-- What is wrong with the URL of a request. -/
inductive UrlDefect
  | malformed
  | noAuthority
  | noScheme
  deriving DecidableEq, Repr

inductive ClientError
  | build (cause : BuildError)
  | headerName
  | headerValue
  | timeout (after : Span)
  | transport (failure : Failure)
  | tls (failure : Failure)
  | bodyTooLarge (limit actual : Nat)
  | form (text : String)
  | url (url : String) (defect : UrlDefect) (reason : String)
  | scheme (scheme reason : String)
  | setup (cause : SetupError)
  | closed
  deriving DecidableEq, Repr

namespace ClientError

def ofHeader : HeaderError → ClientError
  | .name => .headerName
  | .value => .headerValue

def message : ClientError → String
  | .build e => "Failed to build request: " ++ e.message
  | .headerName => "Invalid header name: " ++ HeaderError.message .name
  | .headerValue => "Invalid header value: " ++ HeaderError.message .value
  | .timeout after => "Request timed out after " ++ after.text
  | .transport f => "Transport error: " ++ f.message
  | .tls f => "TLS error: " ++ f.message
  | .bodyTooLarge limit actual =>
    "Response body too large: limit " ++ Text.decimal limit ++ " bytes, got " ++ Text.decimal actual ++ " bytes"
  | .form text => "Form encoding failed: " ++ text
  | .url u _ reason => "Invalid URL '" ++ u ++ "': " ++ reason
  | .scheme s reason => "URL scheme '" ++ s ++ "' not allowed: " ++ reason
  | .setup e => "Invalid client configuration: " ++ e.message
  | .closed => "HTTP client is closed"

/-- The kind of a failure of the network; local errors have none. -/
def kind? : ClientError → Option FailureKind
  | .timeout _ => some .timeout
  | .tls _ => some .tlsHandshake
  | .transport f => some (Failure.kind f)
  | _ => none

/-- A description of the parts of an error; none where they are not ours to describe. -/
def describe? : ClientError → Option String
  | .timeout after => some ("Timeout(" ++ after.text ++ ")")
  | .bodyTooLarge limit actual =>
    some (Text.braced "BodyTooLarge" [("limit", Text.decimal limit), ("actual", Text.decimal actual)] true)
  | .setup e => some ("Config(" ++ Text.quoted e.message ++ ")")
  | .url u defect reason =>
    let kind := match defect with
      | .malformed => "ParseError"
      | .noAuthority => "MissingAuthority"
      | .noScheme => "MissingScheme"
    some (Text.braced "InvalidUri" [("url", Text.quoted u), ("kind", kind), ("reason", Text.quoted reason)] true)
  | .scheme s reason =>
    some (Text.braced "InvalidScheme" [("scheme", Text.quoted s), ("reason", Text.quoted reason)] true)
  | .closed => some "Closed"
  | _ => none

end ClientError
end EngineClient
