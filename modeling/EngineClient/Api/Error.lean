import EngineClient.Api.Fault
import EngineClient.Json.Tree
import EngineClient.Transport.Error
import EngineClient.Url.Address

/-!
# Errors of connections

What can go wrong between the options of a connection and a successful response.
-/

namespace EngineClient

/-! ### Options -/

/-- Options that name an endpoint of the sign-on service. -/
inductive EndpointOption
  | token
  | revoke
  deriving DecidableEq, Repr

def EndpointOption.name : EndpointOption → String
  | .token => "sso_url"
  | .revoke => "sso_revoke_url"

/-- Which option is wrong, and why. -/
inductive OptionError
  | noUrl
  | url (raw : String) (cause : UrlError)
  | scheme (scheme : String)
  | emptyUsername
  | usernameAlone
  | passwordAlone
  | noCredentials
  | manyCredentials
  | basicWithoutPassword
  | tokenNotSendable
  | insecureWithAuthorities
  | systemStoreWithOthers
  | longMargin
  | noTimeout
  | headerName (name : String)
  | authorizationHeader
  | headerValue (name : HeaderName)
  | endpoint (option : EndpointOption) (raw : String) (cause : UrlError)
  | endpointScheme (option : EndpointOption)
  | client (cause : ClientError)
  deriving DecidableEq

/-- The longest margin, in seconds. -/
def maxMarginSeconds : Nat := 3600

def OptionError.message : OptionError → String
  | .noUrl => "'url' is required"
  | .url raw e => "invalid url '" ++ raw ++ "': " ++ e.message
  | .scheme s => "unsupported url scheme '" ++ s ++ "': use http or https"
  | .emptyUsername => "'username' must not be empty"
  | .usernameAlone => "'username' requires 'password'"
  | .passwordAlone => "'password' requires 'username'"
  | .noCredentials => "no credentials: set 'username' and 'password', 'kerberos', or 'token'"
  | .manyCredentials => "only one of 'username'/'password', 'kerberos' or 'token' may be set"
  | .basicWithoutPassword => "basic authentication requires 'username' and 'password'"
  | .tokenNotSendable => "'token' is not a valid header value"
  | .insecureWithAuthorities => "'insecure' cannot be combined with 'ca_file' or 'ca_certs'"
  | .systemStoreWithOthers => "'trust_store' System cannot be combined with 'insecure', 'ca_file' or 'ca_certs'"
  | .longMargin => "'token_expiry_margin' must not exceed " ++ Text.decimal maxMarginSeconds ++ "s"
  | .noTimeout => "'timeout' must be greater than zero"
  | .headerName name => "invalid header name '" ++ name ++ "': " ++ HeaderError.message .name
  | .authorizationHeader => "the 'Authorization' header is set by the connection and cannot be configured"
  | .headerValue name => "invalid value for header '" ++ name.text ++ "': " ++ HeaderError.message .value
  | .endpoint option raw e => "invalid '" ++ option.name ++ "' '" ++ raw ++ "': " ++ e.message
  | .endpointScheme option => "'" ++ option.name ++ "' must be an http or https URL"
  | .client e => "cannot build HTTP transport: " ++ e.message

/-! ### Authentication -/

/-- The type of a JSON value, with the value where it is a simple one. -/
inductive JsonKind
  | null
  | boolean (b : Bool)
  | integer (n : Int)
  | floating (text : String)
  | string (s : String)
  | sequence
  | map
  deriving DecidableEq

def JsonKind.message : JsonKind → String
  | .null => "null"
  | .boolean b => "boolean \x60" ++ Text.yesNo b ++ "\x60"
  | .integer n => "integer \x60" ++ toString n ++ "\x60"
  | .floating text => "floating point \x60" ++ text ++ "\x60"
  | .string s => "string " ++ Text.quoted s
  | .sequence => "sequence"
  | .map => "map"

/-- Why an answer of the sign-on service cannot be understood. -/
inductive AnswerError
  | unreadable (defect : Json.Defect) (line column : Nat)
  | notString (found : JsonKind)
  | notAnswer (found : JsonKind)
  | notSeconds
  | tooManyItems (n : Nat)
  | noToken
  | tokenNotSendable
  deriving DecidableEq

def AnswerError.message : AnswerError → String
  | .unreadable defect line column =>
    defect.message ++ " at line " ++ Text.decimal line ++ " column " ++ Text.decimal column
  | .notString found => "invalid type: " ++ found.message ++ ", expected a string"
  | .notAnswer found => "invalid type: " ++ found.message ++ ", expected struct TokenResponse"
  | .notSeconds => "data did not match any variant of untagged enum Seconds"
  | .tooManyItems n => "invalid length " ++ Text.decimal n ++ ", expected fewer elements in array"
  | .noToken => "missing access_token"
  | .tokenNotSendable => "access token is not a valid header value"

inductive AuthError
  /-- The sign-on service reports an error. -/
  | signOn (code description : String)
  | badAnswer (cause : AnswerError)
  | unsupportedTokenType (tokenType : String)
  | negotiation (text : String)
  | unauthorized (fault : Fault)
  /-- The credentials have no token. -/
  | noToken
  deriving DecidableEq

def AuthError.message : AuthError → String
  | .signOn code description => "error during SSO authentication: " ++ code ++ ": " ++ description
  | .badAnswer e => "invalid SSO response: " ++ e.message
  | .unsupportedTokenType t => "unsupported token type: " ++ t
  | .negotiation text => "Kerberos negotiation failed: " ++ text
  | .unauthorized f => "request not authorized: " ++ f.message
  | .noToken => "no bearer token is used with basic authentication"

/-! ### All errors -/

inductive Error
  | options (cause : OptionError)
  /-- A failure of the network, of a kind that callers may retry on. -/
  | transport (kind : FailureKind) (cause : ClientError)
  | auth (cause : AuthError)
  /-- A request that could not be made, or a response that could not be taken. -/
  | request (cause : ClientError)
  | fault (fault : Fault)
  | invalidLink (href : String)
  | closed
  deriving DecidableEq

namespace Error

/-- Sorts an error of the transport: the closed client's, failures of the network, all others. -/
def ofClient (e : ClientError) : Error :=
  match e with
  | .closed => .closed
  | e => match e.kind? with
    | some kind => .transport kind e
    | none => .request e

/-- The kind of a failure of the network, for callers who try again. -/
def kind? : Error → Option FailureKind
  | .transport kind _ => some kind
  | _ => none

def message : Error → String
  | .options e => "invalid connection configuration: " ++ e.message
  | .transport kind e => kind.message ++ ": " ++ e.message
  | .auth e => e.message
  | .request e => "request failed: " ++ e.message
  | .fault f => f.message
  | .invalidLink href => "link '" ++ href ++ "' is not below the API root"
  | .closed => "connection is closed"

def hasSource : Error → Bool
  | .transport .. | .request _ => true
  | _ => false

def kindName : FailureKind → String
  | .connectRefused => "ConnectRefused"
  | .tlsHandshake => "TlsHandshake"
  | .timeout => "Timeout"
  | .dns => "Dns"
  | .other => "Other"

/-- A description of an error of the transport after sorting; none where its parts are not ours to describe. -/
def describe? : Error → Option String
  | .transport kind e => e.describe?.map fun source =>
    "Transport(" ++ Text.braced "TransportError" [("kind", kindName kind), ("source", source)] true ++ ")"
  | .request e => e.describe?.map fun d => "Request(" ++ d ++ ")"
  | .closed => some "ConnectionClosed"
  | _ => none

end Error
end EngineClient
