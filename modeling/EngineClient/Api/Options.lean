import EngineClient.Transport.Settings

/-!
# Options of a connection

What a user can say about a connection. Exactly one kind of credentials has to be given: a name and a password, a
ticket, or a token. Nothing is checked here.
-/

namespace EngineClient

/-- How credentials are presented. -/
inductive AuthMode
  /-- They are exchanged for a token. -/
  | signOn
  /-- They go with every request. -/
  | basic
  deriving DecidableEq, Repr

def AuthMode.describe : AuthMode → String
  | .signOn => "Sso"
  | .basic => "Basic"

/-- The roots that servers are checked against where none are given. -/
inductive RootStore
  | bundled
  | system
  deriving DecidableEq, Repr

def RootStore.describe : RootStore → String
  | .bundled => "Bundled"
  | .system => "System"

/-- The form of bodies. -/
inductive MediaType
  | xml
  | json
  deriving DecidableEq, Repr

def MediaType.name : MediaType → String
  | .xml => "application/xml"
  | .json => "application/json"

def MediaType.describe : MediaType → String
  | .xml => "Xml"
  | .json => "Json"

/-- A source of first tokens for negotiation. What it gives for the URL of a sign-on service may depend on all it was
asked for before. -/
structure TicketSource where
  ticket : List String → String → Except String Bytes

structure Options where
  url : String := ""
  username : Option String := none
  password : Option Secret := none
  kerberos : Option TicketSource := none
  token : Option Secret := none
  auth : AuthMode := .signOn
  caFile : Option String := none
  caCerts : List String := []
  insecure : Bool := false
  rootStore : RootStore := .bundled
  debug : Bool := false
  compress : Bool := false
  timeout : Span := .seconds 600
  connectTimeout : Option Span := none
  proxy : Option ProxySettings := none
  tokenEndpoint : Option String := none
  revokeEndpoint : Option String := none
  /-- Headers of every request to the API. -/
  headers : List (String × String) := []
  mediaType : MediaType := .xml
  expiryMargin : Span := .seconds 30

namespace Options

/-- A description without secrets and without the values of headers. -/
def describe (o : Options) : String :=
  let text := Text.described Text.quoted
  Text.braced "ConnectionConfig" [
    ("url", Text.quoted o.url),
    ("username", text o.username),
    ("password", Text.described Secret.describe o.password),
    ("kerberos", Text.yesNo o.kerberos.isSome),
    ("token", Text.described Secret.describe o.token),
    ("auth", o.auth.describe),
    ("ca_file", Text.described Text.quotedPath o.caFile),
    ("ca_certs", Text.decimal o.caCerts.length),
    ("insecure", Text.yesNo o.insecure),
    ("trust_store", o.rootStore.describe),
    ("debug", Text.yesNo o.debug),
    ("compress", Text.yesNo o.compress),
    ("timeout", o.timeout.text),
    ("connect_timeout", Text.described Span.text o.connectTimeout),
    ("proxy", Text.described ProxySettings.describe o.proxy),
    ("sso_url", text o.tokenEndpoint),
    ("sso_revoke_url", text o.revokeEndpoint),
    ("headers", Text.bracketed (o.headers.map fun h => Text.quoted h.1)),
    ("media_type", o.mediaType.describe),
    ("token_expiry_margin", o.expiryMargin.text)] true

end Options
end EngineClient
