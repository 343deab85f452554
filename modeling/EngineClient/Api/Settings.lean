import EngineClient.Api.Error
import EngineClient.Api.Options
import EngineClient.Api.Token
import EngineClient.Transport.Client
import EngineClient.Url.Basic

/-!
# Settings of a connection

Options that have been checked, with URLs in one form and the settings of the client that they ask for. The options
are checked in a fixed order, and the first one that is wrong is reported; no file is read.
-/

namespace EngineClient

/-- The one kind of credentials. -/
inductive Credentials
  | password (username : String) (password : Secret)
  | kerberos (source : TicketSource)
  | token (token : AccessToken)
  /-- A name and a password that go with every request. -/
  | basic (authorization : HeaderValue)

structure Settings where
  /-- The root of the API, without a slash at its end. -/
  baseUrl : List Char
  /-- The path of the root, without a slash at its end. -/
  basePath : List Char
  credentials : Credentials
  tokenUrl : String
  revokeUrl : String
  headers : List Header
  mediaType : MediaType
  expiryMargin : Span
  client : ClientSettings
  /-- What is logged when the settings are made. -/
  warnings : List LogEvent

namespace Options

def signOnPath : String := "/ovirt-engine/sso/oauth/token"
def ticketPath : String := "/ovirt-engine/sso/oauth/token-http-auth"
def revokePath : String := "/ovirt-engine/services/sso-logout"

/-! ### URLs -/

/-- A path without the slashes at its end and without a last segment that names a version. -/
def rootPath (path : List Char) : List Char :=
  let trimmed := Text.trimEnd Text.isSlash path
  (Text.stripBack? "/v4".toList trimmed).getD trimmed

def root? (idna : Idna) (url : String) : Except OptionError WebUrl :=
  let raw := Text.trim url.toList
  if raw.isEmpty then .error .noUrl
  else match Url.parse? idna (String.ofList raw) with
    | .error e => .error (.url (String.ofList raw) e)
    | .ok (.foreign s) => .error (.scheme s)
    | .ok (.web u) => .ok (u.withPath (rootPath u.path))

/-- An endpoint of the sign-on service: the one given, or a path beside the root. -/
def endpoint? (idna : Idna) (root : WebUrl) (option : EndpointOption) (given : Option String) (path : String) :
    Except OptionError String :=
  match given with
  | none => .ok (String.ofList (root.withPath path.toList).text)
  | some raw =>
    match Url.parse? idna raw with
    | .error e => .error (.endpoint option raw e)
    | .ok (.foreign _) => .error (.endpointScheme option)
    | .ok (.web u) => .ok (String.ofList u.text)

/-! ### Credentials -/

/-- The name and the password, if both are given. -/
def passwordGrant? (o : Options) : Except OptionError (Option (String × Secret)) :=
  match o.username, o.password with
  | some u, some p => if u.isEmpty then .error .emptyUsername else .ok (some (u, p))
  | none, none => .ok none
  | some _, none => .error .usernameAlone
  | none, some _ => .error .passwordAlone

/-- Decides among the credentials that are given. -/
def credentials? (o : Options) : Except OptionError Credentials := do
  match ← o.passwordGrant?, o.kerberos, o.token with
  | none, none, none => throw .noCredentials
  | some (u, p), none, none =>
    if o.auth = .basic then return .basic (basicAuthorization u p.expose) else return .password u p
  | none, some source, none =>
    if o.auth = .basic then throw .basicWithoutPassword else return .kerberos source
  | none, none, some token =>
    if o.auth = .basic then throw .basicWithoutPassword
    else match AccessToken.given? token.expose with
      | some t => return .token t
      | none => throw .tokenNotSendable
  | _, _, _ => throw .manyCredentials

/-! ### Other options -/

def hasAuthorities (o : Options) : Bool :=
  o.caFile.isSome || !o.caCerts.isEmpty

def header? (h : String × String) : Except OptionError Header :=
  match HeaderName.parse? h.1 with
  | .error _ => .error (.headerName h.1)
  | .ok name =>
    if name = .authorization then .error .authorizationHeader
    else match HeaderValue.parse? h.2 with
      | .error _ => .error (.headerValue name)
      | .ok value => .ok (name, value)

/-- The sources of trusted roots, the file first. -/
def caSources (o : Options) : List CaSource :=
  (o.caFile.map CaSource.file).toList ++ o.caCerts.map fun pem => .pem (Text.utf8 pem)

def trust (o : Options) : Trust :=
  if o.insecure then .insecure
  else if o.rootStore = .system then .system
  else if o.caSources.isEmpty then .bundled
  else .custom o.caSources

def clientSettings (o : Options) (root : WebUrl) : ClientSettings :=
  { requestTimeout := o.timeout
    connectTimeout := o.connectTimeout
    userAgent := "ovirtsdk/0.1.0"
    security := if root.scheme = .http then .plainAllowed else .encryptedOnly
    trust := o.trust
    proxy := o.proxy
    compression := o.compress
    wireLog := o.debug }

def validate (idna : Idna) (o : Options) : Except OptionError Settings := do
  let root ← root? idna o.url
  let credentials ← o.credentials?
  if o.insecure && o.hasAuthorities then throw .insecureWithAuthorities
  if o.rootStore = .system && (o.insecure || o.hasAuthorities) then throw .systemStoreWithOthers
  if o.expiryMargin.nanos > (Span.seconds maxMarginSeconds).nanos then throw .longMargin
  if o.timeout.nanos = 0 then throw .noTimeout
  let headers ← o.headers.mapM header?
  let path := match credentials with
    | .kerberos _ => ticketPath
    | _ => signOnPath
  let tokenUrl ← endpoint? idna root .token o.tokenEndpoint path
  let revokeUrl ← endpoint? idna root .revoke o.revokeEndpoint revokePath
  return {
    baseUrl := Text.trimEnd Text.isSlash root.text
    basePath := Text.trimEnd Text.isSlash root.path
    credentials, tokenUrl, revokeUrl, headers
    mediaType := o.mediaType
    expiryMargin := o.expiryMargin
    client := o.clientSettings root
    warnings := if root.scheme = .http then [.plainConnection (String.ofList root.text)] else [] }

end Options
end EngineClient
