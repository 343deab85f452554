import EngineClient.Transport.Body
import EngineClient.Transport.Compression
import EngineClient.Transport.Defaults
import EngineClient.Transport.Draft
import EngineClient.Text.Base64

/-!
# Clients

A client makes exchanges by its settings. An exchange has two halves: `depart` hands a request to the network, and
`arrive` takes what comes of it when the wait is over. `send` is the whole: the checks of the draft, the check that
the client is open, and both halves. Time limits cover the wait, not the reading of bodies.
-/

namespace EngineClient

/-- A proxy whose URL has been read. -/
structure Proxy where
  uri : Uri
  authorization : Option HeaderValue
  deriving DecidableEq

def basicAuthorization (username password : String) : HeaderValue :=
  (HeaderValue.literal
    ("Basic " ++ String.ofList (Text.Base64.encode (Text.utf8 (username ++ ":" ++ password))))).markSensitive

def Proxy.ofSettings (p : ProxySettings) : Except SetupError Proxy :=
  match Uri.parse? p.url with
  | .error e => .error (.proxyUrl p.url e)
  | .ok uri =>
    if uri.host?.isNone then .error (.proxyHost p.url)
    else
      let password := (p.password.map Secret.expose).getD ""
      .ok { uri, authorization := p.username.map fun u => basicAuthorization u password }

/-- A client that has been set up. -/
structure Client where
  settings : ClientSettings
  defaults : HeaderMap
  proxy : Option Proxy
  /-- The roots given, if there are any. -/
  roots : Option (List Bytes)
  deriving DecidableEq

namespace Client

/-! ### Setting up -/

/-- What is logged when a client is set up, whether or not that succeeds. -/
def warnings (s : ClientSettings) : List LogEvent :=
  (if s.security = .plainAllowed then [.plainAllowed] else []) ++
    if s.trust = .insecure then [.unverified] else []

/-- Sets a client up: trust first, then the headers of every request, then the proxy. -/
def build (fs : Files) (s : ClientSettings) : Except ClientError Client := do
  let roots ← match s.trust with
    | .custom sources => ((TrustStore.load fs sources).mapError fun e => ClientError.setup (.trust e)).map some
    | _ => .ok none
  let defaults ← (DefaultHeaders.ofSettings s.userAgent s.defaultHeaders).mapError ClientError.ofHeader
  let proxy ← match s.proxy with
    | none => .ok none
    | some p => ((Proxy.ofSettings p).mapError ClientError.setup).map some
  return { settings := s, defaults, proxy, roots }

/-! ### Exchanges -/

/-- The headers that leave: those of the request, those of every request, and what compression asks for. -/
def outgoingHeaders (c : Client) (m : HeaderMap) : HeaderMap :=
  let m := DefaultHeaders.apply c.defaults m
  if c.settings.compression && !m.contains .acceptEncoding then m.insert .acceptEncoding gzipCoding else m

def outgoing (c : Client) (p : Draft.Prepared) : Outbound :=
  { method := p.method, uri := p.uri, headers := c.outgoingHeaders p.headers, body := p.body }

def tunnelFor (c : Client) (o : Outbound) : Option Tunnel :=
  c.proxy.map fun p => {
    target := String.ofList (o.uri.host?.getD []) ++ ":" ++ Text.decimal (o.uri.port?.getD 443)
    authorization := p.authorization }

/-- An exchange under way. -/
structure InFlight where
  outbound : Outbound
  outcome : Outcome
  departed : Instant
  deriving DecidableEq

def requestEvent (o : Outbound) : LogEvent :=
  .request o.method.name o.uri.text o.headers.render o.body.length

def responseEvent (o : Outbound) (status : Status) (headers : HeaderMap) : LogEvent :=
  .response o.method.name o.uri.text status.code headers.render

def failureEvent (o : Outbound) (text : String) : LogEvent :=
  .exchangeFailed o.method.name o.uri.text text

def noteIf (c : Client) (e : LogEvent) (w : Wire) : Wire :=
  if c.settings.wireLog then w.note e else w

/-- What of an exchange reaches the network. -/
def trace (c : Client) (o : Outbound) : Outcome → Option Sent
  | .unreachable _ => none
  | .refused _ => some ⟨c.tunnelFor o, none⟩
  | _ => some ⟨c.tunnelFor o, some o⟩

/-- Hands a request to the network. A connection that fails is known at once; all else has to be waited for. -/
def depart (c : Client) (o : Outbound) (w : Wire) : Except ClientError InFlight × Wire :=
  let outcome := w.network w.sent o
  let w := c.noteIf (requestEvent o) w
  let w := match c.trace o outcome with
    | none => w
    | some s => w.record s
  match outcome with
  | .unreachable f => (.error (.transport f), c.noteIf (failureEvent o (Failure.message f)) w)
  | _ => (.ok ⟨o, outcome, w.now⟩, w)

def deadline (c : Client) (e : InFlight) : Instant :=
  e.departed.later c.settings.requestTimeout

/-- The clock, not before a moment. -/
def waitUntil (t : Instant) (w : Wire) : Wire :=
  { w with now := ⟨max w.now.nanos t.nanos⟩ }

def received (c : Client) (reply : Reply) : Reply :=
  if c.settings.compression then reply.unpack else reply

/-- Takes what comes of an exchange, be it at once or after a reply that came in time has lain there for a while. When
time is up first, nothing more is logged of it; what is logged of a reply is what came. -/
def arrive (c : Client) (e : InFlight) (w : Wire) : Except ClientError Reply × Wire :=
  let late := (Except.error (ClientError.timeout c.settings.requestTimeout), waitUntil (c.deadline e) w)
  let fail := fun f =>
    (Except.error (ClientError.transport f), c.noteIf (failureEvent e.outbound (Failure.message f)) w)
  match e.outcome with
  | .unreachable f | .refused f | .broken f => fail f
  | .silent => late
  | .answered delay reply =>
    let moment := e.departed.later delay
    if moment.nanos ≥ (c.deadline e).nanos then late
    else (.ok (c.received reply), c.noteIf (responseEvent e.outbound reply.status reply.headers) (waitUntil moment w))

def exchange (c : Client) (o : Outbound) : Task Wire (Except ClientError Reply) := do
  match ← Task.atom (c.depart o) with
  | .error e => return .error e
  | .ok flight => Task.afterWait (c.arrive flight)

/-- Checks a draft and that the client is open, without waiting. -/
def clear (c : Client) (d : Draft) (w : Wire) : Except ClientError Outbound :=
  match d.prepare c.settings.security with
  | .error e => .error e
  | .ok p => if w.isOpen then .ok (c.outgoing p) else .error .closed

def send (c : Client) (d : Draft) : Task Wire (Except ClientError Reply) := do
  match ← Task.read (c.clear d) with
  | .error e => return .error e
  | .ok o => c.exchange o

/-- Leaves a client closed, and logs it if it was open. -/
def shut (w : Wire) : Wire :=
  if w.isOpen then { w.note .clientClosed with isOpen := false } else w

/-- Closes the client; says whether it was open. -/
def close : Task Wire Bool :=
  Task.atom fun w => (w.isOpen, shut w)

def isClosed : Task Wire Bool :=
  Task.read fun w => !w.isOpen

def describe (c : Client) (w : Wire) : String :=
  Text.braced "HttpClient" [("closed", Text.yesNo !w.isOpen), ("max_body_size", Text.decimal c.settings.maxBodySize),
    ("transport_security", c.settings.security.name)] false

end Client
end EngineClient
