import EngineClient.Api.Root
import EngineClient.Api.Service
import EngineClient.Api.TokenCache

/-!
# Connections

A connection to an engine: requests go out with a credential, a token that is refused is replaced once, and what
comes back is a response of success or an error. Nothing is fetched before it is needed.
-/

namespace EngineClient

structure Connection where
  client : Client
  root : ApiRoot
  tokens : TokenCache

namespace Connection

def ofParts (client : Client) (s : Settings) : Connection :=
  { client, root := ApiRoot.ofSettings s, tokens := TokenCache.ofSettings client s }

/-- Checks options and sets the client up: what is logged, and the connection or an error. -/
def create (idna : Idna) (fs : Files) (o : Options) : List LogEvent × Except Error Connection :=
  match o.validate idna with
  | .error e => ([], .error (.options e))
  | .ok s =>
    let log := s.warnings ++ Client.warnings s.client
    match Client.build fs s.client with
    | .error e => (log, .error (.options (.client e)))
    | .ok c => (log ++ [.created (String.ofList s.baseUrl)], .ok (ofParts c s))

/-! ### Calls -/

def ensureOpen : Call Unit := do
  if ← Call.read fun s => s.closed then throw .closed

/-- What the next request of an open connection is made with. -/
def authorize (c : Connection) : Call Credential := do
  ensureOpen
  c.tokens.credential

/-- A token, fetched if there is none that is good. -/
def authenticate (c : Connection) : Call AccessToken := do
  ensureOpen
  c.tokens.token

/-- Makes one exchange and reads its response, whatever the status. -/
def execute (c : Connection) (request : Request) (authorization : HeaderValue) : Call Response := do
  Call.update (State.note (.dispatched request.method.name (String.ofList (c.root.urlFor request))))
  let sent := c.client.send (c.root.draft request authorization)
  match ← Call.ofTask (sent.within State.wire State.setWire) with
  | .error e => throw (.ofClient e)
  | .ok reply =>
    match reply.read c.client.settings.maxBodySize with
    | .error e => throw (.ofClient e)
    | .ok body =>
      Call.update (State.note (.received reply.status.text body.length))
      return { status := reply.status, headers := reply.headers, body }

def faultOf (r : Response) : Call Fault := do
  return Fault.ofResponse (← Call.read fun s => s.wire.today) r

def failUnauthorized (r : Response) : Call Response := do
  throw (.auth (.unauthorized (← faultOf r)))

/-- Lets a response of success pass and makes a fault of any other. -/
def checkStatus (r : Response) : Call Response := do
  if r.status.isSuccess then return r else throw (.fault (← faultOf r))

/-- Gives up the token of a generation, which was refused with a request. -/
def giveUp (request : Request) (refused : Nat) : Task State Unit := do
  Task.update (State.note (.refused refused request.path))
  TokenCache.invalidate refused

/-- Gives up the token of a generation, which was refused, and makes a request once more with a new one. -/
def retry (c : Connection) (request : Request) (refused : Nat) : Call Response := do
  Call.ofTask (giveUp request refused)
  let second ← c.authorize
  let response ← c.execute request second.authorization
  if response.status = .unauthorized then failUnauthorized response else checkStatus response

/-- Sends a request; once more if its token is refused and can be replaced. -/
def send (c : Connection) (request : Request) : Call Response := do
  let first ← c.authorize
  let response ← c.execute request first.authorization
  if response.status ≠ .unauthorized then checkStatus response
  else match first.generation with
    | none => failUnauthorized response
    | some g => c.retry request g

def test (c : Connection) : Call Unit := do
  let _ ← c.send .root

/-- Asks for what a link leads to, if that lies below the root. -/
def followLink (c : Connection) (href : String) : Call Response := do
  match c.root.pathOf? href.toList with
  | none => throw (.invalidLink href)
  | some path => c.send (.get (String.ofList path))

/-- Closes the connection for all clones: revokes the token, closes the client. Later calls change nothing. -/
def close (c : Connection) : Task State Unit := do
  if ← Task.atom fun s => (s.closed, { s with closed := true }) then return
  c.tokens.revoke
  let _ ← Client.close.within State.wire State.setWire
  Task.update (State.note (.closed (String.ofList c.root.url)))

def describe (c : Connection) (s : State) : String :=
  Text.braced "Connection" [("url", Text.quoted (String.ofList c.root.url)), ("closed", Text.yesNo s.closed)] false

end Connection
end EngineClient
