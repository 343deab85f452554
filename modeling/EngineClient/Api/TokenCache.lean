import EngineClient.Api.SignOn
import EngineClient.Api.State

/-!
# The token cache

How callers come by a credential. Callers that need a token at the same time share one flight: whoever comes first
begins it, and any of them may take it further. With a token given by the user, or with a name and a password that
go with every request, nothing is fetched.
-/

namespace EngineClient

/-- Where credentials come from. -/
inductive Strategy
  | signOn (service : SignOn)
  | token (token : AccessToken)
  | basic (authorization : HeaderValue)

structure TokenCache where
  client : Client
  strategy : Strategy
  margin : Span

/-- What a request is made with; only tokens that were fetched have a generation. -/
structure Credential where
  authorization : HeaderValue
  generation : Option Nat
  deriving DecidableEq

/-- A task that may fail. -/
abbrev Call := ExceptT Error (Task State)

namespace Call

/-- A task that does not fail. -/
def ofTask (t : Task State α) : Call α :=
  ExceptT.lift t

def ofExcept (r : Except Error α) : Call α :=
  ExceptT.mk (pure r)

def read (f : State → α) : Call α :=
  ofTask (Task.read f)

def update (f : State → State) : Call Unit :=
  ofTask (Task.update f)

def atom (f : State → α × State) : Call α :=
  ofTask (Task.atom f)

end Call

namespace TokenCache

def ofSettings (client : Client) (s : Settings) : TokenCache :=
  let service := fun grant => Strategy.signOn { tokenUrl := s.tokenUrl, revokeUrl := s.revokeUrl, grant }
  { client
    margin := s.expiryMargin
    strategy := match s.credentials with
      | .password u p => service (.password u p)
      | .kerberos source => service (.kerberos source)
      | .token t => .token t
      | .basic v => .basic v }

/-! ### Flights -/

/-- Sends a draft as far as it goes without a wait. -/
def dispatch (c : Client) (d : Draft) (w : Wire) : Except ClientError Client.InFlight × Wire :=
  match c.clear d w with
  | .error e => (.error e, w)
  | .ok o => c.depart o w

/-- Lets a flight that has only begun depart. -/
def launch (c : Client) (service : SignOn) (g : Nat) (s : State) : State :=
  match s.flight? g with
  | some .begun =>
    let draft := service.tokenDraft s.asked
    let s := { s.note service.requestEvent with asked := s.asked ++ service.asked }
    match draft with
    | .error e => s.setFlight g (.landed (.error (.auth e)))
    | .ok d =>
      match s.onWire (dispatch c d) with
      | (.error e, s) => s.setFlight g (.landed (.error (.ofClient e)))
      | (.ok e, s) => s.setFlight g (.underway e)
  | _ => s

def tokenOf (c : Client) (now : Instant) : Except ClientError Reply → Except Error AccessToken
  | .error e => .error (.ofClient e)
  | .ok reply =>
    match reply.read c.settings.maxBodySize with
    | .error e => .error (.ofClient e)
    | .ok body => (Answer.token now reply.status body).mapError .auth

/-- Lets a flight land, if it has not yet. -/
def land (c : Client) (g : Nat) (s : State) : Except Error AccessToken × State :=
  match s.flight? g with
  | some (.landed r) => (r, s)
  | some (.underway e) =>
    let (reply, s) := s.onWire (c.arrive e)
    let r := tokenOf c s.wire.now reply
    (r, s.setFlight g (.landed r))
  | _ => (.error .closed, s)

/-- Follows a flight to its end and settles the slot. -/
def follow (t : TokenCache) (service : SignOn) (g : Nat) : Call AccessToken := do
  Call.update (launch t.client service g)
  let known ← Call.read fun s => s.result? g
  let result ← match known with
    | some r => pure r
    | none => Call.ofTask (Task.afterWait (land t.client g))
  Call.update (State.settle t.margin g result)
  Call.ofExcept result

/-! ### Credentials -/

def checkOpen : Call Unit := do
  if (← Call.read fun s => s.slot) = .revoked then throw .closed

/-- The token that was found, or the one that a flight brings. -/
def take (t : TokenCache) (service : SignOn) : State.Found → Call (AccessToken × Option Nat)
  | .closed => throw .closed
  | .cached g token => return (token, some g)
  | .flight g => return (← t.follow service g, some g)

/-- A token and its generation, fetched if there is none that is good. -/
def ensure (t : TokenCache) : Call (AccessToken × Option Nat) := do
  match t.strategy with
  | .basic _ => throw (.auth .noToken)
  | .token token =>
    checkOpen
    return (token, none)
  | .signOn service => t.take service (← Call.atom (State.acquire t.margin))

def token (t : TokenCache) : Call AccessToken := do
  return (← t.ensure).1

/-- What the next request is made with. -/
def credential (t : TokenCache) : Call Credential := do
  match t.strategy with
  | .basic authorization =>
    checkOpen
    return { authorization, generation := none }
  | _ =>
    let (token, generation) ← t.ensure
    return { authorization := token.authorization, generation }

def invalidate (g : Nat) : Task State Unit :=
  Task.update (State.invalidate g)

/-! ### The end -/

/-- Logs what has become of the request to revoke a token. -/
def noteRevocation (c : Client) (reply : Except ClientError Reply) : Task State Unit :=
  Task.update (State.note (SignOn.revocationEvent c.settings.maxBodySize reply))

/-- Tells the service that a token is no longer used; what goes wrong is only logged. -/
def revokeToken (c : Client) (service : SignOn) (token : AccessToken) : Task State Unit := do
  noteRevocation c (← (c.send (service.revokeDraft token)).within State.wire State.setWire)

/-- Enters the end for good and revokes a token that was fetched. -/
def revoke (t : TokenCache) : Task State Unit := do
  let previous ← Task.atom State.revoke
  match t.strategy, previous with
  | .signOn service, .ready _ token => revokeToken t.client service token
  | .signOn _, .pending g => Task.update (State.note (.flightDiscarded g))
  | _, _ => pure ()

end TokenCache
end EngineClient
