import EngineClient.Http.Uri
import EngineClient.Task
import EngineClient.Time.Span
import EngineClient.Transport.Failure
import EngineClient.Transport.Log

/-!
# The network

What lies outside: a network decides, by all that was sent before, what becomes of a request. `Wire` is the state of
one client on it: the clock, what was sent and logged, and whether the client is still open.
-/

namespace EngineClient

/-- A request as it leaves. -/
structure Outbound where
  method : Method
  uri : Uri
  headers : HeaderMap
  body : Bytes
  deriving DecidableEq

/-- The tunnel that a proxy is asked for. -/
structure Tunnel where
  target : String
  authorization : Option HeaderValue
  deriving DecidableEq

/-- What reaches the network in one exchange: the tunnel, if there is a proxy, and the request, unless the tunnel
is refused. -/
structure Sent where
  tunnel : Option Tunnel
  request : Option Outbound
  deriving DecidableEq

/-- A part of a body as it arrives. -/
inductive Frame
  | data (bytes : Bytes)
  | trailers (headers : HeaderMap)
  deriving DecidableEq

/-- An answer; `fault` is a failure that ends its body early. -/
structure Reply where
  status : Status
  headers : HeaderMap
  frames : List Frame
  fault : Option Failure := none
  deriving DecidableEq

/-- What becomes of a request. -/
inductive Outcome
  /-- No connection is made, and nothing is sent. -/
  | unreachable (failure : Failure)
  /-- The proxy refuses the tunnel. -/
  | refused (failure : Failure)
  /-- The request is sent, and the connection fails. -/
  | broken (failure : Failure)
  /-- The request is sent, and nothing comes back. -/
  | silent
  /-- An answer comes back after a while. -/
  | answered (delay : Span) (reply : Reply)
  deriving DecidableEq

/-- What becomes of a request that follows others. -/
abbrev Network := List Sent → Outbound → Outcome

/-- A network on which the system permits no connection. -/
def Network.closedOff : Network :=
  fun _ _ => .unreachable [.described "client error (Connect)", .io .permissionDenied]

/-- The state of a client on a network. -/
structure Wire where
  network : Network
  now : Instant := .start
  /-- The moment of the calendar, in seconds from the beginning of 1970. -/
  today : Nat := 0
  sent : List Sent := []
  log : List LogEvent := []
  isOpen : Bool := true

namespace Wire

def note (e : LogEvent) (w : Wire) : Wire :=
  { w with log := w.log ++ [e] }

def noteAll (es : List LogEvent) (w : Wire) : Wire :=
  { w with log := w.log ++ es }

def record (s : Sent) (w : Wire) : Wire :=
  { w with sent := w.sent ++ [s] }

def advance (d : Span) (w : Wire) : Wire :=
  { w with now := w.now.later d }

end Wire
end EngineClient
