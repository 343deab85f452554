import EngineClient.Api.Error
import EngineClient.Api.Token
import EngineClient.Transport.Client

/-!
# State of a connection

What all clones of a connection share: the client's wire, the token slot, the flights that fetch tokens and the
closed flag. Each function here is one atomic step. A flight is one exchange for a token; it belongs to no caller,
so that it goes on when the caller that began it is gone.
-/

namespace EngineClient

/-- The token of a connection. Every flight has a generation of its own. -/
inductive Slot
  | empty
  | pending (generation : Nat)
  | ready (generation : Nat) (token : AccessToken)
  /-- The end; nothing leads out of it. -/
  | revoked
  deriving DecidableEq

/-- How far a flight has come. -/
inductive Flight
  | begun
  | underway (exchange : Client.InFlight)
  | landed (result : Except Error AccessToken)

structure State where
  wire : Wire
  slot : Slot := .empty
  /-- The generation given out last. -/
  generation : Nat := 0
  /-- Flights by their generations, the last one first. -/
  flights : List (Nat × Flight) := []
  closed : Bool := false
  /-- The URLs for which a source of tickets was asked. -/
  asked : List String := []

namespace State

def setWire (w : Wire) (s : State) : State :=
  { s with wire := w }

def onWire (f : Wire → α × Wire) (s : State) : α × State :=
  let (a, w) := f s.wire
  (a, s.setWire w)

def note (e : LogEvent) (s : State) : State :=
  s.setWire (s.wire.note e)

def noteAll (es : List LogEvent) (s : State) : State :=
  s.setWire (s.wire.noteAll es)

def flight? (s : State) (g : Nat) : Option Flight :=
  s.flights.lookup g

def setFlight (g : Nat) (f : Flight) (s : State) : State :=
  { s with flights := s.flights.map fun p => if p.1 = g then (g, f) else p }

/-- What a flight has brought, once it has landed. -/
def result? (s : State) (g : Nat) : Option (Except Error AccessToken) :=
  match s.flight? g with
  | some (.landed r) => some r
  | _ => none

/-! ### The slot -/

/-- What a caller that needs a token finds. -/
inductive Found
  | closed
  | cached (generation : Nat) (token : AccessToken)
  /-- A flight to wait for. -/
  | flight (generation : Nat)
  deriving DecidableEq

/-- Lets the slot wait for a flight of the next generation. -/
def begin (s : State) : State :=
  let g := s.generation + 1
  { s.note (.flightBegun g) with slot := .pending g, generation := g, flights := (g, .begun) :: s.flights }

/-- Takes the token if it is good for longer than the margin, joins the flight if there is one, or begins the next
one. -/
def acquire (margin : Span) (s : State) : Found × State :=
  match s.slot with
  | .revoked => (.closed, s)
  | .pending g => (.flight g, s.note (.flightJoined g))
  | .empty => (.flight (s.generation + 1), s.begin)
  | .ready g t =>
    if t.isExpired s.wire.now margin then (.flight (s.generation + 1), s.begin)
    else (.cached g t, s.note (.tokenReused g))

/-- What is logged when a flight settles the slot. -/
def settleEvents (margin : Span) (g : Nat) : Except Error AccessToken → List LogEvent
  | .ok t =>
    match t.lifetime with
    | some life => if life.half.nanos < margin.nanos then [.shortLife g life margin] else []
    | none => []
  | .error e => [.flightFailed g e.message]

/-- Puts what a flight has brought into the slot, if the slot still waits for it. -/
def settle (margin : Span) (g : Nat) (result : Except Error AccessToken) (s : State) : State :=
  if s.slot = .pending g then
    { s.noteAll (settleEvents margin g result) with slot := match result with
      | .ok t => .ready g t
      | .error _ => .empty }
  else s

/-- Drops the token, which is the one of a generation. -/
def drop (g : Nat) (s : State) : State :=
  { s.note (.tokenInvalidated g) with slot := .empty }

/-- Drops the token if it is the one of a generation. -/
def invalidate (g : Nat) (s : State) : State :=
  match s.slot with
  | .ready cached _ => if cached = g then s.drop g else s
  | _ => s

/-- Enters the end; gives what was in the slot. -/
def revoke (s : State) : Slot × State :=
  (s.slot, { s with slot := .revoked })

/-! ### Fields after changes -/

variable (s : State)

@[simp]
theorem slot_note (e : LogEvent) : (s.note e).slot = s.slot := rfl

@[simp]
theorem flights_noteAll (es : List LogEvent) : (s.noteAll es).flights = s.flights := rfl

@[simp]
theorem slot_begin : s.begin.slot = .pending (s.generation + 1) := rfl

@[simp]
theorem flights_begin : s.begin.flights = (s.generation + 1, .begun) :: s.flights := rfl

@[simp]
theorem slot_drop (g : Nat) : (s.drop g).slot = .empty := rfl

@[simp]
theorem flights_drop (g : Nat) : (s.drop g).flights = s.flights := rfl

end State
end EngineClient
