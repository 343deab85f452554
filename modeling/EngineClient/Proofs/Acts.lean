import EngineClient.Proofs.Token.Together

/-!
# Calls on a connection and its services

All that can be called on a connection, on its clones and on the handles of its services, one after another or by
turns. Beside the calls anything may happen on the wire; the clock goes on.
-/

namespace EngineClient
open EngineClient.State EngineClient.Task

inductive ServiceCall
  | root
  | list (c : Collection) (o : ListOptions)
  | add (c : Collection) (body : Bytes)
  | get (e : Entity) (o : GetOptions)
  | update (e : Entity) (body : Bytes)
  | remove (e : Entity)
  | action (e : Entity) (name : String) (body : Bytes)

def ServiceCall.request : ServiceCall → Request
  | root => .root
  | list c o => c.list o
  | add c body => c.add body
  | get e o => e.get o
  | update e body => e.update body
  | remove e => e.remove
  | action e name body => e.action name body

/-- A call that can be made on a connection. -/
inductive Entry
  | authenticate
  | send (request : Request)
  | test
  | followLink (href : String)
  | service (call : ServiceCall)

inductive Value
  | token (t : AccessToken)
  | response (r : Response)
  | nothing
  deriving DecidableEq

/-- What a call is after: a token, the response to a request, or what a link leads to that is not below the root. -/
inductive Aim
  | token
  | response (request : Request)
  | stray (href : String)

theorem Call.run_map (x : Call α) (f : α → β) :
    (x >>= fun a => pure (f a)).run = x.run.andThen fun r => done (r.map f) := by
  rw [Call.run_bind]
  refine congrArg (Task.andThen _) (funext fun r => ?_)
  cases r <;> rfl

namespace Entry

def call (c : Connection) : Entry → Call Value
  | authenticate => return .token (← c.authenticate)
  | send request => return .response (← c.send request)
  | test => do
    c.test
    return .nothing
  | followLink href => return .response (← c.followLink href)
  | service call => return .response (← c.send call.request)

def aim (c : Connection) : Entry → Aim
  | authenticate => .token
  | send request => .response request
  | test => .response .root
  | followLink href =>
    match c.root.pathOf? href.toList with
    | none => .stray href
    | some path => .response (.get (String.ofList path))
  | service call => .response call.request

def ofResponse : Entry → Response → Value
  | test, _ => .nothing
  | _, r => .response r

/-- Every call but one for a stray link is an authentication or one send. -/
theorem call_run (c : Connection) (entry : Entry) : (entry.call c).run =
    match entry.aim c with
    | .token => c.authenticate.run.andThen fun r => done (r.map Value.token)
    | .response request => (c.send request).run.andThen fun r => done (r.map entry.ofResponse)
    | .stray href => done (.error (.invalidLink href)) := by
  cases entry with
  | authenticate => exact Call.run_map _ _
  | send request => exact Call.run_map _ _
  | test =>
    have whole : (test.call c).run = c.test.run.andThen fun r => done (r.map fun _ => Value.nothing) :=
      Call.run_map c.test fun _ => Value.nothing
    have part : c.test.run = (c.send .root).run.andThen fun r => done (r.map fun _ => ()) :=
      Call.run_map (c.send .root) fun _ => ()
    rw [whole, part, andThen_assoc]
    refine congrArg (Task.andThen _) (funext fun r => ?_)
    cases r <;> rfl
  | followLink href =>
    cases path : c.root.pathOf? href.toList with
    | none =>
      simp only [call, aim, Connection.followLink, path]
      rfl
    | some path' =>
      simp only [call, aim, Connection.followLink, path]
      exact Call.run_map _ _
  | service call => exact Call.run_map _ _

theorem call_obeys (c : Connection) (entry : Entry) : (entry.call c).run.Obeys c.tokens.margin fun _ => True := by
  rw [call_run]
  split
  · exact (c.authenticate_obeys fun _ _ => trivial).map _
  · exact (c.send_obeys (fun _ _ => trivial) (fun _ => trivial) _).map _
  · exact obeys_done _

end Entry

/-! ### One after another and by turns -/

inductive Act
  | call (entry : Entry)
  | close
  | outside (change : Wire → Wire)

namespace Act

def task (c : Connection) : Act → Task State (Except Error Value)
  | call entry => (entry.call c).run
  | close => c.close.andThen fun _ => done (.ok .nothing)
  | outside change => (changeOutside change).andThen fun _ => done (.ok .nothing)

theorem task_obeys (c : Connection) (act : Act) : (act.task c).Obeys c.tokens.margin fun _ => True := by
  cases act with
  | call entry => exact entry.call_obeys c
  | close => exact (c.close_obeys trivial trivial).map _
  | outside change => exact (changeOutside_obeys trivial change).map _

end Act

namespace Connection

/-- Acts one after another, each to its end before the next. -/
def play (c : Connection) (acts : List Act) (s : State) : List (Except Error Value) × State :=
  finishAll (acts.map (Act.task c)) s

/-- Acts that take their steps by turns. -/
def mingle (c : Connection) (acts : Nat → Act) (s : State) (turns : Nat → Turn) : Run State (Except Error Value) :=
  { start := { tasks := fun i => some ((acts i).task c), state := s }, turns }

theorem play_cons (c : Connection) (act : Act) (acts : List Act) (s : State) : c.play (act :: acts) s =
    (((act.task c).run s).1 :: (c.play acts ((act.task c).run s).2).1, (c.play acts ((act.task c).run s).2).2) := rfl

end Connection
end EngineClient
