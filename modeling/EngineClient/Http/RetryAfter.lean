import EngineClient.Http.HeaderMap
import EngineClient.Text.Blank
import EngineClient.Time.HttpDate
import EngineClient.Time.Span

/-!
# When to try again

The `Retry-After` header: a number of seconds, or a date. A negative number and a date that is past say nothing.
-/

namespace EngineClient

/-- The advice of a server that is busy. -/
inductive RetryAfter
  /-- Wait so many seconds. -/
  | delay (seconds : Nat)
  /-- Wait until a moment, in seconds from the beginning of 1970. -/
  | date (unixSeconds : Nat)
  deriving DecidableEq, Repr

namespace RetryAfter

def ofText? (now : Nat) (cs : List Char) : Option RetryAfter :=
  let cs := Text.trim cs
  match Text.signed64? cs with
  | some n => if n < 0 then none else some (.delay n.toNat)
  | none => ((HttpDate.parse? cs).filter fun d => now ≤ d.unixSeconds).map fun d => .date d.unixSeconds

/-- The advice in the first `Retry-After` header, if it can be read. -/
def ofHeaders? (now : Nat) (m : HeaderMap) : Option RetryAfter := do
  let v ← m.get? .retryAfter
  ofText? now (← v.text?).toList

def wait (now : Nat) : RetryAfter → Span
  | delay n => .seconds n
  | date t => .seconds (t - now)

end RetryAfter
end EngineClient
