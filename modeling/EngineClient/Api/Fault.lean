import EngineClient.Api.Report
import EngineClient.Api.Request
import EngineClient.Http.RetryAfter

/-!
# Faults

A response that is no success, with what its body says of the reason and what its headers say of a later try.
-/

namespace EngineClient

structure Fault where
  status : Status
  reason : Option String := none
  detail : Option String := none
  retryAfter : Option RetryAfter := none
  deriving DecidableEq

namespace Fault

def ofStatus (status : Status) : Fault := { status }

/-- The fault that a response carries, read at a moment of the calendar. -/
def ofResponse (today : Nat) (r : Response) : Fault :=
  let (reason, detail) := Report.decode r.contentType r.body
  { status := r.status, reason, detail, retryAfter := RetryAfter.ofHeaders? today r.headers }

def message (f : Fault) : String :=
  let part := fun (before : String) (text : Option String) (after : String) =>
    match text with
    | none => ""
    | some t => before ++ t ++ after
  part "Fault reason is \"" f.reason "\". " ++ part "Fault detail is \"" f.detail "\". "
    ++ "HTTP response code is " ++ Text.decimal f.status.code ++ "."
    ++ part " HTTP response message is \"" f.status.phrase? "\"."

end Fault
end EngineClient
