import EngineClient.Text.Blank

/-!
# Failures of the network

A failure is a chain of causes, the outermost first. Its kind is that of the outermost cause that can be
recognized, so that causes wrapped around a chain do not hide it.
-/

namespace EngineClient

/-- Failures of input and output that the system reports. -/
inductive IoKind
  | brokenPipe
  | connectionAborted
  | connectionRefused
  | connectionReset
  | hostUnreachable
  | interrupted
  | invalidData
  | invalidInput
  | networkDown
  | networkUnreachable
  | notConnected
  | notFound
  | other
  | outOfMemory
  | permissionDenied
  | addressInUse
  | addressNotAvailable
  | alreadyExists
  | timedOut
  | unexpectedEnd
  | unsupported
  | wouldBlock
  | writeZero
  deriving DecidableEq, Repr

def IoKind.message : IoKind → String
  | .brokenPipe => "broken pipe"
  | .connectionAborted => "connection aborted"
  | .connectionRefused => "connection refused"
  | .connectionReset => "connection reset"
  | .hostUnreachable => "host unreachable"
  | .interrupted => "operation interrupted"
  | .invalidData => "invalid data"
  | .invalidInput => "invalid input parameter"
  | .networkDown => "network down"
  | .networkUnreachable => "network unreachable"
  | .notConnected => "not connected"
  | .notFound => "entity not found"
  | .other => "other error"
  | .outOfMemory => "out of memory"
  | .permissionDenied => "permission denied"
  | .addressInUse => "address in use"
  | .addressNotAvailable => "address not available"
  | .alreadyExists => "entity already exists"
  | .timedOut => "timed out"
  | .unexpectedEnd => "unexpected end of file"
  | .unsupported => "unsupported"
  | .wouldBlock => "operation would block"
  | .writeZero => "write zero"

/-- One link of a chain. -/
inductive Cause
  /-- An error known by its text. -/
  | described (text : String)
  /-- A failure of input or output; the rest of the chain is what it carries. -/
  | io (kind : IoKind)
  /-- A failure of the encryption layer. -/
  | encryption (text : String)
  deriving DecidableEq, Repr

/-- Causes, the outermost first. -/
abbrev Failure := List Cause

/-- The kinds of failure that callers can tell apart. -/
inductive FailureKind
  | connectRefused
  | tlsHandshake
  | timeout
  | dns
  | other
  deriving DecidableEq, Repr

def FailureKind.message : FailureKind → String
  | .connectRefused => "connection refused"
  | .tlsHandshake => "TLS handshake failure"
  | .timeout => "timeout"
  | .dns => "DNS failure"
  | .other => "transport failure"

namespace Failure

/-- The text of a chain is that of its outermost cause; a failure of input or output speaks for what it carries. -/
def message : Failure → String
  | [] => ""
  | .described text :: _ => text
  | .io kind :: [] => kind.message
  | .io _ :: rest => message rest
  | .encryption text :: _ => "unexpected error: " ++ text

def dnsMark : String := "dns error"

def speaksOfDns (f : Failure) : Bool :=
  (Text.stripFront? dnsMark.toList (message f).toList).isSome

/-- The kind that the outermost cause alone gives a chain. -/
def headKind? : Failure → Option FailureKind
  | [] => none
  | .encryption _ :: _ => some .tlsHandshake
  | .described text :: rest => if speaksOfDns (.described text :: rest) then some .dns else none
  | .io kind :: rest =>
    if speaksOfDns (.io kind :: rest) then some .dns
    else match kind with
      | .connectionRefused => some .connectRefused
      | .timedOut => some .timeout
      | _ => none

/-- The kind of the outermost cause that has one. -/
def kind : Failure → FailureKind
  | [] => .other
  | c :: rest => (headKind? (c :: rest)).getD (kind rest)

end Failure
end EngineClient
