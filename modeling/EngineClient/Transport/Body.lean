import EngineClient.Transport.Error
import EngineClient.Transport.Network

/-!
# Reading bodies

A body is read frame by frame up to a limit. Reading ends with the first frame that passes the limit, which is not
kept, or with the failure that ends the body early.
-/

namespace EngineClient

/-- Reads frames after `got`; `fault` is what comes after the last one. -/
def readFrames (limit : Nat) (fault : Option Failure) (got : Bytes) : List Frame → Except ClientError Bytes
  | [] => match fault with
    | none => .ok got
    | some f => .error (.transport f)
  | .trailers _ :: r => readFrames limit fault got r
  | .data bytes :: r =>
    let total := got.length + bytes.length
    if total > limit then .error (.bodyTooLarge limit total) else readFrames limit fault (got ++ bytes) r

def Reply.read (limit : Nat) (reply : Reply) : Except ClientError Bytes :=
  readFrames limit reply.fault [] reply.frames

end EngineClient
