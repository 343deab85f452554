import EngineClient.Text.Blank
import EngineClient.Text.Percent

/-!
# Paths

Paths of URLs without dot segments. `normalize` takes the text after the authority and gives the path that stands
for it: `.` stays where it is, `..` goes up by one, never above the root and never past a drive letter.
-/

namespace EngineClient.Path

def stands (b : UInt8) : Bool :=
  0x20 < b && b < 0x7F && !("\"<>\x60#?\x7b\x7d".toList.contains (Text.charOf b))

def encode (cs : List Char) : List Char :=
  Text.percentEncode stands (Text.encode cs)

/-- A single dot, as it is or escaped, in front of a text; what follows it. -/
def afterDot? : List Char → Option (List Char)
  | '.' :: r => some r
  | '%' :: '2' :: 'e' :: r => some r
  | '%' :: '2' :: 'E' :: r => some r
  | _ => none

/-- What a segment is to a path. -/
inductive Step
  | stay
  | up
  | down
  deriving DecidableEq, Repr

def step (segment : List Char) : Step :=
  match afterDot? segment with
  | none => .down
  | some [] => .stay
  | some r => if afterDot? r = some [] then .up else .down

/-- A letter and a colon or a bar, which `..` does not pass. -/
def isDriveLetter : List Char → Bool
  | [a, b] => a.isAlpha && (b == ':' || b == '|')
  | _ => false

/-- One step up from segments that are listed last first. -/
def goUp : List (List Char) → List (List Char)
  | [] => []
  | last :: r => if isDriveLetter last then last :: r else r

/-- The segments that lie under the root after following `segments`; `done` holds those passed, last first. A dot
segment at the end leaves an empty one. -/
def follow (done : List (List Char)) : List (List Char) → List (List Char)
  | [] => done.reverse
  | [s] =>
    match step s with
    | .stay => ([] :: done).reverse
    | .up => ([] :: goUp done).reverse
    | .down => (s :: done).reverse
  | s :: r =>
    match step s with
    | .stay => follow done r
    | .up => follow (goUp done) r
    | .down => follow (s :: done) r

def isSeparator (c : Char) : Bool :=
  c == '/' || c == '\\'

def segments (cs : List Char) : List (List Char) :=
  cs.splitOnP isSeparator

def write (segments : List (List Char)) : List Char :=
  segments.flatMap fun s => '/' :: s

/-- The path that a text leads to; a separator in front of it is the root's own. -/
def normalize (cs : List Char) : List Char :=
  let cs := match cs with
    | c :: r => if isSeparator c then r else c :: r
    | [] => []
  write (follow [] ((segments cs).map encode))

end EngineClient.Path
