import EngineClient.Text.Ascii
import EngineClient.Xml.Token

/-!
# Contents of documents

What a document says, read off its markup: elements, and the text in them with entities resolved. Adjacent runs
of text are one, whatever stands between them that says nothing; blanks next to tags are left out.
-/

namespace EngineClient.Xml

/-! ### Entities -/

/-- The character with a number, if there is one that text may hold. -/
def character? (n : Nat) : Option Char :=
  if n ≠ 0 && (n < 0xD800 || (0xDFFF < n && n ≤ 0x10FFFF)) then some (Char.ofNat n) else none

/-- What the name of an entity, or a number after a `#`, stands for. -/
def entity? (name : List Char) : Option Char :=
  match name with
  | '#' :: 'x' :: ds =>
    if ds.length ≤ 6 && ds.all Text.isHexDigit then character? (Text.positional 16 ds) else none
  | '#' :: ds =>
    if ds.length ≤ 7 && ds.all Char.isDigit then character? (Text.positional 10 ds) else none
  | _ =>
    if name = "lt".toList then some '<'
    else if name = "gt".toList then some '>'
    else if name = "amp".toList then some '&'
    else if name = "apos".toList then some '\''
    else if name = "quot".toList then some '"'
    else none

/-- Text with its entities resolved; `name` holds the name being read, last first. -/
def resolveFrom : Option (List Char) → List Char → Option (List Char)
  | none, [] => some []
  | some _, [] => none
  | none, '&' :: r => resolveFrom (some []) r
  | none, c :: r => (resolveFrom none r).map (c :: ·)
  | some name, ';' :: r => do
    let c ← entity? name.reverse
    return c :: (← resolveFrom none r)
  | some _, '&' :: _ => none
  | some name, c :: r => resolveFrom (some (c :: name)) r

def resolve? (raw : List Char) : Option (List Char) :=
  resolveFrom none raw

/-! ### Attributes -/

/-- Whether the attributes of a tag are names with quoted values, no name twice. -/
def attributesFrom : Nat → List (List Char) → List Char → Bool
  | 0, _, _ => false
  | fuel + 1, seen, cs =>
    match cs.dropWhile isSpace with
    | [] => true
    | first :: r =>
      let name := first :: r.takeWhile fun c => c != '=' && !isSpace c
      match (r.drop (name.length - 1)).dropWhile isSpace with
      | '=' :: r =>
        if seen.contains name then false
        else match r.dropWhile isSpace with
          | q :: r =>
            if q = '"' || q = '\'' then
              match r.dropWhile (· != q) with
              | [] => false
              | _ :: r => attributesFrom fuel (name :: seen) r
            else false
          | [] => false
      | _ => false

def attributesAreGood (cs : List Char) : Bool :=
  attributesFrom (cs.length + 1) [] cs

/-! ### Events -/

inductive Event
  | opening (name attributes : List Char)
  | closing (name : List Char)
  /-- Text; none if an entity in it cannot be resolved. -/
  | text (resolved : Option (List Char))
  | broken
  deriving DecidableEq, Repr

/-- A run of text: its text, whether it may be trimmed. -/
abbrev Piece := List Char × Bool

/-- The text of adjacent pieces: entities are resolved in those that are not verbatim, after the last one, if it is
such, has been trimmed at its end. -/
def join : List Piece → Option (List Char)
  | [] => some []
  | [(cs, true)] => resolve? (Text.trimEnd isSpace cs)
  | (cs, true) :: r => do return (← resolve? cs) ++ (← join r)
  | (cs, false) :: r => do return cs ++ (← join r)

/-- The event of the pieces read so far, if there are any. -/
def flush (pieces : List Piece) : List Event :=
  if pieces.isEmpty then [] else [.text (join pieces.reverse)]

/-- Events of the pieces of a document; `pieces` holds the text read so far, last first. A run of text right after
a tag is trimmed at its front and dropped if nothing is left. -/
def eventsFrom (pieces : List Piece) : List Token → List Event
  | [] => flush pieces
  | .aside :: r => eventsFrom pieces r
  | .text raw :: r =>
    let raw := if pieces.isEmpty then Text.trimStart isSpace raw else raw
    if pieces.isEmpty && raw.isEmpty then eventsFrom pieces r else eventsFrom ((raw, true) :: pieces) r
  | .verbatim text :: r => eventsFrom ((text, false) :: pieces) r
  | .opening name attributes :: r => flush pieces ++ .opening name attributes :: eventsFrom [] r
  | .closing name :: r => flush pieces ++ .closing name :: eventsFrom [] r
  | .doctype :: r => flush pieces ++ eventsFrom [] r
  | .broken :: _ => flush pieces ++ [.broken]

def events (cs : List Char) : List Event :=
  eventsFrom [] (tokens cs)

/-- The name without what stands up to its first colon. -/
def localName (name : List Char) : List Char :=
  match name.dropWhile (· != ':') with
  | [] => name
  | _ :: r => r

/-- Passes over the rest of an element, `depth` elements deep in it. -/
def skipFrom : Nat → List Event → Option (List Event)
  | _, [] => none
  | _, .broken :: _ => none
  | depth, .opening _ _ :: r => skipFrom (depth + 1) r
  | 0, .closing _ :: r => some r
  | depth + 1, .closing _ :: r => skipFrom depth r
  | depth, .text _ :: r => skipFrom depth r

/-- Passes over an element from after its opening tag. Of its text only what comes first has to be readable. -/
def skip? : List Event → Option (List Event)
  | .text none :: _ => none
  | es => skipFrom 0 es

/-- The text of an element that holds nothing else, from after its opening tag. -/
def textContent? : List Event → Option (List Char × List Event)
  | .closing _ :: r => some ([], r)
  | .text (some cs) :: .closing _ :: r => some (cs, r)
  | _ => none

end EngineClient.Xml
