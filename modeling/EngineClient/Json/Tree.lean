import EngineClient.Text.Utf8

/-!
# JSON documents

The shape of a document over any form of its strings and numbers, and the errors of reading one, each at the place
where it is noticed.
-/

namespace EngineClient.Json

/-- A document whose strings are of type `σ` and whose numbers of type `ν`. -/
inductive Tree (σ ν : Type) where
  | null
  | bool (b : Bool)
  | number (n : ν)
  | string (s : σ)
  | array (items : List (Tree σ ν))
  | object (members : List (σ × Tree σ ν))
  deriving Inhabited, Repr

/-- What is wrong with a document. -/
inductive Defect
  | endInList
  | endInObject
  | endInString
  | endInValue
  | expectedColon
  | expectedListCommaOrEnd
  | expectedObjectCommaOrEnd
  | expectedWord
  | expectedValue
  | badEscape
  | badNumber
  | numberRange
  | badCodePoint
  | controlCharacter
  | keyNotString
  | loneSurrogate
  | trailingComma
  | trailingCharacters
  | endOfHexEscape
  | tooDeep
  deriving DecidableEq, Repr

def Defect.message : Defect → String
  | .endInList => "EOF while parsing a list"
  | .endInObject => "EOF while parsing an object"
  | .endInString => "EOF while parsing a string"
  | .endInValue => "EOF while parsing a value"
  | .expectedColon => "expected \x60:\x60"
  | .expectedListCommaOrEnd => "expected \x60,\x60 or \x60]\x60"
  | .expectedObjectCommaOrEnd => "expected \x60,\x60 or \x60\x7d\x60"
  | .expectedWord => "expected ident"
  | .expectedValue => "expected value"
  | .badEscape => "invalid escape"
  | .badNumber => "invalid number"
  | .numberRange => "number out of range"
  | .badCodePoint => "invalid unicode code point"
  | .controlCharacter => "control character (\\u0000-\\u001F) found while parsing a string"
  | .keyNotString => "key must be a string"
  | .loneSurrogate => "lone leading surrogate in hex escape"
  | .trailingComma => "trailing comma"
  | .trailingCharacters => "trailing characters"
  | .endOfHexEscape => "unexpected end of hex escape"
  | .tooDeep => "recursion limit exceeded"

/-- A defect, noticed with so many bytes still unread. -/
structure ReadError where
  defect : Defect
  left : Nat
  deriving DecidableEq, Repr

def failAfter (d : Defect) (rest : Bytes) : Except ReadError α :=
  .error ⟨d, rest.length⟩

def failAt (d : Defect) (rest : Bytes) : Except ReadError α :=
  .error ⟨d, rest.length - 1⟩

/-- The line and the column, both counted from 1, of the last of the bytes read. -/
def place (body : Bytes) (left : Nat) : Nat × Nat :=
  let read := body.take (body.length - left)
  (1 + read.count 10, (read.reverse.takeWhile (· != 10)).length)

def ReadError.message (body : Bytes) (e : ReadError) : String :=
  let (line, column) := place body e.left
  e.defect.message ++ " at line " ++ toString line ++ " column " ++ toString column

end EngineClient.Json
