import EngineClient.Text.Percent

/-!
# Form encoding

Lists of names and values as `application/x-www-form-urlencoded` text: pairs joined by ampersands, a space as
a plus sign, bytes other than letters, digits, `*`, `-`, `.` and `_` percent-encoded. `parse` reads such text back.
-/

namespace EngineClient.Text.Form

/-- A name and its value. -/
abbrev Field := String × String

def stands (b : UInt8) : Bool :=
  (charOf b).isAlphanum || b == 0x2A || b == 0x2D || b == 0x2E || b == 0x5F

def encodeByte (b : UInt8) : List Char :=
  if b == 0x20 then ['+'] else if stands b then [charOf b] else percentByte b

def encodeText (s : String) : List Char :=
  (utf8 s).flatMap encodeByte

def encodeField (f : Field) : List Char :=
  encodeText f.1 ++ '=' :: encodeText f.2

def render (fields : List Field) : List Char :=
  List.intercalate ['&'] (fields.map encodeField)

/-! ### Reading -/

/-- What stands before the first `c`, and what stands after it if it occurs. -/
def cut (c : Char) (cs : List Char) : List Char × List Char :=
  (cs.takeWhile (· != c), (cs.dropWhile (· != c)).drop 1)

def decodeText (cs : List Char) : String :=
  String.ofList (decodeLossy (percentDecode (cs.map fun c => if c = '+' then ' ' else c)))

def parseField (cs : List Char) : Field :=
  let (name, value) := cut '=' cs
  (decodeText name, decodeText value)

/-- Pieces between occurrences of `c`. -/
def pieces (c : Char) (cs : List Char) : List (List Char) :=
  cs.splitOn c

/-- Fields of form-encoded text; empty pieces count for nothing. -/
def parse (cs : List Char) : List Field :=
  ((pieces '&' cs).filter fun p => !p.isEmpty).map parseField

end EngineClient.Text.Form
