import EngineClient.Text.Base64

/-!
# Armoured sections

Text armour around binary objects: a `BEGIN` line with a label, lines of base64, and the `END` line with the same
label. Lines outside sections and sections of unknown labels are passed over.
-/

namespace EngineClient.Pem

/-- Why armoured text cannot be read. -/
inductive Error
  | openSection (label : Bytes)
  | beginLine (line : Bytes)
  | badCharacter (byte : UInt8)
  | padding
  | earlyPadding
  deriving DecidableEq, Repr

def byteList (bs : Bytes) : String :=
  "[" ++ ", ".intercalate (bs.map fun b => toString b.toNat) ++ "]"

def Error.message : Error → String
  | .openSection label => "missing section end marker: " ++ byteList label
  | .beginLine line => "illegal section start: " ++ byteList line
  | .badCharacter b => "base64 decode error: InvalidCharacter(" ++ toString b.toNat ++ ")"
  | .padding => "base64 decode error: InvalidTrailingPadding"
  | .earlyPadding => "base64 decode error: PrematurePadding"

/-! ### Lines -/

def endsLine (b : UInt8) : Bool :=
  b == 10 || b == 13

/-- Lines of a buffer, each ended by a line feed or a carriage return; `keepEnds` leaves the ends on them. -/
def linesFrom (keepEnds : Bool) (line : Bytes) : Bytes → List Bytes
  | [] => if line.isEmpty then [] else [line.reverse]
  | b :: r =>
    if endsLine b then (if keepEnds then (b :: line).reverse else line.reverse) :: linesFrom keepEnds [] r
    else linesFrom keepEnds (b :: line) r

def lines (keepEnds : Bool) (bs : Bytes) : List Bytes :=
  linesFrom keepEnds [] bs

/-! ### Base64 of a section -/

def isSkipped (b : UInt8) : Bool :=
  b == 32 || b == 9 || b == 10 || b == 13

/-- One character: a value or padding. -/
def symbol (b : UInt8) : Except Error (Option Nat) :=
  if b == 0x3D then .ok none
  else match Text.Base64.value? (Char.ofNat b.toNat) with
    | some n => .ok (some n)
    | none => .error (.badCharacter b)

/-- The bytes of the last four characters or fewer; padding at the end may be left out. -/
def lastQuad : List (Option Nat) → Except Error Bytes
  | [] => .ok []
  | [some a, some b] | [some a, some b, none] | [some a, some b, none, none] =>
    .ok ((Text.Base64.triple a b 0 0).take 1)
  | [some a, some b, some c] | [some a, some b, some c, none] => .ok ((Text.Base64.triple a b c 0).take 2)
  | [some a, some b, some c, some d] => .ok (Text.Base64.triple a b c d)
  | _ => .error .padding

def quads : List (Option Nat) → Except Error Bytes
  | [some a, some b, some c, some d] => .ok (Text.Base64.triple a b c d)
  | some a :: some b :: some c :: some d :: r => do
    return Text.Base64.triple a b c d ++ (← quads r)
  | s => if s.length > 4 then .error .earlyPadding else lastQuad s

def decodeBody (bs : Bytes) : Except Error Bytes := do
  quads (← (bs.filter (!isSkipped ·)).mapM symbol)

/-! ### Sections -/

def knownLabels : List String :=
  ["CERTIFICATE", "PUBLIC KEY", "RSA PRIVATE KEY", "PRIVATE KEY", "EC PRIVATE KEY", "X509 CRL",
    "CERTIFICATE REQUEST", "ECHCONFIG"]

/-- A decoded section. -/
structure Section where
  label : String
  contents : Bytes
  deriving DecidableEq, Repr

/-- What follows the front of a run of bytes, if it begins with it. -/
def after? (front bs : Bytes) : Option Bytes :=
  if front.isPrefixOf bs then some (bs.drop front.length) else none

/-- The label on a `BEGIN` line, if exactly five dashes end the line, blanks aside. -/
def beginLabel? (rest : Bytes) : Option Bytes :=
  let isBlank := fun b => b == 10 || b == 13 || b == 32
  let isTrailer := fun b => isBlank b || b == 0x2D
  let trailer := (rest.reverse.takeWhile isTrailer).reverse
  let dashes := trailer.dropWhile isBlank
  if (trailer.filter (· == 0x2D)).length = 5 then some (rest.take (rest.length - dashes.length)) else none

/-- A section being read: its label and the base64 so far. -/
structure Reading where
  label : Option Bytes := none
  body : Bytes := []

/-- All sections of known labels, in order. A `BEGIN` line inside a section starts a new one and drops none of the
base64 read so far. -/
def sectionsOf (r : Reading) : List Bytes → Except Error (List Section)
  | [] => match r.label with
    | none => .ok []
    | some label => .error (.openSection label)
  | line :: rest =>
    match after? (Text.utf8 "-----BEGIN ") line with
    | some tail => match beginLabel? tail with
      | none => .error (.beginLine line)
      | some label => sectionsOf { r with label := some label } rest
    | none => match r.label with
      | none => sectionsOf r rest
      | some label =>
        if (Text.utf8 "-----END " ++ label ++ Text.utf8 "-----").isPrefixOf line then
          match knownLabels.find? fun k => Text.utf8 k == label with
          | none => sectionsOf {} rest
          | some known => do
            let contents ← decodeBody r.body
            return { label := known, contents } :: (← sectionsOf {} rest)
        else sectionsOf { r with body := r.body ++ line } rest

def sections (keepEnds : Bool) (bs : Bytes) : Except Error (List Section) :=
  sectionsOf {} (lines keepEnds bs)

def certificates (keepEnds : Bool) (bs : Bytes) : Except Error (List Bytes) := do
  return ((← sections keepEnds bs).filter (·.label == "CERTIFICATE")).map (·.contents)

end EngineClient.Pem
