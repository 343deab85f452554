import EngineClient.Text.Utf8

/-!
# Certificates

Whether a binary object is a certificate that can serve as a trusted root: its structure, in definite-length
encoding, and the extensions it marks as critical.
-/

namespace EngineClient.Certificate

/-- Why an object cannot serve as a root. -/
inductive Error
  | encoding
  | algorithmMismatch
  | criticalExtension
  | repeatedExtension
  deriving DecidableEq, Repr

def Error.message : Error → String
  | .encoding => "invalid peer certificate: BadEncoding"
  | .algorithmMismatch => "invalid peer certificate: Other(OtherError(SignatureAlgorithmMismatch))"
  | .criticalExtension => "invalid peer certificate: Other(OtherError(UnsupportedCriticalExtension))"
  | .repeatedExtension => "invalid peer certificate: Other(OtherError(ExtensionValueInvalid))"

/-! ### Elements -/

/-- The number that bytes stand for, most significant first. -/
def number (bs : Bytes) : Nat :=
  bs.foldl (fun n b => 256 * n + b.toNat) 0

/-- Elements longer than this are refused. -/
def sizeLimit : Nat := 65535

/-- Reads a length, in the shortest form that holds it. -/
def length? : Bytes → Option (Nat × Bytes)
  | [] => none
  | b :: r =>
    if b < 0x80 then some (b.toNat, r)
    else
      let k := b.toNat - 0x80
      let n := number (r.take k)
      let least := if k = 1 then 0x80 else Nat.pow 256 (k - 1)
      if 1 ≤ k && k ≤ 4 && k ≤ r.length && least ≤ n then some (n, r.drop k) else none

/-- Reads an element with a given tag: its contents and what follows it. -/
def element? (tag : UInt8) : Bytes → Except Error (Bytes × Bytes)
  | [] => .error .encoding
  | b :: r =>
    if b != tag then .error .encoding
    else match length? r with
      | none => .error .encoding
      | some (n, r) =>
        if n ≥ sizeLimit || r.length < n then .error .encoding else .ok (r.take n, r.drop n)

def ended : Bytes → Except Error Unit
  | [] => .ok ()
  | _ => .error .encoding

def sequenceTag : UInt8 := 0x30
def integerTag : UInt8 := 0x02
def bitStringTag : UInt8 := 0x03
def octetStringTag : UInt8 := 0x04
def identifierTag : UInt8 := 0x06
def booleanTag : UInt8 := 0x01
def versionTag : UInt8 := 0xA0
def extensionsTag : UInt8 := 0xA3

def skip? : Nat → Bytes → Except Error Bytes
  | 0, bs => .ok bs
  | n + 1, bs => do
    let (_, rest) ← element? sequenceTag bs
    skip? n rest

/-! ### Extensions -/

/-- Extensions that are understood, by the last number of their identifiers. -/
def understood : List UInt8 := [15, 17, 19, 30, 31, 37]

def critical? (bs : Bytes) : Except Error (Bool × Bytes) :=
  match bs with
  | 0x01 :: _ => do
    let (value, rest) ← element? booleanTag bs
    match value with
    | [0xFF] => return (true, rest)
    | [0x00] => return (false, rest)
    | _ => throw .encoding
  | _ => .ok (false, bs)

/-- Checks one extension against those seen before it and notes it. -/
def takeExtension (seen : List UInt8) (contents : Bytes) : Except Error (List UInt8) := do
  let (identifier, rest) ← element? identifierTag contents
  let (critical, rest) ← critical? rest
  let (value, rest) ← element? octetStringTag rest
  ended rest
  let known := match identifier with
    | [0x55, 0x1D, n] => if understood.contains n then some n else none
    | _ => none
  match known with
  | none => if critical then throw .criticalExtension else return seen
  | some n =>
    if seen.contains n then throw .repeatedExtension
    if n != 15 then
      let (_, rest) ← element? sequenceTag value
      ended rest
    return n :: seen

/-- Checks extensions to the end, at most `fuel` of them. -/
def takeExtensions : Nat → List UInt8 → Bytes → Except Error Unit
  | 0, _, _ => .error .encoding
  | fuel + 1, seen, bs => do
    let (contents, rest) ← element? sequenceTag bs
    let seen ← takeExtension seen contents
    if rest.isEmpty then return else takeExtensions fuel seen rest

/-! ### The whole -/

/-- Reads the signed part, which the algorithm is repeated in, from after its version on. -/
def checkBody (algorithm : Bytes) (bs : Bytes) : Except Error Unit := do
  let (_, rest) ← element? integerTag bs
  let (inner, rest) ← element? sequenceTag rest
  if inner != algorithm then throw .algorithmMismatch
  let rest ← skip? 4 rest
  if rest.isEmpty then return
  let (tagged, rest) ← element? extensionsTag rest
  if !tagged.isEmpty then
    let (extensions, after) ← element? sequenceTag tagged
    if !extensions.isEmpty then takeExtensions extensions.length [] extensions
    ended after
  ended rest

/-- Reads the signed part of a certificate of the first version, which names no version. -/
def checkFirstVersion (bs : Bytes) : Except Error Unit := do
  let (_, rest) ← element? integerTag bs
  ended (← skip? 5 rest)

def check (bs : Bytes) : Except Error Unit := do
  let (whole, rest) ← element? sequenceTag bs
  ended rest
  let (body, rest) ← element? sequenceTag whole
  let (algorithm, rest) ← element? sequenceTag rest
  let (signature, rest) ← element? bitStringTag rest
  ended rest
  if signature.head? != some 0 then throw .encoding
  match element? versionTag body with
  | .ok ([0x02, 0x01, 0x02], rest) => checkBody algorithm rest
  | .ok _ => throw .encoding
  | .error _ => checkFirstVersion body

end EngineClient.Certificate
