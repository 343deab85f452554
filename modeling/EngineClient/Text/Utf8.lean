/-!
# UTF-8

Bytes of a text and text of bytes. `decode?` accepts well-formed sequences only; `decodeLossy` puts one
replacement character for each longest piece that cannot be continued.
-/

namespace EngineClient

/-- A run of bytes: a body, a header value, a file. -/
abbrev Bytes := List UInt8

namespace Text

/-- The UTF-8 bytes of a text. -/
def encode (cs : List Char) : Bytes :=
  cs.flatMap String.utf8EncodeChar

/-- The UTF-8 bytes of a string. -/
def utf8 (s : String) : Bytes :=
  encode s.toList

/-- The text that bytes are the UTF-8 form of. -/
def decode? (bs : Bytes) : Option (List Char) :=
  bs.toByteArray.utf8Decode?.map Array.toList

/-- The string that bytes are the UTF-8 form of. -/
def string? (bs : Bytes) : Option String :=
  (decode? bs).map String.ofList

@[simp]
theorem decode?_encode (cs : List Char) : decode? (encode cs) = some cs := by
  have h : (encode cs).toByteArray = cs.utf8Encode := rfl
  simp [decode?, h]

/-! ### Pieces of malformed input -/

/-- How many bytes a sequence beginning with `b` has, and the range of its second byte. -/
def leadOf (b : UInt8) : Option (Nat × UInt8 × UInt8) :=
  if b < 0x80 then some (1, 0, 0)
  else if b < 0xC2 then none
  else if b < 0xE0 then some (2, 0x80, 0xBF)
  else if b = 0xE0 then some (3, 0xA0, 0xBF)
  else if b = 0xED then some (3, 0x80, 0x9F)
  else if b < 0xF0 then some (3, 0x80, 0xBF)
  else if b = 0xF0 then some (4, 0x90, 0xBF)
  else if b < 0xF4 then some (4, 0x80, 0xBF)
  else if b = 0xF4 then some (4, 0x80, 0x8F)
  else none

/-- The length of the longest beginning of `bs` that continues a sequence of `n` more bytes, the first in the
given range and the others in the common one. -/
def tailLength : Nat → UInt8 → UInt8 → Bytes → Nat
  | 0, _, _, _ => 0
  | _, _, _, [] => 0
  | n + 1, lo, hi, b :: r => if lo ≤ b && b ≤ hi then 1 + tailLength n 0x80 0xBF r else 0

/-- The character at the front and the length of the piece it takes, at least one byte. A piece that is no whole
sequence counts as the replacement character. -/
def piece (b : UInt8) (r : Bytes) : Char × Nat :=
  match leadOf b with
  | none => ('\ufffd', 0)
  | some (n, lo, hi) =>
    let k := tailLength (n - 1) lo hi r
    if k + 1 = n then
      match decode? (b :: r.take k) with
      | some [c] => (c, k)
      | _ => ('\ufffd', k)
    else ('\ufffd', k)

def decodeLossy : Bytes → List Char
  | [] => []
  | b :: r =>
    let (c, k) := piece b r
    c :: decodeLossy (r.drop k)
termination_by bs => bs.length
decreasing_by simp only [List.length_drop, List.length_cons]; omega

end Text
end EngineClient
