import EngineClient.Text.Ascii
import EngineClient.Text.Utf8

/-!
# Percent encoding

A byte outside a class of bytes that may stand for themselves is written as a percent sign and two upper-case
hexadecimal digits. Reading leaves a percent sign alone that two such digits do not follow.
-/

namespace EngineClient.Text

def charOf (b : UInt8) : Char :=
  Char.ofNat b.toNat

def percentByte (b : UInt8) : List Char :=
  ['%', hexDigitUpper (b.toNat / 16), hexDigitUpper (b.toNat % 16)]

/-- Writes the bytes of `keep` as they are and escapes all others. -/
def percentEncode (keep : UInt8 → Bool) (bs : Bytes) : List Char :=
  bs.flatMap fun b => if keep b then [charOf b] else percentByte b

def percentDecode : List Char → Bytes
  | '%' :: a :: b :: r =>
    if isHexDigit a && isHexDigit b then UInt8.ofNat (16 * digitValue a + digitValue b) :: percentDecode r
    else encode ['%'] ++ percentDecode (a :: b :: r)
  | c :: r => encode [c] ++ percentDecode r
  | [] => []

/-- Letters, digits, `-`, `.`, `_` and the tilde: the characters that never act as delimiters in a URL. -/
def isUnreserved (b : UInt8) : Bool :=
  (charOf b).isAlphanum || b == 0x2D || b == 0x2E || b == 0x5F || b == 0x7E

end EngineClient.Text
