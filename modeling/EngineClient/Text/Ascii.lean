/-!
# ASCII letters and numbers

Case and digit values of ASCII characters, and numbers read from text. A character outside ASCII is no
letter, no digit and has no case.
-/

namespace EngineClient.Text

def lower (cs : List Char) : List Char :=
  cs.map Char.toLower

def sameLetters (a b : List Char) : Bool :=
  lower a == lower b

def isHexDigit (c : Char) : Bool :=
  c.isDigit || ('a' ≤ c && c ≤ 'f') || ('A' ≤ c && c ≤ 'F')

def isOctalDigit (c : Char) : Bool :=
  '0' ≤ c && c ≤ '7'

/-- The value of a hexadecimal digit; other characters count as zero. -/
def digitValue (c : Char) : Nat :=
  if c.isDigit then c.toNat - 48
  else if 'a' ≤ c && c ≤ 'f' then c.toNat - 87
  else if 'A' ≤ c && c ≤ 'F' then c.toNat - 55
  else 0

/-- The number that digits in base `base` stand for, most significant first. -/
def positional (base : Nat) (cs : List Char) : Nat :=
  cs.foldl (fun n c => base * n + digitValue c) 0

/-- A number written with one or more decimal digits and nothing else. -/
def natural? (cs : List Char) : Option Nat :=
  if cs.isEmpty || !cs.all Char.isDigit then none else some (positional 10 cs)

/-- A natural number up to `limit`; a plus sign may stand in front. -/
def unsigned? (limit : Nat) (cs : List Char) : Option Nat :=
  let digits := match cs with
    | '+' :: r => r
    | r => r
  (natural? digits).filter (· ≤ limit)

def signed64? (cs : List Char) : Option Int :=
  let value : Option Int := match cs with
    | '-' :: r => (natural? r).map fun n => -(n : Int)
    | '+' :: r => (natural? r).map fun n => (n : Int)
    | r => (natural? r).map fun n => (n : Int)
  value.filter fun n => decide (-0x8000000000000000 ≤ n ∧ n < 0x8000000000000000)

def decimal (n : Nat) : String :=
  toString n

def hexDigit (n : Nat) : Char :=
  if n < 10 then Char.ofNat (48 + n) else Char.ofNat (87 + n)

def hexDigitUpper (n : Nat) : Char :=
  if n < 10 then Char.ofNat (48 + n) else Char.ofNat (55 + n)

/-- The hexadecimal digits of a number in lower case, without leading zeros. -/
def hex (n : Nat) : List Char :=
  Nat.toDigits 16 n

end EngineClient.Text
