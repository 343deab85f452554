import EngineClient.Text.Ascii

/-!
# Numbers in JSON

Whole numbers of up to 64 bits are kept exactly; all others are binary numbers with 53 significant bits. A binary
number is written with the fewest digits that read back as it.
-/

namespace EngineClient.Json

/-! ### Binary numbers -/

/-- A finite binary number, `mantissa * 2 ^ exponent` with a sign. -/
structure Binary where
  negative : Bool
  mantissa : Nat
  exponent : Int
  deriving DecidableEq, Repr

/-- A quotient of natural numbers, the lower one positive. -/
structure Ratio where
  num : Nat
  den : Nat
  deriving DecidableEq, Repr

namespace Ratio

/-- `r * base ^ e`. -/
def scale (r : Ratio) (base : Nat) (e : Int) : Ratio :=
  if 0 ≤ e then ⟨r.num * Nat.pow base e.toNat, r.den⟩ else ⟨r.num, r.den * Nat.pow base (-e).toNat⟩

def mul (a b : Ratio) : Ratio :=
  ⟨a.num * b.num, a.den * b.den⟩

def lt (a b : Ratio) : Bool :=
  a.num * b.den < b.num * a.den

def le (a b : Ratio) : Bool :=
  a.num * b.den ≤ b.num * a.den

/-- The nearest whole number; of two, the even one. -/
def round (r : Ratio) : Nat :=
  let q := r.num / r.den
  let twice := 2 * (r.num % r.den)
  if twice < r.den then q else if twice > r.den then q + 1 else q + q % 2

end Ratio

namespace Binary

/-- The exponent of the smallest positive number. -/
def leastExponent : Int := -1074

/-- The least mantissa of a number that is not subnormal, two to the power of 52. -/
def leastNormal : Nat := 0x10000000000000

/-- The nearest binary number, unless it is too large for one. -/
def ofRatio? (negative : Bool) (r : Ratio) : Option Binary :=
  if r.num = 0 then some ⟨negative, 0, leastExponent⟩
  else
    let guess := (Nat.log2 r.num : Int) - (Nat.log2 r.den : Int)
    let low := if (r.scale 2 (-guess)).lt ⟨1, 1⟩ then guess - 1 else guess
    let exponent := max (low - 52) leastExponent
    let mantissa := (r.scale 2 (-exponent)).round
    let (mantissa, exponent) := if mantissa = 2 * leastNormal then (leastNormal, exponent + 1) else (mantissa, exponent)
    if exponent > 971 then none else some ⟨negative, mantissa, exponent⟩

def magnitude (b : Binary) : Ratio :=
  Ratio.scale ⟨b.mantissa, 1⟩ 2 b.exponent

/-- How many digits stand before the point of a positive number, at least; negative when zeros follow it. -/
def decimalPlace (r : Ratio) : Int :=
  let guess := ((Nat.toDigits 10 r.num).length : Int) - (Nat.toDigits 10 r.den).length
  if (Ratio.scale ⟨1, 1⟩ 10 guess).le r then guess + 1 else guess

/-- The digits, and the power of ten of the last one, of the shortest decimal number that reads back. -/
def shortest (b : Binary) : Nat × Int :=
  let v := b.magnitude
  let quarter := fun (k : Int) => Ratio.scale ⟨(4 * (b.mantissa : Int) + k).toNat, 4⟩ 2 b.exponent
  let low := if b.mantissa = leastNormal && b.exponent > leastExponent then quarter (-1) else quarter (-2)
  let high := quarter 2
  let within := fun r : Ratio =>
    if b.mantissa % 2 = 0 then low.le r && r.le high else low.lt r && r.lt high
  let place := decimalPlace v
  let hit? := fun (k : Nat) =>
    let unit : Int := place - k
    let below := let s := v.scale 10 (-unit); s.num / s.den
    let at_ := fun n : Nat => Ratio.scale ⟨n, 1⟩ 10 unit
    match within (at_ below), within (at_ (below + 1)) with
    | true, true => some ((v.scale 10 (-unit)).round, unit)
    | true, false => some (below, unit)
    | false, true => some (below + 1, unit)
    | false, false => none
  ((List.range 17).findSome? fun k => hit? (k + 1)).getD ((v.scale 10 (17 - place)).round, place - 17)

/-- The fewest digits that read back: with a point from 0.00001 up to 16 digits before the point, else with a power
of ten. -/
def text (b : Binary) : String :=
  let sign := if b.negative then "-" else ""
  if b.mantissa = 0 then sign ++ "0.0"
  else
    let (digits, unit) := b.shortest
    let ds := Nat.toDigits 10 digits
    let place := (ds.length : Int) + unit
    let str := String.ofList
    sign ++
      if 0 ≤ unit && place ≤ 16 then str (ds ++ List.replicate unit.toNat '0') ++ ".0"
      else if 0 < place && place ≤ 16 then str (ds.take place.toNat) ++ "." ++ str (ds.drop place.toNat)
      else if -5 < place && place ≤ 0 then "0." ++ str (List.replicate (-place).toNat '0' ++ ds)
      else str (ds.take 1) ++ (if ds.length = 1 then "" else "." ++ str (ds.drop 1)) ++ "e" ++ toString (place - 1)

/-- The number `significand * 10 ^ exponent` worked out in steps of binary numbers; none if one is too large. -/
def ofDecimal? (negative : Bool) (significand : Nat) (exponent : Int) : Option Binary := do
  let start ← ofRatio? negative ⟨significand, 1⟩
  if start.mantissa = 0 then return start
  if exponent > 308 then none
  else if 0 ≤ exponent then
    let power ← ofRatio? false (Ratio.scale ⟨1, 1⟩ 10 exponent)
    ofRatio? negative (start.magnitude.mul power.magnitude)
  else
    let down := fun (b : Binary) (e : Nat) => do
      let power ← ofRatio? false (Ratio.scale ⟨1, 1⟩ 10 e)
      ofRatio? negative ⟨b.magnitude.num * power.magnitude.den, b.magnitude.den * power.magnitude.num⟩
    let e := (-exponent).toNat
    let steps := List.replicate (min (e / 308 - if e % 308 = 0 then 1 else 0) 3) 308
    let b ← steps.foldlM down start
    let rest := e - 308 * steps.length
    if rest > 308 then return ⟨negative, 0, leastExponent⟩ else down b rest

end Binary

/-! ### Numbers -/

inductive Number
  | integer (n : Int)
  | binary (b : Binary)
  deriving DecidableEq, Repr

end EngineClient.Json
