import EngineClient.Json.Number
import EngineClient.Json.Tree

/-!
# Strings and numbers in documents

Two ways to read them: resolved to text and numbers, with all their rules, or only as far as their ends, so that
strings keep their escapes and numbers are of any size.
-/

namespace EngineClient.Json

/-- How strings, from after the opening quote, and numbers are read, and how deep lists and objects may nest. -/
structure Leaves (σ ν : Type) where
  string : Bytes → Except ReadError (σ × Bytes)
  number : Bytes → Except ReadError (ν × Bytes)
  depth : Option Nat

/-! ### Strings -/

def quoteByte : UInt8 := 0x22
def escapeByte : UInt8 := 0x5C

def hexQuad? : Bytes → Option Nat
  | [a, b, c, d] =>
    let cs := [a, b, c, d].map fun x => Char.ofNat x.toNat
    if cs.all Text.isHexDigit then some (Text.positional 16 cs) else none
  | _ => none

def hexEscape (bs : Bytes) : Except ReadError (Nat × Bytes) :=
  if bs.length < 4 then failAfter .endInString []
  else match hexQuad? (bs.take 4) with
    | some n => .ok (n, bs.drop 4)
    | none => failAfter .badEscape (bs.drop 4)

/-- The character that follows an escape for the first half of a pair. -/
def secondHalf (first : Nat) (bs : Bytes) : Except ReadError (Char × Bytes) :=
  match bs with
  | [] => failAfter .endInString []
  | a :: r =>
    if a != escapeByte then failAfter .endOfHexEscape r
    else match r with
      | [] => failAfter .endInString []
      | b :: r =>
        if b != 0x75 then failAfter .endOfHexEscape r
        else do
          let (second, r) ← hexEscape r
          if second < 0xDC00 || second > 0xDFFF then failAfter .loneSurrogate r
          else return (Char.ofNat ((first - 0xD800) * 0x400 + (second - 0xDC00) + 0x10000), r)

def escapeLetter? : UInt8 → Option Char
  | 0x22 => some '"'
  | 0x5C => some '\\'
  | 0x2F => some '/'
  | 0x62 => some '\x08'
  | 0x66 => some '\x0c'
  | 0x6E => some '\n'
  | 0x72 => some '\r'
  | 0x74 => some '\t'
  | _ => none

/-- Reads an escape from after its backslash. -/
def escape : Bytes → Except ReadError (Char × Bytes)
  | [] => failAfter .endInString []
  | c :: r =>
    if c = 0x75 then do
      let (n, r) ← hexEscape r
      if 0xDC00 ≤ n && n ≤ 0xDFFF then failAfter .loneSurrogate r
      else if 0xD800 ≤ n && n ≤ 0xDBFF then secondHalf n r
      else return (Char.ofNat n, r)
    else match escapeLetter? c with
      | some ch => .ok (ch, r)
      | none => failAfter .badEscape r

/-- The bytes of a string up to its closing quote, escapes resolved; `done` holds those read so far, last first. -/
def stringBytes : Nat → Bytes → Bytes → Except ReadError (Bytes × Bytes)
  | 0, _, bs => failAfter .endInString bs
  | _ + 1, _, [] => failAfter .endInString []
  | fuel + 1, done, b :: r =>
    if b = quoteByte then .ok (done.reverse, r)
    else if b = escapeByte then do
      let (c, r) ← escape r
      stringBytes fuel ((Text.encode [c]).reverse ++ done) r
    else if b < 0x20 then failAfter .controlCharacter r
    else stringBytes fuel (b :: done) r

def textLeaf (bs : Bytes) : Except ReadError (String × Bytes) := do
  let (bytes, rest) ← stringBytes (bs.length + 1) [] bs
  match Text.string? bytes with
  | some s => return (s, rest)
  | none => failAfter .badCodePoint rest

/-- The bytes of a string up to its closing quote as they stand; escapes are looked at only to find their ends. -/
def rawBytes : Nat → Bytes → Bytes → Except ReadError (Bytes × Bytes)
  | 0, _, bs => failAfter .endInString bs
  | _ + 1, _, [] => failAfter .endInString []
  | fuel + 1, done, b :: r =>
    if b = quoteByte then .ok (done.reverse, r)
    else if b = escapeByte then
      match r with
      | [] => failAfter .endInString []
      | c :: r =>
        if c = 0x75 then do
          let (_, rest) ← hexEscape r
          rawBytes fuel ((r.take 4).reverse ++ c :: b :: done) rest
        else match escapeLetter? c with
          | some _ => rawBytes fuel (c :: b :: done) r
          | none => failAfter .badEscape r
    else if b < 0x20 then failAfter .controlCharacter r
    else rawBytes fuel (b :: done) r

def rawLeaf (bs : Bytes) : Except ReadError (Bytes × Bytes) :=
  rawBytes (bs.length + 1) [] bs

def resolve? (raw : Bytes) : Option String :=
  match textLeaf (raw ++ [quoteByte]) with
  | .ok (s, []) => some s
  | _ => none

/-! ### Numbers -/

def isDigit (b : UInt8) : Bool :=
  0x30 ≤ b && b ≤ 0x39

def digitsOf (bs : Bytes) : Bytes :=
  bs.takeWhile isDigit

/-- Reads the digits before the point: a zero alone, or digits that begin with another one. -/
def wholePart : Bytes → Except ReadError (Bytes × Bytes)
  | [] => failAfter .endInValue []
  | b :: r =>
    if b = 0x30 then
      match r with
      | c :: _ => if isDigit c then failAt .badNumber r else .ok ([b], r)
      | [] => .ok ([b], r)
    else if isDigit b then
      let ds := digitsOf r
      .ok (b :: ds, r.drop ds.length)
    else failAfter .badNumber r

/-- Reads the digits after the point, if there is a point. -/
def fractionPart : Bytes → Except ReadError (Option Bytes × Bytes)
  | [] => .ok (none, [])
  | b :: r =>
    if b != 0x2E then .ok (none, b :: r)
    else
      let ds := digitsOf r
      if ds.isEmpty then (if r.isEmpty then failAt .endInValue r else failAt .badNumber r)
      else .ok (some ds, r.drop ds.length)

def signOf : Bytes → Bool × Bytes
  | 0x2B :: r => (true, r)
  | 0x2D :: r => (false, r)
  | bs => (true, bs)

/-- Reads a power of ten, if there is one: whether it is positive, and its digits. -/
def exponentPart : Bytes → Except ReadError ((Option (Bool × Bytes)) × Bytes)
  | [] => .ok (none, [])
  | b :: r =>
    if b != 0x65 && b != 0x45 then .ok (none, b :: r)
    else
      let (positive, r) := signOf r
      match r with
      | [] => failAfter .endInValue []
      | c :: tail =>
        if !isDigit c then failAfter .badNumber tail
        else
          let ds := digitsOf r
          .ok (some (positive, ds), r.drop ds.length)

def numberOf (ds : Bytes) : Nat :=
  Text.positional 10 (ds.map fun b => Char.ofNat b.toNat)

/-- The longest run of digits, from the first on, that makes a number of 64 bits; `n` is the number so far. -/
def wordDigits (n : Nat) : Bytes → Nat × Nat
  | [] => (n, 0)
  | b :: r =>
    let next := 10 * n + (b.toNat - 48)
    if next < 0x10000000000000000 then
      let (m, k) := wordDigits next r
      (m, k + 1)
    else (n, 0)

/-- The number made of its parts. Digits beyond 64 bits only count for their places. -/
def assemble? (negative : Bool) (whole : Bytes) (fraction : Option Bytes) (power : Option (Bool × Bytes)) :
    Option Number :=
  let (significand, used) := wordDigits 0 whole
  if fraction.isNone && power.isNone && used = whole.length then
    if !negative then some (.integer significand)
    else if 0 < significand && significand ≤ 0x8000000000000000 then some (.integer (-significand))
    else (Binary.ofDecimal? true significand 0).map .binary
  else
    let (significand, places) := wordDigits significand (fraction.getD [])
    let shift : Int := (whole.length - used : Nat) - (places : Int)
    let exponent := match power with
      | none => shift
      | some (true, ds) => shift + numberOf ds
      | some (false, ds) => shift - numberOf ds
    (Binary.ofDecimal? negative significand exponent).map .binary

/-- Where a number that is too large is noticed to be so: when its power of ten passes 31 bits, the digits after
that are still unread. -/
def rangePlace (power : Option (Bool × Bytes)) (rest : Bytes) : Nat :=
  match power with
  | some (true, ds) =>
    let kept := (List.range (ds.length + 1)).takeWhile fun k => numberOf (ds.take k) < 0x80000000
    rest.length + (ds.length - kept.length)
  | _ => rest.length

def numberLeaf (bs : Bytes) : Except ReadError (Number × Bytes) := do
  let (negative, bs) := match bs with
    | 0x2D :: r => (true, r)
    | bs => (false, bs)
  let (whole, bs) ← wholePart bs
  let (fraction, bs) ← fractionPart bs
  let (power, bs) ← exponentPart bs
  match assemble? negative whole fraction power with
  | some n => return (n, bs)
  | none => throw ⟨.numberRange, rangePlace power bs⟩

/-- Reads a number only to its end. -/
def skipLeaf (bs : Bytes) : Except ReadError (Unit × Bytes) := do
  let bs := match bs with
    | 0x2D :: r => r
    | bs => bs
  let (_, bs) ← wholePart bs
  let (_, bs) ← fractionPart bs
  let (_, bs) ← exponentPart bs
  return ((), bs)

/-! ### The two ways -/

/-- Values: text and numbers, at most 127 levels of lists and objects. -/
def valueLeaves : Leaves String Number :=
  ⟨textLeaf, numberLeaf, some 127⟩

/-- Outlines: strings as they stand, numbers of any size, any number of levels. -/
def outlineLeaves : Leaves Bytes Unit :=
  ⟨rawLeaf, skipLeaf, none⟩

end EngineClient.Json
