import EngineClient.Text.Ascii
import EngineClient.Text.Form

/-!
# Numeric addresses

Internet addresses of versions 4 and 6 as they are written in URLs. Version 4 takes numbers in decimal, octal and
hexadecimal and fewer than four of them; version 6 takes one run of zeros left out and a version 4 tail.
-/

namespace EngineClient

/-- Why a text is no URL. -/
inductive UrlError
  | emptyHost
  | internationalName
  | port
  | address4
  | address6
  | domainCharacter
  | relative
  deriving DecidableEq, Repr

def UrlError.message : UrlError → String
  | .emptyHost => "empty host"
  | .internationalName => "invalid international domain name"
  | .port => "invalid port number"
  | .address4 => "invalid IPv4 address"
  | .address6 => "invalid IPv6 address"
  | .domainCharacter => "invalid domain character"
  | .relative => "relative URL without a base"

namespace Address

/-! ### Version 4 -/

/-- The base of a number and its digits: hexadecimal after `0x`, octal after another zero. -/
def radix (cs : List Char) : Nat × List Char :=
  match cs with
  | '0' :: 'x' :: r => (16, r)
  | '0' :: 'X' :: r => (16, r)
  | '0' :: c :: r => (8, c :: r)
  | cs => (10, cs)

def isDigitOf (base : Nat) (c : Char) : Bool :=
  if base = 16 then Text.isHexDigit c else if base = 8 then Text.isOctalDigit c else c.isDigit

def part? (cs : List Char) : Option Nat :=
  if cs.isEmpty then none
  else
    let (base, ds) := radix cs
    if ds.all (isDigitOf base) then some (Text.positional base ds) else none

/-- The parts of a host name; a dot at the end ends the last one. -/
def partsOf (cs : List Char) : List (List Char) :=
  let parts := Text.Form.pieces '.' cs
  if parts.getLast? = some [] then parts.dropLast else parts

/-- Whether a host name has to be an address because its last part is a number. -/
def endsInNumber (cs : List Char) : Bool :=
  match (partsOf cs).getLast? with
  | none => false
  | some last => (!last.isEmpty && last.all Char.isDigit) || (part? last).isSome

/-- The address that numbers make: all but the last are bytes, the last fills the rest. -/
def join4? : Nat → List Nat → Option Nat
  | _, [] => none
  | room, [last] => if last < Nat.pow 256 room then some last else none
  | room, n :: r => if n > 255 then none else (join4? (room - 1) r).map (n * Nat.pow 256 (room - 1) + ·)

def parse4? (cs : List Char) : Except UrlError Nat :=
  let parts := partsOf cs
  match if parts.length > 4 then none else (parts.mapM part?).bind (join4? 4) with
  | some n => .ok n
  | none => .error .address4

def text4 (n : Nat) : List Char :=
  (".".intercalate ([n / 16777216, n / 65536 % 256, n / 256 % 256, n % 256].map Text.decimal)).toList

/-! ### Version 6 -/

/-- The groups read: those before the gap, if there is one, and those since. -/
structure Groups where
  before : Option (List Nat) := none
  since : List Nat := []
  deriving DecidableEq, Repr

/-- How many groups are taken; a gap stands for at least one. -/
def Groups.taken (g : Groups) : Nat :=
  match g.before with
  | none => g.since.length
  | some b => b.length + 1 + g.since.length

def Groups.push (g : Groups) (n : Nat) : Groups :=
  { g with since := g.since ++ [n] }

/-- The eight groups, the gap filled with zeros. -/
def Groups.close? (g : Groups) : Option (List Nat) :=
  match g.before with
  | none => if g.since.length = 8 then some g.since else none
  | some b => some (b ++ List.replicate (8 - b.length - g.since.length) 0 ++ g.since)

/-- A byte in decimal, without zeros in front. -/
def byte? (cs : List Char) : Option Nat :=
  match Text.natural? cs with
  | some n => if n ≤ 255 && (cs.length = 1 || cs.head? != some '0') then some n else none
  | none => none

def tail4? (cs : List Char) : Option (List Nat) := do
  match ← (Text.Form.pieces '.' cs).mapM byte? with
  | [a, b, c, d] => some [a * 256 + b, c * 256 + d]
  | _ => none

/-- Reads groups up to the end; each round takes at least one character. -/
def groups? : Nat → Groups → List Char → Option (List Nat)
  | 0, _, _ => none
  | _ + 1, g, [] => g.close?
  | fuel + 1, g, c :: r =>
    if g.taken = 8 then none
    else if c = ':' then
      if g.before.isSome then none else groups? fuel ⟨some g.since, []⟩ r
    else
      let ds := ((c :: r).take 4).takeWhile Text.isHexDigit
      let value := Text.positional 16 ds
      match (c :: r).drop ds.length with
      | [] => (g.push value).close?
      | ':' :: [] => none
      | ':' :: r => groups? fuel (g.push value) r
      | '.' :: _ =>
        if ds.isEmpty || g.taken > 6 then none
        else (tail4? (c :: r)).bind fun t => { g with since := g.since ++ t }.close?
      | _ => none

def parse6? (cs : List Char) : Except UrlError (List Nat) :=
  let found := match cs with
    | ':' :: ':' :: r => groups? (r.length + 1) ⟨some [], []⟩ r
    | ':' :: _ => none
    | [] => none
    | [_] => none
    | cs => groups? (cs.length + 1) {} cs
  match found with
  | some gs => .ok gs
  | none => .error .address6

/-- Where the longest run of zeros begins, the first of equals, and how long it is. -/
def longestZeros (gs : List Nat) : Nat × Nat :=
  (List.range gs.length).foldl (fun best i =>
    let n := ((gs.drop i).takeWhile (· == 0)).length
    if n > best.2 then (i, n) else best) (0, 0)

def groupsText (gs : List Nat) : List Char :=
  List.intercalate [':'] (gs.map Text.hex)

/-- The address in brackets, a run of two zeros or more left out. -/
def text6 (gs : List Nat) : List Char :=
  let (start, n) := longestZeros gs
  let inside := if n < 2 then groupsText gs
    else groupsText (gs.take start) ++ [':', ':'] ++ groupsText (gs.drop (start + n))
  '[' :: inside ++ [']']

end Address
end EngineClient
