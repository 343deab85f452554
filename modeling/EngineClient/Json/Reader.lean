import EngineClient.Json.Leaf

/-!
# Reading documents

`Leaves.read?` reads one document that takes up the whole text but for blanks around it. Every value takes at
least one byte, so the length of the text bounds the work.
-/

namespace EngineClient.Json

def isBlankByte (b : UInt8) : Bool :=
  b == 32 || b == 10 || b == 9 || b == 13

def skipBlanks (bs : Bytes) : Bytes :=
  bs.dropWhile isBlankByte

/-- Reads the rest of a word such as `null`. -/
def word : List Char → Bytes → Except ReadError (Unit × Bytes)
  | [], bs => .ok ((), bs)
  | _ :: _, [] => failAfter .endInValue []
  | c :: cs, b :: r => if b.toNat = c.toNat then word cs r else failAfter .expectedWord r

/-- What stands before the next item of a list, after at least one. -/
def nextItem (bs : Bytes) : Except ReadError (Bool × Bytes) :=
  match skipBlanks bs with
  | [] => failAt .endInList []
  | b :: r =>
    if b = 0x5D then .ok (false, r)
    else if b = 0x2C then
      match skipBlanks r with
      | [] => failAt .endInValue []
      | c :: r => if c = 0x5D then failAt .trailingComma (c :: r) else .ok (true, c :: r)
    else failAt .expectedListCommaOrEnd (b :: r)

/-- What stands before the next member of an object, after at least one. -/
def nextMember (bs : Bytes) : Except ReadError (Bool × Bytes) :=
  match skipBlanks bs with
  | [] => failAt .endInObject []
  | b :: r =>
    if b = 0x7D then .ok (false, r)
    else if b = 0x2C then
      match skipBlanks r with
      | [] => failAt .endInValue []
      | c :: r =>
        if c = quoteByte then .ok (true, r)
        else if c = 0x7D then failAt .trailingComma (c :: r)
        else failAt .keyNotString (c :: r)
    else failAt .expectedObjectCommaOrEnd (b :: r)

def colon (bs : Bytes) : Except ReadError (Unit × Bytes) :=
  match skipBlanks bs with
  | [] => failAt .endInObject []
  | b :: r => if b = 0x3A then .ok ((), r) else failAt .expectedColon (b :: r)

/-- One level down, if there is one left. -/
def descend (depth : Option Nat) (bs : Bytes) : Except ReadError (Option Nat) :=
  match depth with
  | none => .ok none
  | some 0 => failAt .tooDeep bs
  | some (n + 1) => .ok (some n)

namespace Leaves

variable (l : Leaves σ ν)

mutual

def value : Nat → Option Nat → Bytes → Except ReadError (Tree σ ν × Bytes)
  | 0, _, bs => failAt .endInValue bs
  | fuel + 1, depth, bs =>
    match skipBlanks bs with
    | [] => failAt .endInValue []
    | b :: r =>
      if b = 0x6E then do
        let (_, r) ← word ['u', 'l', 'l'] r
        return (.null, r)
      else if b = 0x74 then do
        let (_, r) ← word ['r', 'u', 'e'] r
        return (.bool true, r)
      else if b = 0x66 then do
        let (_, r) ← word ['a', 'l', 's', 'e'] r
        return (.bool false, r)
      else if b = 0x2D || isDigit b then do
        let (n, r) ← l.number (b :: r)
        return (.number n, r)
      else if b = quoteByte then do
        let (s, r) ← l.string r
        return (.string s, r)
      else if b = 0x5B then do
        let depth ← descend depth (b :: r)
        match skipBlanks r with
        | [] => failAt .endInList []
        | c :: r =>
          if c = 0x5D then return (.array [], r)
          else
            let (items, r) ← items fuel depth (c :: r)
            return (.array items, r)
      else if b = 0x7B then do
        let depth ← descend depth (b :: r)
        match skipBlanks r with
        | [] => failAt .endInObject []
        | c :: r =>
          if c = 0x7D then return (.object [], r)
          else if c = quoteByte then
            let (members, r) ← members fuel depth r
            return (.object members, r)
          else failAt .keyNotString (c :: r)
      else failAt .expectedValue (b :: r)

def items : Nat → Option Nat → Bytes → Except ReadError (List (Tree σ ν) × Bytes)
  | 0, _, bs => failAt .endInList bs
  | fuel + 1, depth, bs => do
    let (v, r) ← value fuel depth bs
    let (more, r) ← nextItem r
    if more then
      let (vs, r) ← items fuel depth r
      return (v :: vs, r)
    else return ([v], r)

/-- Reads members, the first from after the opening quote of its key, up to the end of their object. -/
def members : Nat → Option Nat → Bytes → Except ReadError ((List (σ × Tree σ ν)) × Bytes)
  | 0, _, bs => failAt .endInObject bs
  | fuel + 1, depth, bs => do
    let (key, r) ← l.string bs
    let (_, r) ← colon r
    let (v, r) ← value fuel depth r
    let (more, r) ← nextMember r
    if more then
      let (ms, r) ← members fuel depth r
      return ((key, v) :: ms, r)
    else return ([(key, v)], r)

end

def read? (bs : Bytes) : Except ReadError (Tree σ ν) := do
  let (v, r) ← l.value (2 * bs.length + 1) l.depth bs
  match skipBlanks r with
  | [] => return v
  | b :: r => failAt .trailingCharacters (b :: r)

end Leaves

/-- A document with its strings and numbers resolved. -/
abbrev Value := Tree String Number

/-- A document known only by its outline. -/
abbrev Outline := Tree Bytes Unit

def Value.read? (body : Bytes) : Except ReadError Value :=
  valueLeaves.read? body

def Outline.read? (body : Bytes) : Except ReadError Outline :=
  outlineLeaves.read? body

end EngineClient.Json
