import EngineClient.Gzip.Code
import EngineClient.Text.Utf8

/-!
# Deflated data

Blocks of bytes, stored as they are or as symbols of two prefix codes: bytes and lengths of earlier output in one,
distances back to it in the other. What was written before something goes wrong is kept.
-/

namespace EngineClient.Gzip

/-- What is wrong with a compressed stream. -/
inductive Defect
  /-- It ends too early. -/
  | truncated
  | broken
  deriving DecidableEq, Repr

/-- The bits still to be read and the bytes written so far. -/
structure Work where
  bits : Bits
  out : Array UInt8 := #[]

/-- A step of reading, which leaves what was written when it fails. -/
abbrev Inflate := EStateM Defect Work

namespace Inflate

/-! ### Bits -/

def bit : Inflate Bool := do
  match (← get).bits with
  | [] => throw .truncated
  | b :: r =>
    modify fun w => { w with bits := r }
    return b

/-- A number of so many bits, the lowest first. -/
def number : Nat → Inflate Nat
  | 0 => return 0
  | n + 1 => do
    let low ← bit
    return low.toNat + 2 * (← number n)

def symbol : Code → Inflate Nat
  | .unused => throw .broken
  | .symbol n => return n
  | .node zero one => do if ← bit then symbol one else symbol zero

def align : Inflate Unit :=
  modify fun w => { w with bits := w.bits.drop (w.bits.length % 8) }

/-! ### Output -/

def write (b : UInt8) : Inflate Unit :=
  modify fun w => { w with out := w.out.push b }

def repeatFrom (distance : Nat) : Nat → Inflate Unit
  | 0 => return
  | n + 1 => do
    write (let out := (← get).out; out.getD (out.size - distance) 0)
    repeatFrom distance n

/-! ### Blocks -/

/-- The least length of each length symbol and the number of bits that add to it. -/
def lengthTable : List (Nat × Nat) :=
  [(3, 0), (4, 0), (5, 0), (6, 0), (7, 0), (8, 0), (9, 0), (10, 0), (11, 1), (13, 1), (15, 1), (17, 1), (19, 2),
    (23, 2), (27, 2), (31, 2), (35, 3), (43, 3), (51, 3), (59, 3), (67, 4), (83, 4), (99, 4), (115, 4), (131, 5),
    (163, 5), (195, 5), (227, 5), (258, 0)]

/-- The least distance of each distance symbol and the number of bits that add to it. -/
def distanceTable : List (Nat × Nat) :=
  [(1, 0), (2, 0), (3, 0), (4, 0), (5, 1), (7, 1), (9, 2), (13, 2), (17, 3), (25, 3), (33, 4), (49, 4), (65, 5),
    (97, 5), (129, 6), (193, 6), (257, 7), (385, 7), (513, 8), (769, 8), (1025, 9), (1537, 9), (2049, 10),
    (3073, 10), (4097, 11), (6145, 11), (8193, 12), (12289, 12), (16385, 13), (24577, 13)]

/-- The number that an entry of a table and the bits after it stand for. -/
def measured (table : List (Nat × Nat)) (i : Nat) : Inflate Nat :=
  match table[i]? with
  | none => throw .broken
  | some (least, extra) => do return least + (← number extra)

def endOfBlock : Nat := 256

/-- Reads at most `fuel` symbols up to the end of a block. -/
def symbols (literals distances : Code) : Nat → Inflate Unit
  | 0 => throw .truncated
  | fuel + 1 => do
    let s ← symbol literals
    if s = endOfBlock then return
    if s < endOfBlock then write (UInt8.ofNat s)
    else
      let length ← measured lengthTable (s - 257)
      let distance ← measured distanceTable (← symbol distances)
      if distance > (← get).out.size then throw .broken
      repeatFrom distance length
    symbols literals distances fuel

/-- A block of bytes as they are: how many, the same with all bits turned over, and the bytes. -/
def stored : Inflate Unit := do
  align
  let length ← number 16
  if length + (← number 16) ≠ 0xFFFF then throw .broken
  for _ in List.range length do write (UInt8.ofNat (← number 8))

def fixedLiterals : List Nat :=
  List.replicate 144 8 ++ List.replicate 112 9 ++ List.replicate 24 7 ++ List.replicate 8 8

def fixedDistances : List Nat :=
  List.replicate 32 5

/-- The order in which the code of the lengths of code words is described. -/
def describedOrder : List Nat :=
  [16, 17, 18, 0, 8, 7, 9, 6, 10, 5, 11, 4, 12, 3, 13, 2, 14, 1, 15]

def codeOf (lengths : List Nat) : Inflate Code :=
  match Code.ofLengths? lengths with
  | some code => return code
  | none => throw .broken

/-- Reads lengths of code words, `got` being those read so far, last first, until there are `count`. -/
def lengths (code : Code) (count : Nat) : Nat → List Nat → Inflate (List Nat)
  | 0, _ => throw .truncated
  | fuel + 1, got => do
    if got.length > count then throw .broken
    else if got.length = count then return got.reverse
    else match ← symbol code with
      | 16 => match got with
        | [] => throw .broken
        | last :: _ => lengths code count fuel (List.replicate (3 + (← number 2)) last ++ got)
      | 17 => lengths code count fuel (List.replicate (3 + (← number 3)) 0 ++ got)
      | 18 => lengths code count fuel (List.replicate (11 + (← number 7)) 0 ++ got)
      | n => lengths code count fuel (n :: got)

def describedCodes : Inflate (Code × Code) := do
  let literals := 257 + (← number 5)
  let distances := 1 + (← number 5)
  let described := 4 + (← number 4)
  if literals > 286 || distances > 30 then throw .broken
  let given ← (describedOrder.take described).mapM fun i => do return (i, ← number 3)
  let code ← codeOf ((List.range 19).map fun i => (given.lookup i).getD 0)
  let all ← lengths code (literals + distances) (literals + distances + 1) []
  return (← codeOf (all.take literals), ← codeOf (all.drop literals))

/-- A block; says whether it is the last one. -/
def block : Inflate Bool := do
  let last ← bit
  match ← number 2 with
  | 0 => stored
  | 1 =>
    let literals ← codeOf fixedLiterals
    let distances ← codeOf fixedDistances
    symbols literals distances ((← get).bits.length + 1)
  | 2 =>
    let (literals, distances) ← describedCodes
    symbols literals distances ((← get).bits.length + 1)
  | _ => throw .broken
  return last

/-- Reads at most `fuel` blocks up to the last one and the rest of its last byte. -/
def blocks : Nat → Inflate Unit
  | 0 => throw .truncated
  | fuel + 1 => do if ← block then align else blocks fuel

end Inflate
end EngineClient.Gzip
