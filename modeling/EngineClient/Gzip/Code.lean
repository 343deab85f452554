/-!
# Prefix codes

Codes in which no code word begins another one, as trees that are followed bit by bit. `Code.ofLengths?` makes the
one code that given lengths of code words stand for: shorter words come before longer ones, and words of one length
in the order of their symbols.
-/

namespace EngineClient.Gzip

/-- Bits of a stream, those of a byte from the lowest to the highest. -/
abbrev Bits := List Bool

inductive Code
  /-- No code word leads here. -/
  | unused
  | symbol (n : Nat)
  | node (zero one : Code)
  deriving Repr

namespace Code

/-- How many ways lead to no symbol. -/
def gaps : Code → Nat
  | unused => 1
  | symbol _ => 0
  | node zero one => zero.gaps + one.gaps

def maxLength : Nat := 15

def pairUp : List Code → List Code
  | [] => []
  | [a] => [node a unused]
  | a :: b :: r => node a b :: pairUp r

/-- The symbols with code words of a length, in order. -/
def symbolsOf (lengths : List Nat) (length : Nat) : List Code :=
  (lengths.zipIdx.filter fun p => p.1 == length).map fun p => symbol p.2

/-- What lies at a depth, with `below` more depths to look at: the symbols there, then all that leads further down. -/
def level (lengths : List Nat) : Nat → Nat → List Code
  | 0, _ => []
  | below + 1, depth => symbolsOf lengths depth ++ pairUp (level lengths below (depth + 1))

/-- The code with words of given lengths, 0 for symbols without one. The words have to use up all bits, unless there
is at most one. -/
def ofLengths? (lengths : List Nat) : Option Code :=
  match pairUp (level lengths maxLength 1) with
  | [] => some unused
  | [code] => if code.gaps = 0 || (lengths.filter (· != 0)).length ≤ 1 then some code else none
  | _ => none

end Code
end EngineClient.Gzip
