import EngineClient.Text.Ascii

/-!
# Spans of time

Lengths of time in whole nanoseconds, and their short text: the largest unit that fits, with the digits of the
fraction that are needed.
-/

namespace EngineClient

/-- A length of time. -/
structure Span where
  nanos : Nat
  deriving DecidableEq, Repr, Inhabited

namespace Span

def second : Nat := 1000000000

def ofParts (seconds nanos : Nat) : Span :=
  ⟨seconds * second + nanos⟩

def seconds (n : Nat) : Span :=
  ofParts n 0

def zero : Span := ⟨0⟩

def wholeSeconds (s : Span) : Nat :=
  s.nanos / second

def fraction (s : Span) : Nat :=
  s.nanos % second

def half (s : Span) : Span :=
  ⟨s.nanos / 2⟩

def min (a b : Span) : Span :=
  ⟨Nat.min a.nanos b.nanos⟩

theorem nanos_eq (s : Span) : s.wholeSeconds * second + s.fraction = s.nanos :=
  Nat.div_add_mod' s.nanos second

@[simp]
theorem ofParts_parts (s : Span) : ofParts s.wholeSeconds s.fraction = s := by
  simp [ofParts, nanos_eq]

/-- `n / unit` in decimal, where `unit` is the power of ten with `places` zeros. -/
def decimals (n unit places : Nat) : String :=
  let digits := Nat.toDigits 10 (n % unit)
  let padded := List.replicate (places - digits.length) '0' ++ digits
  let kept := (padded.reverse.dropWhile (· == '0')).reverse
  if kept.isEmpty then Text.decimal (n / unit)
  else Text.decimal (n / unit) ++ "." ++ String.ofList kept

/-- The short text of a span, such as `1.5s`, `20ms` or `0ns`. -/
def text (s : Span) : String :=
  if s.nanos ≥ second then decimals s.nanos second 9 ++ "s"
  else if s.nanos ≥ 1000000 then decimals s.nanos 1000000 6 ++ "ms"
  else if s.nanos ≥ 1000 then decimals s.nanos 1000 3 ++ "µs"
  else Text.decimal s.nanos ++ "ns"

end Span

/-! ### Instants -/

/-- A moment on the clock that never runs backwards, counted from an arbitrary origin. -/
structure Instant where
  nanos : Nat
  deriving DecidableEq, Repr, Inhabited

namespace Instant

/-- Moments are counted in seconds of 63 bits; later ones cannot be named. -/
def bound : Nat := 0x8000000000000000 * Span.second

/-- The moment a span later, if it can be named. -/
def add? (t : Instant) (d : Span) : Option Instant :=
  if t.nanos + d.nanos < bound then some ⟨t.nanos + d.nanos⟩ else none

def later (t : Instant) (d : Span) : Instant :=
  ⟨t.nanos + d.nanos⟩

/-- How long it takes from `a` to `b`; nothing if `b` is past. -/
def remaining (a b : Instant) : Span :=
  ⟨b.nanos - a.nanos⟩

def start : Instant :=
  ⟨Span.second⟩

end Instant
end EngineClient
