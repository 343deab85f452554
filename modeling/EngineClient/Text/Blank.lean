import EngineClient.Text.Utf8

/-!
# White space

The Unicode property `White_Space` and trimming by it, and the narrower sets that formats of their own use.
-/

namespace EngineClient.Text

/-- Unicode `White_Space`. -/
def isBlank (c : Char) : Bool :=
  let n := c.toNat
  (9 ≤ n && n ≤ 13) || n == 0x20 || n == 0x85 || n == 0xA0 || n == 0x1680 || (0x2000 ≤ n && n ≤ 0x200A)
    || n == 0x2028 || n == 0x2029 || n == 0x202F || n == 0x205F || n == 0x3000

theorem isBlank_of_isWhitespace {c : Char} (h : c.isWhitespace = true) : isBlank c = true := by
  simp only [Char.isWhitespace, Bool.or_eq_true, decide_eq_true_eq] at h
  rcases h with ((h | h) | h) | h <;> subst h <;> decide

/-- The text without the characters of a class at its front. -/
def trimStart (p : Char → Bool) (cs : List Char) : List Char :=
  cs.dropWhile p

/-- The text without the characters of a class at its end. -/
def trimEnd (p : Char → Bool) (cs : List Char) : List Char :=
  (cs.reverse.dropWhile p).reverse

def trimBoth (p : Char → Bool) (cs : List Char) : List Char :=
  trimEnd p (trimStart p cs)

/-- The text without white space around it. -/
def trim (cs : List Char) : List Char :=
  trimBoth isBlank cs

def isSlash (c : Char) : Bool :=
  c == '/'

/-- The text without slashes around it. -/
def trimSlashes (cs : List Char) : List Char :=
  trimBoth isSlash cs

/-- What follows `front` in `cs`, if `cs` begins with it. -/
def stripFront? : List Char → List Char → Option (List Char)
  | [], cs => some cs
  | _ :: _, [] => none
  | f :: fs, c :: cs => if f = c then stripFront? fs cs else none

theorem stripFront?_eq_some_iff {front cs rest : List Char} :
    stripFront? front cs = some rest ↔ cs = front ++ rest := by
  induction front generalizing cs with
  | nil => simp [stripFront?]
  | cons f fs ih =>
    cases cs with
    | nil => simp [stripFront?]
    | cons c cs =>
      by_cases h : f = c
      · simp [stripFront?, h, ih]
      · simp [stripFront?, h, Ne.symm h]

/-- What precedes `back` in `cs`, if `cs` ends with it. -/
def stripBack? (back cs : List Char) : Option (List Char) :=
  (stripFront? back.reverse cs.reverse).map List.reverse

end EngineClient.Text
