import EngineClient.Text.Ascii
import EngineClient.Text.Blank

/-!
# Markup

A document cut into pieces: runs of text, tags, and markup that says nothing about contents. A piece that cannot be
read ends the list. `matched` makes every closing tag answer the last open one.
-/

namespace EngineClient.Xml

inductive Token
  /-- Text between markup, entities not resolved. -/
  | text (raw : List Char)
  /-- Text that is taken as it stands. -/
  | verbatim (text : List Char)
  | opening (name attributes : List Char)
  | closing (name : List Char)
  /-- A comment, an instruction or a declaration. -/
  | aside
  | doctype
  /-- Markup that cannot be read; nothing follows it. -/
  | broken
  deriving DecidableEq, Repr

def isSpace (c : Char) : Bool :=
  c == ' ' || c == '\t' || c == '\r' || c == '\n'

/-- The pieces that a stretch of markup makes, and what is left to cut. -/
abbrev Cut := List Token × List Char

def cutBroken : Cut := ([.broken], [])

/-! ### Tags -/

/-- Splits at the first `>` outside quotes. -/
def upToTagEnd (quote : Option Char) : List Char → Option (List Char × List Char)
  | [] => none
  | c :: r =>
    if quote.isNone && c = '>' then some ([], r)
    else
      let quote := match quote with
        | none => if c = '"' || c = '\'' then some c else none
        | some q => if c = q then none else some q
      (upToTagEnd quote r).map fun p => (c :: p.1, p.2)

/-- A tag that opens an element; one that ends in a slash closes it as well. -/
def cutOpening (cs : List Char) : Cut :=
  match upToTagEnd none cs with
  | none => cutBroken
  | some (inside, rest) =>
    let name := inside.takeWhile (!isSpace ·)
    if inside.getLast? = some '/' then
      let name := if name.length < inside.length then name else name.dropLast
      ([.opening name (inside.dropLast.drop name.length), .closing name], rest)
    else ([.opening name (inside.drop name.length)], rest)

/-- What stands before the next `>`, or all of it if there is none. -/
def upToAngle (cs : List Char) : List Char × List Char :=
  (cs.takeWhile (· != '>'), (cs.dropWhile (· != '>')).drop 1)

/-- A closing tag, from after its slash. -/
def cutClosing (cs : List Char) : Cut :=
  let (inside, rest) := upToAngle cs
  ([.closing (if inside.all isSpace then inside else Text.trimEnd isSpace inside)], rest)

/-- An instruction, from after its first question mark. -/
def cutInstruction (cs : List Char) : Cut :=
  let (inside, rest) := upToAngle cs
  if inside.length ≥ 2 && inside.getLast? = some '?' then ([.aside], rest) else cutBroken

/-! ### Comments, verbatim text and document types -/

/-- Splits at the first occurrence of `mark`. -/
def upTo? (mark : List Char) : List Char → Option (List Char × List Char)
  | [] => none
  | c :: r =>
    match Text.stripFront? mark (c :: r) with
    | some rest => some ([], rest)
    | none => (upTo? mark r).map fun p => (c :: p.1, p.2)

def cutComment (cs : List Char) : Cut :=
  match Text.stripFront? "--".toList cs with
  | none => cutBroken
  | some inside => match upTo? "-->".toList inside with
    | none => cutBroken
    | some (_, rest) => ([.aside], rest)

def cutVerbatim (cs : List Char) : Cut :=
  match upTo? "]]>".toList cs with
  | none => cutBroken
  | some (inside, rest) =>
    let mark := "[CDATA[".toList
    if Text.sameLetters (inside.take mark.length) mark then ([.verbatim (inside.drop mark.length)], rest)
    else cutBroken

/-- Splits at the first `>` before which the angle brackets balance. -/
def upToBalance (opened : Nat) (closed : Nat) : List Char → Option (List Char × List Char)
  | [] => none
  | c :: r =>
    if c = '>' && opened = closed then some ([], r)
    else
      let next := if c = '<' then upToBalance (opened + 1) closed r
        else if c = '>' then upToBalance opened (closed + 1) r
        else upToBalance opened closed r
      next.map fun p => (c :: p.1, p.2)

def cutDoctype (cs : List Char) : Cut :=
  match upToBalance 0 0 cs with
  | none => cutBroken
  | some (inside, rest) =>
    let mark := "DOCTYPE".toList
    if Text.sameLetters (inside.take mark.length) mark && !(inside.drop mark.length).all isSpace then
      ([.doctype], rest)
    else cutBroken

/-! ### The whole -/

/-- Markup from after its `<`. -/
def cutMarkup : List Char → Cut
  | [] => ([], [])
  | '/' :: r => cutClosing r
  | '?' :: r => cutInstruction r
  | '!' :: '-' :: r => cutComment ('-' :: r)
  | '!' :: '[' :: r => cutVerbatim ('[' :: r)
  | '!' :: 'D' :: r => cutDoctype ('D' :: r)
  | '!' :: 'd' :: r => cutDoctype ('d' :: r)
  | '!' :: _ => cutBroken
  | cs => cutOpening cs

/-- Cuts a document into at most `fuel` stretches of markup and the text between them. -/
def cutAll : Nat → List Char → List Token
  | 0, _ => []
  | fuel + 1, cs =>
    let text := cs.takeWhile (· != '<')
    let front := if text.isEmpty then [] else [Token.text text]
    match cs.drop text.length with
    | [] => front
    | _ :: r =>
      let (tokens, rest) := cutMarkup r
      front ++ tokens ++ cutAll fuel rest

/-- Lets closing tags answer the open ones, the last first; one that does not is broken. -/
def matched (stack : List (List Char)) : List Token → List Token
  | [] => []
  | .opening name attributes :: r => .opening name attributes :: matched (name :: stack) r
  | .closing name :: r =>
    match stack with
    | [] => [.broken]
    | top :: stack => if top = name then .closing name :: matched stack r else [.broken]
  | .broken :: _ => [.broken]
  | t :: r => t :: matched stack r

def tokens (cs : List Char) : List Token :=
  matched [] (cutAll (cs.length + 1) cs)

end EngineClient.Xml
