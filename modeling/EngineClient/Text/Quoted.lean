import EngineClient.Text.Ascii
import EngineClient.Text.Visible

/-!
# Quoted text

Text between double quotes on one line. A quote and a backslash get a backslash in front, common control
characters a letter, and other characters without a mark of their own their number in braces.
-/

namespace EngineClient.Text

def openBrace : Char := '\x7b'

def closeBrace : Char := '\x7d'

/-- How a character stands between quotes; `single` escapes the apostrophe as well. -/
def quotedChar (single : Bool) (c : Char) : List Char :=
  if c = '\x00' then ['\\', '0']
  else if c = '\t' then ['\\', 't']
  else if c = '\r' then ['\\', 'r']
  else if c = '\n' then ['\\', 'n']
  else if c = '"' then ['\\', '"']
  else if c = '\\' then ['\\', '\\']
  else if c = '\'' && single then ['\\', '\'']
  else if isVisible c then [c]
  else '\\' :: 'u' :: openBrace :: hex c.toNat ++ [closeBrace]

def quote (single : Bool) (s : String) : String :=
  String.ofList ('"' :: s.toList.flatMap (quotedChar single) ++ ['"'])

def quoted (s : String) : String :=
  quote false s

def quotedPath (s : String) : String :=
  quote true s

/-! ### Descriptions of values -/

def braced (name : String) (parts : List (String × String)) (whole : Bool) : String :=
  let inner := ", ".intercalate ((parts.map fun p => p.1 ++ ": " ++ p.2) ++ if whole then [] else [".."])
  name ++ " \x7b " ++ inner ++ " \x7d"

def described (show? : α → String) : Option α → String
  | none => "None"
  | some a => "Some(" ++ show? a ++ ")"

def yesNo (b : Bool) : String :=
  if b then "true" else "false"

def bracketed (parts : List String) : String :=
  "[" ++ ", ".intercalate parts ++ "]"

end EngineClient.Text
