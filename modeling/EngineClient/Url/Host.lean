import EngineClient.Text.Percent
import EngineClient.Url.Address

/-!
# Hosts

The host of a URL: a name in lower case or an address. A name of letters outside ASCII has a form in ASCII, which
tables of Unicode decide, and so do the labels of such a form; what they say is taken from an `Idna`.
-/

namespace EngineClient

/-- Characters that no name of a host may hold. -/
def Host.isForbidden (c : Char) : Bool :=
  c.toNat ≤ 0x20 || 0x7F ≤ c.toNat || "#%/:<>?@[\\]^|".toList.contains c

/-- A way to bring international names into ASCII. -/
structure Idna where
  /-- The form of a name in ASCII, none if the name is not valid. -/
  toAscii : Bytes → Option (List Char)
  permitted : toAscii bytes = some name → ∀ c ∈ name, Host.isForbidden c = false

namespace Host

def bracketed? (cs : List Char) : Except UrlError (List Char) :=
  if cs.getLast? = some ']' && cs.length > 1 then (Address.parse6? (cs.drop 1).dropLast).map Address.text6
  else .error .address6

/-- The letters of a name in ASCII, in lower case. -/
def lowered (bytes : Bytes) : List Char :=
  bytes.map fun b => (Text.charOf b).toLower

/-- Whether a name stands for itself: it is in ASCII, and no label says that it is the form of another one. -/
def isPlain (bytes : Bytes) : Bool :=
  bytes.all (· < 0x80) && (Text.Form.pieces '.' (lowered bytes)).all (!"xn--".toList.isPrefixOf ·)

/-- A name in ASCII and in lower case. -/
def name? (idna : Idna) (bytes : Bytes) : Option (List Char) :=
  if isPlain bytes then if (lowered bytes).any isForbidden then none else some (lowered bytes)
  else idna.toAscii bytes

def parse? (idna : Idna) (cs : List Char) : Except UrlError (List Char) :=
  if cs.head? = some '[' then bracketed? cs
  else match name? idna (Text.percentDecode cs) with
    | none => .error .internationalName
    | some name =>
      if name.isEmpty then .error .emptyHost
      else if Address.endsInNumber name then (Address.parse4? name).map Address.text4
      else .ok name

/-- Characters that end no host but may not stand in one whose form nobody knows. -/
def isOpaqueForbidden (c : Char) : Bool :=
  "\x00\t\n\x0d #/:<>?@[\\]^|".toList.contains c

/-- Checks a host whose form nobody knows; it may be empty. -/
def checkOpaque (cs : List Char) : Except UrlError Unit :=
  if cs.head? = some '[' then (bracketed? cs).map fun _ => ()
  else if cs.any isOpaqueForbidden then .error .domainCharacter
  else .ok ()

/-- Splits at the first colon outside brackets. -/
def splitPort (inside : Bool) : List Char → List Char × Option (List Char)
  | [] => ([], none)
  | c :: r =>
    if c = ':' && !inside then ([], some r)
    else
      let inside := if c = '[' then true else if c = ']' then false else inside
      let (host, port) := splitPort inside r
      (c :: host, port)

/-- A port written in decimal, nothing if there are no digits. -/
def port? (cs : List Char) : Except UrlError (Option Nat) :=
  if cs.isEmpty then .ok none
  else match Text.natural? cs with
    | some n => if n ≤ 65535 then .ok (some n) else .error .port
    | none => .error .port

end Host

/-- Takes names in ASCII as they stand and knows no other ones. -/
def Idna.ascii : Idna where
  toAscii bytes := if (Host.lowered bytes).any Host.isForbidden then none else some (Host.lowered bytes)
  permitted made := by
    split at made
    · cases made
    · rename_i free
      cases made
      simpa using free

end EngineClient
