import EngineClient.Text.Ascii
import EngineClient.Text.Blank

/-!
# Targets of requests

The URI that a request is made to, as the transport reads it: scheme, authority, path and query. Nothing is
normalized but the scheme's case; a fragment is dropped.
-/

namespace EngineClient

/-- Why a text is no URI. -/
inductive UriError
  | empty
  | tooLong
  | schemeTooLong
  | invalidCharacter
  | invalidAuthority
  | invalidFormat
  deriving DecidableEq, Repr

def UriError.message : UriError → String
  | .empty => "empty string"
  | .tooLong => "uri too long"
  | .schemeTooLong => "scheme too long"
  | .invalidCharacter => "invalid uri character"
  | .invalidAuthority => "invalid authority"
  | .invalidFormat => "invalid format"

/-- A target: an absolute URI, an authority alone or a path alone. -/
structure Uri where
  scheme : Option String
  authority : Option (List Char)
  path : List Char
  query : Option (List Char)
  deriving DecidableEq, Repr

namespace Uri

/-- The longest URI, in bytes. -/
def maxLength : Nat := 65534

def maxSchemeLength : Nat := 64

def isSchemeChar (c : Char) : Bool :=
  c.isAlphanum || c == '+' || c == '-' || c == '.'

/-- Cuts a scheme and `://` off the front, if the text begins with them. -/
def splitScheme (cs : List Char) : Except UriError (Option String × List Char) :=
  let name := cs.takeWhile isSchemeChar
  match Text.stripFront? "://".toList (cs.drop name.length) with
  | none => .ok (none, cs)
  | some rest =>
    if Text.sameLetters name "http".toList then .ok (some "http", rest)
    else if Text.sameLetters name "https".toList then .ok (some "https", rest)
    else if cs.length ≤ 3 then .ok (none, cs)
    else if name.length > maxSchemeLength then .error .schemeTooLong
    else .ok (some (String.ofList name), rest)

/-! ### Authority -/

def endsAuthority (c : Char) : Bool :=
  c == '/' || c == '?' || c == '#'

def isAuthorityChar (c : Char) : Bool :=
  c.isAlphanum || "!$&'()*+,-.:;=@[]_~".toList.contains c

/-- What has been seen of an authority. -/
structure Seen where
  colons : Nat := 0
  opened : Bool := false
  closed : Bool := false
  percent : Bool := false
  endsInAt : Bool := false
  deriving DecidableEq, Repr

/-- Takes one more character of an authority. Colons and percent signs before `@` belong to the user, those
before `]` to an address. -/
def Seen.next (s : Seen) (c : Char) : Except UriError Seen :=
  let s := { s with endsInAt := c == '@' }
  if c = ':' then
    if s.colons ≥ 8 then .error .invalidAuthority else .ok { s with colons := s.colons + 1 }
  else if c = '[' then
    if s.percent || s.opened then .error .invalidAuthority else .ok { s with opened := true }
  else if c = ']' then
    if !s.opened || s.closed then .error .invalidAuthority
    else .ok { s with closed := true, colons := 0, percent := false }
  else if c = '@' then .ok { s with colons := 0, percent := false }
  else if c = '%' then .ok { s with percent := true }
  else if isAuthorityChar c then .ok s
  else .error .invalidCharacter

def checkAuthority (cs : List Char) : Except UriError Unit := do
  let s ← cs.foldlM Seen.next {}
  if s.opened != s.closed || s.colons > 1 || s.endsInAt || s.percent then .error .invalidAuthority
  else .ok ()

/-! ### Path and query -/

-- What is beyond ASCII may stand in both. Controls may not, 0x7F among them: a path that ends in it is answered with
-- `invalid uri character`.

def isPathChar (c : Char) : Bool :=
  let n := c.toNat
  n == 0x21 || n == 0x22 || (0x24 ≤ n && n ≤ 0x3B) || n == 0x3D || (0x40 ≤ n && n ≤ 0x5F)
    || (0x61 ≤ n && n ≤ 0x7E) || 0x80 ≤ n

def isQueryChar (c : Char) : Bool :=
  let n := c.toNat
  n == 0x21 || (0x24 ≤ n && n ≤ 0x3B) || n == 0x3D || (0x3F ≤ n && n ≤ 0x7E) || 0x80 ≤ n

def splitPath (cs : List Char) : Except UriError (List Char × Option (List Char)) :=
  let cs := cs.takeWhile (· != '#')
  let path := cs.takeWhile (· != '?')
  if !path.all isPathChar then .error .invalidCharacter
  else match cs.drop path.length with
    | [] => .ok (path, none)
    | _ :: query => if query.all isQueryChar then .ok (path, some query) else .error .invalidCharacter

def parseAbsolute (scheme : String) (cs : List Char) : Except UriError Uri := do
  if cs.isEmpty then throw .empty
  let authority := cs.takeWhile (!endsAuthority ·)
  checkAuthority authority
  if authority.isEmpty then throw .invalidFormat
  let (path, query) ← splitPath (cs.drop authority.length)
  return { scheme := some scheme, authority := some authority, path, query }

def parse? (s : String) : Except UriError Uri := do
  let cs := s.toList
  if s.utf8ByteSize > maxLength then throw .tooLong
  match cs with
  | [] => throw .empty
  | ['*'] => return { scheme := none, authority := none, path := cs, query := none }
  | '/' :: _ =>
    let (path, query) ← splitPath cs
    return { scheme := none, authority := none, path, query }
  | _ =>
    let (scheme, rest) ← splitScheme cs
    match scheme with
    | some scheme => parseAbsolute scheme rest
    | none =>
      let authority := cs.takeWhile (!endsAuthority ·)
      checkAuthority authority
      if authority.length < cs.length then
        throw (if cs.length = 1 then .invalidCharacter else .invalidFormat)
      return { scheme := none, authority := some authority, path := [], query := none }

/-! ### Parts and text -/

/-- The path as it is sent, at least a slash. -/
def sentPath (u : Uri) : List Char :=
  if u.path.isEmpty && u.scheme.isSome then ['/'] else u.path

def target (u : Uri) : String :=
  String.ofList (u.sentPath ++ match u.query with
    | none => []
    | some q => '?' :: q)

def text (u : Uri) : String :=
  (match u.scheme with
    | some s => s ++ "://"
    | none => "") ++ String.ofList (u.authority.getD []) ++ u.target

def hostAndPort (u : Uri) : List Char :=
  ((u.authority.getD []).reverse.takeWhile (· != '@')).reverse

/-- The host; an address keeps its brackets. -/
def host? (u : Uri) : Option (List Char) :=
  u.authority.map fun _ =>
    match u.hostAndPort with
    | '[' :: r => '[' :: r.takeWhile (· != ']') ++ [']']
    | cs => cs.takeWhile (· != ':')

def port? (u : Uri) : Option Nat :=
  let cs := u.hostAndPort
  if cs.contains ':' then Text.unsigned? 65535 ((cs.reverse.takeWhile (· != ':')).reverse) else none

def defaultPort? : String → Option Nat
  | "http" => some 80
  | "https" => some 443
  | _ => none

/-- The host and a port that the scheme does not imply, as the `Host` header has them. -/
def hostHeader (u : Uri) : String :=
  let host := String.ofList (u.host?.getD [])
  match u.port? with
  | none => host
  | some p => if u.scheme.bind defaultPort? = some p then host else host ++ ":" ++ Text.decimal p

end Uri
end EngineClient
