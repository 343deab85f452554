import EngineClient.Text.Blank
import EngineClient.Url.Host
import EngineClient.Url.Path

/-!
# URLs

URLs as users write them: blanks around them and line breaks in them do not count, hosts and paths are brought
into one form, and what may not stand in a part is escaped. Of URLs of schemes other than `http` and `https` only
the scheme is kept.
-/

namespace EngineClient

/-- The schemes that requests can be made with. -/
inductive WebScheme
  | http
  | https
  deriving DecidableEq, Repr

namespace WebScheme

def name : WebScheme → String
  | http => "http"
  | https => "https"

def defaultPort : WebScheme → Nat
  | http => 80
  | https => 443

end WebScheme

/-- A URL that requests can be made to. -/
structure WebUrl where
  scheme : WebScheme
  /-- What stands before the host, with the `@` at its end, or nothing. -/
  userInfo : List Char
  host : List Char
  /-- A port other than the scheme's own. -/
  port : Option Nat
  /-- The path, which begins with a slash. -/
  path : List Char
  query : Option (List Char)
  fragment : Option (List Char)
  deriving DecidableEq, Repr

namespace WebUrl

def origin (u : WebUrl) : List Char :=
  u.scheme.name.toList ++ "://".toList ++ u.userInfo ++ u.host ++ match u.port with
    | none => []
    | some p => ':' :: Nat.toDigits 10 p

def text (u : WebUrl) : List Char :=
  u.origin ++ u.path ++ (match u.query with
    | none => []
    | some q => '?' :: q) ++ match u.fragment with
    | none => []
    | some f => '#' :: f

/-- The same place with another path, and neither query nor fragment. -/
def withPath (u : WebUrl) (path : List Char) : WebUrl :=
  { u with path := Path.normalize path, query := none, fragment := none }

end WebUrl

inductive Url
  | web (url : WebUrl)
  | foreign (scheme : String)
  deriving DecidableEq, Repr

namespace Url

/-! ### Escapes -/

def standsInUser (b : UInt8) : Bool :=
  Path.stands b && !("/:;=@[\\]^|".toList.contains (Text.charOf b))

def standsInQuery (b : UInt8) : Bool :=
  0x20 < b && b < 0x7F && !("\"#<>'".toList.contains (Text.charOf b))

def standsInFragment (b : UInt8) : Bool :=
  0x20 < b && b < 0x7F && !("\"<>\x60".toList.contains (Text.charOf b))

def escape (stands : UInt8 → Bool) (cs : List Char) : List Char :=
  Text.percentEncode stands (Text.encode cs)

/-! ### Parts -/

def isEdge (c : Char) : Bool :=
  c.toNat ≤ 0x20

def isLineBreak (c : Char) : Bool :=
  c == '\t' || c == '\n' || c == '\x0d'

/-- What of a text counts. -/
def significant (s : String) : List Char :=
  (Text.trimBoth isEdge s.toList).filter (!isLineBreak ·)

def isSchemeChar (c : Char) : Bool :=
  c.isAlphanum || c == '+' || c == '-' || c == '.'

def splitScheme (cs : List Char) : Except UrlError (List Char × List Char) :=
  let name := cs.takeWhile isSchemeChar
  match cs.drop name.length with
  | ':' :: rest => if (name.head?.map Char.isAlpha).getD false then .ok (Text.lower name, rest) else .error .relative
  | _ => .error .relative

def endsAuthority (special : Bool) (c : Char) : Bool :=
  c == '/' || c == '?' || c == '#' || (special && c == '\\')

/-- Splits an authority at its last `@`. -/
def splitUser (cs : List Char) : Option (List Char) × List Char :=
  let host := (cs.reverse.takeWhile (· != '@')).reverse
  if host.length = cs.length then (none, cs) else (some (cs.take (cs.length - host.length - 1)), host)

/-- What stands before the host, escaped, with its `@`; nothing if neither name nor password is given. -/
def userInfo (cs : List Char) : List Char :=
  let name := cs.takeWhile (· != ':')
  let password := cs.drop (name.length + 1)
  let text := escape standsInUser name ++ if password.isEmpty then [] else ':' :: escape standsInUser password
  if text.isEmpty then [] else text ++ ['@']

/-- Reads the authority of a scheme whose hosts are known in form: what stands before the host, host and port. -/
def authority? (idna : Idna) (cs : List Char) : Except UrlError (List Char × List Char × Option Nat) := do
  let (user, rest) := splitUser cs
  let (host, port) := Host.splitPort false rest
  if host.isEmpty then throw .emptyHost
  let host ← Host.parse? idna host
  let port ← Host.port? (port.getD [])
  return ((user.map userInfo).getD [], host, port)

/-- Splits what follows the authority into path, query and fragment. -/
def splitTail (cs : List Char) : List Char × Option (List Char) × Option (List Char) :=
  let body := cs.takeWhile (· != '#')
  let fragment := match cs.drop body.length with
    | [] => none
    | _ :: f => some f
  let path := body.takeWhile (· != '?')
  let query := match body.drop path.length with
    | [] => none
    | _ :: q => some q
  (path, query, fragment)

def web? (idna : Idna) (scheme : WebScheme) (cs : List Char) : Except UrlError WebUrl := do
  let cs := cs.dropWhile Path.isSeparator
  let authority := cs.takeWhile (!endsAuthority true ·)
  let (userInfo, host, port) ← authority? idna authority
  let (path, query, fragment) := splitTail (cs.drop authority.length)
  return {
    scheme, userInfo, host
    port := port.filter (· != scheme.defaultPort)
    path := Path.normalize path
    query := query.map (escape standsInQuery)
    fragment := fragment.map (escape standsInFragment) }

/-! ### Other schemes -/

def hostedSchemes : List String := ["ws", "wss", "ftp"]

def checkOpaque (cs : List Char) : Except UrlError Unit :=
  match cs with
  | '/' :: '/' :: r => do
    let (user, rest) := splitUser (r.takeWhile (!endsAuthority false ·))
    let (host, port) := Host.splitPort false rest
    Host.checkOpaque host
    if host.isEmpty && port.isSome then throw .emptyHost
    let _ ← Host.port? ((port.getD []).takeWhile (· != '\\'))
    if host.isEmpty && !((user.map userInfo).getD []).isEmpty then throw .emptyHost
    if host.isEmpty && user = some [] && !(r.drop 1).isEmpty then throw .emptyHost
  | _ => .ok ()

def checkFile (idna : Idna) (cs : List Char) : Except UrlError Unit :=
  match cs with
  | a :: b :: r =>
    if Path.isSeparator a && Path.isSeparator b then
      let host := r.takeWhile (!endsAuthority true ·)
      if host.isEmpty || Path.isDriveLetter host then .ok () else (Host.parse? idna host).map fun _ => ()
    else .ok ()
  | _ => .ok ()

def parse? (idna : Idna) (s : String) : Except UrlError Url := do
  let (scheme, rest) ← splitScheme (significant s)
  let name := String.ofList scheme
  if name = "http" then return .web (← web? idna .http rest)
  else if name = "https" then return .web (← web? idna .https rest)
  else if hostedSchemes.contains name then
    let cs := rest.dropWhile Path.isSeparator
    let _ ← authority? idna (cs.takeWhile (!endsAuthority true ·))
  else if name = "file" then checkFile idna rest
  else checkOpaque rest
  return .foreign name

end Url
end EngineClient
