import EngineClient.Text.Ascii
import EngineClient.Text.Utf8

/-!
# Header names and values

A name is a token in lower case. A value is a run of bytes without control characters other than the tab, so
that no value can end the line it stands on; it may be marked as sensitive.
-/

namespace EngineClient

/-- Why a text is no header name or value. -/
inductive HeaderError
  | name
  | value
  deriving DecidableEq, Repr

def HeaderError.message : HeaderError → String
  | .name => "invalid HTTP header name"
  | .value => "failed to parse header value"

def isTokenChar (c : Char) : Bool :=
  c.isAlphanum || "!#$%&'*+-.^_\x60|~".toList.contains c

def HeaderName.maxLength : Nat := 65535

def isHeaderName (cs : List Char) : Bool :=
  !cs.isEmpty && cs.length ≤ HeaderName.maxLength && cs.all fun c => isTokenChar c && c.toLower == c

/-- The name of a header, in lower case. -/
structure HeaderName where
  chars : List Char
  wellFormed : isHeaderName chars = true
  deriving DecidableEq

namespace HeaderName

def text (n : HeaderName) : String :=
  String.ofList n.chars

instance : Repr HeaderName := ⟨fun n _ => n.text⟩

def parse? (s : String) : Except HeaderError HeaderName :=
  let cs := Text.lower s.toList
  if h : isHeaderName cs = true then .ok ⟨cs, h⟩ else .error .name

def accept : HeaderName := ⟨"accept".toList, by decide +kernel⟩
def acceptEncoding : HeaderName := ⟨"accept-encoding".toList, by decide +kernel⟩
def allContent : HeaderName := ⟨"all-content".toList, by decide +kernel⟩
def authorization : HeaderName := ⟨"authorization".toList, by decide +kernel⟩
def contentEncoding : HeaderName := ⟨"content-encoding".toList, by decide +kernel⟩
def contentLength : HeaderName := ⟨"content-length".toList, by decide +kernel⟩
def contentType : HeaderName := ⟨"content-type".toList, by decide +kernel⟩
def cookie : HeaderName := ⟨"cookie".toList, by decide +kernel⟩
def proxyAuthorization : HeaderName := ⟨"proxy-authorization".toList, by decide +kernel⟩
def retryAfter : HeaderName := ⟨"retry-after".toList, by decide +kernel⟩
def setCookie : HeaderName := ⟨"set-cookie".toList, by decide +kernel⟩
def userAgent : HeaderName := ⟨"user-agent".toList, by decide +kernel⟩
def version : HeaderName := ⟨"version".toList, by decide +kernel⟩

/-- Headers whose values are credentials. -/
def carriesCredentials (n : HeaderName) : Bool :=
  n = authorization || n = proxyAuthorization || n = cookie || n = setCookie

end HeaderName

/-! ### Values -/

def isValueByte (b : UInt8) : Bool :=
  b == 9 || (0x20 ≤ b && b != 0x7F)

def isShownByte (b : UInt8) : Bool :=
  b == 9 || (0x20 ≤ b && b < 0x7F)

/-- The value of a header. -/
structure HeaderValue where
  bytes : Bytes
  sensitive : Bool
  clean : bytes.all isValueByte = true
  deriving DecidableEq

namespace HeaderValue

def parseBytes? (bs : Bytes) : Except HeaderError HeaderValue :=
  if h : bs.all isValueByte = true then .ok ⟨bs, false, h⟩ else .error .value

/-- The value that consists of the UTF-8 bytes of a text. -/
def parse? (s : String) : Except HeaderError HeaderValue :=
  parseBytes? (Text.utf8 s)

def markSensitive (v : HeaderValue) : HeaderValue :=
  { v with sensitive := true }

/-- The text of a value that holds visible ASCII characters, spaces and tabs only. -/
def text? (v : HeaderValue) : Option String :=
  if v.bytes.all isShownByte then some (String.ofList (v.bytes.map fun b => Char.ofNat b.toNat)) else none

/-- A fixed value; what is not allowed in a value is left out. -/
def literal (s : String) : HeaderValue :=
  ⟨(Text.utf8 s).filter isValueByte, false, by simp [List.all_eq_true]⟩

theorem bytes_of_parseBytes? {bs : Bytes} {v : HeaderValue} (h : parseBytes? bs = .ok v) : v.bytes = bs := by
  unfold parseBytes? at h
  split at h
  · cases h; rfl
  · cases h

theorem parseBytes?_isOk_iff {bs : Bytes} :
    (∃ v, parseBytes? bs = .ok v) ↔ bs.all isValueByte = true := by
  unfold parseBytes?
  split <;> simp_all

end HeaderValue

/-- A header as it is sent. -/
abbrev Header := HeaderName × HeaderValue

end EngineClient
