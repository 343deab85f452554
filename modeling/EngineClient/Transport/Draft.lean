import EngineClient.Http.HeaderMap
import EngineClient.Http.Status
import EngineClient.Http.Uri
import EngineClient.Text.Form
import EngineClient.Transport.Settings

/-!
# Drafts of requests

A request being put together. A header that is none spoils the draft, and the first such error is reported when the
draft is to be sent, before anything else. `prepare` is all that is checked before a request leaves.
-/

namespace EngineClient

inductive DraftBody
  | empty
  | bytes (bytes : Bytes)
  | form (bytes : Bytes)
  deriving DecidableEq

def DraftBody.contents : DraftBody → Bytes
  | .empty => []
  | .bytes b | .form b => b

structure Draft where
  method : Method
  url : String
  headers : List Header := []
  body : DraftBody := .empty
  spoiled : Option ClientError := none
  deriving DecidableEq

namespace Draft

/-- Adds a header given as text; nothing is added to a spoiled draft. -/
def header (d : Draft) (name value : String) : Draft :=
  if d.spoiled.isSome then d
  else match HeaderName.parse? name, HeaderValue.parse? value with
    | .ok n, .ok v => { d with headers := d.headers ++ [(n, v)] }
    | .error e, _ | .ok _, .error e => { d with spoiled := some (.ofHeader e) }

def addHeaders (d : Draft) (hs : List Header) : Draft :=
  { d with headers := d.headers ++ hs }

def addHeader (d : Draft) (name : HeaderName) (value : HeaderValue) : Draft :=
  d.addHeaders [(name, value)]

/-- Makes form fields the body; reports what spoiled the draft, if anything. -/
def form (d : Draft) (fields : List Text.Form.Field) : Except ClientError Draft :=
  match d.spoiled with
  | some e => .error e
  | none => .ok { d with body := .form (Text.encode (Text.Form.render fields)) }

def withBody (d : Draft) (bytes : Bytes) : Draft :=
  { d with body := .bytes bytes }

/-! ### Checks -/

/-- Checks that a URL can be requested under the rules on encryption. -/
def target? (security : Security) (url : String) : Except ClientError Uri :=
  match Uri.parse? url with
  | .error e => .error (.url url .malformed e.message)
  | .ok uri =>
    if uri.authority.isNone then .error (.url url .noAuthority "missing host/authority")
    else match uri.scheme with
      | none => .error (.url url .noScheme "missing scheme")
      | some "https" => .ok uri
      | some "http" => match security with
        | .plainAllowed => .ok uri
        | .encryptedOnly => .error (.scheme "http" "HTTPS required (transport security is TlsOnly)")
      | some s => .error (.scheme s "only http:// and https:// schemes are supported")

def formType : HeaderValue := .literal "application/x-www-form-urlencoded"

/-- The headers of a draft, with the type of a form in front unless a type is given. -/
def allHeaders (d : Draft) : List Header :=
  match d.body with
  | .form _ =>
    if d.headers.any fun h => h.1 = .contentType then d.headers else (.contentType, formType) :: d.headers
  | _ => d.headers

/-- A request that has passed all checks but the one that the client is open. -/
structure Prepared where
  method : Method
  uri : Uri
  headers : HeaderMap
  body : Bytes
  deriving DecidableEq

def prepare (security : Security) (d : Draft) : Except ClientError Prepared := do
  if let some e := d.spoiled then throw e
  let uri ← target? security d.url
  match HeaderMap.ofListWithin? d.allHeaders with
  | some headers => return { method := d.method, uri, headers, body := d.body.contents }
  | none => throw (.build .tooManyHeaders)

end Draft
end EngineClient
