import EngineClient.Api.Request
import EngineClient.Api.Settings
import EngineClient.Text.Percent

/-!
# The root of the API

Where requests go: `urlFor` writes the URL of a request below the root, `pathOf?` tells which links lead below it,
and `draft` adds the headers that go with every request, the credential last.
-/

namespace EngineClient

/-- The root and what all requests to it share. -/
structure ApiRoot where
  url : List Char
  path : List Char
  mediaType : MediaType
  headers : List Header
  deriving DecidableEq

namespace ApiRoot

def ofSettings (s : Settings) : ApiRoot :=
  { url := s.baseUrl, path := s.basePath, mediaType := s.mediaType, headers := s.headers }

/-! ### Links -/

def pathOf? (r : ApiRoot) (href : List Char) : Option (List Char) :=
  let rest := (Text.stripFront? r.url href).or
    (if href.head? = some '/' then Text.stripFront? r.path href else none)
  rest.filter fun p => p.isEmpty || p.head? = some '/'

/-! ### URLs -/

def matrixText (s : String) : List Char :=
  Text.percentEncode Text.isUnreserved (Text.utf8 s)

def matrixPart (f : Text.Form.Field) : List Char :=
  ';' :: matrixText f.1 ++ '=' :: matrixText f.2

def urlFor (r : ApiRoot) (request : Request) : List Char :=
  let path := Text.trimStart Text.isSlash request.path.toList
  r.url ++ (if path.isEmpty then [] else '/' :: path) ++ request.matrix.flatMap matrixPart
    ++ if request.query.isEmpty then [] else '?' :: Text.Form.render request.query

/-! ### Headers -/

def apiVersion : HeaderValue := .literal "4"

def mediaTypeValue (r : ApiRoot) : HeaderValue :=
  .literal r.mediaType.name

/-- The headers of a request and a credential, in the order in which they are sent. -/
def headersFor (r : ApiRoot) (request : Request) (authorization : HeaderValue) : List Header :=
  [(.version, apiVersion)]
    ++ (if request.sets .accept then [] else [(.accept, r.mediaTypeValue)])
    ++ (if request.body.isSome && !request.sets .contentType then [(.contentType, r.mediaTypeValue)] else [])
    ++ r.headers
    ++ request.headers.filter (fun h => h.1 ≠ .authorization)
    ++ [(.authorization, authorization)]

def draft (r : ApiRoot) (request : Request) (authorization : HeaderValue) : Draft :=
  { method := request.method
    url := String.ofList (r.urlFor request)
    headers := r.headersFor request authorization
    body := match request.body with
      | none => .empty
      | some b => .bytes b }

end ApiRoot
end EngineClient
