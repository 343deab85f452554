import EngineClient.Http.HeaderMap
import EngineClient.Http.Status
import EngineClient.Text.Form

/-!
# Requests and responses

A request names a resource below the root of the API; its parameters keep their order and may repeat. A response
has been read to its end.
-/

namespace EngineClient

structure Request where
  method : Method
  path : String
  /-- Parameters after the question mark. -/
  query : List Text.Form.Field := []
  /-- Parameters that belong to the path. -/
  matrix : List Text.Form.Field := []
  headers : List Header := []
  body : Option Bytes := none
  deriving DecidableEq

namespace Request

def get (path : String) : Request := { method := .get, path }
def post (path : String) : Request := { method := .post, path }
def put (path : String) : Request := { method := .put, path }
def delete (path : String) : Request := { method := .delete, path }

def addQuery (r : Request) (name value : String) : Request :=
  { r with query := r.query ++ [(name, value)] }

def addMatrix (r : Request) (name value : String) : Request :=
  { r with matrix := r.matrix ++ [(name, value)] }

def addHeader (r : Request) (name : HeaderName) (value : HeaderValue) : Request :=
  { r with headers := r.headers ++ [(name, value)] }

def withBody (r : Request) (bytes : Bytes) : Request :=
  { r with body := some bytes }

/-- Whether a request has a header of its own. -/
def sets (r : Request) (name : HeaderName) : Bool :=
  r.headers.any fun h => h.1 = name

end Request

structure Response where
  status : Status
  headers : HeaderMap
  body : Bytes
  deriving DecidableEq

namespace Response

/-- The body as text, whatever it holds. -/
def text (r : Response) : String :=
  String.ofList (Text.decodeLossy r.body)

/-- The media type, if its header can be shown as text. -/
def contentType (r : Response) : Option String :=
  (r.headers.get? .contentType).bind HeaderValue.text?

end Response
end EngineClient
