import EngineClient.Api.Request
import EngineClient.Text.Blank
import EngineClient.Text.Quoted

/-!
# Services

The tree of resources below the root: collections and their members, each known by its path, and the requests that
can be made to them.
-/

namespace EngineClient

/-- What a listing is to show. -/
structure ListOptions where
  search : Option String := none
  max : Option Nat := none
  /-- Links to resolve in the answer. -/
  follow : Option String := none
  caseSensitive : Option Bool := none
  allContent : Bool := false

/-- What a single resource is to show. -/
structure GetOptions where
  follow : Option String := none
  allContent : Bool := false

namespace Request

def addQuery? (r : Request) (name : String) : Option String → Request
  | none => r
  | some value => r.addQuery name value

def askAllContent (r : Request) (allContent : Bool) : Request :=
  if allContent then r.addHeader .allContent (.literal "true") else r

end Request

def ListOptions.apply (o : ListOptions) (r : Request) : Request :=
  let r := r.addQuery? "search" o.search
  let r := r.addQuery? "case_sensitive" (o.caseSensitive.map Text.yesNo)
  let r := r.addQuery? "max" (o.max.map Text.decimal)
  let r := r.addQuery? "follow" o.follow
  r.askAllContent o.allContent

def GetOptions.apply (o : GetOptions) (r : Request) : Request :=
  (r.addQuery? "follow" o.follow).askAllContent o.allContent

namespace Service

/-- The path of a child, its own slashes around it left out. -/
def join (parent child : String) : String :=
  let child := String.ofList (Text.trimSlashes child.toList)
  if parent.isEmpty then child else parent ++ "/" ++ child

end Service

/-- A resource that has members, such as `vms`. -/
structure Collection where
  path : String
  deriving DecidableEq, Repr

/-- A single resource, such as `vms/123`. -/
structure Entity where
  path : String
  deriving DecidableEq, Repr

namespace Collection

def vms : Collection := ⟨"vms"⟩
def hosts : Collection := ⟨"hosts"⟩
def clusters : Collection := ⟨"clusters"⟩
def dataCenters : Collection := ⟨"datacenters"⟩
def storageDomains : Collection := ⟨"storagedomains"⟩
def templates : Collection := ⟨"templates"⟩
def networks : Collection := ⟨"networks"⟩
def disks : Collection := ⟨"disks"⟩
def users : Collection := ⟨"users"⟩
def events : Collection := ⟨"events"⟩

def list (c : Collection) (o : ListOptions) : Request :=
  o.apply (.get c.path)

def add (c : Collection) (body : Bytes) : Request :=
  (Request.post c.path).withBody body

def entity (c : Collection) (id : String) : Entity :=
  ⟨Service.join c.path id⟩

end Collection

namespace Entity

def ofPath (path : String) : Entity :=
  ⟨String.ofList (Text.trimSlashes path.toList)⟩

def get (e : Entity) (o : GetOptions) : Request :=
  o.apply (.get e.path)

def update (e : Entity) (body : Bytes) : Request :=
  (Request.put e.path).withBody body

def remove (e : Entity) : Request :=
  .delete e.path

/-- The request that starts an action such as `start`. -/
def action (e : Entity) (name : String) (body : Bytes) : Request :=
  (Request.post (Service.join e.path name)).withBody body

def collection (e : Entity) (name : String) : Collection :=
  ⟨Service.join e.path name⟩

end Entity

def Request.root : Request := .get ""

end EngineClient
