import EngineClient.Json.Reader
import EngineClient.Text.Blank
import EngineClient.Xml.Event

/-!
# Reports of failures

What the body of a failed request says: a reason and a detail, or another report that the body wraps. Bodies are
XML or JSON of the same shape.
-/

namespace EngineClient

/-- A reason, a detail, and a report inside. -/
inductive Report
  | mk (reason detail : Option String) (inner : Option Report)
  deriving Inhabited, Repr

namespace Report

def empty : Report := mk none none none

def reason : Report → Option String
  | mk r _ _ => r

def detail : Report → Option String
  | mk _ d _ => d

def inner : Report → Option Report
  | mk _ _ i => i

/-- Reason and detail of the outermost report that has one of them. -/
def flatten : Report → Option String × Option String
  | mk none none (some r) => r.flatten
  | mk reason detail _ => (reason, detail)

/-! ### XML -/

def ofChildren : Nat → Report → List Xml.Event → Option (Report × List Xml.Event)
  | 0, _, _ => none
  | _ + 1, _, [] => none
  | fuel + 1, acc, e :: r =>
    match e with
    | .broken => none
    | .closing _ => some (acc, r)
    | .text none => none
    | .text (some _) => ofChildren fuel acc r
    | .opening name attributes =>
      let name := Xml.localName name
      if name = "reason".toList then
        if acc.reason.isSome then none
        else do
          let (text, r) ← Xml.textContent? r
          ofChildren fuel (mk (some (String.ofList text)) acc.detail acc.inner) r
      else if name = "detail".toList then
        if acc.detail.isSome then none
        else do
          let (text, r) ← Xml.textContent? r
          ofChildren fuel (mk acc.reason (some (String.ofList text)) acc.inner) r
      else if name = "fault".toList then
        if acc.inner.isSome || !Xml.attributesAreGood attributes then none
        else do
          let (inner, r) ← ofChildren fuel empty r
          ofChildren fuel (mk acc.reason acc.detail (some inner)) r
      else do
        let r ← Xml.skip? r
        ofChildren fuel acc r

/-- The report of the events of a document: that of its root element, whatever its name. -/
def ofEvents? : List Xml.Event → Option Report
  | .opening _ attributes :: r =>
    if Xml.attributesAreGood attributes then (ofChildren (r.length + 1) empty r).map Prod.fst else none
  | _ => none

def ofXml? (body : Bytes) : Option Report := do
  let cs ← Text.decode? body
  if (Text.trimStart Text.isBlank cs).head? = some '<' then ofEvents? (Xml.events cs) else none

/-! ### JSON -/

/-- A string or null. -/
def textOf? : Json.Outline → Option (Option String)
  | .null => some none
  | .string raw => (Json.resolve? raw).map some
  | _ => none

def maxDepth : Nat := 127

/-- What a member of an object is to a report. -/
inductive Field
  | reason
  | detail
  | fault
  | unknown
  deriving DecidableEq, Repr

def Field.ofName (name : String) : Field :=
  if name = "reason" then .reason else if name = "detail" then .detail
  else if name = "fault" then .fault else .unknown

mutual

/-- A report of an object or a list, `depth` levels of which are left. -/
def ofOutline? : Nat → Json.Outline → Option Report
  | 0, _ => none
  | depth + 1, .object members => ofMembers? depth [] empty members
  | depth + 1, .array items => ofItems? depth items
  | _ + 1, _ => none

/-- A report inside another, or null. -/
def ofInner? : Nat → Json.Outline → Option (Option Report)
  | _, .null => some none
  | depth, v => (ofOutline? depth v).map some

/-- Takes the members of an object in turn; none that is known may come twice. -/
def ofMembers? (depth : Nat) (seen : List Field) (acc : Report) :
    List (Bytes × Json.Outline) → Option Report
  | [] => some acc
  | (key, v) :: r => do
    let field := Field.ofName (← Json.resolve? key)
    if field ≠ .unknown && seen.contains field then none
    else
      let acc ← match field with
        | .reason => (textOf? v).map fun s => mk s acc.detail acc.inner
        | .detail => (textOf? v).map fun s => mk acc.reason s acc.inner
        | .fault => (ofInner? depth v).map fun i => mk acc.reason acc.detail i
        | .unknown => some acc
      ofMembers? depth (field :: seen) acc r

/-- A reason, a detail and a report in that order, the last of them left out or not. -/
def ofItems? (depth : Nat) : List Json.Outline → Option Report
  | [] => some empty
  | [a] => do return mk (← textOf? a) none none
  | [a, b] => do return mk (← textOf? a) (← textOf? b) none
  | [a, b, c] => do return mk (← textOf? a) (← textOf? b) (← ofInner? depth c)
  | _ => none

end

def ofJson? (body : Bytes) : Option Report :=
  match Json.Outline.read? body with
  | .ok v => ofOutline? maxDepth v
  | .error _ => none

/-! ### Either -/

def namesJson (contentType : Option String) : Bool :=
  match contentType with
  | some t => (Xml.upTo? "json".toList t.toList).isSome
  | none => false

/-- Reason and detail of a body: the format that its media type names is tried first, then the other one; what
says neither does not count. -/
def decode (contentType : Option String) (body : Bytes) : Option String × Option String :=
  let readers := if namesJson contentType then [ofJson?, ofXml?] else [ofXml?, ofJson?]
  let found := readers.findSome? fun read =>
    ((read body).map flatten).filter fun p => p.1.isSome || p.2.isSome
  found.getD (none, none)

end Report
end EngineClient
