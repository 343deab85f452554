import EngineClient.Proofs.Report.Nodes

/-!
# Envelopes

A failed action is answered with an envelope that holds its fault among what else the action says. The fault is reported
unless the envelope has a reason or a detail of its own, which is then reported in its place, or cannot be read as a whole.
-/

namespace EngineClient
namespace Report
open EngineClient.Report.Part

/-- A body is an element or an object, and these are its parts. -/
inductive Envelope (body : Bytes) : List Part → Prop
  | element {cs name attributes : List Char} {contents : List Xml.Node} {rest : List Xml.Event}
      (decoded : Text.decode? body = some cs) (angle : (Text.trimStart Text.isBlank cs).head? = some '<')
      (root : Xml.events cs = (Xml.Node.element name attributes contents).events ++ rest)
      (good : Xml.attributesAreGood attributes = true) : Envelope body (ofNodes contents)
  | object {members : List (Bytes × Json.Outline)} (document : Json.Outline.read? body = .ok (.object members)) :
      Envelope body (members.map (ofMember (assemble? (maxDepth - 1))))

theorem Envelope.read_eq (envelope : Envelope body parts) : (ofXml? body).or (ofJson? body) = ofParts? parts := by
  cases envelope with
  | @element cs name attributes contents rest decoded angle root good =>
    have json : ofJson? body = none := by
      rw [← Text.encode_of_decode? decoded]
      exact json_eq_none_of_angle angle
    have xml : ofXml? body = ofEvents? (Xml.events cs) := by
      rw [ofXml?, decoded]
      exact if_pos angle
    rw [json, Option.or_none, xml, root, ofEvents?_events good]
  | @object members document =>
    have xml : ofXml? body = none := by
      cases read : ofXml? body with
      | none => rfl
      | some report =>
        obtain ⟨cs, rfl, angle⟩ := xml_begins read
        exact absurd angle (not_angle_of_json document trivial)
    have json : ofJson? body = ofOutline? maxDepth (.object members) := by
      rw [ofJson?, document]
    rw [xml, Option.none_or, json, assembles]
    rfl

section Flatten
variable {parts : List Part}

theorem flatten_own (said : own parts ≠ (none, none)) (inner : Option Report) :
    flatten (mk (own parts).1 (own parts).2 inner) = own parts := by
  cases held : own parts with
  | mk reason detail =>
    cases reason with
    | some text => simp [flatten]
    | none =>
      cases detail with
      | some text => simp [flatten]
      | none => exact absurd held said

theorem flatten_inner (silent : own parts = (none, none)) (report : Report) :
    flatten (mk (own parts).1 (own parts).2 (some report)) = report.flatten := by
  rw [silent, flatten]

theorem flatten_of_said {report : Report} (said : report.reason.isSome ∨ report.detail.isSome) :
    report.flatten = (report.reason, report.detail) := by
  obtain ⟨reason, detail, inner⟩ := report
  cases reason with
  | some text => simp [flatten, Report.reason, Report.detail]
  | none =>
    cases detail with
    | some text => simp [flatten, Report.reason, Report.detail]
    | none => simp [Report.reason, Report.detail] at said

end Flatten
end Report

/-- A failed action that can be read is reported with the reason and the detail of its fault, unless it has a reason or
a detail of its own, which are then reported in their place. Of one that cannot be read nothing is reported. -/
theorem failed_action_reported (today : Nat) (r : Response) (envelope : Report.Envelope r.body parts)
    (holds : .fault (some fault) ∈ parts) (told : fault.reason.isSome ∨ fault.detail.isSome) :
    (Report.Part.Readable parts → Report.Part.own parts = (none, none) →
      (Fault.ofResponse today r).reason = fault.reason ∧ (Fault.ofResponse today r).detail = fault.detail) ∧
    (Report.Part.Readable parts → Report.Part.own parts ≠ (none, none) →
      ((Fault.ofResponse today r).reason, (Fault.ofResponse today r).detail) = Report.Part.own parts) ∧
    (¬ Report.Part.Readable parts →
      (Fault.ofResponse today r).reason = none ∧ (Fault.ofResponse today r).detail = none) := by
  have reported := Fault.said_ofResponse today r
  rw [envelope.read_eq] at reported
  refine ⟨fun readable silent => ?_, fun readable own => ?_, fun broken => ?_⟩
  · have inside : parts.findSome? Report.Part.fault? = some fault :=
      Report.findSome?_of_mem Report.fault?_only (by decide) readable.once holds rfl
    rw [Report.ofParts?, if_pos readable, inside] at reported
    have flat := (Report.flatten_inner silent fault).trans (Report.flatten_of_said told)
    exact Prod.mk.inj (reported.trans flat)
  · rw [Report.ofParts?, if_pos readable] at reported
    exact reported.trans (Report.flatten_own own _)
  · rw [Report.ofParts?, if_neg broken] at reported
    exact Prod.mk.inj reported

namespace Sample

/-- A failed action with its fault, behind what it echoes. -/
def action (echoed : String) : String :=
  "<action>" ++ echoed ++ "<fault><reason>Operation Failed</reason><detail>[busy]</detail></fault></action>"

def failure (echoed : String) : Response :=
  { status := ⟨409⟩
    headers := HeaderMap.empty.append .contentType (.literal "application/xml")
    body := Text.utf8 (action echoed) }

def fault : Report :=
  .mk (some "Operation Failed") (some "[busy]") none

def plain (name text : String) : Xml.Node :=
  .element name.toList [] [.text (some text.toList)]

/-- The contents of the action, where it echoes an element with a text. -/
def echoing (name text : String) : List Xml.Node :=
  [plain name text, .element "fault".toList [] [plain "reason" "Operation Failed", plain "detail" "[busy]"]]

theorem failure_envelope (echoed : String) (contents : List Xml.Node)
    (angle : (Text.trimStart Text.isBlank (action echoed).toList).head? = some '<')
    (root : Xml.events (action echoed).toList = (Xml.Node.element "action".toList [] contents).events) :
    Report.Envelope (failure echoed).body (Report.Part.ofNodes contents) :=
  .element (Text.decode?_encode _) angle (by rw [root, List.append_nil]) (by decide)

/-- The same in the other format. -/
def failureObject : Response :=
  { status := ⟨409⟩
    headers := HeaderMap.empty.append .contentType (.literal "application/json")
    body := Text.utf8
      "\x7b\"status\":\"failed\",\"fault\":\x7b\"reason\":\"Operation Failed\",\"detail\":\"[busy]\"\x7d\x7d" }

/-- The names and texts of an object of a text and an object of two texts. -/
def nested? : Json.Outline → Option (List Bytes)
  | .object [(a, .string s), (b, .object [(c, .string t), (d, .string u)])] => some [a, s, b, c, t, d, u]
  | _ => none

theorem nested?_eq_some {v : Json.Outline} (nested : nested? v = some [a, s, b, c, t, d, u]) :
    v = .object [(a, .string s), (b, .object [(c, .string t), (d, .string u)])] := by
  unfold nested? at nested
  split at nested
  · cases nested
    rfl
  · cases nested

end Sample

/-- An action with a status, in both formats. -/
theorem failed_action_reported_status :
    (Fault.ofResponse 0 (Sample.failure "<status>failed</status>")).reason = some "Operation Failed" ∧
    (Fault.ofResponse 0 (Sample.failure "<status>failed</status>")).detail = some "[busy]" ∧
    (Fault.ofResponse 0 Sample.failureObject).reason = some "Operation Failed" ∧
    (Fault.ofResponse 0 Sample.failureObject).detail = some "[busy]" := by
  have shape : (Json.Outline.read? Sample.failureObject.body).map Sample.nested? =
      .ok (some (["status", "failed", "fault", "reason", "Operation Failed", "detail", "[busy]"].map Text.utf8)) := by
    decide +kernel
  obtain ⟨v, document, nested⟩ := Except.map_eq_ok shape
  rw [Sample.nested?_eq_some nested] at document
  have inside : Report.Part.fault (some Sample.fault) ∈ [Report.Part.other, .fault (some Sample.fault)] :=
    List.mem_cons_of_mem _ List.mem_cons_self
  have element := failed_action_reported 0 (Sample.failure "<status>failed</status>")
    (Sample.failure_envelope _ (Sample.echoing "status" "failed") (by decide +kernel) (by decide +kernel)) inside (.inl rfl)
  have object := failed_action_reported 0 Sample.failureObject (.object document) inside (.inl rfl)
  obtain ⟨reason, detail⟩ := element.1 (by decide +kernel) rfl
  obtain ⟨reason', detail'⟩ := object.1 (by decide +kernel) rfl
  exact ⟨reason, detail, reason', detail'⟩

/-- The action echoes a reason, which hides its fault. -/
theorem failed_action_hidden :
    Report.Envelope (Sample.failure "<reason>maintenance</reason>").body
      (Report.Part.ofNodes (Sample.echoing "reason" "maintenance")) ∧
    .fault (some Sample.fault) ∈ Report.Part.ofNodes (Sample.echoing "reason" "maintenance") ∧
    (Fault.ofResponse 0 (Sample.failure "<reason>maintenance</reason>")).reason = some "maintenance" ∧
    (Fault.ofResponse 0 (Sample.failure "<reason>maintenance</reason>")).detail = none := by
  have said : ((Fault.ofResponse 0 (Sample.failure "<reason>maintenance</reason>")).reason,
      (Fault.ofResponse 0 (Sample.failure "<reason>maintenance</reason>")).detail) = (some "maintenance", none) := by
    decide +kernel
  exact ⟨Sample.failure_envelope _ _ (by decide +kernel) (by decide +kernel), List.mem_cons_of_mem _ List.mem_cons_self,
    Prod.mk.inj said⟩

end EngineClient
