import EngineClient.Proofs.Report.Markup
import EngineClient.Proofs.Report.Objects

/-!
# Reports written out

A report can be written as elements or as an object, its texts in any way of escaping them. Both are read back as the
report that was written, so that a fault is told the same in both formats, however deep it is wrapped.
-/

namespace EngineClient
namespace Report
open EngineClient.Report.Part

/-- What a report says, in the order of its fields. -/
def parts : Report → List Part
  | mk reason detail inner =>
    reason.toList.map (fun s => .reason (some s)) ++ (detail.toList.map (fun s => .detail (some s)) ++
      inner.toList.map fun r => .fault (some r))

theorem ofParts?_parts (report : Report) : ofParts? report.parts = some report := by
  obtain ⟨reason, detail, inner⟩ := report
  rw [ofParts?_eq_gather]
  cases reason <;> cases detail <;> cases inner <;> rfl

def levels : Report → Nat
  | mk _ _ none => 1
  | mk _ _ (some inner) => inner.levels + 1

/-- The texts of a report, and of those in it, are not empty and have no blank at an end. -/
def Tidy : Report → Prop
  | mk reason detail none => (∀ s ∈ reason, Xml.Tidy s.toList) ∧ ∀ s ∈ detail, Xml.Tidy s.toList
  | mk reason detail (some inner) =>
    ((∀ s ∈ reason, Xml.Tidy s.toList) ∧ ∀ s ∈ detail, Xml.Tidy s.toList) ∧ inner.Tidy

/-- A reason and a detail so deep in reports that say nothing themselves. -/
def wrapped (reason detail : Option String) : Nat → Report
  | 0 => mk reason detail none
  | depth + 1 => mk none none (some (wrapped reason detail depth))

section Wrapped
variable {reason detail : Option String} (depth : Nat)

theorem flatten_wrapped : (wrapped reason detail depth).flatten = (reason, detail) := by
  induction depth with
  | zero => cases reason <;> cases detail <;> rfl
  | succ depth ih => exact ih

theorem levels_wrapped : (wrapped reason detail depth).levels = depth + 1 := by
  induction depth with
  | zero => rfl
  | succ depth ih => exact congrArg (· + 1) ih

theorem tidy_wrapped (first : ∀ s ∈ reason, Xml.Tidy s.toList) (second : ∀ s ∈ detail, Xml.Tidy s.toList) :
    (wrapped reason detail depth).Tidy := by
  induction depth with
  | zero => exact ⟨first, second⟩
  | succ depth ih => exact ⟨⟨nofun, nofun⟩, ih⟩

end Wrapped
end Report

/-! ### As elements -/

namespace Xml
open EngineClient.Report (Part)

/-- An element with a text, or nothing where there is no text. -/
def Leaf (name : String) : Option String → List Stretch → Prop
  | none, ss => ss = []
  | some text, ss => ∃ gap raw, Blank gap ∧ Spells text.toList raw ∧ ss = wrap name.toList gap [] raw

def Texts (reason detail : Option String) (ss : List Stretch) : Prop :=
  ∃ first second, Leaf "reason" reason first ∧ Leaf "detail" detail second ∧ ss = first ++ second

/-- The contents of an element that a report is written as. -/
def Contents : Report → List Stretch → Prop
  | .mk reason detail none, ss => Texts reason detail ss
  | .mk reason detail (some inner), ss => ∃ texts gap inside gap', Texts reason detail texts ∧ Blank gap ∧
      Contents inner inside ∧ Blank gap' ∧ ss = texts ++ wrap "fault".toList gap inside gap'

/-- A way to write a report as elements, the outermost of any name. -/
def Renders (report : Report) (body : Bytes) : Prop :=
  ∃ root gap ss gap' gap'', isName root = true ∧ Blank gap ∧ Contents report ss ∧ Blank gap' ∧ Blank gap'' ∧
    body = Text.encode (written (wrap root gap ss gap') ++ gap'')

theorem ofNodes_append (nodes nodes' : List Node) :
    Part.ofNodes (nodes ++ nodes') = Part.ofNodes nodes ++ Part.ofNodes nodes' := by
  induction nodes with
  | nil => rfl
  | cons n nodes ih => rw [List.cons_append, Part.ofNodes, Part.ofNodes, ih, List.cons_append]

theorem leaf_shows {name : String} {text : Option String} {told : String → Part} (leaf : Leaf name text ss)
    (tidy : ∀ s ∈ text, Tidy s.toList) (named : isName name.toList = true)
    (means : ∀ s, Part.ofNode (.element name.toList [] [.text (some s.toList)]) = told s) :
    ∃ nodes, Shows ss nodes ∧ Part.ofNodes nodes = text.toList.map told := by
  cases text with
  | none => exact ⟨[], leaf ▸ shows_nil, rfl⟩
  | some s =>
    obtain ⟨gap, raw, blank, spells, rfl⟩ := leaf
    exact ⟨_, shows_text spells (tidy s rfl) named blank, congrArg (· :: []) (means s)⟩

theorem texts_show (texts : Texts reason detail ss) (first : ∀ s ∈ reason, Tidy s.toList)
    (second : ∀ s ∈ detail, Tidy s.toList) : ∃ nodes, Shows ss nodes ∧ Part.ofNodes nodes =
      reason.toList.map (fun s => .reason (some s)) ++ detail.toList.map fun s => .detail (some s) := by
  obtain ⟨ss, ss', leaf, leaf', rfl⟩ := texts
  have means : ∀ s : String, Part.ofNode (.element "reason".toList [] [.text (some s.toList)]) = .reason (some s) ∧
      Part.ofNode (.element "detail".toList [] [.text (some s.toList)]) = .detail (some s) := by
    intro s
    have text := String.ofList_toList (s := s)
    exact ⟨congrArg (fun t => Part.reason (some t)) text, congrArg (fun t => Part.detail (some t)) text⟩
  obtain ⟨nodes, shows, told⟩ := leaf_shows leaf first (by decide) fun s => (means s).1
  obtain ⟨nodes', shows', told'⟩ := leaf_shows leaf' second (by decide) fun s => (means s).2
  exact ⟨nodes ++ nodes', shows.append shows', by rw [ofNodes_append, told, told']⟩

/-- What a report is written as are nodes that say what it says. -/
theorem contents_show : ∀ {report : Report} {ss : List Stretch}, Contents report ss → report.Tidy →
    ∃ nodes, Shows ss nodes ∧ Part.ofNodes nodes = report.parts
  | .mk reason detail none, ss, contents, tidy => by
    obtain ⟨nodes, shows, told⟩ := texts_show contents tidy.1 tidy.2
    exact ⟨nodes, shows, by simp [told, Report.parts]⟩
  | .mk reason detail (some inner), ss, contents, tidy => by
    obtain ⟨texts, gap, inside, gap', holds, blank, within, blank', rfl⟩ := contents
    obtain ⟨nodes, shows, told⟩ := texts_show holds tidy.1.1 tidy.1.2
    obtain ⟨nodes', shows', told'⟩ := contents_show within tidy.2
    have fault : Part.ofNode (.element "fault".toList [] nodes') = .fault (some inner) := by
      have field : Part.ofNode (.element "fault".toList [] nodes') = .ofReport (Report.ofParts? (Part.ofNodes nodes')) :=
        rfl
      rw [field, told', Report.ofParts?_parts]
      rfl
    refine ⟨_, shows.append (shows'.wrap (by decide) blank blank'), ?_⟩
    rw [ofNodes_append, told, Part.ofNodes, fault]
    simp [Report.parts, Part.ofNodes]

theorem Renders.envelope (renders : Renders report body) (tidy : report.Tidy) : Report.Envelope body report.parts := by
  obtain ⟨root, gap, ss, gap', gap'', named, blank, contents, blank', blank'', rfl⟩ := renders
  obtain ⟨nodes, shows, told⟩ := contents_show contents tidy
  have whole := shows.wrap named blank blank'
  have angle : (Text.trimStart Text.isBlank (written (wrap root gap ss gap') ++ gap'')).head? = some '<' := by
    have blank : ∀ c ∈ gap, Text.isBlank c = true := fun c member => Text.isBlank_of_isWhitespace (blank c member)
    simp [written, wrap, Text.trimStart, List.dropWhile_append_of_pos blank, show Text.isBlank '<' = false by decide]
  have events : events (written (wrap root gap ss gap') ++ gap'') = (Node.element root [] nodes).events ++ [] := by
    rw [events_written whole.clean whole.balanced blank'', whole.events]
    rfl
  rw [← told]
  exact .element (Text.decode?_encode _) angle events (by decide)

def plainContents : Report → List Stretch
  | .mk reason detail none => plainTexts reason detail
  | .mk reason detail (some inner) => plainTexts reason detail ++ wrap "fault".toList [] (plainContents inner) []
where
  plainTexts (reason detail : Option String) : List Stretch :=
    (reason.elim [] fun s => wrap "reason".toList [] [] (escape s.toList)) ++
      detail.elim [] fun s => wrap "detail".toList [] [] (escape s.toList)

def plain (root : String) (report : Report) : Bytes :=
  Text.encode (written (wrap root.toList [] (plainContents report) []))

theorem blank_nil : Blank [] :=
  fun _ member => absurd member List.not_mem_nil

theorem leaf_plain (name : String) (text : Option String) :
    Leaf name text (text.elim [] fun s => wrap name.toList [] [] (escape s.toList)) := by
  cases text with
  | none => rfl
  | some s => exact ⟨[], escape s.toList, blank_nil, spells_escape _, rfl⟩

theorem contents_plain : ∀ report : Report, Contents report (plainContents report)
  | .mk reason detail none => ⟨_, _, leaf_plain _ reason, leaf_plain _ detail, rfl⟩
  | .mk reason detail (some inner) =>
    ⟨_, [], _, [], ⟨_, _, leaf_plain _ reason, leaf_plain _ detail, rfl⟩, blank_nil, contents_plain inner, blank_nil, rfl⟩

theorem renders_plain {root : String} (named : isName root.toList = true) (report : Report) :
    Renders report (plain root report) :=
  ⟨_, [], _, [], [], named, blank_nil, contents_plain report, blank_nil, blank_nil,
    by rw [plain, List.append_nil]⟩

example : plain "action" (Report.wrapped (some "a < b") none 1) =
    Text.utf8 "<action><fault><reason>a &lt; b</reason></fault></action>" := by
  decide

end Xml

/-! ### As objects -/

namespace Json
open EngineClient.Report (Part)

def texts (reason detail : Option String) : List (String × (Bytes → Prop)) :=
  reason.toList.map (fun s => ("reason", Quoted s)) ++ detail.toList.map fun s => ("detail", Quoted s)

/-- The object that a report is written as. -/
def Contents : Report → Bytes → Prop
  | .mk reason detail none, bs => Object (texts reason detail) bs
  | .mk reason detail (some inner), bs => Object (texts reason detail ++ [("fault", Contents inner)]) bs

def Renders (report : Report) (body : Bytes) : Prop :=
  ∃ gap bs gap', Blank gap ∧ Contents report bs ∧ Blank gap' ∧ body = gap ++ (bs ++ gap')

theorem forall₂_map {R : α → β → Prop} {left : String → α} {right : String → β} (each : ∀ s, R (left s) (right s))
    (texts : List String) : List.Forall₂ R (texts.map left) (texts.map right) := by
  rw [List.forall₂_map_left_iff, List.forall₂_map_right_iff, List.forall₂_same]
  exact fun s _ => each s

theorem quoted_means {name : String} {told : String → Part} {inner : Outline → Option Report}
    (means : ∀ {v : Outline} {s}, Report.textOf? v = some (some s) → Part.ofField inner (.ofName name) v = told s)
    (s : String) : Means (Part.ofMember inner) (name, Quoted s) (told s) := by
  intro key bs resolved ⟨raw, spells, written⟩
  have text : Report.textOf? (.string raw) = some (some s) := by
    rw [Report.textOf?, resolve?_of_spells spells]
    rfl
  exact ⟨.string raw, written ▸ reads_quoted spells, (Part.ofMember_of_resolved resolved _ _).trans (means text)⟩

theorem texts_mean (inner : Outline → Option Report) (reason detail : Option String) :
    List.Forall₂ (Means (Part.ofMember inner)) (texts reason detail)
      (reason.toList.map (fun s => .reason (some s)) ++ detail.toList.map fun s => .detail (some s)) := by
  have first : ∀ s, Means (Part.ofMember inner) ("reason", Quoted s) (.reason (some s)) :=
    quoted_means fun text => by
      rw [show Report.Field.ofName "reason" = .reason by decide, Part.ofField, text]
      rfl
  have second : ∀ s, Means (Part.ofMember inner) ("detail", Quoted s) (.detail (some s)) :=
    quoted_means fun text => by
      rw [show Report.Field.ofName "detail" = .detail by decide, Part.ofField, text]
      rfl
  exact List.rel_append (forall₂_map first reason.toList) (forall₂_map second detail.toList)

/-- What a report is written as is an object whose members say what it says, where enough levels are left. -/
theorem contents_read : ∀ {report : Report} {bs : Bytes} {depth : Nat}, Contents report bs → report.levels ≤ depth + 1 →
    ∃ vs, vs.map (Part.ofMember (Report.assemble? depth)) = report.parts ∧ Reads (.object vs) bs
  | .mk reason detail none, bs, depth, written, _ => by
    obtain ⟨vs, alike, reads⟩ := Object.reads written (texts_mean (Report.assemble? depth) reason detail)
    exact ⟨vs, by simp [alike, Report.parts], reads⟩
  | .mk reason detail (some inner), bs, 0, _, enough => by
    -- The inner report is a level of its own.
    cases inner with
    | mk _ _ next => cases next <;> simp [Report.levels] at enough
  | .mk reason detail (some inner), bs, depth + 1, written, enough => by
    have fault : Means (Part.ofMember (Report.assemble? (depth + 1))) ("fault", Contents inner) (.fault (some inner)) := by
      intro key bs resolved within
      obtain ⟨vs, alike, reads⟩ := contents_read within (Nat.le_of_succ_le_succ enough)
      have report : Report.assemble? (depth + 1) (.object vs) = some inner := by
        rw [Report.assemble?, alike, Report.ofParts?_parts]
      refine ⟨.object vs, reads, (Part.ofMember_of_resolved resolved _ _).trans ?_⟩
      show Part.ofReport (Report.assemble? (depth + 1) (.object vs)) = _
      rw [report]
      rfl
    obtain ⟨vs, alike, reads⟩ := Object.reads written (List.rel_append (texts_mean _ reason detail) (.cons fault .nil))
    exact ⟨vs, by simp [alike, Report.parts], reads⟩

theorem Renders.envelope (renders : Renders report body) (shallow : report.levels ≤ Report.maxDepth) :
    Report.Envelope body report.parts := by
  obtain ⟨gap, bs, gap', blank, written, blank', rfl⟩ := renders
  obtain ⟨vs, alike, reads⟩ := contents_read written shallow
  rw [← alike]
  exact .object (read?_of_reads reads blank blank')

def plain : Report → Bytes
  | .mk reason detail none => plainObject (plainTexts reason detail)
  | .mk reason detail (some inner) => plainObject (plainTexts reason detail ++ [("fault", plain inner)])
where
  plainTexts (reason detail : Option String) : List (String × Bytes) :=
    reason.toList.map (fun s => ("reason", plainText s)) ++ detail.toList.map fun s => ("detail", plainText s)

theorem texts_plain (reason detail : Option String) :
    List.Forall₂ Fits (texts reason detail) (plain.plainTexts reason detail) := by
  have text : ∀ name s, Fits (name, Quoted s) (name, plainText s) := fun name s => ⟨rfl, quoted_plain s⟩
  exact List.rel_append (forall₂_map (text _) reason.toList) (forall₂_map (text _) detail.toList)

theorem contents_plain : ∀ report : Report, Contents report (plain report)
  | .mk reason detail none => object_plain (texts_plain reason detail)
  | .mk reason detail (some inner) =>
    object_plain (List.rel_append (texts_plain reason detail) (.cons ⟨rfl, contents_plain inner⟩ .nil))

theorem renders_plain (report : Report) : Renders report (plain report) :=
  ⟨[], _, [], blank_nil, contents_plain report, blank_nil, (List.append_nil _).symm⟩

example : plain (Report.wrapped (some "a") (some "b\\") 1) =
    Text.utf8 "\x7b\"fault\":\x7b\"reason\":\"a\",\"detail\":\"b\\\\\"\x7d\x7d" := by
  decide

end Json

/-! ### Faults -/

theorem Fault.said_of_envelope {report : Report} {r : Response} (today : Nat)
    (envelope : Report.Envelope r.body report.parts) :
    ((ofResponse today r).reason, (ofResponse today r).detail) = report.flatten := by
  rw [said_ofResponse, envelope.read_eq, Report.ofParts?_parts]
  rfl

/-- A fault is told with its reason and its detail in both formats, however it is written in them and however deep it is
wrapped, as long as the levels of an object are few enough. -/
theorem faults_agree (today : Nat) {x j : Response} (first : ∀ s ∈ reason, Xml.Tidy s.toList)
    (second : ∀ s ∈ detail, Xml.Tidy s.toList) (shallow : depth < Report.maxDepth)
    (elements : Xml.Renders (Report.wrapped reason detail depth) x.body)
    (object : Json.Renders (Report.wrapped reason detail depth) j.body) :
    ((Fault.ofResponse today x).reason = reason ∧ (Fault.ofResponse today x).detail = detail) ∧
    (Fault.ofResponse today j).reason = reason ∧ (Fault.ofResponse today j).detail = detail := by
  have levels : (Report.wrapped reason detail depth).levels ≤ Report.maxDepth := by
    rw [Report.levels_wrapped]
    exact shallow
  have markup := Fault.said_of_envelope today (elements.envelope (Report.tidy_wrapped depth first second))
  have members := Fault.said_of_envelope today (object.envelope levels)
  rw [Report.flatten_wrapped] at markup members
  exact ⟨Prod.mk.inj markup, Prod.mk.inj members⟩

namespace Sample

/-- A fault with a text that has to be escaped in either format, three reports deep. -/
def deepFault : Report :=
  Report.wrapped (some "Operation Failed") (some "\"a\" < b") 3

def answering (body : Bytes) : Response :=
  { status := ⟨409⟩, headers := HeaderMap.empty, body }

end Sample

theorem faults_agree_deep :
    ((Fault.ofResponse 0 (Sample.answering (Xml.plain "action" Sample.deepFault))).reason = some "Operation Failed" ∧
      (Fault.ofResponse 0 (Sample.answering (Xml.plain "action" Sample.deepFault))).detail = some "\"a\" < b") ∧
    (Fault.ofResponse 0 (Sample.answering (Json.plain Sample.deepFault))).reason = some "Operation Failed" ∧
    (Fault.ofResponse 0 (Sample.answering (Json.plain Sample.deepFault))).detail = some "\"a\" < b" := by
  have first : ∀ s ∈ some "Operation Failed", Xml.Tidy s.toList := by
    rintro s ⟨⟩
    exact ⟨⟨'O', by decide, by decide⟩, ⟨'d', by decide, by decide⟩⟩
  have second : ∀ s ∈ some "\"a\" < b", Xml.Tidy s.toList := by
    rintro s ⟨⟩
    exact ⟨⟨'"', by decide, by decide⟩, ⟨'b', by decide, by decide⟩⟩
  exact faults_agree 0 first second (by decide) (Xml.renders_plain (by decide) Sample.deepFault)
    (Json.renders_plain Sample.deepFault)

end EngineClient
