import EngineClient.Proofs.Report.Format

/-!
# Reports and their parts

A report is what its parts say, whatever format they are written in: a reason, a detail and a report inside, each at
most once, among others that say nothing. `ofParts?` puts them together. Objects and lists of JSON are read as it says,
members in any order and items in the order of the fields.
-/

namespace EngineClient
namespace Report

/-- What a part of a document says to the report that the document is; a broken one cannot be read. -/
inductive Part
  | reason (text : Option String)
  | detail (text : Option String)
  | fault (report : Option Report)
  | other
  | broken

namespace Part

def field : Part → Field
  | reason _ => .reason
  | detail _ => .detail
  | fault _ => .fault
  | other | broken => .unknown

def isBroken : Part → Bool
  | broken => true
  | _ => false

def reason? : Part → Option String
  | reason text => text
  | _ => none

def detail? : Part → Option String
  | detail text => text
  | _ => none

def fault? : Part → Option Report
  | fault report => report
  | _ => none

/-- The fields that parts fill, in the order of the parts. -/
def filled (ps : List Part) : List Field :=
  (ps.map field).filter fun f => f ≠ .unknown

/-- No part is broken, and no field is filled twice. -/
structure Readable (ps : List Part) : Prop where
  whole : ∀ p ∈ ps, p.isBroken = false
  once : (filled ps).Nodup

theorem readable_iff : Readable ps ↔ (∀ p ∈ ps, p.isBroken = false) ∧ (filled ps).Nodup :=
  ⟨fun readable => ⟨readable.whole, readable.once⟩, fun ⟨whole, once⟩ => ⟨whole, once⟩⟩

instance : Decidable (Readable ps) :=
  decidable_of_iff _ readable_iff.symm

/-- The reason and the detail among the parts themselves. -/
def own (ps : List Part) : Option String × Option String :=
  (ps.findSome? reason?, ps.findSome? detail?)

/-- A report that may not have been readable, as a part of another one. -/
def ofReport : Option Report → Part
  | some report => fault (some report)
  | none => broken

theorem mem_filled : f ∈ filled ps ↔ f ≠ .unknown ∧ ∃ p ∈ ps, p.field = f := by
  simp [filled, and_comm]

theorem filled_cons (p : Part) (ps : List Part) :
    filled (p :: ps) = if p.field = .unknown then filled ps else p.field :: filled ps := by
  by_cases unknown : p.field = .unknown <;> simp [filled, unknown]

end Part

open EngineClient.Report.Part

/-- The report of parts, if they can be read as one. -/
def ofParts? (ps : List Part) : Option Report :=
  if Readable ps then some (mk (ps.findSome? reason?) (ps.findSome? detail?) (ps.findSome? fault?)) else none

/-! ### Part by part -/

/-- A report with a part in its field, in place of what was there. -/
def put (acc : Report) : Part → Report
  | .reason text => mk text acc.detail acc.inner
  | .detail text => mk acc.reason text acc.inner
  | .fault report => mk acc.reason acc.detail report
  | .other | .broken => acc

/-- Parts put into a report in turn; `seen` holds the fields of those before them. -/
def gather (seen : List Field) (acc : Report) : List Part → Option Report
  | [] => some acc
  | p :: r =>
    if p.isBroken || (p.field ≠ .unknown && seen.contains p.field) then none else gather (p.field :: seen) (acc.put p) r

section Values
variable {α : Type} {value : Part → Option α} {f : Field} {ps : List Part} (only : ∀ p, p.field ≠ f → value p = none)
include only

theorem findSome?_of_absent (absent : f ∉ ps.map field) : ps.findSome? value = none := by
  rw [List.findSome?_eq_none_iff]
  intro p among
  exact only p fun same => absent (List.mem_map.mpr ⟨p, among, same⟩)

variable (known : f ≠ .unknown)
include known

/-- What a field holds in the end is what the one part says that fills it. -/
theorem value_foldl {get : Report → Option α} (step : ∀ acc p, get (acc.put p) = if p.field = f then value p else get acc)
    (once : (filled ps).Nodup) (acc : Report) :
    get (ps.foldl put acc) = if f ∈ ps.map field then ps.findSome? value else get acc := by
  induction ps generalizing acc with
  | nil => rfl
  | cons p ps ih =>
    rw [filled_cons] at once
    rw [List.foldl_cons, List.map_cons, List.findSome?_cons]
    by_cases fills : p.field = f
    · rw [if_neg (by rw [fills]; exact known), fills, List.nodup_cons] at once
      have absent : f ∉ ps.map field := fun among => once.1 (mem_filled.mpr ⟨known, List.mem_map.mp among⟩)
      rw [ih once.2, if_neg absent, step, if_pos fills, fills, if_pos List.mem_cons_self, findSome?_of_absent only absent]
      cases value p <;> rfl
    · have rest : (filled ps).Nodup := by
        split at once
        · exact once
        · exact (List.nodup_cons.mp once).2
      have apart : f ∈ p.field :: ps.map field ↔ f ∈ ps.map field := by simp [Ne.symm fills]
      rw [ih rest, step, if_neg fills, only p fills]
      simp only [apart]

theorem value_foldl_empty {get : Report → Option α}
    (step : ∀ acc p, get (acc.put p) = if p.field = f then value p else get acc) (blank : get empty = none)
    (once : (filled ps).Nodup) : get (ps.foldl put empty) = ps.findSome? value := by
  rw [value_foldl only known step once]
  split
  · rfl
  · rename_i absent
    rw [blank, findSome?_of_absent only absent]

theorem findSome?_of_mem (once : (filled ps).Nodup) (among : p ∈ ps) (fills : p.field = f) :
    ps.findSome? value = value p := by
  obtain ⟨before, after, rfl⟩ := List.append_of_mem among
  have parts : filled (before ++ p :: after) = filled before ++ f :: filled after := by
    have behind := filled_cons p after
    rw [if_neg (by rw [fills]; exact known), fills] at behind
    rw [← behind]
    simp [filled]
  rw [parts, List.nodup_append, List.nodup_cons] at once
  obtain ⟨_, ⟨later, _⟩, apart⟩ := once
  have first : before.findSome? value = none := by
    refine findSome?_of_absent only fun among => ?_
    exact apart f (mem_filled.mpr ⟨known, List.mem_map.mp among⟩) f List.mem_cons_self rfl
  have last : after.findSome? value = none :=
    findSome?_of_absent only fun among => later (mem_filled.mpr ⟨known, List.mem_map.mp among⟩)
  rw [List.findSome?_append, first, List.findSome?_cons, last]
  cases value p <;> rfl

end Values

section Fields
variable {ps : List Part}

theorem reason?_only (p : Part) (other : p.field ≠ .reason) : p.reason? = none := by
  cases p with
  | reason text => exact absurd rfl other
  | _ => rfl

theorem detail?_only (p : Part) (other : p.field ≠ .detail) : p.detail? = none := by
  cases p with
  | detail text => exact absurd rfl other
  | _ => rfl

theorem fault?_only (p : Part) (other : p.field ≠ .fault) : p.fault? = none := by
  cases p with
  | fault report => exact absurd rfl other
  | _ => rfl

theorem foldl_put_empty (once : (filled ps).Nodup) :
    ps.foldl put empty = mk (ps.findSome? reason?) (ps.findSome? detail?) (ps.findSome? fault?) := by
  have first : (ps.foldl put empty).reason = ps.findSome? reason? :=
    value_foldl_empty reason?_only (by decide) (fun acc p => by cases p <;> rfl) rfl once
  have second : (ps.foldl put empty).detail = ps.findSome? detail? :=
    value_foldl_empty detail?_only (by decide) (fun acc p => by cases p <;> rfl) rfl once
  have third : (ps.foldl put empty).inner = ps.findSome? fault? :=
    value_foldl_empty fault?_only (by decide) (fun acc p => by cases p <;> rfl) rfl once
  rw [← first, ← second, ← third]
  cases ps.foldl put empty
  rfl

/-- Parts that can be read after others, which have filled the fields `seen`. -/
def Follow (seen : List Field) (ps : List Part) : Prop :=
  Readable ps ∧ ∀ f ∈ filled ps, f ∉ seen

theorem follow_nil (seen : List Field) : Follow seen [] :=
  ⟨⟨(fun p among => by cases among), List.nodup_nil⟩, fun f among => by cases among⟩

theorem readable_cons : Readable (p :: ps) ↔
    p.isBroken = false ∧ (p.field ≠ .unknown → p.field ∉ filled ps) ∧ Readable ps := by
  rw [readable_iff, readable_iff, List.forall_mem_cons, filled_cons]
  by_cases unknown : p.field = .unknown
  · rw [if_pos unknown]
    simp only [unknown, ne_eq, not_true_eq_false, false_implies, true_and, and_assoc]
  · rw [if_neg unknown, List.nodup_cons]
    simp only [unknown, ne_eq, not_false_eq_true, forall_const]
    tauto

theorem follow_cons : Follow seen (p :: ps) ↔
    (p.isBroken = false ∧ (p.field ≠ .unknown → p.field ∉ seen)) ∧ Follow (p.field :: seen) ps := by
  unfold Follow
  rw [readable_cons, filled_cons]
  by_cases unknown : p.field = .unknown
  · have apart : (∀ f ∈ filled ps, f ∉ p.field :: seen) ↔ ∀ f ∈ filled ps, f ∉ seen := by
      refine forall₂_congr fun f among => ?_
      have differs : f ≠ p.field := by
        rw [unknown]
        exact (mem_filled.mp among).1
      simp [differs]
    rw [apart]
    simp only [unknown, if_true, ne_eq, not_true_eq_false, false_implies, true_and, and_true, and_assoc]
  · have apart : (∀ f ∈ filled ps, f ∉ p.field :: seen) ↔
        p.field ∉ filled ps ∧ ∀ f ∈ filled ps, f ∉ seen := by
      simp only [List.mem_cons, not_or, forall_and]
      refine and_congr_left fun _ => ⟨fun differs among => differs _ among rfl, fun absent f among same => ?_⟩
      exact absent (same ▸ among)
    rw [if_neg unknown, apart, List.forall_mem_cons]
    simp only [ne_eq, unknown, not_false_eq_true, forall_const]
    tauto

theorem gather_of_follow (follow : Follow seen ps) (acc : Report) : gather seen acc ps = some (ps.foldl put acc) := by
  induction ps generalizing seen acc with
  | nil => rfl
  | cons p ps ih =>
    obtain ⟨⟨whole, fresh⟩, rest⟩ := follow_cons.mp follow
    rw [gather, if_neg, ih rest, List.foldl_cons]
    simpa [whole] using fresh

theorem gather_of_not_follow (broken : ¬ Follow seen ps) (acc : Report) : gather seen acc ps = none := by
  induction ps generalizing seen acc with
  | nil => exact absurd (follow_nil seen) broken
  | cons p ps ih =>
    rw [gather]
    split
    · rfl
    · rename_i goes
      refine ih (fun rest => broken (follow_cons.mpr ⟨?_, rest⟩)) _
      simpa using goes

theorem ofParts?_eq_gather (ps : List Part) : ofParts? ps = gather [] empty ps := by
  unfold ofParts?
  by_cases readable : Readable ps
  · rw [if_pos readable, gather_of_follow ⟨readable, fun f _ => List.not_mem_nil⟩, foldl_put_empty readable.once]
  · rw [if_neg readable, gather_of_not_follow fun follow => readable follow.1]

end Fields

/-! ### Objects and lists -/

namespace Part

/-- What a value says in a field, where `report` reads reports inside others. -/
def ofField (report : Json.Outline → Option Report) : Field → Json.Outline → Part
  | .unknown, _ => .other
  | .reason, v => (textOf? v).elim .broken .reason
  | .detail, v => (textOf? v).elim .broken .detail
  | .fault, .null => .fault none
  | .fault, v => .ofReport (report v)

/-- What a member of an object says. -/
def ofMember (report : Json.Outline → Option Report) (m : Bytes × Json.Outline) : Part :=
  match Json.resolve? m.1 with
  | some name => ofField report (.ofName name) m.2
  | none => .broken

theorem ofMember_of_resolved (resolved : Json.resolve? key = some name) (report : Json.Outline → Option Report)
    (v : Json.Outline) : ofMember report (key, v) = ofField report (.ofName name) v := by
  rw [ofMember, resolved]

theorem ofMember_of_unresolved (unresolved : Json.resolve? key = none) (report : Json.Outline → Option Report)
    (v : Json.Outline) : ofMember report (key, v) = broken := by
  rw [ofMember, unresolved]

end Part

/-- The report that an object or a list is, with so many levels left for it. -/
def assemble? : Nat → Json.Outline → Option Report
  | depth + 1, .object members => ofParts? (members.map (ofMember (assemble? depth)))
  | depth + 1, .array items =>
    if items.length ≤ 3 then ofParts? (List.zipWith (ofField (assemble? depth)) [.reason, .detail, .fault] items) else none
  | _, _ => none

section Json
variable {depth : Nat}

theorem assemble?_leaf (depth : Nat) {v : Json.Outline} (leaf : ¬ v.IsContainer) : assemble? depth v = none := by
  cases depth with
  | zero => rfl
  | succ depth =>
    cases v with
    | array items => exact absurd trivial leaf
    | object members => exact absurd trivial leaf
    | _ => rfl

/-- Reports of so many levels are read as their parts say. -/
def Assembles (depth : Nat) : Prop :=
  ∀ v, ofOutline? depth v = assemble? depth v

theorem Assembles.inner (assembles : Assembles depth) (v : Json.Outline) :
    (ofInner? depth v = none ∧ ofField (assemble? depth) .fault v = .broken) ∨
    ∃ report, ofInner? depth v = some report ∧ ofField (assemble? depth) .fault v = .fault report := by
  by_cases null : v = .null
  · subst null
    exact .inr ⟨none, by rw [ofInner?], rfl⟩
  · have reads : ofInner? depth v = (assemble? depth v).map some := by rw [ofInner?, assembles v]; exact null
    have told : ofField (assemble? depth) .fault v = .ofReport (assemble? depth v) := by
      cases v with
      | null => exact absurd rfl null
      | _ => rfl
    rw [reads, told]
    cases assemble? depth v with
    | none => exact .inl ⟨rfl, rfl⟩
    | some report => exact .inr ⟨some report, rfl, rfl⟩

theorem ofMembers?_eq_gather (assembles : Assembles depth) (seen : List Field) (acc : Report)
    (members : List (Bytes × Json.Outline)) :
    ofMembers? depth seen acc members = gather seen acc (members.map (ofMember (assemble? depth))) := by
  induction members generalizing seen acc with
  | nil => rw [ofMembers?, List.map_nil, gather]
  | cons m members ih =>
    obtain ⟨key, v⟩ := m
    rw [ofMembers?, List.map_cons]
    cases resolved : Json.resolve? key with
    | none =>
      rw [ofMember_of_unresolved resolved]
      rfl
    | some name =>
      rw [ofMember_of_resolved resolved]
      dsimp only [Option.bind_eq_bind, Option.bind_some]
      cases Field.ofName name with
      | unknown => exact ih _ _
      | reason =>
        dsimp only [ofField]
        cases textOf? v with
        | none => exact ite_self none
        | some text => exact ite_congr rfl (fun _ => rfl) fun _ => ih _ _
      | detail =>
        dsimp only [ofField]
        cases textOf? v with
        | none => exact ite_self none
        | some text => exact ite_congr rfl (fun _ => rfl) fun _ => ih _ _
      | fault =>
        rcases assembles.inner v with ⟨unread, broken⟩ | ⟨report, read, told⟩
        · rw [unread, broken]
          exact ite_self none
        · rw [read, told]
          exact ite_congr rfl (fun _ => rfl) fun _ => ih _ _

theorem ofItems?_eq (assembles : Assembles depth) (items : List Json.Outline) : ofItems? depth items =
    if items.length ≤ 3 then ofParts? (List.zipWith (ofField (assemble? depth)) [.reason, .detail, .fault] items)
    else none := by
  -- A list is read as an object whose members have the names of the fields.
  rw [ofParts?_eq_gather]
  match items with
  | [] => rw [ofItems?]; rfl
  | [a] =>
    rw [ofItems?]
    dsimp only [List.zipWith, ofField]
    cases textOf? a <;> rfl
  | [a, b] =>
    rw [ofItems?]
    dsimp only [List.zipWith, ofField]
    cases textOf? a <;> cases textOf? b <;> rfl
  | [a, b, c] =>
    rw [ofItems?]
    rcases assembles.inner c with ⟨unread, broken⟩ | ⟨report, read, told⟩
    · dsimp only [List.zipWith]
      rw [unread, broken]
      dsimp only [ofField]
      cases textOf? a <;> cases textOf? b <;> rfl
    · dsimp only [List.zipWith]
      rw [read, told]
      dsimp only [ofField]
      cases textOf? a <;> cases textOf? b <;> rfl
  | a :: b :: c :: d :: rest =>
    rw [ofItems?, if_neg (by simp)]
    all_goals simp

theorem assembles (depth : Nat) : Assembles depth := by
  induction depth with
  | zero =>
    intro v
    rw [ofOutline?]
    rfl
  | succ depth ih =>
    intro v
    cases v with
    | object members => rw [ofOutline?, ofMembers?_eq_gather ih, ← ofParts?_eq_gather]; rfl
    | array items => rw [ofOutline?, ofItems?_eq ih]; rfl
    | _ =>
      rw [assemble?_leaf _ (by exact id)]
      simp [ofOutline?]

end Json

end Report
end EngineClient
