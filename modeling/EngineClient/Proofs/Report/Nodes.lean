import EngineClient.Proofs.Report.Parts

/-!
# Reports in elements

What is read off the events of an element is the report of its parts: a child is one by its name, whatever it is written
with, and one without a known name is passed over with all that it holds.
-/

namespace EngineClient

/-! ### Elements -/

namespace Xml

/-- An element with its contents, or a run of text; none if an entity in it cannot be resolved. -/
inductive Node
  | text (resolved : Option (List Char))
  | element (name attributes : List Char) (contents : List Node)

namespace Node

mutual

def events : Node → List Event
  | text resolved => [.text resolved]
  | element name attributes contents => .opening name attributes :: (eventsOf contents ++ [.closing name])

def eventsOf : List Node → List Event
  | [] => []
  | n :: r => events n ++ eventsOf r

end

/-- The text of an element that holds nothing else. -/
def onlyText? : List Node → Option (List Char)
  | [] => some []
  | [text resolved] => resolved
  | _ => none

/-- An element is passed over unless it begins with a text that cannot be resolved. -/
def skippable : List Node → Bool
  | text none :: _ => false
  | _ => true

end Node

open Node

section Passing
variable (name : List Char) (rest : List Event)

theorem textContent?_eventsOf (nodes : List Node) :
    textContent? (eventsOf nodes ++ .closing name :: rest) = (onlyText? nodes).map fun cs => (cs, rest) := by
  match nodes with
  | [] => rfl
  | [.text none] => rfl
  | [.text (some cs)] => rfl
  | .element .. :: _ => rfl
  | .text none :: _ :: _ => rfl
  | .text (some _) :: .text _ :: _ => rfl
  | .text (some _) :: .element .. :: _ => rfl

mutual

theorem skipFrom_events (depth : Nat) (rest : List Event) :
    ∀ n : Node, skipFrom depth (n.events ++ rest) = skipFrom depth rest
  | .text resolved => by
    cases depth <;> rfl
  | .element name attributes contents => by
    rw [Node.events, List.cons_append, List.append_assoc]
    have inside := skipFrom_eventsOf (depth + 1) ([.closing name] ++ rest) contents
    cases depth <;> exact inside

theorem skipFrom_eventsOf (depth : Nat) (rest : List Event) :
    ∀ nodes : List Node, skipFrom depth (eventsOf nodes ++ rest) = skipFrom depth rest
  | [] => rfl
  | n :: r => by
    rw [eventsOf, List.append_assoc, skipFrom_events depth _ n, skipFrom_eventsOf depth rest r]

end

theorem skip?_eventsOf (nodes : List Node) :
    skip? (eventsOf nodes ++ .closing name :: rest) = if skippable nodes then some rest else none := by
  have passed : skipFrom 0 (eventsOf nodes ++ .closing name :: rest) = some rest := skipFrom_eventsOf 0 _ nodes
  match nodes with
  | [] => rfl
  | .text none :: _ => rfl
  | .text (some _) :: _ => exact passed
  | .element .. :: _ => exact passed

end Passing
end Xml

/-! ### Their parts -/

namespace Report
open EngineClient.Report.Part Xml.Node

mutual

/-- What a child of an element says. -/
def Part.ofNode : Xml.Node → Part
  | .text resolved => if resolved.isSome then .other else .broken
  | .element name attributes contents =>
    match Field.ofName (String.ofList (Xml.localName name)) with
    | .reason => (onlyText? contents).elim .broken fun cs => .reason (some (String.ofList cs))
    | .detail => (onlyText? contents).elim .broken fun cs => .detail (some (String.ofList cs))
    | .fault => if Xml.attributesAreGood attributes then .ofReport (ofParts? (Part.ofNodes contents)) else .broken
    | .unknown => if skippable contents then .other else .broken

def Part.ofNodes : List Xml.Node → List Part
  | [] => []
  | n :: r => Part.ofNode n :: Part.ofNodes r

end

/-! ### Reading them -/

/-- A report holds something in the fields that have been filled, and in no others. -/
structure Kept (seen : List Field) (acc : Report) : Prop where
  reason : acc.reason.isSome = seen.contains .reason
  detail : acc.detail.isSome = seen.contains .detail
  inner : acc.inner.isSome = seen.contains .fault

section Kept
variable {seen : List Field} {acc : Report}

theorem kept_empty : Kept [] empty :=
  ⟨rfl, rfl, rfl⟩

theorem Kept.other (kept : Kept seen acc) : Kept (.unknown :: seen) acc :=
  ⟨kept.reason, kept.detail, kept.inner⟩

theorem Kept.putReason (kept : Kept seen acc) (s : String) : Kept (.reason :: seen) (acc.put (.reason (some s))) :=
  ⟨rfl, kept.detail, kept.inner⟩

theorem Kept.putDetail (kept : Kept seen acc) (s : String) : Kept (.detail :: seen) (acc.put (.detail (some s))) :=
  ⟨kept.reason, rfl, kept.inner⟩

theorem Kept.putFault (kept : Kept seen acc) (r : Report) : Kept (.fault :: seen) (acc.put (.fault (some r))) :=
  ⟨kept.reason, kept.detail, rfl⟩

end Kept

theorem fieldOf_name (name : List Char) : Field.ofName (String.ofList name) =
    if name = "reason".toList then .reason else if name = "detail".toList then .detail
    else if name = "fault".toList then .fault else .unknown := by
  have same : ∀ s : String, String.ofList name = s ↔ name = s.toList := by
    intro s
    rw [← String.toList_inj, String.toList_ofList]
  simp only [Field.ofName, same]

theorem map_unless (c : Bool) (read : Option Report) (rest : List Xml.Event) :
    (if c then none else read.map fun r => (r, rest)) = (if c then none else read).map fun r => (r, rest) := by
  cases c <;> rfl

/-- Children are read as their parts are put together, up to the end of their element. The fuel is enough for the events
that they are, of which each step takes at least one. -/
theorem ofChildren_eventsOf {nodes : List Xml.Node} (enough : (eventsOf nodes).length < fuel) (kept : Kept seen acc)
    (name : List Char) (rest : List Xml.Event) : ofChildren fuel acc (eventsOf nodes ++ .closing name :: rest) =
      (gather seen acc (Part.ofNodes nodes)).map fun r => (r, rest) := by
  induction fuel generalizing nodes seen acc name rest with
  | zero => omega
  | succ fuel ih =>
    match nodes with
    | [] => rfl
    | .text none :: nodes => rfl
    | .text (some cs) :: nodes =>
      simp only [eventsOf, events, List.singleton_append, List.length_cons] at enough
      have later : (eventsOf nodes).length < fuel := by omega
      exact ih later kept.other name rest
    | .element own attributes contents :: nodes =>
      have split : eventsOf (.element own attributes contents :: nodes) ++ .closing name :: rest =
          .opening own attributes :: (eventsOf contents ++ .closing own :: (eventsOf nodes ++ .closing name :: rest)) := by
        simp [eventsOf, events]
      simp only [eventsOf, events, List.cons_append, List.append_assoc, List.length_cons, List.length_append,
        List.nil_append] at enough
      have inside : (eventsOf contents).length < fuel := by omega
      have later : (eventsOf nodes).length < fuel := by omega
      rw [split, ofChildren, Part.ofNodes, Part.ofNode, fieldOf_name]
      dsimp only
      by_cases reason : Xml.localName own = "reason".toList
      · simp only [if_pos reason, Xml.textContent?_eventsOf, kept.reason]
        cases onlyText? contents with
        | none => exact ite_self none
        | some cs => exact (ite_congr rfl (fun _ => rfl) fun _ => ih later (kept.putReason _) name rest).trans (map_unless _ _ _)
      rw [if_neg reason, if_neg reason]
      by_cases detail : Xml.localName own = "detail".toList
      · simp only [if_pos detail, Xml.textContent?_eventsOf, kept.detail]
        cases onlyText? contents with
        | none => exact ite_self none
        | some cs => exact (ite_congr rfl (fun _ => rfl) fun _ => ih later (kept.putDetail _) name rest).trans (map_unless _ _ _)
      rw [if_neg detail, if_neg detail]
      by_cases fault : Xml.localName own = "fault".toList
      · simp only [if_pos fault, kept.inner]
        rw [ih inside kept_empty own _, ← ofParts?_eq_gather]
        cases Xml.attributesAreGood attributes with
        | false => exact if_pos (Bool.or_true _)
        | true =>
          simp only [Bool.not_true, Bool.or_false]
          cases ofParts? (Part.ofNodes contents) with
          | none => exact ite_self none
          | some inner =>
            exact (ite_congr rfl (fun _ => rfl) fun _ => ih later (kept.putFault _) name rest).trans (map_unless _ _ _)
      rw [if_neg fault, if_neg fault, Xml.skip?_eventsOf]
      cases skippable contents with
      | false => rfl
      | true => exact ih later kept.other name rest

/-- A document is read as the contents of its root say, whatever its name and whatever stands after it. -/
theorem ofEvents?_events (good : Xml.attributesAreGood attributes = true) (name : List Char) (contents : List Xml.Node)
    (rest : List Xml.Event) : ofEvents? ((Xml.Node.element name attributes contents).events ++ rest) =
      ofParts? (Part.ofNodes contents) := by
  have split : (Xml.Node.element name attributes contents).events ++ rest =
      .opening name attributes :: (eventsOf contents ++ .closing name :: rest) := by
    simp [events]
  have enough : (eventsOf contents).length < (eventsOf contents ++ .closing name :: rest).length + 1 := by
    simp only [List.length_append]
    omega
  rw [split, ofEvents?, if_pos good, ofChildren_eventsOf enough kept_empty, ← ofParts?_eq_gather, Option.map_map]
  exact Option.map_id'

end Report
end EngineClient
