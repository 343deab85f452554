import EngineClient.Proofs.Outbound

/-!
# Answers in documents

Which documents are answers of the sign-on service, and which answers they are: an object, where the last member of a
name counts, alone or as the first item of a list. In place of an object the first item may be a list of at most five
items in the order of the parts.
-/

namespace EngineClient

/-- What a name stands for in an object: the value of its last member, or null. -/
inductive Json.Named (name : String) : List (String × Json.Value) → Json.Value → Prop
  | last (later : ∀ m ∈ after, m.1 ≠ name) : Named name (before ++ (name, v) :: after) v
  | missing (absent : ∀ m ∈ members, m.1 ≠ name) : Named name members .null

namespace Answer

/-- A text or nothing. -/
inductive IsText : Json.Value → Option String → Prop
  | nothing : IsText .null none
  | text (s : String) : IsText (.string s) (some s)

/-- Seconds or nothing. -/
inductive IsSeconds : Json.Value → Option Seconds → Prop
  | nothing : IsSeconds .null none
  | number (n : Nat) : IsSeconds (.number (.integer n)) (some (.number n))
  | text (s : String) : IsSeconds (.string s) (some (.text s))

/-- The values that an answer is made of. -/
structure Parts where
  accessToken : Json.Value
  tokenType : Json.Value
  expiresIn : Json.Value
  error : Json.Value
  errorDescription : Json.Value

/-- Where the parts stand in a value. -/
inductive Parts.In (p : Parts) : Json.Value → Prop
  | members (accessToken : Json.Named "access_token" members p.accessToken)
      (tokenType : Json.Named "token_type" members p.tokenType)
      (expiresIn : Json.Named "expires_in" members p.expiresIn)
      (error : Json.Named "error" members p.error)
      (errorDescription : Json.Named "error_description" members p.errorDescription) : In p (.object members)
  | items (places : items ++ List.replicate k .null =
      [p.accessToken, p.tokenType, p.expiresIn, p.error, p.errorDescription]) : In p (.array items)

/-- What the parts say. -/
structure Parts.Say (p : Parts) (a : Answer) : Prop where
  accessToken : IsText p.accessToken a.accessToken
  tokenType : IsText p.tokenType a.tokenType
  expiresIn : IsSeconds p.expiresIn a.expiresIn
  error : IsText p.error a.error
  errorDescription : IsText p.errorDescription a.errorDescription

/-- A body is an object that says an answer, or a list whose first item says it; other items do not matter. -/
inductive Decodes (body : Bytes) (a : Answer) : Prop
  | object {p : Parts} (document : Json.Value.read? body = .ok (.object members)) (parts : p.In (.object members))
      (say : p.Say a) : Decodes body a
  | first {p : Parts} (document : Json.Value.read? body = .ok (.array (v :: rest))) (parts : p.In v) (say : p.Say a) :
      Decodes body a

/-! ### Single values -/

theorem text?_eq_ok_iff : text? v = .ok t ↔ IsText v t := by
  constructor
  · intro read
    cases v with
    | null => cases read; exact .nothing
    | string s => cases read; exact .text s
    | _ => cases read
  · rintro (_ | s) <;> rfl

theorem seconds?_eq_ok_iff : seconds? v = .ok t ↔ IsSeconds v t := by
  constructor
  · intro read
    unfold seconds? at read
    split at read
    · cases read
      exact .nothing
    · rename_i n
      split at read
      · rename_i positive
        cases read
        have number := IsSeconds.number n.toNat
        rwa [Int.toNat_of_nonneg positive] at number
      · cases read
    · cases read
      exact .text _
    · cases read
  · rintro (_ | n | s)
    · rfl
    · simp [seconds?]
    · rfl

theorem member_of_named (named : Json.Named name members v) : member name members = v := by
  have unnamed : ∀ {ms : List (String × Json.Value)}, (∀ m ∈ ms, m.1 ≠ name) →
      ms.reverse.find? (fun m => m.1 == name) = none := by
    intro ms absent
    rw [List.find?_eq_none]
    exact fun m among same => absent m (List.mem_reverse.mp among) (beq_iff_eq.mp same)
  unfold member
  cases named with
  | last later => simp [unnamed later]
  | missing absent => rw [unnamed absent]; rfl

theorem named_member (name : String) (members : List (String × Json.Value)) :
    Json.Named name members (member name members) := by
  unfold member
  cases found : members.reverse.find? fun m => m.1 == name with
  | none =>
    refine .missing fun m among same => ?_
    exact List.find?_eq_none.mp found m (List.mem_reverse.mpr among) (beq_iff_eq.mpr same)
  | some m =>
    obtain ⟨same, later, before, split, others⟩ := List.find?_eq_some_iff_append.mp found
    obtain rfl : m.1 = name := beq_iff_eq.mp same
    have parts : members = before.reverse ++ (m.1, m.2) :: later.reverse := by
      rw [← List.reverse_reverse members, split]
      simp
    rw [parts]
    refine .last fun other among same => ?_
    simpa [same] using others other (List.mem_reverse.mp among)

/-! ### Answers -/

theorem ofMembers_eq_ok_iff : ofMembers members = .ok a ↔ ∃ p : Parts, p.In (.object members) ∧ p.Say a := by
  constructor
  · intro read
    obtain ⟨accessToken, first, read⟩ := Except.bind_eq_ok read
    obtain ⟨error, second, read⟩ := Except.bind_eq_ok read
    obtain ⟨errorDescription, third, read⟩ := Except.bind_eq_ok read
    obtain ⟨expiresIn, fourth, read⟩ := Except.bind_eq_ok read
    obtain ⟨tokenType, fifth, read⟩ := Except.bind_eq_ok read
    cases read
    exact ⟨⟨_, _, _, _, _⟩, .members (named_member _ _) (named_member _ _) (named_member _ _) (named_member _ _)
      (named_member _ _), text?_eq_ok_iff.mp first, text?_eq_ok_iff.mp fifth, seconds?_eq_ok_iff.mp fourth,
      text?_eq_ok_iff.mp second, text?_eq_ok_iff.mp third⟩
  · rintro ⟨p, parts, say⟩
    cases parts with
    | members accessToken tokenType expiresIn error errorDescription =>
      rw [ofMembers, member_of_named accessToken, member_of_named tokenType, member_of_named expiresIn,
        member_of_named error, member_of_named errorDescription, text?_eq_ok_iff.mpr say.accessToken,
        text?_eq_ok_iff.mpr say.tokenType, seconds?_eq_ok_iff.mpr say.expiresIn, text?_eq_ok_iff.mpr say.error,
        text?_eq_ok_iff.mpr say.errorDescription]
      rfl

/-- The item in a place of a list, null where the list has ended. -/
def itemAt (items : List Json.Value) (i : Nat) : Json.Value :=
  (items[i]?).getD .null

theorem itemAt_filled (items : List Json.Value) (k i : Nat) :
    itemAt (items ++ List.replicate k .null) i = itemAt items i := by
  unfold itemAt
  by_cases inside : i < items.length
  · rw [List.getElem?_append_left inside]
  · rw [List.getElem?_append_right (by omega), List.getElem?_replicate, List.getElem?_eq_none (by omega)]
    split <;> rfl

theorem filled_of_length_le {items : List Json.Value} (short : items.length ≤ 5) :
    items ++ List.replicate (5 - items.length) .null = (List.range 5).map (itemAt items) := by
  refine List.ext_getElem (by simp; omega) fun i left right => ?_
  have same := itemAt_filled items (5 - items.length) i
  rw [itemAt, List.getElem?_eq_getElem left] at same
  simpa using same

theorem ofItems_eq_ok_iff : ofItems items = .ok a ↔ ∃ p : Parts, p.In (.array items) ∧ p.Say a := by
  constructor
  · intro read
    obtain ⟨accessToken, first, read⟩ := Except.bind_eq_ok read
    obtain ⟨tokenType, second, read⟩ := Except.bind_eq_ok read
    obtain ⟨expiresIn, third, read⟩ := Except.bind_eq_ok read
    obtain ⟨error, fourth, read⟩ := Except.bind_eq_ok read
    obtain ⟨errorDescription, fifth, read⟩ := Except.bind_eq_ok read
    split at read
    · cases read
    · rename_i short
      cases read
      exact ⟨⟨_, _, _, _, _⟩, .items (filled_of_length_le (by omega)), text?_eq_ok_iff.mp first,
        text?_eq_ok_iff.mp second, seconds?_eq_ok_iff.mp third, text?_eq_ok_iff.mp fourth, text?_eq_ok_iff.mp fifth⟩
  · rintro ⟨p, parts, say⟩
    cases parts with
    | @items _ k places =>
      have short : ¬ items.length > 5 := by
        have length := congrArg List.length places
        simp only [List.length_append, List.length_cons, List.length_nil] at length
        omega
      have item : ∀ i, itemAt items i =
          itemAt [p.accessToken, p.tokenType, p.expiresIn, p.error, p.errorDescription] i := by
        intro i
        rw [← places, itemAt_filled]
      have accessToken : text? (itemAt items 0) = .ok a.accessToken := by
        rw [item]
        exact text?_eq_ok_iff.mpr say.accessToken
      have tokenType : text? (itemAt items 1) = .ok a.tokenType := by
        rw [item]
        exact text?_eq_ok_iff.mpr say.tokenType
      have expiresIn : seconds? (itemAt items 2) = .ok a.expiresIn := by
        rw [item]
        exact seconds?_eq_ok_iff.mpr say.expiresIn
      have error : text? (itemAt items 3) = .ok a.error := by
        rw [item]
        exact text?_eq_ok_iff.mpr say.error
      have errorDescription : text? (itemAt items 4) = .ok a.errorDescription := by
        rw [item]
        exact text?_eq_ok_iff.mpr say.errorDescription
      unfold itemAt at accessToken tokenType expiresIn error errorDescription
      unfold ofItems
      simp only [accessToken, tokenType, expiresIn, error, errorDescription, if_neg short]
      rfl

/-! ### Bodies -/

theorem ofValue_eq_ok_iff : ofValue v = .ok a ↔ ∃ p : Parts, p.In (subject v) ∧ p.Say a := by
  unfold ofValue
  cases subject v with
  | object members => exact ofMembers_eq_ok_iff
  | array items => exact ofItems_eq_ok_iff
  | _ =>
    constructor
    · intro read
      cases read
    · rintro ⟨p, parts, _⟩
      cases parts

theorem read_of_document (document : Json.Value.read? body = .ok v) : read body = ofValue v := by
  rw [read, document]

/-- What is read from a body is what it says. -/
theorem read_eq_ok_iff : read body = .ok a ↔ Decodes body a := by
  constructor
  · intro reads
    cases document : Json.Value.read? body with
    | error e =>
      rw [read, document] at reads
      cases reads
    | ok v =>
      rw [read_of_document document, ofValue_eq_ok_iff] at reads
      obtain ⟨p, parts, say⟩ := reads
      cases v with
      | object members => exact .object document parts say
      | array items =>
        cases items with
        | nil => cases parts
        | cons v rest => exact .first document parts say
      | _ => cases parts
  · intro decodes
    cases decodes with
    | object document parts say =>
      rw [read_of_document document]
      exact ofValue_eq_ok_iff.mpr ⟨_, parts, say⟩
    | first document parts say =>
      rw [read_of_document document]
      exact ofValue_eq_ok_iff.mpr ⟨_, parts, say⟩

end Answer
end EngineClient
