import EngineClient.Api.Fault
import EngineClient.Proofs.Outbound
import EngineClient.Proofs.Text.Form

/-!
# Reports in two formats

A body that is read as XML begins with an angle bracket, one that is read as JSON with a brace or a square bracket, after
what each of the two formats takes for blanks. No body is read as both, so that it does not matter which is tried first.
-/

namespace EngineClient

/-! ### How documents begin -/

theorem Text.encode_of_decode? {bs : Bytes} (decoded : decode? bs = some cs) : encode cs = bs := by
  obtain ⟨chars, read, rfl⟩ := Option.map_eq_some_iff.mp decoded
  have found : bs.toByteArray.utf8Decode?.isSome = true := by rw [read]; rfl
  have whole := ByteArray.utf8Encode_get_utf8Decode? (b := bs.toByteArray) (h := found)
  simp only [read, Option.get_some] at whole
  have bytes := congrArg (fun b => b.data.toList) whole
  simpa [encode, List.utf8Encode] using bytes

namespace Json

theorem isBlank_of_isBlankByte :
    ∀ b, isBlankByte b = true → b.toNat < 0x80 ∧ Text.isBlank (Char.ofNat b.toNat) = true :=
  Text.forall_byte (by decide +kernel)

/-- The first byte that is no blank of this format begins the text without any blanks, unless it is one itself. -/
theorem head_trimStart_of_skipBlanks {cs : List Char} {r : Bytes} (skipped : skipBlanks (Text.encode cs) = b :: r)
    (ascii : b.toNat < 0x80) (shown : Text.isBlank (Char.ofNat b.toNat) = false) :
    (Text.trimStart Text.isBlank cs).head? = some (Char.ofNat b.toNat) := by
  induction cs with
  | nil => cases skipped
  | cons c cs ih =>
    obtain ⟨first, tail, encoded, _⟩ := Text.announces_utf8EncodeChar c
    have whole : Text.encode (c :: cs) = first :: (tail ++ Text.encode cs) := by
      rw [Text.encode, List.flatMap_cons, encoded]
      rfl
    have own : first.toNat < 0x80 → c.toNat = first.toNat := by
      intro small
      rcases Text.mem_utf8EncodeChar (encoded ▸ List.mem_cons_self) with same | large
      · exact same.symm
      · omega
    rw [whole, skipBlanks] at skipped
    by_cases blank : isBlankByte first = true
    · obtain ⟨small, space⟩ := isBlank_of_isBlankByte first blank
      have same := own small
      rw [← same, Char.ofNat_toNat] at space
      have single : c.toNat < 0x80 := same ▸ small
      rw [Text.utf8EncodeChar_ascii single] at encoded
      obtain ⟨_, rfl⟩ := List.cons.inj encoded
      rw [List.dropWhile_cons_of_pos blank, List.nil_append] at skipped
      rw [Text.trimStart, List.dropWhile_cons_of_pos space]
      exact ih skipped
    · rw [List.dropWhile_cons_of_neg blank] at skipped
      obtain ⟨rfl, _⟩ := List.cons.inj skipped
      have same : Char.ofNat first.toNat = c := by rw [← own ascii, Char.ofNat_toNat]
      rw [same] at shown ⊢
      rw [Text.trimStart, List.dropWhile_cons_of_neg (by simp [shown]), List.head?_cons]

/-- A list or an object. -/
def Tree.IsContainer : Tree σ ν → Prop
  | .array _ | .object _ => True
  | _ => False

theorem Leaves.skipBlanks_of_value {l : Leaves σ ν} {depth : Option Nat} (read : l.value fuel depth bs = .ok (v, rest))
    (container : v.IsContainer) : ∃ b r, skipBlanks bs = b :: r ∧ (b = 0x5B ∨ b = 0x7B) := by
  cases fuel with
  | zero => cases read
  | succ fuel =>
    rw [Leaves.value] at read
    cases skipped : skipBlanks bs with
    | nil =>
      rw [skipped] at read
      cases read
    | cons b r =>
      refine ⟨b, r, rfl, ?_⟩
      by_contra other
      rw [not_or] at other
      -- All other values take one step, and end as what they are.
      simp only [skipped, if_neg other.1, if_neg other.2] at read
      repeat' split at read
      all_goals
        try obtain ⟨⟨_, _⟩, _, read⟩ := Except.bind_eq_ok read
        cases read
        try exact container

end Json

/-! ### Which format is read -/

namespace Report

theorem xml_begins (read : ofXml? body = some report) : ∃ cs, Text.encode cs = body ∧
    (Text.trimStart Text.isBlank cs).head? = some '<' := by
  obtain ⟨cs, decoded, read⟩ := Option.bind_eq_some_iff.mp read
  split at read
  · rename_i begins
    exact ⟨cs, Text.encode_of_decode? decoded, begins⟩
  · cases read

theorem json_begins (document : Json.Outline.read? body = .ok v) (container : v.IsContainer) :
    ∃ b r, Json.skipBlanks body = b :: r ∧ (b = 0x5B ∨ b = 0x7B) := by
  obtain ⟨⟨v', r⟩, value, ends⟩ := Except.bind_eq_ok document
  dsimp only at ends
  split at ends
  · cases ends
    exact Json.Leaves.skipBlanks_of_value value container
  · cases ends

theorem not_angle_of_json (document : Json.Outline.read? (Text.encode cs) = .ok v) (container : v.IsContainer) :
    (Text.trimStart Text.isBlank cs).head? ≠ some '<' := by
  obtain ⟨b, r, skipped, bracket⟩ := json_begins document container
  have begins : b.toNat < 0x80 ∧ Text.isBlank (Char.ofNat b.toNat) = false ∧ Char.ofNat b.toNat ≠ '<' := by
    rcases bracket with rfl | rfl <;> decide
  obtain ⟨ascii, shown, differs⟩ := begins
  rw [Json.head_trimStart_of_skipBlanks skipped ascii shown]
  exact fun angle => differs (Option.some.inj angle)

theorem json_eq_none_of_angle (angle : (Text.trimStart Text.isBlank cs).head? = some '<') :
    ofJson? (Text.encode cs) = none := by
  unfold ofJson?
  split
  · rename_i v document
    cases v with
    | array items => exact absurd angle (not_angle_of_json document trivial)
    | object members => exact absurd angle (not_angle_of_json document trivial)
    | _ => simp [maxDepth, ofOutline?]
  · rfl

theorem not_both_formats (body : Bytes) : ofXml? body = none ∨ ofJson? body = none := by
  cases xml : ofXml? body with
  | none => exact .inl rfl
  | some report =>
    obtain ⟨cs, rfl, angle⟩ := xml_begins xml
    exact .inr (json_eq_none_of_angle angle)

/-- What says nothing counts as much as what cannot be read. -/
theorem filter_said (p : Option String × Option String) :
    ((some p).filter fun p => p.1.isSome || p.2.isSome).getD (none, none) = p := by
  obtain ⟨reason, detail⟩ := p
  cases reason <;> cases detail <;> rfl

theorem decode_eq (contentType : Option String) (body : Bytes) :
    decode contentType body = (((ofXml? body).or (ofJson? body)).map flatten).getD (none, none) := by
  have alone : ∀ read : Option Report, ((read.map flatten).filter fun p => p.1.isSome || p.2.isSome).getD (none, none) =
      (read.map flatten).getD (none, none) := by
    intro read
    cases read with
    | none => rfl
    | some report => exact filter_said report.flatten
  unfold decode
  rcases not_both_formats body with xml | json
  · rw [xml, Option.none_or, ← alone (ofJson? body)]
    cases namesJson contentType <;> cases h : (ofJson? body).map flatten |>.filter fun p => p.1.isSome || p.2.isSome <;>
      simp [xml, h]
  · rw [json, Option.or_none, ← alone (ofXml? body)]
    cases namesJson contentType <;> cases h : (ofXml? body).map flatten |>.filter fun p => p.1.isSome || p.2.isSome <;>
      simp [json, h]

end Report

/-! ### Faults -/

namespace Fault

/-- What a fault takes from its response. -/
theorem ofResponse_eq (today : Nat) (r : Response) : ofResponse today r =
    { status := r.status
      reason := (Report.decode r.contentType r.body).1
      detail := (Report.decode r.contentType r.body).2
      retryAfter := RetryAfter.ofHeaders? today r.headers } :=
  rfl

theorem said_ofResponse (today : Nat) (r : Response) : ((ofResponse today r).reason, (ofResponse today r).detail) =
    (((Report.ofXml? r.body).or (Report.ofJson? r.body)).map Report.flatten).getD (none, none) := by
  rw [← Report.decode_eq r.contentType, ofResponse_eq]

end Fault

/-- Two responses that differ in their media types at most have the same fault, as no body is read in both formats: a
report that one of them reads is what the fault says, under any label and under none. -/
theorem media_type_never_matters (today : Nat) (r r' : Response) (status : r'.status = r.status)
    (body : r'.body = r.body) (headers : ∀ n, n ≠ .contentType → r'.headers.getAll n = r.headers.getAll n) :
    Fault.ofResponse today r' = Fault.ofResponse today r ∧
    (Report.ofXml? r.body = none ∨ Report.ofJson? r.body = none) ∧
    ∀ report, Report.ofXml? r.body = some report ∨ Report.ofJson? r.body = some report →
      ((Fault.ofResponse today r').reason, (Fault.ofResponse today r').detail) = report.flatten := by
  refine ⟨?_, Report.not_both_formats r.body, fun report reads => ?_⟩
  · have retry : RetryAfter.ofHeaders? today r'.headers = RetryAfter.ofHeaders? today r.headers := by
      unfold RetryAfter.ofHeaders? HeaderMap.get?
      rw [headers _ (by decide)]
    rw [Fault.ofResponse_eq, Fault.ofResponse_eq, status, body, retry, Report.decode_eq, Report.decode_eq]
  · rw [Fault.said_ofResponse, body]
    rcases Report.not_both_formats r.body with xml | json
    · rw [xml] at reads ⊢
      rcases reads with none | json
      · cases none
      · rw [json]
        rfl
    · rw [json] at reads ⊢
      rcases reads with xml | none
      · rw [xml]
        rfl
      · cases none

namespace Sample

def busy : HeaderMap :=
  HeaderMap.empty.append .retryAfter (.literal "30")

/-- A report in XML under a label. -/
def labelled (label : String) : Response :=
  { status := ⟨503⟩
    headers := busy.append .contentType (.literal label)
    body := Text.utf8 "<fault><reason>busy</reason></fault>" }

def unlabelled : Response :=
  { labelled "" with headers := busy }

end Sample

/-- A wrong label, one that cannot be read as text, and none. -/
theorem media_type_never_matters_mislabelled :
    (Sample.labelled "application/json").contentType = some "application/json" ∧
    (Sample.labelled "résumé").contentType = none ∧
    Fault.ofResponse 0 (Sample.labelled "application/json") = Fault.ofResponse 0 Sample.unlabelled ∧
    Fault.ofResponse 0 (Sample.labelled "résumé") = Fault.ofResponse 0 Sample.unlabelled ∧
    Fault.ofResponse 0 Sample.unlabelled =
      { status := ⟨503⟩, reason := some "busy", detail := none, retryAfter := some (.delay 30) } := by
  have others : ∀ label n, n ≠ .contentType →
      (Sample.labelled label).headers.getAll n = Sample.unlabelled.headers.getAll n := by
    intro label n other
    simp [Sample.labelled, Sample.unlabelled, other]
  refine ⟨by decide +kernel, by decide +kernel, ?_, ?_, by decide +kernel⟩
  · exact (media_type_never_matters 0 Sample.unlabelled (Sample.labelled _) rfl rfl (others _)).1
  · exact (media_type_never_matters 0 Sample.unlabelled (Sample.labelled _) rfl rfl (others _)).1

end EngineClient
