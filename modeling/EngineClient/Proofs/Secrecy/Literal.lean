import EngineClient.Json.Leaf
import EngineClient.Proofs.Outbound

/-!
# Strings in place

What a reader takes of a string depends on the string alone, whatever follows its closing quote, and no line ends
inside it.
-/

namespace EngineClient.Json

abbrev Reader (α : Type) := Bytes → Except ReadError (α × Bytes)

/-- What a reader takes of a text holds no line break, and it takes the same whatever follows. -/
def Local (read : Reader α) : Prop :=
  ∀ bs a rest, read bs = .ok (a, rest) →
    ∃ taken, bs = taken ++ rest ∧ 10 ∉ taken ∧ ∀ more, read (taken ++ more) = .ok (a, more)

section Local
variable {read : Reader α}

theorem local_pure (a : α) : Local fun bs => .ok (a, bs) := by
  rintro bs _ _ ⟨⟩
  exact ⟨[], rfl, List.not_mem_nil, fun _ => rfl⟩

theorem local_fail (fails : ∀ bs p, read bs ≠ .ok p) : Local read :=
  fun bs a rest same => (fails bs (a, rest) same).elim

theorem local_failAfter (d : Defect) : Local (fun bs => failAfter d bs : Reader α) :=
  local_fail fun _ _ h => by cases h

theorem Local.bind {next : α → Reader β} {whole : Reader β} (first : Local read) (rest : ∀ a, Local (next a))
    (same : ∀ bs, whole bs = read bs >>= fun p => next p.1 p.2) : Local whole := by
  intro bs b last once
  rw [same] at once
  obtain ⟨⟨a, mid⟩, begun, ended⟩ := Except.bind_eq_ok once
  obtain ⟨taken, rfl, unbroken, again⟩ := first bs a mid begun
  obtain ⟨taken', rfl, unbroken', again'⟩ := rest a mid b last ended
  refine ⟨taken ++ taken', (List.append_assoc ..).symm, by simp [unbroken, unbroken'], fun more => ?_⟩
  rw [List.append_assoc, same, again]
  exact again' more

theorem Local.ite {read' : Reader α} [Decidable p] (yes : p → Local read) (no : ¬ p → Local read') :
    Local fun bs => if p then read bs else read' bs := by
  by_cases h : p
  · simpa only [if_pos h] using yes h
  · simpa only [if_neg h] using no h

/-- A reader that looks at the first byte, and does not take a line break, goes on as another one. -/
theorem local_head (next : UInt8 → Reader α) (empty : ∀ p, read [] ≠ .ok p)
    (same : ∀ b r, read (b :: r) = next b r) (broken : ∀ r p, next 10 r ≠ .ok p) (rest : ∀ b, Local (next b)) :
    Local read := by
  intro bs a last once
  cases bs with
  | nil => exact (empty _ once).elim
  | cons b r =>
    rw [same] at once
    obtain ⟨taken, rfl, unbroken, again⟩ := rest b r a last once
    have other : (10 : UInt8) ≠ b := fun line => broken _ _ (line ▸ once)
    exact ⟨b :: taken, rfl, by simp [other, unbroken], fun more => (same b _).trans (again more)⟩

end Local

theorem not_hexDigit : ¬ Text.isHexDigit (Char.ofNat (10 : UInt8).toNat) = true := by decide

theorem hexEscape_cons (a b c d : UInt8) (r : Bytes) :
    hexEscape (a :: b :: c :: d :: r) = match hexQuad? [a, b, c, d] with
      | some n => .ok (n, r)
      | none => failAfter .badEscape r :=
  if_neg (by simp)

theorem hexEscape_local : Local hexEscape := by
  -- Not by `local_head`: four bytes are taken at once, and only together are they known to be digits.
  intro bs n rest read
  obtain ⟨a, b, c, d, r, rfl⟩ : ∃ a b c d r, bs = a :: b :: c :: d :: r := by
    match bs with
    | [] | [_] | [_, _] | [_, _, _] => cases read
    | a :: b :: c :: d :: r => exact ⟨a, b, c, d, r, rfl⟩
  rw [hexEscape_cons] at read
  cases quad : hexQuad? [a, b, c, d] with
  | none =>
    rw [quad] at read
    cases read
  | some m =>
    rw [quad] at read
    cases read
    refine ⟨[a, b, c, d], rfl, fun line => ?_, fun more => ?_⟩
    · have digits : [a, b, c, d].all (fun x => Text.isHexDigit (Char.ofNat x.toNat)) = true := by
        unfold hexQuad? at quad
        dsimp only at quad
        split at quad
        · rename_i digits
          simpa using digits
        · cases quad
      exact not_hexDigit (List.all_eq_true.mp digits 10 line)
    · rw [List.cons_append, List.cons_append, List.cons_append, List.cons_append, hexEscape_cons, quad]
      rfl

theorem secondHalf_local (first : Nat) : Local (secondHalf first) := by
  have pair : ∀ n, Local fun r => if n < 0xDC00 || n > 0xDFFF then failAfter .loneSurrogate r
      else .ok (Char.ofNat ((first - 0xD800) * 0x400 + (n - 0xDC00) + 0x10000), r) := by
    intro n
    exact .ite (fun _ => local_failAfter _) fun _ => local_pure _
  have second : Local fun r => secondHalf first (escapeByte :: 0x75 :: r) :=
    hexEscape_local.bind pair fun _ => rfl
  refine local_head (fun a r => if a != escapeByte then failAfter .endOfHexEscape r else
    secondHalf first (escapeByte :: r)) ?_ ?_ ?_ ?_
  · rintro _ ⟨⟩
  · intro a r
    by_cases h : a = escapeByte
    · simp [h]
    · simp [secondHalf, h]
  · rintro r p ⟨⟩
  · intro a
    refine .ite (fun _ => local_failAfter _) fun _ => ?_
    refine local_head (fun b r => if b != 0x75 then failAfter .endOfHexEscape r else
      secondHalf first (escapeByte :: 0x75 :: r)) ?_ ?_ ?_ ?_
    · rintro _ ⟨⟩
    · intro b r
      by_cases h : b = 0x75
      · simp [h]
      · simp [secondHalf, h]
    · rintro r p ⟨⟩
    · exact fun b => .ite (fun _ => local_failAfter _) fun _ => second

theorem escape_cons (plain : c ≠ 0x75) (r : Bytes) : escape (c :: r) = match escapeLetter? c with
    | some ch => .ok (ch, r)
    | none => failAfter .badEscape r :=
  if_neg plain

theorem escape_local : Local escape := by
  have unit : ∀ n, Local fun r => if 0xDC00 ≤ n && n ≤ 0xDFFF then failAfter .loneSurrogate r
      else if 0xD800 ≤ n && n ≤ 0xDBFF then secondHalf n r else .ok (Char.ofNat n, r) := by
    intro n
    exact .ite (fun _ => local_failAfter _) fun _ =>
      .ite (fun _ => secondHalf_local n) fun _ => local_pure _
  have number : Local fun r => escape (0x75 :: r) := hexEscape_local.bind unit fun _ => rfl
  refine local_head (fun c r => escape (c :: r)) ?_ (fun _ _ => rfl) ?_ ?_
  · rintro _ ⟨⟩
  · rintro r p ⟨⟩
  · intro c
    by_cases h : c = 0x75
    · rw [h]
      exact number
    · simp only [escape_cons h]
      cases escapeLetter? c with
      | none => exact local_failAfter _
      | some ch => exact local_pure ch

theorem stringBytes_local (fuel : Nat) (done : Bytes) : Local (stringBytes fuel done) := by
  -- On the fuel, not on the text: an escape takes several bytes in one round.
  induction fuel generalizing done with
  | zero => exact local_fail fun _ _ h => by cases h
  | succ fuel ih =>
    have escaped : Local fun r => escape r >>= fun p => stringBytes fuel ((Text.encode [p.1]).reverse ++ done) p.2 :=
      escape_local.bind (fun c => ih ((Text.encode [c]).reverse ++ done)) fun _ => rfl
    refine local_head (fun b r => if b = quoteByte then .ok (done.reverse, r)
      else if b = escapeByte then escape r >>= fun p => stringBytes fuel ((Text.encode [p.1]).reverse ++ done) p.2
      else if b < 0x20 then failAfter .controlCharacter r else stringBytes fuel (b :: done) r) ?_ ?_ ?_ ?_
    · rintro _ ⟨⟩
    · exact fun b r => rfl
    · rintro r p ⟨⟩
    · intro b
      exact .ite (fun _ => local_pure _) fun _ => .ite (fun _ => escaped) fun _ =>
        .ite (fun _ => local_failAfter _) fun _ => ih _

theorem stringBytes_mono (read : stringBytes fuel done bs = .ok p) (more : Nat) :
    stringBytes (fuel + more) done bs = .ok p := by
  induction fuel generalizing done bs with
  | zero => cases read
  | succ fuel ih =>
    rw [Nat.add_right_comm]
    cases bs with
    | nil => cases read
    | cons b r =>
      unfold stringBytes at read ⊢
      split
      · rename_i quote
        rwa [if_pos quote] at read
      · rename_i other
        rw [if_neg other] at read
        split
        · rename_i escaped
          rw [if_pos escaped] at read
          obtain ⟨⟨c, r'⟩, taken, rest⟩ := Except.bind_eq_ok read
          rw [taken]
          exact ih rest
        · rename_i plain
          rw [if_neg plain] at read
          split
          · rename_i control
            rw [if_pos control] at read
            cases read
          · rename_i shown
            rw [if_neg shown] at read
            exact ih read

theorem textLeaf_eq_ok (read : textLeaf bs = .ok (s, rest)) :
    ∃ bytes, stringBytes (bs.length + 1) [] bs = .ok (bytes, rest) ∧ Text.string? bytes = some s := by
  obtain ⟨⟨bytes, r⟩, taken, decoded⟩ := Except.bind_eq_ok read
  dsimp only at decoded
  split at decoded
  · rename_i s' found
    cases decoded
    exact ⟨bytes, taken, found⟩
  · cases decoded

section Resolved
variable {raw : Bytes} (resolved : resolve? raw = some s)
include resolved

theorem textLeaf_of_resolve : textLeaf (raw ++ [quoteByte]) = .ok (s, []) := by
  unfold resolve? at resolved
  split at resolved
  · rename_i s' read
    cases resolved
    exact read
  · cases resolved

/-- A string that resolves is read up to its closing quote, whatever follows. -/
theorem textLeaf_resolved (rest : Bytes) : textLeaf (raw ++ quoteByte :: rest) = .ok (s, rest) := by
  obtain ⟨bytes, read, decoded⟩ := textLeaf_eq_ok (textLeaf_of_resolve resolved)
  obtain ⟨taken, whole, _, again⟩ := stringBytes_local _ _ _ _ _ read
  rw [List.append_nil] at whole
  -- The fuel is the length of the whole text, so that more of it comes with what follows.
  have longer : (raw ++ quoteByte :: rest).length + 1 = (raw ++ [quoteByte]).length + 1 + rest.length := by
    simp only [List.length_append, List.length_cons, List.length_nil]
    omega
  have split : raw ++ quoteByte :: rest = taken ++ rest := by
    rw [← whole]
    simp
  unfold textLeaf
  rw [longer, split, stringBytes_mono (again rest)]
  simp only [decoded, bind, Except.bind, pure, Except.pure]

theorem unbroken_of_resolve : 10 ∉ raw := by
  obtain ⟨bytes, read, _⟩ := textLeaf_eq_ok (textLeaf_of_resolve resolved)
  obtain ⟨taken, whole, unbroken, _⟩ := stringBytes_local _ _ _ _ _ read
  rw [List.append_nil] at whole
  intro line
  rw [← whole] at unbroken
  exact unbroken (List.mem_append_left _ line)

end Resolved

end EngineClient.Json
