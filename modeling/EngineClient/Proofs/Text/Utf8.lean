import EngineClient.Text.Utf8

/-!
# Reading UTF-8 back

The first byte of a sequence tells how many bytes follow it and where the second one lies. The reader that never fails
therefore takes whole sequences from what a text was written as, and gives the text back.
-/

namespace EngineClient.Text

theorem tailLength_append {lo hi : UInt8} {tail : Bytes} (rest : Bytes)
    (first : ∀ b ∈ tail.head?, lo ≤ b ∧ b ≤ hi) (others : ∀ b ∈ tail.tail, 0x80 ≤ b ∧ b ≤ 0xBF) :
    tailLength tail.length lo hi (tail ++ rest) = tail.length := by
  induction tail generalizing lo hi with
  | nil => cases rest <;> rfl
  | cons b tail ih =>
    have more : tailLength tail.length 0x80 0xBF (tail ++ rest) = tail.length :=
      ih (fun c head => others c (List.mem_of_mem_head? head)) fun c later => others c (List.mem_of_mem_tail later)
    obtain ⟨low, high⟩ := first b rfl
    simp only [List.length_cons, List.cons_append, tailLength, low, high, decide_true, Bool.and_true, if_true, more]
    omega

theorem leadOf_ofNat (lt : n < 256) : leadOf (.ofNat n) =
    if n < 0x80 then some (1, 0, 0)
    else if n < 0xC2 then none
    else if n < 0xE0 then some (2, 0x80, 0xBF)
    else if n = 0xE0 then some (3, 0xA0, 0xBF)
    else if n = 0xED then some (3, 0x80, 0x9F)
    else if n < 0xF0 then some (3, 0x80, 0xBF)
    else if n = 0xF0 then some (4, 0x90, 0xBF)
    else if n < 0xF4 then some (4, 0x80, 0xBF)
    else if n = 0xF4 then some (4, 0x80, 0x8F)
    else none := by
  have same : (UInt8.ofNat n).toNat = n := Nat.mod_eq_of_lt lt
  simp [leadOf, UInt8.lt_iff_toNat_lt, ← UInt8.toNat_inj, same]

theorem ofNat_within (lo hi : Nat) (low : lo ≤ n) (high : n ≤ hi) (lt : hi < 256) :
    UInt8.ofNat lo ≤ .ofNat n ∧ UInt8.ofNat n ≤ .ofNat hi := by
  simp only [UInt8.le_iff_toNat_le, UInt8.toNat_ofNat']
  omega

theorem utf8EncodeChar_ascii {c : Char} (small : c.toNat < 0x80) : String.utf8EncodeChar c = [UInt8.ofNat c.toNat] := by
  have number : c.val.toNat = c.toNat := rfl
  unfold String.utf8EncodeChar
  dsimp only
  rw [number, if_pos (by omega)]

theorem mem_utf8EncodeChar {c : Char} {b : UInt8} (member : b ∈ String.utf8EncodeChar c) :
    b.toNat = c.toNat ∨ 0x80 ≤ b.toNat := by
  have number : c.val.toNat = c.toNat := rfl
  unfold String.utf8EncodeChar at member
  dsimp only at member
  rw [number] at member
  split at member
  · obtain rfl := List.mem_singleton.mp member
    left
    exact Nat.mod_eq_of_lt (by omega)
  right
  split at member
  · simp only [List.mem_cons, List.not_mem_nil, or_false] at member
    rcases member with rfl | rfl <;> rw [UInt8.toNat_ofNat'] <;> omega
  split at member
  · simp only [List.mem_cons, List.not_mem_nil, or_false] at member
    rcases member with rfl | rfl | rfl <;> rw [UInt8.toNat_ofNat'] <;> omega
  · simp only [List.mem_cons, List.not_mem_nil, or_false] at member
    rcases member with rfl | rfl | rfl | rfl <;> rw [UInt8.toNat_ofNat'] <;> omega

/-- What the first byte of a sequence says of the others. -/
structure Announces (b : UInt8) (tail : Bytes) : Prop where
  lead : ∃ lo hi, leadOf b = some (tail.length + 1, lo, hi) ∧ ∀ c ∈ tail.head?, lo ≤ c ∧ c ≤ hi
  others : ∀ c ∈ tail.tail, 0x80 ≤ c ∧ c ≤ 0xBF

/-- The ranges after `0xE0`, `0xED`, `0xF0` and `0xF4` are narrower: what they leave out are overlong forms,
surrogates and numbers beyond the last character. -/
theorem announces_utf8EncodeChar (c : Char) : ∃ b tail, String.utf8EncodeChar c = b :: tail ∧ Announces b tail := by
  have valid : c.val.toNat < 0xD800 ∨ 0xDFFF < c.val.toNat ∧ c.val.toNat < 0x110000 := c.valid
  unfold String.utf8EncodeChar
  dsimp only
  generalize c.val.toNat = v at valid
  split
  · refine ⟨_, _, rfl, ⟨0, 0, ?_, fun _ none => by cases none⟩, fun _ none => by cases none⟩
    rw [leadOf_ofNat (by omega), if_pos (by omega)]
    rfl
  split
  · refine ⟨_, _, rfl, ⟨0x80, 0xBF, ?_, ?_⟩, fun _ none => by cases none⟩
    · rw [leadOf_ofNat (by omega), if_neg (by omega), if_neg (by omega), if_pos (by omega)]
      rfl
    · rintro _ ⟨⟩
      exact ofNat_within 0x80 0xBF (by omega) (by omega) (by omega)
  split
  · refine ⟨_, _, rfl, ?_, ?_⟩
    · rw [leadOf_ofNat (by omega), if_neg (by omega), if_neg (by omega), if_neg (by omega)]
      split
      · refine ⟨_, _, rfl, ?_⟩
        rintro _ ⟨⟩
        exact ofNat_within 0xA0 0xBF (by omega) (by omega) (by omega)
      split
      · refine ⟨_, _, rfl, ?_⟩
        rintro _ ⟨⟩
        exact ofNat_within 0x80 0x9F (by omega) (by omega) (by omega)
      rw [if_pos (by omega)]
      refine ⟨_, _, rfl, ?_⟩
      rintro _ ⟨⟩
      exact ofNat_within 0x80 0xBF (by omega) (by omega) (by omega)
    · intro c later
      cases List.mem_singleton.mp later
      exact ofNat_within 0x80 0xBF (by omega) (by omega) (by omega)
  · refine ⟨_, _, rfl, ?_, ?_⟩
    · rw [leadOf_ofNat (by omega), if_neg (by omega), if_neg (by omega), if_neg (by omega), if_neg (by omega),
        if_neg (by omega), if_neg (by omega)]
      split
      · refine ⟨_, _, rfl, ?_⟩
        rintro _ ⟨⟩
        exact ofNat_within 0x90 0xBF (by omega) (by omega) (by omega)
      split
      · refine ⟨_, _, rfl, ?_⟩
        rintro _ ⟨⟩
        exact ofNat_within 0x80 0xBF (by omega) (by omega) (by omega)
      rw [if_pos (by omega)]
      refine ⟨_, _, rfl, ?_⟩
      rintro _ ⟨⟩
      exact ofNat_within 0x80 0x8F (by omega) (by omega) (by omega)
    · intro c later
      rcases List.mem_cons.mp later with rfl | last
      · exact ofNat_within 0x80 0xBF (by omega) (by omega) (by omega)
      · cases List.mem_singleton.mp last
        exact ofNat_within 0x80 0xBF (by omega) (by omega) (by omega)

theorem piece_encode {b : UInt8} {tail : Bytes} (encoded : String.utf8EncodeChar c = b :: tail)
    (announces : Announces b tail) (rest : Bytes) : piece b (tail ++ rest) = (c, tail.length) := by
  obtain ⟨⟨lo, hi, lead, first⟩, others⟩ := announces
  have whole : decode? (b :: tail) = some [c] := by
    have read := decode?_encode [c]
    rwa [encode, List.flatMap_singleton, encoded] at read
  unfold piece
  simp only [lead, Nat.add_sub_cancel, tailLength_append rest first others, if_true, List.take_left, whole]

@[simp]
theorem decodeLossy_encode (cs : List Char) : decodeLossy (encode cs) = cs := by
  induction cs with
  | nil => rw [encode, List.flatMap_nil, decodeLossy]
  | cons c cs ih =>
    obtain ⟨b, tail, encoded, announces⟩ := announces_utf8EncodeChar c
    have whole : encode (c :: cs) = b :: (tail ++ encode cs) := by
      rw [encode, List.flatMap_cons, encoded]
      rfl
    rw [whole, decodeLossy, piece_encode encoded announces]
    simp only [List.drop_left, ih]

end EngineClient.Text
