import EngineClient.Proofs.Text.Utf8
import EngineClient.Text.Form

/-!
# Reading escaped text back

What percent encoding and form encoding write is read back as it was. A separator never stands in an escaped text, so
that cutting at separators undoes joining with them.
-/

namespace EngineClient.Text

/-! ### Percent encoding -/

/-- A class of ASCII bytes without the percent sign. -/
def Plain (keep : UInt8 → Bool) : Prop :=
  ∀ b, keep b = true → b.toNat < 0x80 ∧ b ≠ 0x25

theorem forall_byte {p : UInt8 → Prop} (below : ∀ n < 256, p (.ofNat n)) (b : UInt8) : p b := by
  have number := below b.toNat b.toNat_lt
  rwa [UInt8.ofNat_toNat] at number

theorem plain_isUnreserved : Plain isUnreserved :=
  forall_byte (by decide +kernel)

theorem toNat_charOf (ascii : b.toNat < 0x80) : (charOf b).toNat = b.toNat := by
  have valid : b.toNat.isValidChar := .inl (by omega)
  rw [charOf, Char.ofNat, dif_pos valid]
  rfl

theorem encode_charOf (ascii : b.toNat < 0x80) : encode [charOf b] = [b] := by
  have number := toNat_charOf ascii
  rw [encode, List.flatMap_singleton, utf8EncodeChar_ascii (by omega), number, UInt8.ofNat_toNat]

theorem percentDecode_charOf (ascii : b.toNat < 0x80) (other : b ≠ 0x25) (rest : List Char) :
    percentDecode (charOf b :: rest) = b :: percentDecode rest := by
  have apart : charOf b ≠ '%' := by
    intro percent
    have number := toNat_charOf ascii
    rw [percent] at number
    exact other (UInt8.toNat_inj.mp number.symm)
  rw [percentDecode, encode_charOf ascii, List.singleton_append]
  exact fun _ _ _ percent _ => apart percent

theorem digits_hexDigitUpper : ∀ n < 16, isHexDigit (hexDigitUpper n) = true ∧ digitValue (hexDigitUpper n) = n := by
  decide

theorem percentDecode_percentByte (b : UInt8) (rest : List Char) :
    percentDecode (percentByte b ++ rest) = b :: percentDecode rest := by
  have upper := b.toNat_lt
  obtain ⟨first, high⟩ := digits_hexDigitUpper (b.toNat / 16) (by omega)
  obtain ⟨second, low⟩ := digits_hexDigitUpper (b.toNat % 16) (by omega)
  have whole : 16 * (b.toNat / 16) + b.toNat % 16 = b.toNat := Nat.div_add_mod b.toNat 16
  rw [percentByte, List.cons_append, List.cons_append, List.cons_append, List.nil_append, percentDecode]
  simp only [first, second, high, low, whole, Bool.and_true, if_true, UInt8.ofNat_toNat]

/-- Each byte is read back on its own, whatever stands behind it. -/
theorem percentDecode_percentEncode {keep : UInt8 → Bool} (plain : Plain keep) (bs : Bytes) :
    percentDecode (percentEncode keep bs) = bs := by
  induction bs with
  | nil => rfl
  | cons b bs ih =>
    rw [percentEncode, List.flatMap_cons]
    change percentDecode (_ ++ percentEncode keep bs) = _
    split
    · rename_i kept
      obtain ⟨ascii, other⟩ := plain b kept
      rw [List.singleton_append, percentDecode_charOf ascii other, ih]
    · rw [percentDecode_percentByte, ih]

/-! ### Separators -/

namespace Form

theorem cut_append {front : List Char} (clear : c ∉ front) (rest : List Char) :
    cut c (front ++ rest) = (front ++ (cut c rest).1, (cut c rest).2) := by
  have passes : ∀ d ∈ front, (d != c) = true := by
    intro d member
    rw [bne_iff_ne]
    rintro rfl
    exact clear member
  rw [cut, List.takeWhile_append_of_pos passes, List.dropWhile_append_of_pos passes, cut]

/-- Cutting at a separator undoes writing it once. -/
theorem cut_separator {front : List Char} (clear : c ∉ front) (back : List Char) :
    cut c (front ++ c :: back) = (front, back) := by
  rw [cut_append clear, cut]
  simp

theorem cut_clear {cs : List Char} (clear : c ∉ cs) : cut c cs = (cs, []) := by
  have cutting := cut_append clear []
  rw [List.append_nil] at cutting
  rw [cutting]
  exact congrArg (·, []) (List.append_nil cs)

theorem pieces_join {ps : List (List Char)} (clear : ∀ p ∈ ps, c ∉ p) (some : ps ≠ []) :
    pieces c (List.intercalate [c] ps) = ps :=
  List.splitOn_intercalate c clear some

/-! ### Form encoding -/

/-- What is written as it stands once plus signs are read as spaces. -/
def standsOrSpace (b : UInt8) : Bool :=
  b == 0x20 || stands b

theorem plain_standsOrSpace : Plain standsOrSpace :=
  forall_byte (by decide +kernel)

def spaced (cs : List Char) : List Char :=
  cs.map fun c => if c = '+' then ' ' else c

theorem spaced_encodeByte : ∀ b, spaced (encodeByte b) = if standsOrSpace b then [charOf b] else percentByte b :=
  forall_byte (by decide +kernel)

theorem spaced_encodeText (s : String) : spaced (encodeText s) = percentEncode standsOrSpace (utf8 s) := by
  rw [encodeText, percentEncode, spaced, List.map_flatMap]
  exact congrArg (List.flatMap · (utf8 s)) (funext spaced_encodeByte)

@[simp]
theorem decodeText_encodeText (s : String) : decodeText (encodeText s) = s := by
  change String.ofList (decodeLossy (percentDecode (spaced (encodeText s)))) = s
  rw [spaced_encodeText, percentDecode_percentEncode plain_standsOrSpace, utf8, decodeLossy_encode, String.ofList_toList]

theorem separators_encodeByte : ∀ b, '=' ∉ encodeByte b ∧ '&' ∉ encodeByte b :=
  forall_byte (by decide +kernel)

theorem separators_encodeText (s : String) : '=' ∉ encodeText s ∧ '&' ∉ encodeText s := by
  have clear : ∀ c, (∀ b, c ∉ encodeByte b) → c ∉ encodeText s := by
    intro c each member
    obtain ⟨b, _, inside⟩ := List.mem_flatMap.mp member
    exact each b inside
  exact ⟨clear '=' fun b => (separators_encodeByte b).1, clear '&' fun b => (separators_encodeByte b).2⟩

theorem parseField_encodeField (f : Field) : parseField (encodeField f) = f := by
  have clear := (separators_encodeText f.1).1
  rw [parseField, encodeField, cut_separator clear]
  simp only [decodeText_encodeText]

theorem encodeField_ne_nil (f : Field) : encodeField f ≠ [] := by
  simp [encodeField]

theorem clear_encodeField (f : Field) : '&' ∉ encodeField f := by
  have first := (separators_encodeText f.1).2
  have second := (separators_encodeText f.2).2
  simp [encodeField, first, second]

/-- Fields are read back in their order, empty and repeated ones included. -/
@[simp]
theorem parse_render (fields : List Field) : parse (render fields) = fields := by
  cases fields with
  | nil => rfl
  | cons f rest =>
    have clear : ∀ p ∈ (f :: rest).map encodeField, '&' ∉ p := by
      intro p member
      obtain ⟨g, _, rfl⟩ := List.mem_map.mp member
      exact clear_encodeField g
    have filled : ∀ p ∈ (f :: rest).map encodeField, (!p.isEmpty) = true := by
      intro p member
      obtain ⟨g, _, rfl⟩ := List.mem_map.mp member
      simp [encodeField_ne_nil g]
    have fieldwise : parseField ∘ encodeField = id := funext parseField_encodeField
    rw [parse, render, pieces_join clear (by simp), List.filter_eq_self.mpr filled, List.map_map, fieldwise, List.map_id]

end Form
end EngineClient.Text
