import EngineClient.Text.Percent
import Mathlib.Data.List.TakeWhile

/-!
# Characters that are left out

Texts without characters of a class, and what is written without any: escapes and numbers have no character of a class
that leaves percent signs, letters and digits alone.
-/

namespace EngineClient

/-- A text has no character of a class. -/
def Text.Avoids (bad : Char → Bool) (cs : List Char) : Prop :=
  ∀ c ∈ cs, bad c = false

/-- Percent signs, letters and digits are not of a class. -/
def Text.SparesEscapes (bad : Char → Bool) : Prop :=
  bad '%' = false ∧ ∀ c, c.isAlphanum = true → bad c = false

namespace Text
variable {bad : Char → Bool} {cs ds : List Char}

theorem avoids_nil : Avoids bad [] := by
  simp [Avoids]

theorem avoids_cons : Avoids bad (c :: cs) ↔ bad c = false ∧ Avoids bad cs := by
  simp [Avoids]

theorem avoids_iff_all : Avoids bad cs ↔ cs.all (fun c => !bad c) = true := by
  simp [Avoids]

instance : Decidable (Avoids bad cs) :=
  decidable_of_iff _ avoids_iff_all.symm

theorem avoids_append : Avoids bad (cs ++ ds) ↔ Avoids bad cs ∧ Avoids bad ds := by
  unfold Avoids
  constructor
  · exact fun h => ⟨fun c member => h c (List.mem_append_left _ member), fun c member => h c (List.mem_append_right _ member)⟩
  · rintro ⟨first, second⟩ c member
    rcases List.mem_append.mp member with left | right
    · exact first c left
    · exact second c right

theorem Avoids.subset (avoids : Avoids bad cs) (within : ds ⊆ cs) : Avoids bad ds :=
  fun c member => avoids c (within member)

theorem Avoids.flatMap {α : Type} {f : α → List Char} {l : List α} (each : ∀ a ∈ l, Avoids bad (f a)) :
    Avoids bad (l.flatMap f) := by
  intro c member
  obtain ⟨a, among, inside⟩ := List.mem_flatMap.mp member
  exact each a among c inside

theorem Avoids.intercalate {sep : List Char} {parts : List (List Char)} (between : Avoids bad sep)
    (each : ∀ p ∈ parts, Avoids bad p) : Avoids bad (List.intercalate sep parts) := by
  induction parts with
  | nil => exact avoids_nil
  | cons p rest ih =>
    have first := each p List.mem_cons_self
    have others := ih fun q member => each q (List.mem_cons_of_mem _ member)
    cases rest with
    | nil => simpa [List.intercalate] using first
    | cons q rest =>
      have shape : List.intercalate sep (p :: q :: rest) = p ++ (sep ++ List.intercalate sep (q :: rest)) := by
        simp [List.intercalate]
      rw [shape]
      exact avoids_append.mpr ⟨first, avoids_append.mpr ⟨between, others⟩⟩

/-! ### Letters and digits -/

/-- What holds of the letters and digits of ASCII holds of all, as there are no others. -/
theorem forall_alphanum {p : Char → Prop} (ascii : ∀ n < 0x80, (Char.ofNat n).isAlphanum = true → p (Char.ofNat n)) :
    ∀ c, c.isAlphanum = true → p c := by
  intro c alphanum
  have small : c.toNat < 0x80 := by
    rcases Bool.or_eq_true_iff.mp alphanum with letter | digit
    · rcases Bool.or_eq_true_iff.mp letter with upper | lower
      · have last := (of_decide_eq_true upper).2
        exact Nat.lt_of_le_of_lt (UInt32.le_iff_toNat_le.mp last) (by decide)
      · have last := of_decide_eq_true (Bool.and_eq_true_iff.mp lower).2
        exact Nat.lt_of_le_of_lt (UInt32.le_iff_toNat_le.mp last) (by decide)
    · have last := of_decide_eq_true (Bool.and_eq_true_iff.mp digit).2
      exact Nat.lt_of_le_of_lt (UInt32.le_iff_toNat_le.mp last) (by decide)
  have own := ascii c.toNat small
  rw [Char.ofNat_toNat] at own
  exact own alphanum

theorem isAlphanum_hexDigitUpper : ∀ n < 16, (hexDigitUpper n).isAlphanum = true := by
  decide

theorem isAlphanum_digitChar : ∀ n < 16, (Nat.digitChar n).isAlphanum = true := by
  decide

theorem avoids_percentEncode (spares : SparesEscapes bad) {keep : UInt8 → Bool}
    (kept : ∀ b, keep b = true → bad (charOf b) = false) (bs : Bytes) : Avoids bad (percentEncode keep bs) := by
  refine Avoids.flatMap fun b _ => ?_
  split
  · rename_i stands
    exact avoids_cons.mpr ⟨kept b stands, avoids_nil⟩
  · have upper := b.toNat_lt
    have first := spares.2 _ (isAlphanum_hexDigitUpper (b.toNat / 16) (by omega))
    have second := spares.2 _ (isAlphanum_hexDigitUpper (b.toNat % 16) (by omega))
    exact avoids_cons.mpr ⟨spares.1, avoids_cons.mpr ⟨first, avoids_cons.mpr ⟨second, avoids_nil⟩⟩⟩

theorem avoids_toDigits (spares : ∀ c, c.isAlphanum = true → bad c = false) {base : Nat} (two : 1 < base)
    (small : base ≤ 16) (n : Nat) : Avoids bad (Nat.toDigits base n) := by
  induction n using Nat.strong_induction_on with
  | _ n ih =>
    have digit : ∀ d < base, Avoids bad [Nat.digitChar d] := fun d lt =>
      avoids_cons.mpr ⟨spares _ (isAlphanum_digitChar d (by omega)), avoids_nil⟩
    rw [Nat.toDigits_eq_if two]
    split
    · rename_i lt
      exact digit n lt
    · rename_i le
      have smaller : n / base < n := Nat.div_lt_self (by omega) two
      exact avoids_append.mpr ⟨ih _ smaller, digit _ (Nat.mod_lt n (by omega))⟩

theorem avoids_decimal (spares : ∀ c, c.isAlphanum = true → bad c = false) (n : Nat) : Avoids bad (decimal n).toList := by
  rw [decimal, Nat.toString_eq_ofList_toDigits, String.toList_ofList]
  exact avoids_toDigits spares (by decide) (by decide) n

end Text
end EngineClient
