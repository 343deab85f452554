import EngineClient.Proofs.Text.Avoids
import EngineClient.Proofs.Text.Utf8
import EngineClient.Text.Blank
import Mathlib.Data.List.Basic

/-!
# Decimal numbers

The digits that a whole number is written with are read back as the number, with its sign in front, if it has one.
-/

namespace EngineClient.Text

/-! ### Digits -/

/-- The byte of a character of ASCII. -/
def byteOf (c : Char) : UInt8 :=
  UInt8.ofNat c.toNat

section Digit
variable {c : Char} (digit : c.isDigit = true)
include digit

theorem bounds_of_isDigit : 48 ≤ c.toNat ∧ c.toNat ≤ 57 := by
  obtain ⟨low, high⟩ := Bool.and_eq_true_iff.mp digit
  exact ⟨UInt32.le_iff_toNat_le.mp (of_decide_eq_true low), UInt32.le_iff_toNat_le.mp (of_decide_eq_true high)⟩

theorem toNat_byteOf : (byteOf c).toNat = c.toNat := by
  have bounds := bounds_of_isDigit digit
  exact Nat.mod_eq_of_lt (by omega)

theorem digitValue_of_isDigit : digitValue c = c.toNat - 48 := by
  rw [digitValue, if_pos digit]

end Digit

theorem positional_eq_ofDigitChars {cs : List Char} (digits : ∀ c ∈ cs, c.isDigit = true) :
    positional 10 cs = Nat.ofDigitChars 10 cs 0 := by
  unfold positional Nat.ofDigitChars
  refine List.foldl_ext _ _ _ fun n c among => ?_
  rw [digitValue_of_isDigit (digits c among)]
  rfl

theorem isDigit_toDigits (n : Nat) : ∀ c ∈ Nat.toDigits 10 n, c.isDigit = true :=
  fun _ among => Nat.isDigit_of_mem_toDigits (by decide) (by decide) among

theorem natural?_toDigits (n : Nat) : natural? (Nat.toDigits 10 n) = some n := by
  have all : (Nat.toDigits 10 n).all Char.isDigit = true := List.all_eq_true.mpr (isDigit_toDigits n)
  have some : (Nat.toDigits 10 n).isEmpty = false := by simp [Nat.toDigits_ne_nil]
  rw [natural?, all, some, positional_eq_ofDigitChars (isDigit_toDigits n), Nat.ofDigitChars_ten_toDigits]
  rfl

theorem encode_toDigits (n : Nat) : encode (Nat.toDigits 10 n) = (Nat.toDigits 10 n).map byteOf := by
  have each : ∀ c ∈ Nat.toDigits 10 n, String.utf8EncodeChar c = [byteOf c] := by
    intro c among
    have bounds := bounds_of_isDigit (isDigit_toDigits n c among)
    exact utf8EncodeChar_ascii (by omega)
  rw [encode, List.flatMap_congr each, List.map_eq_flatMap]

/-! ### Signs -/

theorem toList_toString_natCast (n : Nat) : (toString (n : Int)).toList = Nat.toDigits 10 n :=
  Nat.toList_repr

theorem toList_toString_negSucc (n : Nat) : (toString (Int.negSucc n)).toList = '-' :: Nat.toDigits 10 (n + 1) := by
  have written : toString (Int.negSucc n) = "-" ++ (n + 1).repr := rfl
  rw [written, String.toList_append, Nat.toList_repr]
  rfl

theorem dropWhile_of_avoids (avoids : Avoids bad cs) : cs.dropWhile bad = cs := by
  cases cs with
  | nil => rfl
  | cons c cs => exact List.dropWhile_cons_of_neg (by simp [avoids c List.mem_cons_self])

theorem trim_of_avoids (avoids : Avoids isBlank cs) : trim cs = cs := by
  have back : Avoids isBlank cs.reverse := fun c among => avoids c (List.mem_reverse.mp among)
  rw [trim, trimBoth, trimStart, dropWhile_of_avoids avoids, trimEnd, dropWhile_of_avoids back, List.reverse_reverse]

theorem avoids_isBlank_toDigits (n : Nat) : Avoids isBlank (Nat.toDigits 10 n) :=
  avoids_toDigits (forall_alphanum (by decide)) (by decide) (by decide) n

theorem unsigned?_toDigits (limit n : Nat) : unsigned? limit (Nat.toDigits 10 n) = if n ≤ limit then some n else none := by
  have unsigned : unsigned? limit (Nat.toDigits 10 n) = (natural? (Nat.toDigits 10 n)).filter (· ≤ limit) := by
    unfold unsigned?
    split
    · rename_i r plus
      have digit := isDigit_toDigits n '+' (by rw [plus]; exact List.mem_cons_self)
      exact absurd digit (by decide)
    · rfl
  rw [unsigned, natural?_toDigits]
  simp [Option.filter_some]

/-- The text of a whole number stands for it if it has no sign and is within the limit, and for none otherwise. -/
theorem unsigned?_toString (limit : Nat) (n : Int) :
    unsigned? limit (trim (toString n).toList) = if 0 ≤ n ∧ n ≤ limit then some n.toNat else none := by
  cases n with
  | ofNat n =>
    have written : (toString (Int.ofNat n)).toList = Nat.toDigits 10 n := toList_toString_natCast n
    rw [written, trim_of_avoids (avoids_isBlank_toDigits n), unsigned?_toDigits]
    simp
  | negSucc n =>
    rw [toList_toString_negSucc, trim_of_avoids (avoids_cons.mpr ⟨by decide, avoids_isBlank_toDigits _⟩)]
    have signed : natural? ('-' :: Nat.toDigits 10 (n + 1)) = none := rfl
    have negative : ¬ (0 ≤ Int.negSucc n ∧ Int.negSucc n ≤ limit) := fun within => absurd within.1 (by simp)
    rw [if_neg negative]
    exact congrArg (Option.filter (· ≤ limit)) signed

end EngineClient.Text
