import EngineClient.Text.Base64

/-!
# Reading base64 back

Each letter is read as the number it was written for, and none of them is the padding. Whole groups are therefore read
one by one, and the last two or three letters only before their padding.
-/

namespace EngineClient.Text.Base64

theorem letter_inv : ∀ n < 64, value? (letter n) = some n ∧ letter n ≠ '=' := by
  decide

theorem value?_letter (small : n < 64) : value? (letter n) = some n :=
  (letter_inv n small).1

theorem letter_ne_pad (small : n < 64) : letter n ≠ '=' :=
  (letter_inv n small).2

/-- Four letters none of which is the padding are a whole group, whatever stands behind it. -/
theorem decode?_group (third : c ≠ '=') (fourth : d ≠ '=') (r : List Char) :
    decode? (a :: b :: c :: d :: r) = do
      let x ← value? a
      let y ← value? b
      let z ← value? c
      let w ← value? d
      return triple x y z w ++ (← decode? r) := by
  rw [decode?]
  · rintro rfl
    exact absurd rfl third
  · rintro rfl
    exact absurd rfl fourth

theorem ofNat_of_eq {b : UInt8} (same : n = b.toNat) : UInt8.ofNat n = b := by
  rw [same, UInt8.ofNat_toNat]

theorem triple_of_digits (a b c : UInt8)
    (whole : ((x * 64 + y) * 64 + z) * 64 + w = (a.toNat * 256 + b.toNat) * 256 + c.toNat) :
    triple x y z w = [a, b, c] := by
  have first := a.toNat_lt
  have second := b.toNat_lt
  have third := c.toNat_lt
  unfold triple
  dsimp only
  rw [whole]
  have high : ((a.toNat * 256 + b.toNat) * 256 + c.toNat) / 65536 = a.toNat := by omega
  have middle : ((a.toNat * 256 + b.toNat) * 256 + c.toNat) / 256 % 256 = b.toNat := by omega
  have low : ((a.toNat * 256 + b.toNat) * 256 + c.toNat) % 256 = c.toNat := by omega
  rw [ofNat_of_eq high, ofNat_of_eq middle, ofNat_of_eq low]

@[simp]
theorem decode?_encode (bs : Bytes) : decode? (encode bs) = some bs := by
  induction bs using encode.induct with
  | case1 => rfl
  | case2 a =>
    have first := a.toNat_lt
    have x := value?_letter (n := a.toNat * 16 / 64) (by omega)
    have y := value?_letter (n := a.toNat * 16 % 64) (by omega)
    have rest : a.toNat * 16 % 64 % 16 = 0 := by omega
    have bytes : triple (a.toNat * 16 / 64) (a.toNat * 16 % 64) 0 0 = [a, 0, 0] :=
      triple_of_digits a 0 0 (by simp only [UInt8.toNat_zero]; omega)
    simp only [encode, decode?, x, y, rest, bytes, Option.bind_eq_bind, Option.bind_some, if_true, List.take_succ_cons,
      List.take_zero]
  | case3 a b =>
    have first := a.toNat_lt
    have second := b.toNat_lt
    have x := value?_letter (n := (a.toNat * 256 + b.toNat) * 4 / 4096) (by omega)
    have y := value?_letter (n := (a.toNat * 256 + b.toNat) * 4 / 64 % 64) (by omega)
    have z := value?_letter (n := (a.toNat * 256 + b.toNat) * 4 % 64) (by omega)
    have rest : (a.toNat * 256 + b.toNat) * 4 % 64 % 4 = 0 := by omega
    have bytes : triple ((a.toNat * 256 + b.toNat) * 4 / 4096) ((a.toNat * 256 + b.toNat) * 4 / 64 % 64)
        ((a.toNat * 256 + b.toNat) * 4 % 64) 0 = [a, b, 0] :=
      triple_of_digits a b 0 (by simp only [UInt8.toNat_zero]; omega)
    have letters := letter_ne_pad (n := (a.toNat * 256 + b.toNat) * 4 % 64) (by omega)
    rw [encode, decode?]
    · simp only [x, y, z, rest, bytes, Option.bind_eq_bind, Option.bind_some, if_true, List.take_succ_cons,
        List.take_zero]
    · exact letters
  | case4 a b c r ih =>
    have first := a.toNat_lt
    have second := b.toNat_lt
    have third := c.toNat_lt
    rw [encode]
    generalize number : (a.toNat * 256 + b.toNat) * 256 + c.toNat = n
    have x := value?_letter (n := n / 262144) (by omega)
    have y := value?_letter (n := n / 4096 % 64) (by omega)
    have z := value?_letter (n := n / 64 % 64) (by omega)
    have w := value?_letter (n := n % 64) (by omega)
    have bytes : triple (n / 262144) (n / 4096 % 64) (n / 64 % 64) (n % 64) = [a, b, c] :=
      triple_of_digits a b c (by omega)
    rw [decode?_group (letter_ne_pad (by omega)) (letter_ne_pad (by omega))]
    simp only [x, y, z, w, bytes, ih, Option.bind_eq_bind, Option.bind_some]
    rfl

end EngineClient.Text.Base64
