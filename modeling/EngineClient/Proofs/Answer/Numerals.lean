import EngineClient.Proofs.Secrecy.Document
import EngineClient.Proofs.Text.Decimal

/-!
# Numerals

Documents with their numbers as they are written, of any size. Each has a value if its numbers have one; reading the
value then takes the same course, and otherwise it ends at a number that is too large.
-/

namespace EngineClient.Json

/-- A number as it is written: its digits before the point and after it, and a power of ten with a sign of its own. -/
structure Numeral where
  negative : Bool
  whole : Bytes
  fraction : Option Bytes
  power : Option (Bool × Bytes)
  deriving DecidableEq

namespace Numeral

/-- The number that is written, unless it is too large. -/
def number? (m : Numeral) : Option Number :=
  assemble? m.negative m.whole m.fraction m.power

/-- A whole number in decimal digits. -/
def ofInt (n : Int) : Numeral :=
  { negative := n < 0
    whole := Text.utf8 (Text.decimal n.natAbs)
    fraction := none
    power := none }

end Numeral

/-! ### Whole numbers -/

theorem wordDigits_digits (acc : Nat) {cs : List Char} (digits : ∀ c ∈ cs, c.isDigit = true) :
    (Nat.ofDigitChars 10 cs acc < 0x10000000000000000 →
      wordDigits acc (cs.map Text.byteOf) = (Nat.ofDigitChars 10 cs acc, cs.length)) ∧
    (0x10000000000000000 ≤ Nat.ofDigitChars 10 cs acc → acc < 0x10000000000000000 →
      (wordDigits acc (cs.map Text.byteOf)).2 < cs.length) := by
  induction cs generalizing acc with
  | nil =>
    rw [Nat.ofDigitChars_nil]
    exact ⟨fun _ => rfl, fun large small => by omega⟩
  | cons c cs ih =>
    have byte := Text.toNat_byteOf (digits c List.mem_cons_self)
    obtain ⟨fits, exceeds⟩ := ih (10 * acc + (c.toNat - 48)) fun d later => digits d (List.mem_cons_of_mem c later)
    have least : 10 * acc + (c.toNat - 48) ≤ Nat.ofDigitChars 10 cs (10 * acc + (c.toNat - 48)) := by
      rw [Nat.ofDigitChars_eq_ofDigitChars_zero]
      have positive : 1 ≤ 10 ^ cs.length := Nat.one_le_pow _ _ (by decide)
      exact Nat.le_trans (Nat.le_mul_of_pos_left _ positive) (Nat.le_add_right _ _)
    have step : Nat.ofDigitChars 10 (c :: cs) acc = Nat.ofDigitChars 10 cs (10 * acc + (c.toNat - 48)) :=
      Nat.ofDigitChars_cons
    rw [step, List.map_cons, wordDigits, byte, List.length_cons]
    constructor
    · intro small
      rw [if_pos (by omega), fits small]
    · intro large _
      split
      · rename_i next
        exact Nat.succ_lt_succ (exceeds large next)
      · exact Nat.succ_pos _

namespace Numeral
variable {n : Int}

theorem whole_ofInt (n : Int) : (ofInt n).whole = Text.encode (Nat.toDigits 10 n.natAbs) := by
  rw [ofInt, Text.decimal, Nat.toString_eq_ofList_toDigits, Text.utf8, String.toList_ofList]

theorem wordDigits_ofInt (n : Int) :
    (n.natAbs < 0x10000000000000000 → wordDigits 0 (ofInt n).whole = (n.natAbs, (ofInt n).whole.length)) ∧
    (0x10000000000000000 ≤ n.natAbs → (wordDigits 0 (ofInt n).whole).2 < (ofInt n).whole.length) := by
  have digits := wordDigits_digits 0 (Text.isDigit_toDigits n.natAbs)
  rw [Nat.ofDigitChars_ten_toDigits] at digits
  rw [whole_ofInt, Text.encode_toDigits, List.length_map]
  exact ⟨digits.1, fun large => digits.2 large (by decide)⟩

theorem number?_ofInt (low : 0 ≤ n) (high : n < 0x10000000000000000) : (ofInt n).number? = some (.integer n) := by
  have digits := (wordDigits_ofInt n).1 (by omega)
  have negative : (ofInt n).negative = false := decide_eq_false (by omega)
  have same : (n.natAbs : Int) = n := Int.natAbs_of_nonneg low
  rw [number?, assemble?, digits, negative]
  simp [ofInt, same]

/-- Numbers that are neither negative nor binary are made of all their digits, and of nothing else. -/
theorem number?_cases {m : Numeral} (found : m.number? = some v) :
    (m.negative = false ∧ (wordDigits 0 m.whole).2 = m.whole.length) ∨ (∃ k < 0, v = .integer k) ∨
    ∃ b, v = .binary b := by
  have binary : ∀ {x : Option Binary}, x.map Number.binary = some v → ∃ b, v = .binary b := by
    intro x made
    obtain ⟨b, _, rfl⟩ := Option.map_eq_some_iff.mp made
    exact ⟨b, rfl⟩
  unfold number? assemble? at found
  dsimp only at found
  split at found
  · rename_i whole
    split at found
    · rename_i plain
      simp only [Bool.and_eq_true, decide_eq_true_eq] at whole
      exact .inl ⟨by simpa using plain, whole.2⟩
    · split at found
      · rename_i positive
        cases found
        exact .inr (.inl ⟨_, by simp at positive; omega, rfl⟩)
      · exact .inr (.inr (binary found))
  · exact .inr (.inr (binary found))

theorem number?_ofInt_unusable (unusable : n < 0 ∨ 0x10000000000000000 ≤ n) (found : (ofInt n).number? = some v) :
    (∃ k < 0, v = .integer k) ∨ ∃ b, v = .binary b := by
  refine (number?_cases found).resolve_left fun ⟨positive, used⟩ => ?_
  have low : ¬ n < 0 := of_decide_eq_false positive
  have short := (wordDigits_ofInt n).2 (by omega)
  omega

end Numeral

/-! ### Documents as they are written -/

/-- A number from after its sign, as it is written. -/
def unsignedNumeral (negative : Bool) (bs : Bytes) : Except ReadError (Numeral × Bytes) := do
  let (whole, bs) ← wholePart bs
  let (fraction, bs) ← fractionPart bs
  let (power, bs) ← exponentPart bs
  return ({ negative, whole, fraction, power }, bs)

/-- Reads a number as it is written. -/
def numeralLeaf : Bytes → Except ReadError (Numeral × Bytes)
  | 0x2D :: r => unsignedNumeral true r
  | bs => unsignedNumeral false bs

/-- The value of a numeral that has been read. -/
def settle (p : Numeral × Bytes) : Except ReadError (Number × Bytes) :=
  match p.1.number? with
  | some n => .ok (n, p.2)
  | none => .error ⟨.numberRange, rangePlace p.1.power p.2⟩

theorem numeralLeaf_plain (plain : b ≠ 0x2D) (r : Bytes) : numeralLeaf (b :: r) = unsignedNumeral false (b :: r) := by
  unfold numeralLeaf
  split
  · rename_i signed
    exact absurd (List.cons.inj signed).1 plain
  · rfl

theorem unsignedLeaf_eq (negative : Bool) (bs : Bytes) :
    unsignedLeaf negative bs = unsignedNumeral negative bs >>= settle := by
  unfold unsignedLeaf unsignedNumeral
  simp only [bind_assoc, pure_bind]
  rfl

theorem numberLeaf_eq (bs : Bytes) : numberLeaf bs = numeralLeaf bs >>= settle := by
  cases bs with
  | nil => exact unsignedLeaf_eq false []
  | cons b r =>
    by_cases minus : b = 0x2D
    · subst minus
      exact unsignedLeaf_eq true r
    · rw [numberLeaf_plain minus, numeralLeaf_plain minus]
      exact unsignedLeaf_eq false (b :: r)

/-- Written documents: texts and numerals, as deep as values. -/
def writtenLeaves : Leaves String Numeral :=
  ⟨textLeaf, numeralLeaf, some 127⟩

/-- A document with its strings resolved and its numbers as they are written. -/
abbrev Written := Tree String Numeral

namespace Written

def read? (body : Bytes) : Except ReadError Written :=
  writtenLeaves.read? body

mutual

/-- The value that is written, if its numbers are not too large. -/
def value? : Written → Option Value
  | .null => some .null
  | .bool b => some (.bool b)
  | .number m => m.number?.map .number
  | .string s => some (.string s)
  | .array items => (items? items).map .array
  | .object members => (members? members).map .object

def items? : List Written → Option (List Value)
  | [] => some []
  | v :: r => (value? v).bind fun w => (items? r).map (w :: ·)

def members? : List (String × Written) → Option (List (String × Value))
  | [] => some []
  | (name, v) :: r => (value? v).bind fun w => (members? r).map ((name, w) :: ·)

end

theorem items?_of_unvalued {v : Written} (unvalued : v.value? = none) (r : List Written) : items? (v :: r) = none := by
  rw [items?, unvalued]
  rfl

theorem members?_of_unvalued {v : Written} (unvalued : v.value? = none) (name : String) (r : List (String × Written)) :
    members? ((name, v) :: r) = none := by
  rw [members?, unvalued]
  rfl

end Written

/-! ### Reading values and what is written -/

/-- The second reading ends where the first one does, with the value of what is written; if it has none, a number is too
large. Nothing is said of it where the first one fails. -/
inductive Follows (value? : α → Option β) : Except ReadError (α × Bytes) → Except ReadError (β × Bytes) → Prop
  | fails (e : ReadError) (y : Except ReadError (β × Bytes)) : Follows value? (.error e) y
  | value (valued : value? a = some b) (r : Bytes) : Follows value? (.ok (a, r)) (.ok (b, r))
  | range (unvalued : value? a = none) (r : Bytes) (left : Nat) :
      Follows value? (.ok (a, r)) (.error ⟨.numberRange, left⟩)

section Follows
variable {value? : α → Option β} {value?' : γ → Option δ}

theorem Follows.bind {x : Except ReadError (α × Bytes)} {y : Except ReadError (β × Bytes)}
    {f : α × Bytes → Except ReadError (γ × Bytes)} {g : β × Bytes → Except ReadError (δ × Bytes)}
    (first : Follows value? x y) (rest : ∀ a b r, value? a = some b → Follows value?' (f (a, r)) (g (b, r)))
    (lost : ∀ a r c r', value? a = none → f (a, r) = .ok (c, r') → value?' c = none) :
    Follows value?' (x >>= f) (y >>= g) := by
  cases first with
  | fails e y => exact .fails e _
  | value valued r => exact rest _ _ r valued
  | @range a unvalued r left =>
    change Follows value?' (f (a, r)) (.error _)
    cases after : f (a, r) with
    | error e => exact .fails e _
    | ok p => exact .range (lost a r p.1 p.2 unvalued after) p.2 left

theorem Follows.map {x : Except ReadError (α × Bytes)} {y : Except ReadError (β × Bytes)} {make : α → γ} {make' : β → δ}
    (first : Follows value? x y) (made : ∀ a, value?' (make a) = (value? a).map make') :
    Follows value?' (x >>= fun p => pure (make p.1, p.2)) (y >>= fun p => pure (make' p.1, p.2)) := by
  refine first.bind (fun a b r valued => .value (by rw [made, valued]; rfl) r) fun a r c r' unvalued same => ?_
  cases same
  rw [made, unvalued]
  rfl

theorem follows_bind (x : Except ReadError ε) {f : ε → Except ReadError (α × Bytes)}
    {g : ε → Except ReadError (β × Bytes)} (rest : ∀ a, Follows value? (f a) (g a)) :
    Follows value? (x >>= f) (x >>= g) := by
  cases x with
  | error e => exact .fails e _
  | ok a => exact rest a

theorem follows_ite {p : Prop} [Decidable p] {x x' : Except ReadError (α × Bytes)} {y y' : Except ReadError (β × Bytes)}
    (yes : p → Follows value? x y) (no : ¬ p → Follows value? x' y') :
    Follows value? (if p then x else x') (if p then y else y') := by
  by_cases h : p
  · simpa only [if_pos h] using yes h
  · simpa only [if_neg h] using no h

end Follows

theorem numberLeaf_follows (bs : Bytes) : Follows Numeral.number? (numeralLeaf bs) (numberLeaf bs) := by
  rw [numberLeaf_eq]
  cases numeralLeaf bs with
  | error e => exact .fails e _
  | ok p =>
    obtain ⟨m, r⟩ := p
    change Follows _ _ (settle (m, r))
    unfold settle
    cases valued : m.number? with
    | some n => exact .value valued r
    | none => exact .range valued r _

/-- What is written is read before its value, however deep it may nest. -/
theorem leaves_follow (fuel : Nat) : ∀ depth bs,
    Follows Written.value? (writtenLeaves.value fuel depth bs) (valueLeaves.value fuel depth bs) ∧
    Follows Written.items? (writtenLeaves.items fuel depth bs) (valueLeaves.items fuel depth bs) ∧
    Follows Written.members? (writtenLeaves.members fuel depth bs) (valueLeaves.members fuel depth bs) := by
  induction fuel with
  | zero => exact fun depth bs => ⟨.fails _ _, .fails _ _, .fails _ _⟩
  | succ fuel ih =>
    intro depth bs
    refine ⟨?_, ?_, ?_⟩
    · unfold Leaves.value
      split
      · exact .fails _ _
      rename_i b r _
      have words : ∀ {t : Written} {v : Value} {cs : List Char}, t.value? = some v →
          Follows Written.value? (word cs r >>= fun p => pure (t, p.2)) (word cs r >>= fun p => pure (v, p.2)) :=
        fun valued => follows_bind _ fun p => .value valued p.2
      refine follows_ite (fun _ => words (by rw [Written.value?])) fun _ => ?_
      refine follows_ite (fun _ => words (by rw [Written.value?])) fun _ => ?_
      refine follows_ite (fun _ => words (by rw [Written.value?])) fun _ => ?_
      refine follows_ite (fun _ => (numberLeaf_follows _).map fun m => by rw [Written.value?]) fun _ => ?_
      refine follows_ite (fun _ => follows_bind _ fun p => .value (by rw [Written.value?]) p.2) fun _ => ?_
      refine follows_ite (fun _ => follows_bind _ fun depth => ?_) fun _ => ?_
      · split
        · exact .fails _ _
        refine follows_ite (fun _ => .value (by rw [Written.value?, Written.items?]; rfl) _) fun _ => ?_
        exact (ih depth _).2.1.map fun items => by rw [Written.value?]
      refine follows_ite (fun _ => follows_bind _ fun depth => ?_) fun _ => .fails _ _
      split
      · exact .fails _ _
      refine follows_ite (fun _ => .value (by rw [Written.value?, Written.members?]; rfl) _) fun _ => ?_
      refine follows_ite (fun _ => ?_) fun _ => .fails _ _
      exact (ih depth _).2.2.map fun members => by rw [Written.value?]
    · unfold Leaves.items
      refine (ih depth bs).1.bind (fun t v r valued => ?_) fun t r c r' unvalued made => ?_
      · refine follows_bind _ ?_
        rintro ⟨more, r⟩
        refine follows_ite (fun _ => ?_) fun _ => ?_
        · exact (ih depth r).2.1.map fun items => by rw [Written.items?, valued]; rfl
        · exact .value (by rw [Written.items?, valued, Written.items?]; rfl) r
      · obtain ⟨⟨more, r⟩, _, made⟩ := Except.bind_eq_ok made
        cases more with
        | true =>
          obtain ⟨⟨items, r⟩, _, made⟩ := Except.bind_eq_ok made
          cases made
          exact Written.items?_of_unvalued unvalued items
        | false =>
          cases made
          exact Written.items?_of_unvalued unvalued []
    · unfold Leaves.members
      refine follows_bind _ ?_
      rintro ⟨name, r⟩
      refine follows_bind _ ?_
      rintro ⟨_, r⟩
      refine (ih depth r).1.bind (fun t v r valued => ?_) fun t r c r' unvalued made => ?_
      · refine follows_bind _ ?_
        rintro ⟨more, r⟩
        refine follows_ite (fun _ => ?_) fun _ => ?_
        · exact (ih depth r).2.2.map fun members => by rw [Written.members?, valued]; rfl
        · exact .value (by rw [Written.members?, valued, Written.members?]; rfl) r
      · obtain ⟨⟨more, r⟩, _, made⟩ := Except.bind_eq_ok made
        cases more with
        | true =>
          obtain ⟨⟨members, r⟩, _, made⟩ := Except.bind_eq_ok made
          cases made
          exact Written.members?_of_unvalued unvalued name members
        | false =>
          cases made
          exact Written.members?_of_unvalued unvalued name []

section Whole
variable {σ ν : Type} {l : Leaves σ ν} {body : Bytes}

theorem Leaves.read?_eq_ok_iff : l.read? body = .ok v ↔
    ∃ r, l.value (2 * body.length + 1) l.depth body = .ok (v, r) ∧ skipBlanks r = [] := by
  constructor
  · intro read
    obtain ⟨⟨v', r⟩, reads, ends⟩ := Except.bind_eq_ok read
    dsimp only at ends
    split at ends
    · rename_i skipped
      cases ends
      exact ⟨r, reads, skipped⟩
    · cases ends
  · rintro ⟨r, reads, skipped⟩
    simp only [read?, reads, bind, Except.bind, skipped]
    rfl

theorem Leaves.read?_of_error (fails : l.value (2 * body.length + 1) l.depth body = .error e) :
    l.read? body = .error e := by
  rw [read?, fails]
  rfl

end Whole

/-- A document as it is written has its value, unless one of its numbers is too large. -/
theorem read_written (written : Written.read? body = .ok t) :
    (∃ v, t.value? = some v ∧ Value.read? body = .ok v) ∨
    t.value? = none ∧ ∃ left, Value.read? body = .error ⟨.numberRange, left⟩ := by
  obtain ⟨r, reads, skipped⟩ := Leaves.read?_eq_ok_iff.mp written
  have follows : Follows Written.value? (writtenLeaves.value (2 * body.length + 1) writtenLeaves.depth body)
      (valueLeaves.value (2 * body.length + 1) valueLeaves.depth body) := (leaves_follow _ _ body).1
  rw [reads] at follows
  generalize value : valueLeaves.value (2 * body.length + 1) valueLeaves.depth body = read at follows
  cases follows with
  | value valued => exact .inl ⟨_, valued, Leaves.read?_eq_ok_iff.mpr ⟨r, value, skipped⟩⟩
  | range unvalued _ left => exact .inr ⟨unvalued, left, Leaves.read?_of_error value⟩

end EngineClient.Json
