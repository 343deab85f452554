import EngineClient.Json.Reader
import EngineClient.Proofs.Secrecy.Literal

/-!
# Documents with other strings

Two texts that differ in what stands in their strings, and not in how long that is, are read in step: both up to the
same place, where the same defect ends the reading, or both to their ends.
-/

namespace EngineClient

/-- Two results are the same error, or values that are related. -/
inductive Except.Related (rel : α → β → Prop) : Except ε α → Except ε β → Prop
  | error (e : ε) : Related rel (.error e) (.error e)
  | ok (values : rel a b) : Related rel (.ok a) (.ok b)

namespace Except

theorem Related.bind {rel : α → β → Prop} {rel' : γ → δ → Prop} {x : Except ε α} {y : Except ε β}
    {f : α → Except ε γ} {g : β → Except ε δ} (first : Related rel x y)
    (rest : ∀ a b, rel a b → Related rel' (f a) (g b)) : Related rel' (x >>= f) (y >>= g) := by
  cases first with
  | error e => exact .error e
  | ok values => exact rest _ _ values

theorem Related.imp {rel rel' : α → β → Prop} {x : Except ε α} {y : Except ε β} (related : Related rel x y)
    (more : ∀ a b, rel a b → rel' a b) : Related rel' x y := by
  cases related with
  | error e => exact .error e
  | ok values => exact .ok (more _ _ values)

theorem Related.split {rel : α → β → Prop} {x : Except ε α} {y : Except ε β} (related : Related rel x y) :
    (∃ e, x = .error e ∧ y = .error e) ∨ ∃ a b, x = .ok a ∧ y = .ok b ∧ rel a b := by
  cases related with
  | error e => exact .inl ⟨e, rfl, rfl⟩
  | ok values => exact .inr ⟨_, _, rfl, rfl, values⟩

theorem Related.of_eq {rel : α → α → Prop} (refl : ∀ a, rel a a) (x : Except ε α) : Related rel x x := by
  cases x with
  | error e => exact .error e
  | ok a => exact .ok (refl a)

theorem related_bind {rel : β → γ → Prop} (x : Except ε α) {f : α → Except ε β} {g : α → Except ε γ}
    (rest : ∀ a, Related rel (f a) (g a)) : Related rel (x >>= f) (x >>= g) := by
  cases x with
  | error e => exact .error e
  | ok a => exact rest a

theorem Related.ite {rel : α → β → Prop} {p : Prop} [Decidable p] {x x' : Except ε α} {y y' : Except ε β}
    (yes : p → Related rel x y) (no : ¬ p → Related rel x' y') :
    Related rel (if p then x else x') (if p then y else y') := by
  by_cases h : p
  · simpa only [if_pos h] using yes h
  · simpa only [if_neg h] using no h

end Except

namespace Json

/-- Texts that are the same but for their strings, which have the same lengths in both. -/
inductive Parallel : Bytes → Bytes → Prop
  | same (bs : Bytes) : Parallel bs bs
  | byte (other : b ≠ quoteByte) (rest : Parallel r r') : Parallel (b :: r) (b :: r')
  | text (resolved : resolve? raw = some s) (resolved' : resolve? raw' = some s') (size : raw.length = raw'.length)
    (rest : Parallel r r') : Parallel (quoteByte :: (raw ++ quoteByte :: r)) (quoteByte :: (raw' ++ quoteByte :: r'))

namespace Parallel
variable {bs bs' : Bytes}

theorem length (parallel : Parallel bs bs') : bs.length = bs'.length := by
  induction parallel with
  | same bs => rfl
  | byte _ _ ih => simp [ih]
  | text _ _ size _ ih => simp [size, ih]

theorem nil (parallel : Parallel [] bs') : bs' = [] := by
  cases parallel with
  | same => rfl

theorem uncons (parallel : Parallel (b :: r) bs') : ∃ r', bs' = b :: r' := by
  cases parallel with
  | same | byte _ _ | text _ _ _ _ => exact ⟨_, rfl⟩

theorem tail (parallel : Parallel (b :: r) (b :: r')) (other : b ≠ quoteByte) : Parallel r r' := by
  cases parallel with
  | same => exact .same r
  | byte _ rest => exact rest
  | text _ _ _ _ => exact (other rfl).elim

theorem length_tail (parallel : Parallel (b :: r) (b :: r')) : r.length = r'.length :=
  Nat.succ.inj parallel.length

/-- Lines end at the same places. -/
theorem lines (parallel : Parallel bs bs') : bs.map (· == 10) = bs'.map (· == 10) := by
  induction parallel with
  | same bs => rfl
  | byte _ _ ih => simp only [List.map_cons, ih]
  | text resolved resolved' size _ ih =>
    have none : ∀ {raw : Bytes}, 10 ∉ raw → raw.map (· == 10) = List.replicate raw.length false := by
      intro raw unbroken
      rw [List.eq_replicate_iff]
      refine ⟨List.length_map _, fun line among => ?_⟩
      obtain ⟨b, member, rfl⟩ := List.mem_map.mp among
      simpa using fun line : b = 10 => unbroken (line ▸ member)
    simp only [List.map_cons, List.map_append, none (unbroken_of_resolve resolved),
      none (unbroken_of_resolve resolved'), size, ih]

theorem skipBlanks (parallel : Parallel bs bs') : Parallel (skipBlanks bs) (skipBlanks bs') := by
  unfold Json.skipBlanks
  induction parallel with
  | same bs => exact .same _
  | @byte b r r' other rest ih =>
    by_cases blank : isBlankByte b = true
    · simpa only [List.dropWhile_cons_of_pos blank] using ih
    · simpa only [List.dropWhile_cons_of_neg blank] using rest.byte other
  | text resolved resolved' size rest ih => exact .text resolved resolved' size rest

theorem digits (parallel : Parallel bs bs') :
    digitsOf bs' = digitsOf bs ∧ Parallel (bs.drop (digitsOf bs).length) (bs'.drop (digitsOf bs).length) := by
  unfold digitsOf
  induction parallel with
  | same bs => exact ⟨rfl, .same _⟩
  | @byte b r r' other rest ih =>
    by_cases digit : isDigit b = true
    · simpa [List.takeWhile_cons_of_pos digit] using ih
    · rw [List.takeWhile_cons_of_neg digit, List.takeWhile_cons_of_neg digit]
      exact ⟨rfl, rest.byte other⟩
  | text resolved resolved' size rest ih => exact ⟨rfl, .text resolved resolved' size rest⟩

/-- What is done at the first byte that is no blank. -/
theorem blanks {rel : α → β → Prop} {x : Except ε α} {y : Except ε β} {f : UInt8 → Bytes → Except ε α}
    {g : UInt8 → Bytes → Except ε β} (parallel : Parallel bs bs') (ends : Except.Related rel x y)
    (goes : ∀ b r r', Parallel (b :: r) (b :: r') → Except.Related rel (f b r) (g b r')) :
    Except.Related rel
      (match Json.skipBlanks bs with
        | [] => x
        | b :: r => f b r)
      (match Json.skipBlanks bs' with
        | [] => y
        | b :: r => g b r) := by
  have skipped := parallel.skipBlanks
  cases found : Json.skipBlanks bs with
  | nil =>
    rw [found] at skipped
    rw [skipped.nil]
    exact ends
  | cons b r =>
    rw [found] at skipped
    obtain ⟨r', same⟩ := skipped.uncons
    rw [same] at skipped ⊢
    exact goes b r r' skipped

end Parallel

theorem place_of_lines {body body' : Bytes} (lines : body.map (· == 10) = body'.map (· == 10)) (left : Nat) :
    place body left = place body' left := by
  have length : body.length = body'.length := by simpa using congrArg List.length lines
  have counted : ∀ bs : Bytes, bs.count 10 = (bs.map (· == 10)).count true := by
    intro bs
    rw [List.count, List.count, List.countP_map]
    refine List.countP_congr fun b _ => ?_
    simp
  have column : ∀ bs : Bytes, (bs.takeWhile (· != 10)).length = ((bs.map (· == 10)).takeWhile (!·)).length := by
    intro bs
    rw [List.takeWhile_map, List.length_map]
    rfl
  unfold place
  simp only [counted, column, List.map_take, List.map_reverse, lines, length]

/-! ### Readers in step -/

/-- Both readings fail with one defect at one place, or both go on, with parallel texts left. -/
def InStep (rel : α → β → Prop) (x : Except ReadError (α × Bytes)) (y : Except ReadError (β × Bytes)) : Prop :=
  Except.Related (fun p q => rel p.1 q.1 ∧ Parallel p.2 q.2) x y

/-- Nothing is asked of two values. -/
def Unasked (_ : α) (_ : β) : Prop :=
  True

section InStep
variable {rel : α → β → Prop} {bs bs' r r' : Bytes}

theorem InStep.bind {rel' : γ → δ → Prop} {x : Except ReadError (α × Bytes)} {y : Except ReadError (β × Bytes)}
    {f : α × Bytes → Except ReadError (γ × Bytes)} {g : β × Bytes → Except ReadError (δ × Bytes)}
    (first : InStep rel x y)
    (rest : ∀ a b r r', rel a b → Parallel r r' → InStep rel' (f (a, r)) (g (b, r'))) : InStep rel' (x >>= f) (y >>= g) :=
  Except.Related.bind first fun p q values => rest p.1 q.1 p.2 q.2 values.1 values.2

theorem inStep_ite {p : Prop} [Decidable p] {x x' : Except ReadError (α × Bytes)} {y y' : Except ReadError (β × Bytes)}
    (yes : p → InStep rel x y) (no : ¬ p → InStep rel x' y') :
    InStep rel (if p then x else x') (if p then y else y') :=
  Except.Related.ite yes no

theorem inStep_ok (values : rel a b) (rest : Parallel r r') : InStep rel (.ok (a, r)) (.ok (b, r')) :=
  .ok ⟨values, rest⟩

theorem inStep_failAfter (d : Defect) (length : r.length = r'.length) : InStep rel (failAfter d r) (failAfter d r') := by
  unfold failAfter
  rw [length]
  exact .error _

theorem inStep_failAt (d : Defect) (length : r.length = r'.length) : InStep rel (failAt d r) (failAt d r') := by
  unfold failAt
  rw [length]
  exact .error _

end InStep

section Numbers
variable {bs bs' : Bytes}

theorem digit_ne_quote (digit : isDigit b = true) : b ≠ quoteByte := by
  rintro rfl
  exact absurd digit (by decide)

theorem wholePart_inStep (parallel : Parallel bs bs') : InStep Eq (wholePart bs) (wholePart bs') := by
  cases bs with
  | nil =>
    rw [parallel.nil]
    exact inStep_failAfter _ rfl
  | cons b r =>
    obtain ⟨r', rfl⟩ := parallel.uncons
    have length := parallel.length_tail
    simp only [wholePart]
    refine inStep_ite (fun zero => ?_) fun _ => inStep_ite (fun digit => ?_) fun _ => inStep_failAfter _ length
    · have rest := parallel.tail (by rw [zero]; decide)
      cases r with
      | nil =>
        rw [rest.nil]
        exact inStep_ok rfl (.same [])
      | cons c t =>
        obtain ⟨t', rfl⟩ := rest.uncons
        exact inStep_ite (fun _ => inStep_failAt _ length) fun _ => inStep_ok rfl rest
    · obtain ⟨same, rest⟩ := (parallel.tail (digit_ne_quote digit)).digits
      rw [same]
      exact inStep_ok rfl rest

theorem fractionPart_inStep (parallel : Parallel bs bs') : InStep Eq (fractionPart bs) (fractionPart bs') := by
  cases bs with
  | nil =>
    rw [parallel.nil]
    exact inStep_ok rfl (.same [])
  | cons b r =>
    obtain ⟨r', rfl⟩ := parallel.uncons
    have length := parallel.length_tail
    simp only [fractionPart]
    refine inStep_ite (fun _ => inStep_ok rfl parallel) fun point => ?_
    have rest := parallel.tail (by rintro rfl; exact point (by decide))
    obtain ⟨same, left⟩ := rest.digits
    have empty : r'.isEmpty = r.isEmpty := by
      rw [Bool.eq_iff_iff, List.isEmpty_iff_length_eq_zero, List.isEmpty_iff_length_eq_zero, length]
    rw [same, empty]
    exact inStep_ite
      (fun _ => inStep_ite (fun _ => inStep_failAt _ length) fun _ => inStep_failAt _ length)
      fun _ => inStep_ok rfl left

theorem signOf_parallel (parallel : Parallel bs bs') :
    (signOf bs').1 = (signOf bs).1 ∧ Parallel (signOf bs).2 (signOf bs').2 := by
  cases bs with
  | nil =>
    rw [parallel.nil]
    exact ⟨rfl, .same []⟩
  | cons b r =>
    obtain ⟨r', rfl⟩ := parallel.uncons
    by_cases plus : b = 0x2B
    · subst plus
      exact ⟨rfl, parallel.tail (by decide)⟩
    · by_cases minus : b = 0x2D
      · subst minus
        exact ⟨rfl, parallel.tail (by decide)⟩
      · have plain : ∀ t, signOf (b :: t) = (true, b :: t) := by
          intro t
          unfold signOf
          split <;> simp_all
        rw [plain, plain]
        exact ⟨rfl, parallel⟩

theorem exponentPart_inStep (parallel : Parallel bs bs') : InStep Eq (exponentPart bs) (exponentPart bs') := by
  cases bs with
  | nil =>
    rw [parallel.nil]
    exact inStep_ok rfl (.same [])
  | cons b r =>
    obtain ⟨r', rfl⟩ := parallel.uncons
    simp only [exponentPart]
    refine inStep_ite (fun _ => inStep_ok rfl parallel) fun letter => ?_
    obtain ⟨sign, unsigned⟩ := signOf_parallel (parallel.tail (by rintro rfl; exact letter (by decide)))
    rw [sign]
    cases digits : (signOf r).2 with
    | nil =>
      rw [digits] at unsigned
      rw [unsigned.nil]
      exact inStep_failAfter _ rfl
    | cons c t =>
      rw [digits] at unsigned
      obtain ⟨t', same⟩ := unsigned.uncons
      rw [same] at unsigned ⊢
      refine inStep_ite (fun _ => inStep_failAfter _ unsigned.length_tail) fun _ => ?_
      obtain ⟨same, left⟩ := unsigned.digits
      rw [same]
      exact inStep_ok rfl left

/-- A number from after its sign. -/
def unsignedLeaf (negative : Bool) (bs : Bytes) : Except ReadError (Number × Bytes) := do
  let (whole, bs) ← wholePart bs
  let (fraction, bs) ← fractionPart bs
  let (power, bs) ← exponentPart bs
  match assemble? negative whole fraction power with
  | some n => return (n, bs)
  | none => throw ⟨.numberRange, rangePlace power bs⟩

theorem numberLeaf_plain (plain : b ≠ 0x2D) (r : Bytes) : numberLeaf (b :: r) = unsignedLeaf false (b :: r) := by
  unfold numberLeaf
  split
  rename_i signed
  simp only [List.cons.injEq, plain, false_and, imp_false, not_false_eq_true, implies_true, Prod.mk.injEq] at signed
  obtain ⟨rfl, rfl⟩ := signed
  rfl

theorem unsignedLeaf_inStep (negative : Bool) (parallel : Parallel bs bs') :
    InStep Eq (unsignedLeaf negative bs) (unsignedLeaf negative bs') := by
  refine (wholePart_inStep parallel).bind ?_
  rintro whole _ r r' rfl parallel
  refine (fractionPart_inStep parallel).bind ?_
  rintro fraction _ r r' rfl parallel
  refine (exponentPart_inStep parallel).bind ?_
  rintro power _ r r' rfl parallel
  dsimp only
  cases assemble? negative whole fraction power with
  | some n => exact inStep_ok rfl parallel
  | none =>
    have range : rangePlace power r = rangePlace power r' := by
      unfold rangePlace
      rw [parallel.length]
    dsimp only
    rw [range]
    exact .error _

theorem numberLeaf_inStep (parallel : Parallel bs bs') : InStep Eq (numberLeaf bs) (numberLeaf bs') := by
  cases bs with
  | nil =>
    rw [parallel.nil]
    exact unsignedLeaf_inStep false (.same [])
  | cons b r =>
    obtain ⟨r', rfl⟩ := parallel.uncons
    by_cases minus : b = 0x2D
    · subst minus
      exact unsignedLeaf_inStep true (parallel.tail (by decide))
    · rw [numberLeaf_plain minus, numberLeaf_plain minus]
      exact unsignedLeaf_inStep false parallel

end Numbers

/-! ### Values -/

section Values
variable {bs bs' r r' : Bytes}

theorem textLeaf_inStep (parallel : Parallel (quoteByte :: r) (quoteByte :: r')) :
    InStep Unasked (textLeaf r) (textLeaf r') := by
  cases parallel with
  | same => exact .of_eq (fun p => ⟨trivial, .same p.2⟩) _
  | byte other _ => exact (other rfl).elim
  | text resolved resolved' _ rest =>
    rw [textLeaf_resolved resolved, textLeaf_resolved resolved']
    exact inStep_ok trivial rest

theorem word_inStep {cs : List Char} (unquoted : '"' ∉ cs) (parallel : Parallel bs bs') :
    InStep Unasked (word cs bs) (word cs bs') := by
  induction cs generalizing bs bs' with
  | nil => exact inStep_ok trivial parallel
  | cons c cs ih =>
    cases bs with
    | nil =>
      rw [parallel.nil]
      exact inStep_failAfter _ rfl
    | cons b r =>
      obtain ⟨r', rfl⟩ := parallel.uncons
      refine inStep_ite (fun same => ?_) fun _ => inStep_failAfter _ parallel.length_tail
      have other : b ≠ quoteByte := by
        rintro rfl
        have quote : '"' = c := Char.toNat_inj.mp same
        exact unquoted (quote ▸ List.mem_cons_self ..)
      exact ih (fun later => unquoted (List.mem_cons_of_mem c later)) (parallel.tail other)

theorem colon_inStep (parallel : Parallel bs bs') : InStep Unasked (colon bs) (colon bs') := by
  refine parallel.blanks (inStep_failAt _ rfl) fun b r r' parallel => ?_
  refine inStep_ite (fun found => ?_) fun _ => inStep_failAt _ parallel.length
  exact inStep_ok trivial (parallel.tail (by rw [found]; decide))

theorem nextItem_inStep (parallel : Parallel bs bs') : InStep Eq (nextItem bs) (nextItem bs') := by
  refine parallel.blanks (inStep_failAt _ rfl) fun b r r' parallel => ?_
  refine inStep_ite (fun ends => ?_) fun _ => inStep_ite (fun comma => ?_) fun _ => inStep_failAt _ parallel.length
  · exact inStep_ok rfl (parallel.tail (by rw [ends]; decide))
  · refine (parallel.tail (by rw [comma]; decide)).blanks (inStep_failAt _ rfl) fun c t t' parallel => ?_
    exact inStep_ite (fun _ => inStep_failAt _ parallel.length) fun _ => inStep_ok rfl parallel

/-- Where the next member begins, its key is a string in both texts. -/
theorem nextMember_related (parallel : Parallel bs bs') : Except.Related (fun p q => p.1 = q.1 ∧
    Parallel (if p.1 then quoteByte :: p.2 else p.2) (if q.1 then quoteByte :: q.2 else q.2))
      (nextMember bs) (nextMember bs') := by
  have fails : ∀ d {r r' : Bytes}, r.length = r'.length → Except.Related (fun p q : Bool × Bytes => p.1 = q.1 ∧
      Parallel (if p.1 then quoteByte :: p.2 else p.2) (if q.1 then quoteByte :: q.2 else q.2))
        (failAt d r) (failAt d r') := by
    intro d r r' length
    unfold failAt
    rw [length]
    exact .error _
  refine parallel.blanks (fails _ rfl) fun b r r' parallel => ?_
  by_cases ends : b = 0x7D
  · rw [if_pos ends, if_pos ends]
    exact .ok ⟨rfl, parallel.tail (by rw [ends]; decide)⟩
  rw [if_neg ends, if_neg ends]
  by_cases comma : b = 0x2C
  · rw [if_pos comma, if_pos comma]
    refine (parallel.tail (by rw [comma]; decide)).blanks (fails _ rfl) fun c t t' parallel => ?_
    by_cases quote : c = quoteByte
    · rw [if_pos quote, if_pos quote]
      exact .ok ⟨rfl, quote ▸ parallel⟩
    rw [if_neg quote, if_neg quote]
    split
    · exact fails _ parallel.length
    · exact fails _ parallel.length
  · rw [if_neg comma, if_neg comma]
    exact fails _ parallel.length

theorem descend_of_length (depth : Option Nat) (length : bs.length = bs'.length) :
    descend depth bs = descend depth bs' := by
  unfold descend failAt
  rw [length]

/-- Values, items and members are read in step, however deep they may nest. -/
theorem leaves_inStep (fuel : Nat) : ∀ depth : Option Nat,
    (∀ {bs bs'}, Parallel bs bs' → InStep Unasked (valueLeaves.value fuel depth bs) (valueLeaves.value fuel depth bs')) ∧
    (∀ {bs bs'}, Parallel bs bs' → InStep Unasked (valueLeaves.items fuel depth bs) (valueLeaves.items fuel depth bs')) ∧
    ∀ {r r'}, Parallel (quoteByte :: r) (quoteByte :: r') →
      InStep Unasked (valueLeaves.members fuel depth r) (valueLeaves.members fuel depth r') := by
  -- All three at once, since each calls the others, and for every depth, since that goes down with each nesting.
  induction fuel with
  | zero =>
    exact fun depth => ⟨fun parallel => inStep_failAt _ parallel.length, fun parallel => inStep_failAt _ parallel.length,
      fun parallel => inStep_failAt _ parallel.length_tail⟩
  | succ fuel ih =>
    intro depth
    refine ⟨fun {bs bs'} parallel => ?_, fun {bs bs'} parallel => ?_, fun {r r'} parallel => ?_⟩
    · unfold Leaves.value
      refine parallel.blanks (inStep_failAt _ rfl) fun b r r' parallel => ?_
      have words : ∀ {t : Tree String Number} {cs : List Char}, b ≠ quoteByte → '"' ∉ cs →
          InStep Unasked (word cs r >>= fun p => pure (t, p.2)) (word cs r' >>= fun p => pure (t, p.2)) :=
        fun other unquoted => (word_inStep unquoted (parallel.tail other)).bind
          fun _ _ _ _ _ parallel => inStep_ok trivial parallel
      refine inStep_ite (fun n => words (by rw [n]; decide) (by decide)) fun _ => ?_
      refine inStep_ite (fun t => words (by rw [t]; decide) (by decide)) fun _ => ?_
      refine inStep_ite (fun f => words (by rw [f]; decide) (by decide)) fun _ => ?_
      refine inStep_ite (fun _ => ?_) fun _ => ?_
      · exact (numberLeaf_inStep parallel).bind fun _ _ _ _ _ parallel => inStep_ok trivial parallel
      refine inStep_ite (fun quote => ?_) fun _ => ?_
      · exact (textLeaf_inStep (quote ▸ parallel)).bind fun _ _ _ _ _ parallel => inStep_ok trivial parallel
      refine inStep_ite (fun list => ?_) fun _ => ?_
      · rw [descend_of_length depth parallel.length]
        refine Except.related_bind _ fun depth => ?_
        refine (parallel.tail (by rw [list]; decide)).blanks (inStep_failAt _ rfl) fun c t t' parallel => ?_
        refine inStep_ite (fun ends => inStep_ok trivial (parallel.tail (by rw [ends]; decide))) fun _ => ?_
        exact ((ih depth).2.1 parallel).bind fun _ _ _ _ _ parallel => inStep_ok trivial parallel
      refine inStep_ite (fun object => ?_) fun _ => inStep_failAt _ parallel.length
      rw [descend_of_length depth parallel.length]
      refine Except.related_bind _ fun depth => ?_
      refine (parallel.tail (by rw [object]; decide)).blanks (inStep_failAt _ rfl) fun c t t' parallel => ?_
      refine inStep_ite (fun ends => inStep_ok trivial (parallel.tail (by rw [ends]; decide))) fun _ => ?_
      refine inStep_ite (fun quote => ?_) fun _ => inStep_failAt _ parallel.length
      exact ((ih depth).2.2 (quote ▸ parallel)).bind fun _ _ _ _ _ parallel => inStep_ok trivial parallel
    · unfold Leaves.items
      refine ((ih depth).1 parallel).bind fun v v' r r' _ parallel => ?_
      refine (nextItem_inStep parallel).bind ?_
      rintro more _ r r' rfl parallel
      refine inStep_ite (fun _ => ?_) fun _ => inStep_ok trivial parallel
      exact ((ih depth).2.1 parallel).bind fun _ _ _ _ _ parallel => inStep_ok trivial parallel
    · unfold Leaves.members
      refine (textLeaf_inStep parallel).bind fun key key' r r' _ parallel => ?_
      refine (colon_inStep parallel).bind fun _ _ r r' _ parallel => ?_
      refine ((ih depth).1 parallel).bind fun v v' r r' _ parallel => ?_
      refine Except.Related.bind (nextMember_related parallel) ?_
      rintro ⟨more, r⟩ ⟨_, r'⟩ ⟨rfl, parallel⟩
      cases more with
      | true => exact ((ih depth).2.2 parallel).bind fun _ _ _ _ _ parallel => inStep_ok trivial parallel
      | false => exact inStep_ok trivial parallel

/-- Parallel texts are both documents, or both none for the same reason, noticed at the same place. -/
theorem read_parallel (parallel : Parallel bs bs') :
    Except.Related Unasked (Value.read? bs) (Value.read? bs') := by
  unfold Value.read? Leaves.read?
  rw [parallel.length]
  refine Except.Related.bind ((leaves_inStep _ _).1 parallel) ?_
  rintro ⟨v, r⟩ ⟨v', r'⟩ ⟨_, parallel⟩
  refine parallel.blanks (.ok trivial) fun b t t' parallel => ?_
  unfold failAt
  rw [parallel.length]
  exact .error _

end Values

end Json
end EngineClient
