import EngineClient.Proofs.Answer.Numerals
import EngineClient.Proofs.Text.Utf8

/-!
# Objects written out

Any way to write an object: keys and texts with any characters as escapes, blanks wherever they may stand. What is
written is read as the members it was written from, each text as it stands, and its escapes stand for the text.
-/

namespace EngineClient.Json

/-! ### Strings -/

/-- A way to write a character: as it stands, by a letter, by its number, or by the numbers of the two halves. -/
inductive SpellsChar (c : Char) : Bytes → Prop
  | plain (shown : 0x20 ≤ c.toNat) (quote : c ≠ '"') (escape : c ≠ '\\') : SpellsChar c (Text.encode [c])
  | letter (short : escapeLetter? b = some c) : SpellsChar c [escapeByte, b]
  | number (digits : hexQuad? ds = some c.toNat) : SpellsChar c (escapeByte :: 0x75 :: ds)
  | halves (first : hexQuad? ds = some m) (second : hexQuad? es = some n) (high : 0xD800 ≤ m ∧ m ≤ 0xDBFF)
      (low : 0xDC00 ≤ n ∧ n ≤ 0xDFFF) (whole : c.toNat = (m - 0xD800) * 0x400 + (n - 0xDC00) + 0x10000) :
    SpellsChar c (escapeByte :: 0x75 :: (ds ++ escapeByte :: 0x75 :: es))

inductive Spells : List Char → Bytes → Prop
  | nil : Spells [] []
  | cons (first : SpellsChar c piece) (rest : Spells cs raw) : Spells (c :: cs) (piece ++ raw)

def isPlainByte (b : UInt8) : Bool :=
  b != quoteByte && b != escapeByte && 0x20 ≤ b

theorem isPlainByte_of_encode {c : Char} (shown : 0x20 ≤ c.toNat) (quote : c ≠ '"') (escape : c ≠ '\\') :
    ∀ b ∈ Text.encode [c], isPlainByte b = true := by
  intro b member
  rw [Text.encode, List.flatMap_singleton] at member
  have apart : ∀ d : Char, c ≠ d → c.toNat ≠ d.toNat := fun d differs same => differs (Char.toNat_inj.mp same)
  have quote := apart _ quote
  have escape := apart _ escape
  simp only [isPlainByte, Bool.and_eq_true, bne_iff_ne, ne_eq, decide_eq_true_eq, UInt8.le_iff_toNat_le,
    ← UInt8.toNat_inj]
  have values : ('"' : Char).toNat = 0x22 ∧ ('\\' : Char).toNat = 0x5C ∧ quoteByte.toNat = 0x22 ∧
      escapeByte.toNat = 0x5C ∧ (0x20 : UInt8).toNat = 0x20 := by decide
  rcases Text.mem_utf8EncodeChar member with same | large
  · omega
  · omega

theorem length_of_hexQuad? (digits : hexQuad? ds = some n) : ds.length = 4 := by
  unfold hexQuad? at digits
  split at digits
  · rfl
  · cases digits

theorem hexEscape_quad (digits : hexQuad? ds = some n) (rest : Bytes) : hexEscape (ds ++ rest) = .ok (n, rest) := by
  have four := length_of_hexQuad? digits
  have taken : (ds ++ rest).take 4 = ds := by rw [← four, List.take_left]
  have left : (ds ++ rest).drop 4 = rest := by rw [← four, List.drop_left]
  rw [hexEscape, if_neg (by rw [List.length_append]; omega), taken, left, digits]

theorem clear_of_isPlainByte {b : UInt8} (plain : isPlainByte b = true) :
    b ≠ quoteByte ∧ b ≠ escapeByte ∧ ¬ b < 0x20 := by
  simp only [isPlainByte, Bool.and_eq_true, bne_iff_ne, ne_eq, decide_eq_true_eq, UInt8.le_iff_toNat_le] at plain
  rw [UInt8.lt_iff_toNat_lt]
  exact ⟨plain.1.1, plain.1.2, by omega⟩

theorem rawBytes_plain {bs : Bytes} (plain : ∀ b ∈ bs, isPlainByte b = true) (fuel : Nat) (done rest : Bytes) :
    rawBytes (bs.length + fuel) done (bs ++ rest) = rawBytes fuel (bs.reverse ++ done) rest := by
  induction bs generalizing done with
  | nil => simp
  | cons b bs ih =>
    obtain ⟨first, later⟩ := List.forall_mem_cons.mp plain
    obtain ⟨quote, escape, shown⟩ := clear_of_isPlainByte first
    have step : rawBytes (bs.length + fuel + 1) done (b :: (bs ++ rest)) =
        rawBytes (bs.length + fuel) (b :: done) (bs ++ rest) := by
      cases bs ++ rest <;> rw [rawBytes, if_neg quote, if_neg escape, if_neg shown]
    rw [List.length_cons, Nat.add_right_comm, List.cons_append, step, ih later, List.reverse_cons, List.append_assoc,
      List.singleton_append]

theorem stringBytes_plain {bs : Bytes} (plain : ∀ b ∈ bs, isPlainByte b = true) (fuel : Nat) (done rest : Bytes) :
    stringBytes (bs.length + fuel) done (bs ++ rest) = stringBytes fuel (bs.reverse ++ done) rest := by
  induction bs generalizing done with
  | nil => simp
  | cons b bs ih =>
    obtain ⟨first, later⟩ := List.forall_mem_cons.mp plain
    obtain ⟨quote, escape, shown⟩ := clear_of_isPlainByte first
    rw [List.length_cons, Nat.add_right_comm, List.cons_append, stringBytes, if_neg quote, if_neg escape, if_neg shown,
      ih later, List.reverse_cons, List.append_assoc, List.singleton_append]

theorem rawBytes_number (digits : hexQuad? ds = some n) (fuel : Nat) (done rest : Bytes) :
    rawBytes (fuel + 1) done (escapeByte :: 0x75 :: (ds ++ rest)) =
      rawBytes fuel ((escapeByte :: 0x75 :: ds).reverse ++ done) rest := by
  have quad := hexEscape_quad digits rest
  have taken : (ds ++ rest).take 4 = ds := by
    rw [← length_of_hexQuad? digits, List.take_left]
  rw [rawBytes, if_neg (by decide), if_pos rfl, if_pos rfl, quad]
  dsimp only [bind, Except.bind]
  rw [taken]
  simp

/-- How a character is written is passed over, and kept as it stands. -/
theorem rawBytes_piece (spells : SpellsChar c piece) (enough : piece.length ≤ fuel) (done rest : Bytes) :
    ∃ left, fuel ≤ left + piece.length ∧
      rawBytes fuel done (piece ++ rest) = rawBytes left (piece.reverse ++ done) rest := by
  cases spells with
  | plain shown quote escape =>
    refine ⟨fuel - (Text.encode [c]).length, by omega, ?_⟩
    have passed := rawBytes_plain (isPlainByte_of_encode shown quote escape)
      (fuel - (Text.encode [c]).length) done rest
    rwa [Nat.add_sub_cancel' enough] at passed
  | @letter b short =>
    obtain ⟨fuel, rfl⟩ : ∃ k, fuel = k + 1 := ⟨fuel - 1, by simp at enough; omega⟩
    refine ⟨fuel, by simp, ?_⟩
    have other : b ≠ 0x75 := by
      rintro rfl
      cases short
    show rawBytes (fuel + 1) done (escapeByte :: b :: rest) = _
    rw [rawBytes, if_neg (by decide), if_pos rfl, if_neg other, short]
    rfl
  | @number ds digits =>
    obtain ⟨fuel, rfl⟩ : ∃ k, fuel = k + 1 := ⟨fuel - 1, by simp at enough; omega⟩
    refine ⟨fuel, by simp, ?_⟩
    exact rawBytes_number digits fuel done rest
  | @halves ds m es n first second =>
    simp only [List.length_cons, List.length_append] at enough ⊢
    obtain ⟨fuel, rfl⟩ : ∃ k, fuel = k + 1 + 1 := ⟨fuel - 2, by omega⟩
    refine ⟨fuel, by omega, ?_⟩
    have parts : escapeByte :: 0x75 :: (ds ++ escapeByte :: 0x75 :: es) ++ rest =
        escapeByte :: 0x75 :: (ds ++ (escapeByte :: 0x75 :: (es ++ rest))) := by simp
    rw [parts, rawBytes_number first, rawBytes_number second]
    simp

theorem rawBytes_of_spells (spells : Spells cs raw) (enough : raw.length < fuel) (done rest : Bytes) :
    rawBytes fuel done (raw ++ quoteByte :: rest) = .ok (done.reverse ++ raw, rest) := by
  induction spells generalizing fuel done with
  | nil =>
    obtain ⟨fuel, rfl⟩ : ∃ k, fuel = k + 1 := ⟨fuel - 1, by simp at enough; omega⟩
    rw [List.nil_append, List.append_nil]
    cases rest <;> rw [rawBytes, if_pos rfl]
  | @cons c piece cs raw first _ ih =>
    rw [List.length_append] at enough
    have fits : piece.length ≤ fuel := by omega
    obtain ⟨left, fueled, passed⟩ := rawBytes_piece first fits done (raw ++ quoteByte :: rest)
    rw [List.append_assoc, passed, ih (by omega), List.reverse_append, List.reverse_reverse, List.append_assoc]

theorem escape_number {c : Char} (digits : hexQuad? ds = some c.toNat) (rest : Bytes) :
    escape (0x75 :: (ds ++ rest)) = .ok (c, rest) := by
  have valid : c.toNat < 0xD800 ∨ 0xDFFF < c.toNat ∧ c.toNat < 0x110000 := c.valid
  rw [escape, if_pos rfl, hexEscape_quad digits]
  dsimp only [bind, Except.bind]
  rw [if_neg (by simp; omega), if_neg (by simp; omega), Char.ofNat_toNat]
  rfl

theorem escape_halves {c : Char} (first : hexQuad? ds = some m) (second : hexQuad? es = some n)
    (high : 0xD800 ≤ m ∧ m ≤ 0xDBFF) (low : 0xDC00 ≤ n ∧ n ≤ 0xDFFF)
    (whole : c.toNat = (m - 0xD800) * 0x400 + (n - 0xDC00) + 0x10000) (rest : Bytes) :
    escape (0x75 :: (ds ++ (escapeByte :: 0x75 :: (es ++ rest)))) = .ok (c, rest) := by
  rw [escape, if_pos rfl, hexEscape_quad first]
  dsimp only [bind, Except.bind]
  rw [if_neg (by simp; omega), if_pos (by simp; omega), secondHalf, if_neg (by decide)]
  dsimp only
  rw [if_neg (by decide), hexEscape_quad second]
  dsimp only [bind, Except.bind]
  rw [if_neg (by simp; omega), ← whole, Char.ofNat_toNat]
  rfl

/-- A character is written by its own bytes, or by an escape that is read as it. -/
theorem SpellsChar.escapes (spells : SpellsChar c piece) :
    (piece = Text.encode [c] ∧ ∀ b ∈ piece, isPlainByte b = true) ∨
      ∃ bs, piece = escapeByte :: bs ∧ ∀ rest, escape (bs ++ rest) = .ok (c, rest) := by
  cases spells with
  | plain shown quote escape => exact .inl ⟨rfl, isPlainByte_of_encode shown quote escape⟩
  | @letter b short =>
    refine .inr ⟨[b], rfl, fun rest => ?_⟩
    have other : b ≠ 0x75 := by
      rintro rfl
      cases short
    rw [List.singleton_append, escape, if_neg other, short]
  | number digits => exact .inr ⟨_, rfl, escape_number digits⟩
  | halves first second high low whole =>
    refine .inr ⟨_, rfl, fun rest => ?_⟩
    rw [List.cons_append, List.append_assoc]
    exact escape_halves first second high low whole rest

theorem stringBytes_piece (spells : SpellsChar c piece) (enough : piece.length ≤ fuel) (done rest : Bytes) :
    ∃ left, fuel ≤ left + piece.length ∧
      stringBytes fuel done (piece ++ rest) = stringBytes left ((Text.encode [c]).reverse ++ done) rest := by
  rcases spells.escapes with ⟨rfl, plain⟩ | ⟨bs, rfl, read⟩
  · refine ⟨fuel - (Text.encode [c]).length, by omega, ?_⟩
    have passed := stringBytes_plain plain (fuel - (Text.encode [c]).length) done rest
    rwa [Nat.add_sub_cancel' enough] at passed
  · obtain ⟨fuel, rfl⟩ : ∃ k, fuel = k + 1 := ⟨fuel - 1, by simp at enough; omega⟩
    refine ⟨fuel, by simp, ?_⟩
    rw [List.cons_append, stringBytes, if_neg (by decide), if_pos rfl, read]
    rfl

theorem stringBytes_of_spells (spells : Spells cs raw) (enough : raw.length < fuel) (done rest : Bytes) :
    stringBytes fuel done (raw ++ quoteByte :: rest) = .ok (done.reverse ++ Text.encode cs, rest) := by
  induction spells generalizing fuel done with
  | nil =>
    obtain ⟨fuel, rfl⟩ : ∃ k, fuel = k + 1 := ⟨fuel - 1, by simp at enough; omega⟩
    rw [List.nil_append, stringBytes, if_pos rfl]
    simp [Text.encode]
  | @cons c piece cs raw first _ ih =>
    rw [List.length_append] at enough
    have fits : piece.length ≤ fuel := by omega
    obtain ⟨left, fueled, passed⟩ := stringBytes_piece first fits done (raw ++ quoteByte :: rest)
    have parts : Text.encode (c :: cs) = Text.encode [c] ++ Text.encode cs := by simp [Text.encode]
    rw [List.append_assoc, passed, ih (by omega), parts, List.reverse_append, List.reverse_reverse, List.append_assoc]

theorem rawLeaf_of_spells (spells : Spells cs raw) (rest : Bytes) :
    rawLeaf (raw ++ quoteByte :: rest) = .ok (raw, rest) := by
  rw [rawLeaf, rawBytes_of_spells spells (by rw [List.length_append]; omega)]
  rfl

theorem resolve?_of_spells {s : String} (spells : Spells s.toList raw) : resolve? raw = some s := by
  have enough : raw.length < (raw ++ [quoteByte]).length + 1 := by
    rw [List.length_append]
    omega
  have read := stringBytes_of_spells spells enough [] []
  rw [resolve?, textLeaf, read]
  simp [bind, Except.bind, pure, Except.pure, Text.string?, String.ofList_toList]

/-! ### A way to write any text -/

/-- The number of a character below 32 in four digits. -/
def controlQuad (n : Nat) : Bytes :=
  [0x30, 0x30, if n < 16 then 0x30 else 0x31, Text.byteOf (Text.hexDigit (n % 16))]

def escapeText (cs : List Char) : Bytes :=
  cs.flatMap fun c =>
    if c = '"' then [escapeByte, 0x22] else if c = '\\' then [escapeByte, 0x5C]
    else if c.toNat < 0x20 then escapeByte :: 0x75 :: controlQuad c.toNat else Text.encode [c]

theorem spells_escapeText (cs : List Char) : Spells cs (escapeText cs) := by
  have quads : ∀ n < 0x20, hexQuad? (controlQuad n) = some n := by decide
  induction cs with
  | nil => exact .nil
  | cons c cs ih =>
    refine .cons ?_ ih
    dsimp only
    split
    · subst c
      exact .letter rfl
    split
    · subst c
      exact .letter rfl
    split
    · exact .number (quads _ ‹_›)
    · exact .plain (by omega) ‹_› ‹_›

/-! ### Objects -/

def Blank (gap : Bytes) : Prop :=
  ∀ b ∈ gap, isBlankByte b = true

def Quoted (s : String) (bs : Bytes) : Prop :=
  ∃ raw, Spells s.toList raw ∧ bs = quoteByte :: (raw ++ [quoteByte])

/-- A member, from after the opening quote of its key: its name and how its value is written are given. -/
def Member (m : String × (Bytes → Prop)) (bs : Bytes) : Prop :=
  ∃ key gap gap' value, Spells m.1.toList key ∧ Blank gap ∧ Blank gap' ∧ m.2 value ∧
    bs = key ++ quoteByte :: (gap ++ 0x3A :: (gap' ++ value))

def Members : List (String × (Bytes → Prop)) → Bytes → Prop
  | [], _ => False
  | [m], bs => ∃ front gap, Member m front ∧ Blank gap ∧ bs = front ++ (gap ++ [0x7D])
  | m :: ms, bs => ∃ front gap gap' rest, Member m front ∧ Blank gap ∧ Blank gap' ∧ Members ms rest ∧
      bs = front ++ (gap ++ 0x2C :: (gap' ++ quoteByte :: rest))

def Object : List (String × (Bytes → Prop)) → Bytes → Prop
  | [], bs => ∃ gap, Blank gap ∧ bs = 0x7B :: (gap ++ [0x7D])
  | m :: ms, bs => ∃ gap rest, Blank gap ∧ Members (m :: ms) rest ∧ bs = 0x7B :: (gap ++ quoteByte :: rest)

def plainMembers : List (String × Bytes) → Bytes
  | [] => [0x7D]
  | [m] => escapeText m.1.toList ++ quoteByte :: 0x3A :: (m.2 ++ [0x7D])
  | m :: ms => escapeText m.1.toList ++ quoteByte :: 0x3A :: (m.2 ++ 0x2C :: quoteByte :: plainMembers ms)

def plainObject : List (String × Bytes) → Bytes
  | [] => [0x7B, 0x7D]
  | m :: ms => 0x7B :: quoteByte :: plainMembers (m :: ms)

theorem blank_nil : Blank [] :=
  fun _ member => absurd member List.not_mem_nil

def plainText (s : String) : Bytes :=
  quoteByte :: (escapeText s.toList ++ [quoteByte])

theorem quoted_plain (s : String) : Quoted s (plainText s) :=
  ⟨_, spells_escapeText _, rfl⟩

def Fits (m : String × (Bytes → Prop)) (t : String × Bytes) : Prop :=
  m.1 = t.1 ∧ m.2 t.2

theorem Fits.member (fits : Fits m t) : Member m (escapeText t.1.toList ++ quoteByte :: 0x3A :: t.2) := by
  obtain ⟨same, holds⟩ := fits
  refine ⟨_, [], [], t.2, ?_, blank_nil, blank_nil, holds, rfl⟩
  rw [same]
  exact spells_escapeText _

theorem members_plain (fits : List.Forall₂ Fits (m :: ms) (t :: ts)) :
    Members (m :: ms) (plainMembers (t :: ts)) := by
  induction ms generalizing m t ts with
  | nil =>
    cases fits with
    | cons first rest =>
      cases rest
      exact ⟨_, [], first.member, blank_nil, by simp [plainMembers]⟩
  | cons next ms ih =>
    cases fits with
    | cons first rest =>
      cases ts with
      | nil => cases rest
      | cons t' ts => exact ⟨_, [], [], _, first.member, blank_nil, blank_nil, ih rest, by simp [plainMembers]⟩

theorem object_plain (fits : List.Forall₂ Fits ms ts) : Object ms (plainObject ts) := by
  cases fits with
  | nil => exact ⟨[], blank_nil, rfl⟩
  | cons first rest => exact ⟨[], _, blank_nil, members_plain (.cons first rest), rfl⟩

/-- Bytes are read as a value, whatever stands behind them. -/
def Reads (v : Outline) (bs : Bytes) : Prop :=
  ∀ fuel rest, bs.length ≤ fuel → outlineLeaves.value (fuel + 1) none (bs ++ rest) = .ok (v, rest)

section Reading
variable {π : Type} {gap : Bytes} {meaning : Bytes × Outline → π}

/-- Whatever way the name of a member is written, its value is read as one that means what is told of it. -/
def Means (meaning : Bytes × Outline → π) (m : String × (Bytes → Prop)) (told : π) : Prop :=
  ∀ key bs, resolve? key = some m.1 → m.2 bs → ∃ v, Reads v bs ∧ meaning (key, v) = told

theorem Blank.skip (blank : Blank gap) (rest : Bytes) : skipBlanks (gap ++ rest) = skipBlanks rest :=
  List.dropWhile_append_of_pos blank

theorem skipBlanks_cons (shown : isBlankByte b = false) (rest : Bytes) : skipBlanks (b :: rest) = b :: rest :=
  List.dropWhile_cons_of_neg (by simp [shown])

theorem value_quote (fuel : Nat) (r : Bytes) : outlineLeaves.value (fuel + 1) none (quoteByte :: r) =
    rawLeaf r >>= fun p => .ok (.string p.1, p.2) :=
  rfl

theorem value_brace (fuel : Nat) (r : Bytes) : outlineLeaves.value (fuel + 1) none (0x7B :: r) =
    match skipBlanks r with
    | [] => failAt .endInObject []
    | c :: r =>
      if c = 0x7D then .ok (.object [], r)
      else if c = quoteByte then outlineLeaves.members fuel none r >>= fun p => .ok (.object p.1, p.2)
      else failAt .keyNotString (c :: r) :=
  rfl

theorem value_skip (blank : Blank gap) (fuel : Nat) (rest : Bytes) :
    outlineLeaves.value (fuel + 1) none (gap ++ rest) = outlineLeaves.value (fuel + 1) none rest := by
  simp only [Leaves.value, blank.skip]

theorem reads_quoted (spells : Spells cs raw) : Reads (.string raw) (quoteByte :: (raw ++ [quoteByte])) := by
  intro fuel rest _
  rw [List.cons_append, List.append_assoc, List.singleton_append, value_quote, rawLeaf_of_spells spells]
  rfl

theorem colon_gap (blank : Blank gap) (rest : Bytes) : colon (gap ++ 0x3A :: rest) = .ok ((), rest) := by
  rw [colon, blank.skip, skipBlanks_cons (by decide)]
  rfl

theorem nextMember_end (blank : Blank gap) (rest : Bytes) : nextMember (gap ++ 0x7D :: rest) = .ok (false, rest) := by
  rw [nextMember, blank.skip, skipBlanks_cons (by decide)]
  rfl

theorem nextMember_comma (blank : Blank gap) (blank' : Blank gap') (rest : Bytes) :
    nextMember (gap ++ 0x2C :: (gap' ++ quoteByte :: rest)) = .ok (true, rest) := by
  rw [nextMember, blank.skip, skipBlanks_cons (by decide)]
  dsimp only
  rw [if_neg (by decide), if_pos rfl, blank'.skip, skipBlanks_cons (by decide)]
  rfl

theorem Member.step (member : Member m front) (means : Means meaning m told) : ∃ kv, meaning kv = told ∧
    ∀ fuel tail, front.length ≤ fuel + 2 → outlineLeaves.members (fuel + 2) none (front ++ tail) =
      nextMember tail >>= fun p =>
        if p.1 then outlineLeaves.members (fuel + 1) none p.2 >>= fun q => .ok (kv :: q.1, q.2)
        else .ok ([kv], p.2) := by
  obtain ⟨key, gap, gap', bs, spells, blank, blank', holds, rfl⟩ := member
  obtain ⟨v, reads, same⟩ := means key bs (resolve?_of_spells spells) holds
  refine ⟨(key, v), same, fun fuel tail enough => ?_⟩
  have fits : bs.length ≤ fuel := by
    simp only [List.length_append, List.length_cons] at enough
    omega
  have step : ∀ r, outlineLeaves.members (fuel + 2) none r = rawLeaf r >>= fun k => colon k.2 >>= fun c =>
      outlineLeaves.value (fuel + 1) none c.2 >>= fun x => nextMember x.2 >>= fun p =>
        if p.1 then outlineLeaves.members (fuel + 1) none p.2 >>= fun q => .ok ((k.1, x.1) :: q.1, q.2)
        else .ok ([(k.1, x.1)], p.2) := fun r => rfl
  have parts : key ++ quoteByte :: (gap ++ 0x3A :: (gap' ++ bs)) ++ tail =
      key ++ quoteByte :: (gap ++ 0x3A :: (gap' ++ (bs ++ tail))) := by simp
  rw [parts, step, rawLeaf_of_spells spells]
  dsimp only [bind, Except.bind]
  rw [colon_gap blank]
  dsimp only
  rw [value_skip blank', reads fuel tail fits]

theorem Members.cons_inv (written : Members (m :: ms) bs) : ∃ front gap, Member m front ∧ Blank gap ∧
    ((ms = [] ∧ bs = front ++ (gap ++ [0x7D])) ∨ ∃ gap' rest, Blank gap' ∧ Members ms rest ∧
      bs = front ++ (gap ++ 0x2C :: (gap' ++ quoteByte :: rest))) := by
  cases ms with
  | nil =>
    obtain ⟨front, gap, member, blank, rfl⟩ := written
    exact ⟨front, gap, member, blank, .inl ⟨rfl, rfl⟩⟩
  | cons next ms =>
    obtain ⟨front, gap, gap', rest, member, blank, blank', others, rfl⟩ := written
    exact ⟨front, gap, member, blank, .inr ⟨gap', rest, blank', others, rfl⟩⟩

theorem Member.length_le (member : Member m front) : 2 ≤ front.length := by
  obtain ⟨key, gap, gap', bs, -, -, -, -, rfl⟩ := member
  simp only [List.length_append, List.length_cons]
  omega

/-- Members are read one by one as they were written. -/
theorem reads_members (written : Members ms bs) {told : List π}
    (means : List.Forall₂ (Means meaning) ms told) :
    ∃ vs, vs.map meaning = told ∧
      ∀ fuel rest, bs.length ≤ fuel → outlineLeaves.members fuel none (bs ++ rest) = .ok (vs, rest) := by
  -- A member takes two bytes at least, so that the fuel for its bytes is enough for a step on it and one on its value.
  induction means generalizing bs with
  | nil => exact written.elim
  | cons first others ih =>
    obtain ⟨front, gap, member, blank, ends⟩ := written.cons_inv
    obtain ⟨kv, same, step⟩ := member.step first
    have long := member.length_le
    rcases ends with ⟨rfl, rfl⟩ | ⟨gap', rest, blank', later, rfl⟩
    · cases others
      refine ⟨[kv], congrArg (· :: []) same, fun fuel tail enough => ?_⟩
      simp only [List.length_append, List.length_cons] at enough
      obtain ⟨fuel, rfl⟩ : ∃ k, fuel = k + 2 := ⟨fuel - 2, by omega⟩
      have parts : front ++ (gap ++ [0x7D]) ++ tail = front ++ (gap ++ 0x7D :: tail) := by simp
      rw [parts, step _ _ (by omega), nextMember_end blank]
      rfl
    · obtain ⟨vs, alike, reads⟩ := ih later
      refine ⟨kv :: vs, congrArg₂ List.cons same alike, fun fuel tail enough => ?_⟩
      simp only [List.length_append, List.length_cons] at enough
      obtain ⟨fuel, rfl⟩ : ∃ k, fuel = k + 2 := ⟨fuel - 2, by omega⟩
      have parts : front ++ (gap ++ 0x2C :: (gap' ++ quoteByte :: rest)) ++ tail =
          front ++ (gap ++ 0x2C :: (gap' ++ quoteByte :: (rest ++ tail))) := by simp
      rw [parts, step _ _ (by omega), nextMember_comma blank blank']
      dsimp only [bind, Except.bind]
      rw [if_pos rfl, reads _ _ (by omega)]

theorem Object.reads (written : Object ms bs) {told : List π}
    (means : List.Forall₂ (Means meaning) ms told) :
    ∃ vs, vs.map meaning = told ∧ Reads (.object vs) bs := by
  cases ms with
  | nil =>
    cases means
    obtain ⟨gap, blank, rfl⟩ := written
    refine ⟨[], rfl, fun fuel rest _ => ?_⟩
    rw [List.cons_append, List.append_assoc, value_brace, blank.skip, List.singleton_append,
      skipBlanks_cons (by decide)]
    rfl
  | cons m ms =>
    obtain ⟨gap, inside, blank, members, rfl⟩ := written
    obtain ⟨vs, alike, reads⟩ := reads_members members means
    refine ⟨vs, alike, fun fuel rest enough => ?_⟩
    have parts : 0x7B :: (gap ++ quoteByte :: inside) ++ rest = 0x7B :: (gap ++ quoteByte :: (inside ++ rest)) := by simp
    have fits : inside.length ≤ fuel := by
      simp only [List.length_append, List.length_cons] at enough
      omega
    rw [parts, value_brace, blank.skip, skipBlanks_cons (by decide)]
    dsimp only
    rw [if_neg (by decide), if_pos rfl, reads fuel rest fits]
    rfl

/-- A document is read as the value it was written from, whatever blanks stand around it. -/
theorem read?_of_reads (reads : Reads v bs) (blank : Blank gap) (blank' : Blank gap') :
    Outline.read? (gap ++ (bs ++ gap')) = .ok v := by
  refine Leaves.read?_eq_ok_iff.mpr ⟨gap', ?_, List.dropWhile_eq_nil_iff.mpr blank'⟩
  have fits : bs.length ≤ 2 * (gap ++ (bs ++ gap')).length := by
    simp only [List.length_append]
    omega
  exact (value_skip blank _ _).trans (reads _ gap' fits)

end Reading

end EngineClient.Json
