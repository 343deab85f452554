import EngineClient.Proofs.Reach.Segments
import EngineClient.Proofs.Report.Envelope
import Mathlib.Data.List.TakeWhile

/-!
# Reports written as markup

Any way to write a report as elements: a root of any name, the texts with any characters as entities, blanks between
the tags. What is written is cut into the tags and the texts it was written as, and the events of these are those of
the elements.
-/

namespace EngineClient.Xml

/-! ### Texts -/

/-- A way to write a character: as it stands, or by an entity. -/
inductive SpellsChar (c : Char) : List Char → Prop
  | plain (angle : c ≠ '<') (ampersand : c ≠ '&') : SpellsChar c [c]
  | entity (named : entity? name = some c) : SpellsChar c ('&' :: (name ++ [';']))

inductive Spells : List Char → List Char → Prop
  | nil : Spells [] []
  | cons (first : SpellsChar c piece) (rest : Spells cs raw) : Spells (c :: cs) (piece ++ raw)

/-- The text is not empty, and no blank stands at its front or its end. -/
structure Tidy (cs : List Char) : Prop where
  front : ∃ c, cs.head? = some c ∧ isSpace c = false
  back : ∃ c, cs.getLast? = some c ∧ isSpace c = false

def entityFor? (c : Char) : Option (List Char) :=
  if c = '<' then some "lt".toList else if c = '>' then some "gt".toList else if c = '&' then some "amp".toList else none

def escape (cs : List Char) : List Char :=
  cs.flatMap fun c => (entityFor? c).elim [c] fun name => '&' :: (name ++ [';'])

theorem spells_escape (cs : List Char) : Spells cs (escape cs) := by
  induction cs with
  | nil => exact .nil
  | cons c cs ih =>
    refine .cons ?_ ih
    dsimp only [entityFor?]
    split
    · subst c
      exact .entity (by decide)
    split
    · subst c
      exact .entity (by decide)
    split
    · subst c
      exact .entity (by decide)
    · exact .plain ‹_› ‹_›

/-- A character that cannot be mistaken for the end of an entity or for markup. -/
def isPlain (c : Char) : Bool :=
  c != ';' && c != '&' && c != '<'

theorem isPlain_of_isHexDigit (digit : Text.isHexDigit c = true) : isPlain c = true := by
  by_contra other
  simp only [isPlain, Bool.and_eq_true, bne_iff_ne, ne_eq, not_and_or, not_not] at other
  rcases other with (rfl | rfl) | rfl <;> exact absurd digit (by decide)

theorem isPlain_of_entity? (named : entity? name = some c) : ∀ x ∈ name, isPlain x = true := by
  have hex : ∀ ds : List Char, ds.all Text.isHexDigit = true → ∀ x ∈ ds, isPlain x = true :=
    fun ds digits x member => isPlain_of_isHexDigit (List.all_eq_true.mp digits x member)
  unfold entity? at named
  split at named
  · split at named
    · rename_i ds digits
      simp only [Bool.and_eq_true] at digits
      simpa using ⟨by decide, by decide, hex ds digits.2⟩
    · cases named
  · split at named
    · rename_i ds _ digits
      simp only [Bool.and_eq_true] at digits
      have wide : ds.all Text.isHexDigit = true := by
        refine List.all_eq_true.mpr fun x member => ?_
        simp [Text.isHexDigit, List.all_eq_true.mp digits.2 x member]
      simpa using ⟨by decide, hex ds wide⟩
    · cases named
  · have known : name ∈ ["lt".toList, "gt".toList, "amp".toList, "apos".toList, "quot".toList] := by
      split_ifs at named <;> simp_all
    have all : (["lt".toList, "gt".toList, "amp".toList, "apos".toList, "quot".toList].all (·.all isPlain)) = true := by
      decide
    exact List.all_eq_true.mp (List.all_eq_true.mp all name known)

theorem resolveFrom_name (plain : ∀ x ∈ name, isPlain x = true) (read raw : List Char) :
    resolveFrom (some read) (name ++ raw) = resolveFrom (some (name.reverse ++ read)) raw := by
  induction name generalizing read with
  | nil => rfl
  | cons c name ih =>
    obtain ⟨first, rest⟩ := List.forall_mem_cons.mp plain
    simp only [isPlain, Bool.and_eq_true, bne_iff_ne] at first
    rw [List.cons_append, resolveFrom, ih rest, List.reverse_cons, List.append_assoc, List.singleton_append]
    · exact first.1.1
    · exact first.1.2

theorem resolveFrom_piece (spells : SpellsChar c piece) (raw : List Char) :
    resolveFrom none (piece ++ raw) = (resolveFrom none raw).map (c :: ·) := by
  cases spells with
  | plain angle ampersand =>
    rw [List.singleton_append, resolveFrom]
    exact ampersand
  | @entity name named =>
    rw [List.cons_append, List.append_assoc, resolveFrom, resolveFrom_name (isPlain_of_entity? named),
      List.append_nil, List.singleton_append, resolveFrom, List.reverse_reverse, named]
    cases resolveFrom none raw <;> rfl

theorem resolve?_of_spells (spells : Spells cs raw) : resolve? raw = some cs := by
  induction spells with
  | nil => rfl
  | cons first _ ih =>
    rw [resolve?] at ih ⊢
    rw [resolveFrom_piece first, ih]
    rfl

theorem SpellsChar.angle (spells : SpellsChar c piece) : '<' ∉ piece := by
  cases spells with
  | plain angle _ => simpa using Ne.symm angle
  | entity named =>
    intro member
    simp only [List.mem_cons, List.mem_append, List.not_mem_nil, or_false] at member
    rcases member with same | inside | same
    · exact absurd same (by decide)
    · exact absurd (isPlain_of_entity? named _ inside) (by decide)
    · exact absurd same (by decide)

theorem Spells.angle (spells : Spells cs raw) : '<' ∉ raw := by
  induction spells with
  | nil => exact List.not_mem_nil
  | cons first _ ih =>
    rw [List.mem_append, not_or]
    exact ⟨first.angle, ih⟩

/-- How a character is written begins and ends with a blank only if the character is one. -/
theorem SpellsChar.ends (spells : SpellsChar c piece) (shown : isSpace c = false) :
    (∃ x r, piece = x :: r ∧ isSpace x = false) ∧ ∃ x r, piece = r ++ [x] ∧ isSpace x = false := by
  cases spells with
  | plain => exact ⟨⟨c, [], rfl, shown⟩, c, [], rfl, shown⟩
  | @entity name named => exact ⟨⟨'&', _, rfl, by decide⟩, ';', '&' :: name, rfl, by decide⟩

theorem Spells.front (spells : Spells cs raw) (tidy : Tidy cs) : ∃ x r, raw = x :: r ∧ isSpace x = false := by
  obtain ⟨⟨c, head, shown⟩, _⟩ := tidy
  cases spells with
  | nil => cases head
  | cons first rest =>
    cases head
    obtain ⟨⟨x, r, rfl, clear⟩, _⟩ := first.ends shown
    exact ⟨x, _, rfl, clear⟩

theorem Spells.back (spells : Spells cs raw) (last : cs.getLast? = some c) (shown : isSpace c = false) :
    ∃ x r, raw = r ++ [x] ∧ isSpace x = false := by
  induction spells with
  | nil => cases last
  | @cons c' piece cs raw first rest ih =>
    cases cs with
    | nil =>
      cases rest
      cases last
      obtain ⟨_, x, r, rfl, clear⟩ := first.ends shown
      exact ⟨x, r, List.append_nil _, clear⟩
    | cons next cs =>
      obtain ⟨x, r, rfl, clear⟩ := ih (by rwa [List.getLast?_cons_cons] at last)
      exact ⟨x, piece ++ r, (List.append_assoc _ _ _).symm, clear⟩

theorem trim_of_spells (spells : Spells cs raw) (tidy : Tidy cs) :
    raw.isEmpty = false ∧ Text.trimStart isSpace raw = raw ∧ Text.trimEnd isSpace raw = raw := by
  obtain ⟨x, r, front, clear⟩ := spells.front tidy
  obtain ⟨c, last, shown⟩ := tidy.back
  obtain ⟨y, s, back, clear'⟩ := spells.back last shown
  refine ⟨by rw [front]; rfl, ?_, ?_⟩
  · rw [front, Text.trimStart, List.dropWhile_cons, if_neg (by simp [clear])]
  · refine Text.trimEnd_of_last fun z last => ?_
    rw [back, List.getLast?_append, List.getLast?_singleton] at last
    cases last
    exact clear'

/-! ### Tags -/

inductive Tag
  | opening (name : List Char)
  | closing (name : List Char)

/-- What stands before a tag, and the tag. -/
abbrev Stretch := List Char × Tag

namespace Tag

def name : Tag → List Char
  | opening name | closing name => name

def chars : Tag → List Char
  | opening name => name ++ ['>']
  | closing name => '/' :: (name ++ ['>'])

def token : Tag → Token
  | opening name => .opening name []
  | closing name => .closing name

def event : Tag → Event
  | opening name => .opening name []
  | closing name => .closing name

end Tag

/-- A character that does not end a name in a tag. -/
def isNameChar (c : Char) : Bool :=
  !isSpace c && !"<>/\"'".toList.contains c

/-- A name that can stand in a tag, without anything after it. -/
def isName (name : List Char) : Bool :=
  name.all isNameChar && name.head?.any fun c => c != '!' && c != '?'

def written (ss : List Stretch) : List Char :=
  ss.flatMap fun s => s.1 ++ '<' :: s.2.chars

def tokensOf (ss : List Stretch) : List Token :=
  ss.flatMap fun s => (if s.1.isEmpty then [] else [.text s.1]) ++ [s.2.token]

def textEvents (text : List Char) : List Event :=
  let text := Text.trimStart isSpace text
  if text.isEmpty then [] else [.text (resolve? (Text.trimEnd isSpace text))]

def eventsOf (ss : List Stretch) : List Event :=
  ss.flatMap fun s => textEvents s.1 ++ [s.2.event]

/-- A tag has a name, and no markup stands before it. -/
def Clean (s : Stretch) : Prop :=
  '<' ∉ s.1 ∧ isName s.2.name = true

section Cutting
variable {name : List Char}

theorem isSpace_of_isNameChar (plain : isNameChar c = true) : isSpace c = false := by
  simp only [isNameChar, Bool.and_eq_true, Bool.not_eq_true'] at plain
  exact plain.1

theorem ne_of_isNameChar (plain : isNameChar c = true) : c ≠ '>' ∧ c ≠ '/' ∧ c ≠ '"' ∧ c ≠ '\'' := by
  refine ⟨?_, ?_, ?_, ?_⟩ <;> rintro rfl <;> exact absurd plain (by decide)

theorem upToTagEnd_name (named : name.all isNameChar = true) (rest : List Char) :
    upToTagEnd none (name ++ '>' :: rest) = some (name, rest) := by
  induction name with
  | nil => rfl
  | cons c name ih =>
    rw [List.all_cons, Bool.and_eq_true] at named
    simp [upToTagEnd, ne_of_isNameChar named.1, ih named.2]

theorem upToAngle_name (named : name.all isNameChar = true) (rest : List Char) :
    upToAngle (name ++ '>' :: rest) = (name, rest) := by
  have clear : ∀ c ∈ name, (c != '>') = true := by
    intro c member
    exact bne_iff_ne.mpr (ne_of_isNameChar (List.all_eq_true.mp named c member)).1
  rw [upToAngle, List.takeWhile_append_of_pos clear, List.dropWhile_append_of_pos clear]
  simp

theorem takeWhile_name (named : name.all isNameChar = true) : name.takeWhile (!isSpace ·) = name := by
  refine List.takeWhile_eq_self_iff.mpr fun c member => ?_
  rw [isSpace_of_isNameChar (List.all_eq_true.mp named c member)]
  rfl

theorem trimEnd_name (named : name.all isNameChar = true) : Text.trimEnd isSpace name = name :=
  Text.trimEnd_of_last fun c last => isSpace_of_isNameChar (List.all_eq_true.mp named c (List.mem_of_getLast? last))

theorem getLast?_name (named : name.all isNameChar = true) : name.getLast? ≠ some '/' := by
  intro last
  exact (ne_of_isNameChar (List.all_eq_true.mp named _ (List.mem_of_getLast? last))).2.1 rfl

theorem cutOpening_name (named : name.all isNameChar = true) (rest : List Char) :
    cutOpening (name ++ '>' :: rest) = ([.opening name []], rest) := by
  rw [cutOpening, upToTagEnd_name named]
  dsimp only
  rw [if_neg (getLast?_name named), takeWhile_name named, List.drop_length]

theorem cutMarkup_opening (named : isName name = true) (rest : List Char) :
    cutMarkup (name ++ '>' :: rest) = ([.opening name []], rest) := by
  rw [isName, Bool.and_eq_true] at named
  obtain ⟨named, begins⟩ := named
  -- The first character of the name tells the tag from all other markup.
  rw [← cutOpening_name named]
  cases name with
  | nil => cases begins
  | cons c name =>
    have other := (ne_of_isNameChar (List.all_eq_true.mp named c List.mem_cons_self)).2.1
    simp only [List.head?_cons, Option.any_some, Bool.and_eq_true, bne_iff_ne] at begins
    unfold cutMarkup
    split <;> simp_all

theorem cutMarkup_closing (named : isName name = true) (rest : List Char) :
    cutMarkup ('/' :: (name ++ '>' :: rest)) = ([.closing name], rest) := by
  rw [isName, Bool.and_eq_true] at named
  rw [cutMarkup, cutClosing, upToAngle_name named.1]
  dsimp only
  rw [trimEnd_name named.1, ite_self]

theorem cutMarkup_tag {tag : Tag} (named : isName tag.name = true) (rest : List Char) :
    cutMarkup (tag.chars ++ rest) = ([tag.token], rest) := by
  cases tag with
  | opening name =>
    rw [Tag.chars, List.append_assoc]
    exact cutMarkup_opening named rest
  | closing name =>
    rw [Tag.chars, List.cons_append, List.append_assoc]
    exact cutMarkup_closing named rest

end Cutting

theorem cutAll_written {ss : List Stretch} (clean : ∀ s ∈ ss, Clean s) (fuel : Nat) (rest : List Char) :
    cutAll (ss.length + fuel) (written ss ++ rest) = tokensOf ss ++ cutAll fuel rest := by
  induction ss with
  | nil => simp [written, tokensOf]
  | cons s ss ih =>
    obtain ⟨⟨apart, named⟩, later⟩ := List.forall_mem_cons.mp clean
    have front : ∀ c ∈ s.1, (c != '<') = true := by
      intro c member
      rw [bne_iff_ne]
      rintro rfl
      exact apart member
    have parts : written (s :: ss) ++ rest = s.1 ++ '<' :: (s.2.chars ++ (written ss ++ rest)) := by
      simp [written]
    have text : (s.1 ++ '<' :: (s.2.chars ++ (written ss ++ rest))).takeWhile (· != '<') = s.1 := by
      rw [List.takeWhile_append_of_pos front]
      simp
    have tokens : tokensOf (s :: ss) = (if s.1.isEmpty then [] else [.text s.1]) ++ [s.2.token] ++ tokensOf ss := by
      simp [tokensOf]
    rw [parts, List.length_cons, Nat.add_right_comm, cutAll]
    dsimp only
    rw [text, List.drop_left]
    dsimp only
    rw [cutMarkup_tag named, ih later, tokens]
    simp only [List.append_assoc]

theorem cutAll_text (apart : '<' ∉ text) (fuel : Nat) :
    cutAll (fuel + 1) text = if text.isEmpty then [] else [.text text] := by
  have whole : text.takeWhile (· != '<') = text := by
    refine List.takeWhile_eq_self_iff.mpr fun c member => ?_
    rw [bne_iff_ne]
    rintro rfl
    exact apart member
  rw [cutAll]
  dsimp only
  rw [whole, List.drop_length]

theorem length_le_written (ss : List Stretch) : ss.length ≤ (written ss).length := by
  induction ss with
  | nil => exact Nat.zero_le _
  | cons s ss ih =>
    have parts : written (s :: ss) = s.1 ++ '<' :: s.2.chars ++ written ss := by simp [written]
    rw [parts]
    simp only [List.length_append, List.length_cons]
    omega

/-! ### Events -/

/-- Every closing tag answers the last open one. -/
def Balanced (ss : List Stretch) : Prop :=
  ∀ stack ts, matched stack (tokensOf ss ++ ts) = tokensOf ss ++ matched stack ts

theorem eventsFrom_written (ss : List Stretch) (ts : List Token) :
    eventsFrom [] (tokensOf ss ++ ts) = eventsOf ss ++ eventsFrom [] ts := by
  induction ss with
  | nil => rfl
  | cons s ss ih =>
    obtain ⟨text, tag⟩ := s
    have tagged : ∀ pieces, eventsFrom pieces (tag.token :: (tokensOf ss ++ ts)) =
        flush pieces ++ tag.event :: eventsFrom [] (tokensOf ss ++ ts) := by
      intro pieces
      cases tag <;> rfl
    have events : eventsOf ((text, tag) :: ss) = textEvents text ++ tag.event :: eventsOf ss := by
      simp [eventsOf]
    have tokens : tokensOf ((text, tag) :: ss) ++ ts =
        (if text.isEmpty then [] else [.text text]) ++ tag.token :: (tokensOf ss ++ ts) := by
      simp [tokensOf]
    rw [events, tokens, List.append_assoc, List.cons_append, ← ih]
    cases text with
    | nil => exact tagged []
    | cons c text =>
      rw [List.isEmpty_cons, if_neg (by simp), List.singleton_append, eventsFrom, textEvents]
      simp only [List.isEmpty_nil, if_true, Bool.true_and]
      by_cases blank : (Text.trimStart isSpace (c :: text)).isEmpty = true
      · rw [if_pos blank, if_pos blank]
        exact tagged []
      · rw [if_neg blank, if_neg blank, tagged]
        rfl

theorem balanced_append (first : Balanced ss) (second : Balanced ss') : Balanced (ss ++ ss') := by
  intro stack ts
  have tokens : tokensOf (ss ++ ss') = tokensOf ss ++ tokensOf ss' := List.flatMap_append
  rw [tokens, List.append_assoc, first, second, List.append_assoc]

/-- An element with what stands before its opening tag and before its closing one. -/
def wrap (name front : List Char) (inside : List Stretch) (back : List Char) : List Stretch :=
  (front, .opening name) :: (inside ++ [(back, .closing name)])

theorem matched_text (stack : List (List Char)) (text : List Char) (ts : List Token) :
    matched stack ((if text.isEmpty then [] else [.text text]) ++ ts) =
      (if text.isEmpty then [] else [.text text]) ++ matched stack ts := by
  split
  · rfl
  · rfl

theorem balanced_wrap (inside : Balanced ss) (name front back : List Char) : Balanced (wrap name front ss back) := by
  intro stack ts
  have tokens : ∀ ts, tokensOf (wrap name front ss back) ++ ts =
      (if front.isEmpty then [] else [.text front]) ++ .opening name [] :: (tokensOf ss ++
        ((if back.isEmpty then [] else [.text back]) ++ .closing name :: ts)) := by
    intro ts
    simp [tokensOf, wrap, Tag.token]
  rw [tokens, tokens, matched_text, matched, inside, matched_text, matched, if_pos rfl]

theorem clean_wrap {front back : List Char} (named : isName name = true) (before : '<' ∉ front)
    (inside : ∀ s ∈ ss, Clean s) (after : '<' ∉ back) : ∀ s ∈ wrap name front ss back, Clean s := by
  intro s member
  simp only [wrap, List.mem_cons, List.mem_append, List.not_mem_nil, or_false] at member
  rcases member with rfl | among | rfl
  · exact ⟨before, named⟩
  · exact inside s among
  · exact ⟨after, named⟩

theorem eventsOf_wrap (name front : List Char) (ss : List Stretch) (back : List Char) :
    eventsOf (wrap name front ss back) =
      textEvents front ++ .opening name [] :: (eventsOf ss ++ (textEvents back ++ [.closing name])) := by
  simp [eventsOf, wrap, Tag.event]

/-! ### Blanks -/

def Blank (gap : List Char) : Prop :=
  ∀ c ∈ gap, isSpace c = true

section Blank
variable {gap : List Char} (blank : Blank gap)
include blank

theorem Blank.angle : '<' ∉ gap :=
  fun member => absurd (blank _ member) (by decide)

theorem Blank.trimStart : Text.trimStart isSpace gap = [] :=
  List.dropWhile_eq_nil_iff.mpr blank

theorem Blank.textEvents : textEvents gap = [] := by
  rw [Xml.textEvents, blank.trimStart]
  rfl

end Blank

theorem textEvents_of_spells (spells : Spells cs raw) (tidy : Tidy cs) : textEvents raw = [.text (some cs)] := by
  obtain ⟨some, front, back⟩ := trim_of_spells spells tidy
  simp [textEvents, front, some, back, resolve?_of_spells spells]

/-- The events of a document are those of its tags and of the texts between them. -/
theorem events_written (clean : ∀ s ∈ ss, Clean s) (balanced : Balanced ss) (blank : Blank gap) :
    events (written ss ++ gap) = eventsOf ss := by
  have enough : (written ss ++ gap).length + 1 = ss.length + ((written ss ++ gap).length - ss.length + 1) := by
    have le := length_le_written ss
    rw [List.length_append]
    omega
  have cut : tokens (written ss ++ gap) = tokensOf ss ++ if gap.isEmpty then [] else [.text gap] := by
    rw [tokens, enough, cutAll_written clean, cutAll_text blank.angle, balanced]
    split
    · rfl
    · rfl
  have ends : eventsFrom [] (if gap.isEmpty then [] else [.text gap]) = [] := by
    split
    · rfl
    · simp [eventsFrom, blank.trimStart, flush]
  rw [events, cut, eventsFrom_written, ends, List.append_nil]

/-! ### Elements -/

theorem Node.eventsOf_append (nodes nodes' : List Node) :
    eventsOf (nodes ++ nodes') = eventsOf nodes ++ eventsOf nodes' := by
  induction nodes with
  | nil => rfl
  | cons n nodes ih => rw [List.cons_append, eventsOf, eventsOf, ih, List.append_assoc]

/-- Tags and texts are these nodes, written out. -/
structure Shows (ss : List Stretch) (nodes : List Node) : Prop where
  clean : ∀ s ∈ ss, Clean s
  balanced : Balanced ss
  events : eventsOf ss = Node.eventsOf nodes

theorem shows_nil : Shows [] [] :=
  ⟨fun _ member => absurd member List.not_mem_nil, fun _ _ => rfl, rfl⟩

theorem Shows.append (first : Shows ss nodes) (second : Shows ss' nodes') : Shows (ss ++ ss') (nodes ++ nodes') where
  clean s member := (List.mem_append.mp member).elim (first.clean s) (second.clean s)
  balanced := balanced_append first.balanced second.balanced
  events := by
    have split : eventsOf (ss ++ ss') = eventsOf ss ++ eventsOf ss' := List.flatMap_append
    rw [split, first.events, second.events, Node.eventsOf_append]

theorem Shows.wrap (inside : Shows ss nodes) (named : isName name = true) (blank : Blank gap) (blank' : Blank gap') :
    Shows (wrap name gap ss gap') [.element name [] nodes] where
  clean := clean_wrap named blank.angle inside.clean blank'.angle
  balanced := balanced_wrap inside.balanced name gap gap'
  events := by
    rw [eventsOf_wrap, blank.textEvents, blank'.textEvents, inside.events]
    simp [Node.eventsOf, Node.events]

theorem shows_text (spells : Spells cs raw) (tidy : Tidy cs) (named : isName name = true) (blank : Blank gap) :
    Shows (wrap name gap [] raw) [.element name [] [.text (some cs)]] where
  clean := clean_wrap named blank.angle shows_nil.clean spells.angle
  balanced := balanced_wrap shows_nil.balanced name gap raw
  events := by
    rw [eventsOf_wrap, blank.textEvents, textEvents_of_spells spells tidy]
    rfl

end EngineClient.Xml
