import EngineClient.Proofs.Text.Avoids
import EngineClient.Proofs.Text.Form
import EngineClient.Url.Path
import Mathlib.Data.List.DropRight

/-!
# Segments of paths

A path in normal form is written with segments that stand as they are: none is a dot segment or has a separator or a
character to escape. What a text leads to is found by a walk over its segments. Segments that stand as they are only
go down, so that what is written behind a text comes behind what the text leads through.
-/

namespace EngineClient

/-! ### Ends of texts -/

namespace Text
variable {p : Char → Bool} {cs : List Char}

theorem trimEnd_eq_rdropWhile (p : Char → Bool) (cs : List Char) : trimEnd p cs = cs.rdropWhile p := rfl

theorem getLast?_trimEnd : ∀ c ∈ (trimEnd p cs).getLast?, p c = false := by
  intro c last
  rw [trimEnd, List.getLast?_reverse] at last
  have first := List.head?_dropWhile_not p cs.reverse
  rw [Option.mem_def.mp last] at first
  exact first

/-- Nothing is cut off a text whose last character is not of the class. -/
theorem trimEnd_of_last (last : ∀ c ∈ cs.getLast?, p c = false) : trimEnd p cs = cs := by
  rw [trimEnd_eq_rdropWhile, List.rdropWhile_eq_self_iff]
  intro some
  simp [last _ (List.getLast?_eq_some_getLast some)]

theorem trimEnd_trimEnd (p : Char → Bool) (cs : List Char) : trimEnd p (trimEnd p cs) = trimEnd p cs :=
  trimEnd_of_last getLast?_trimEnd

theorem trimEnd_replicate {c : Char} (member : p c = true) (k : Nat) :
    trimEnd p (cs ++ List.replicate k c) = trimEnd p cs := by
  induction k with
  | zero => rw [List.replicate_zero, List.append_nil]
  | succ k ih =>
    rw [List.replicate_succ', ← List.append_assoc, trimEnd_eq_rdropWhile, List.rdropWhile_concat_pos _ _ _ member]
    exact ih

theorem stripBack?_eq_some_iff {back rest : List Char} : stripBack? back cs = some rest ↔ cs = rest ++ back := by
  unfold stripBack?
  rw [Option.map_eq_some_iff]
  constructor
  · rintro ⟨r, stripped, rfl⟩
    have whole := congrArg List.reverse (stripFront?_eq_some_iff.mp stripped)
    simpa using whole
  · rintro rfl
    exact ⟨rest.reverse, stripFront?_eq_some_iff.mpr (by simp), by simp⟩

/-- The characters that end a path. -/
def endsPath (c : Char) : Bool :=
  c == '?' || c == '#'

end Text

namespace Path
open Text

/-! ### Walks -/

/-- Where a walk has come after one more segment; the segments that lie behind are listed last first. How a step up is
taken is up to the walk. -/
def pass (up : List (List Char) → List (List Char)) (done : List (List Char)) (s : List Char) : List (List Char) :=
  match step s with
  | .stay => done
  | .up => up done
  | .down => s :: done

/-- What a dot segment at the end leaves: an empty one. -/
def ending (given : List (List Char)) : List (List Char) :=
  match given.getLast? with
  | none => []
  | some s => if step s = .down then [] else [[]]

section Walks
variable {given : List (List Char)}

theorem ending_cons (some : given ≠ []) (s : List Char) : ending (s :: given) = ending given := by
  rw [ending, ending, List.getLast?_cons, List.getLast?_eq_some_getLast some]
  rfl

theorem follow_eq (done given : List (List Char)) :
    follow done given = (given.foldl (pass goUp) done).reverse ++ ending given := by
  induction done, given using follow.induct with
  | case1 done => simp [follow, ending]
  | case2 done s stay => simp [follow, pass, ending, stay]
  | case3 done s up => simp [follow, pass, ending, up]
  | case4 done s down => simp [follow, pass, ending, down]
  | case5 done s rest more stay ih =>
    rw [follow, stay, ih, ending_cons more, List.foldl_cons, pass, stay]
    exact more
  | case6 done s rest more up ih =>
    rw [follow, up, ih, ending_cons more, List.foldl_cons, pass, up]
    exact more
  | case7 done s rest more down ih =>
    rw [follow, down, ih, ending_cons more, List.foldl_cons, pass, down]
    exact more

theorem goUp_subset (done : List (List Char)) : goUp done ⊆ done := by
  unfold goUp
  split
  · exact List.Subset.refl _
  · split
    · exact List.Subset.refl _
    · exact List.subset_cons_self _ _

theorem mem_foldl_pass {up : List (List Char) → List (List Char)} (within : ∀ done, up done ⊆ done) {s : List Char}
    {done : List (List Char)} (member : s ∈ given.foldl (pass up) done) : s ∈ done ∨ s ∈ given ∧ step s = .down := by
  induction given generalizing done with
  | nil => exact .inl member
  | cons t rest ih =>
    rcases ih member with behind | ⟨later, down⟩
    · unfold pass at behind
      split at behind
      · exact .inl behind
      · exact .inl (within done behind)
      · rename_i down
        rcases List.mem_cons.mp behind with rfl | behind
        · exact .inr ⟨List.mem_cons_self, down⟩
        · exact .inl behind
    · exact .inr ⟨List.mem_cons_of_mem _ later, down⟩

theorem mem_ending {s : List Char} (member : s ∈ ending given) : s = [] := by
  unfold ending at member
  split at member
  · cases member
  · split at member
    · cases member
    · exact List.mem_singleton.mp member

end Walks

/-! ### Segments that stand as they are -/

/-- A segment of a path in normal form. -/
structure Standing (s : List Char) : Prop where
  written : encode s = s
  whole : Avoids isSeparator s
  down : step s = .down

theorem standing_nil : Standing [] :=
  ⟨rfl, avoids_nil, rfl⟩

section Standing
variable {given more : List (List Char)}

theorem foldl_pass {up : List (List Char) → List (List Char)} (down : ∀ s ∈ given, step s = .down)
    (done : List (List Char)) : given.foldl (pass up) done = given.reverse ++ done := by
  induction given generalizing done with
  | nil => rfl
  | cons s rest ih =>
    have first : pass up done s = s :: done := by rw [pass, down s List.mem_cons_self]
    rw [List.foldl_cons, first, ih fun t member => down t (List.mem_cons_of_mem _ member)]
    simp

theorem ending_of_down (down : ∀ s ∈ given, step s = .down) : ending given = [] := by
  unfold ending
  split
  · rfl
  · rename_i s last
    rw [if_pos (down s (List.mem_of_getLast? last))]

theorem ending_append (some : more ≠ []) : ending (given ++ more) = ending more := by
  induction given with
  | nil => rfl
  | cons s rest ih => rw [List.cons_append, ending_cons (by simp [some]), ih]

/-- Segments that stand as they are come behind what was walked through. -/
theorem follow_append (some : more ≠ []) (standing : ∀ s ∈ more, Standing s) :
    follow [] (given ++ more) = (given.foldl (pass goUp) []).reverse ++ more := by
  have down : ∀ s ∈ more, step s = .down := fun s member => (standing s member).down
  rw [follow_eq, List.foldl_append, foldl_pass down, ending_append some, ending_of_down down]
  simp

end Standing

/-! ### Escapes -/

/-- A character that is escaped in a path. -/
def isEscaped (c : Char) : Bool :=
  !(c.toNat < 0x80 && stands (.ofNat c.toNat))

theorem sparesEscapes_isEscaped : SparesEscapes isEscaped :=
  ⟨by decide, forall_alphanum (by decide +kernel)⟩

theorem isEscaped_of_stands : ∀ b : UInt8, stands b = true → isEscaped (charOf b) = false :=
  forall_byte (by decide +kernel)

/-- A path has no character of a class that holds none of those that stand for themselves. -/
theorem avoids_encode {bad : Char → Bool} (spares : SparesEscapes bad)
    (kept : ∀ b, stands b = true → bad (charOf b) = false) (s : List Char) : Avoids bad (encode s) :=
  avoids_percentEncode spares kept _

theorem Standing.avoids {bad : Char → Bool} (spares : SparesEscapes bad)
    (kept : ∀ b, stands b = true → bad (charOf b) = false) {s : List Char} (standing : Standing s) : Avoids bad s := by
  rw [← standing.written]
  exact avoids_encode spares kept s

theorem encode_of_avoids {s : List Char} (avoids : Avoids isEscaped s) : encode s = s := by
  induction s with
  | nil => rfl
  | cons c rest ih =>
    obtain ⟨first, others⟩ := avoids_cons.mp avoids
    simp only [isEscaped, Bool.not_eq_false', Bool.and_eq_true, decide_eq_true_eq] at first
    have byte : String.utf8EncodeChar c = [.ofNat c.toNat] := utf8EncodeChar_ascii first.1
    have small : c.toNat < 256 := by omega
    have ih := ih others
    unfold encode percentEncode Text.encode at ih ⊢
    rw [List.flatMap_cons, byte, List.flatMap_append, ih]
    simp [first.2, charOf, Nat.mod_eq_of_lt small]

/-- A segment is free of separators also when it is escaped: a byte that is one has been one. -/
theorem whole_encode {s : List Char} (whole : Avoids isSeparator s) : Avoids isSeparator (encode s) := by
  have escape : ∀ b, Avoids isSeparator (percentByte b) :=
    forall_byte (by decide +kernel)
  refine Avoids.flatMap fun b member => ?_
  split
  · obtain ⟨c, inside, encoded⟩ := List.mem_flatMap.mp member
    refine avoids_cons.mpr ⟨?_, avoids_nil⟩
    rcases mem_utf8EncodeChar encoded with same | large
    · have char : charOf b = c := by rw [charOf, same, Char.ofNat_toNat]
      rw [char]
      exact whole c inside
    · have beyond : ∀ b : UInt8, 0x80 ≤ b.toNat → isSeparator (charOf b) = false :=
        forall_byte (by decide +kernel)
      exact beyond b large
  · exact escape b

/-! ### Cutting and writing -/

theorem write_nil : write [] = [] := rfl

theorem write_cons (s : List Char) (ss : List (List Char)) : write (s :: ss) = '/' :: (s ++ write ss) := rfl

theorem write_append (ss ts : List (List Char)) : write (ss ++ ts) = write ss ++ write ts :=
  List.flatMap_append

theorem write_replicate (k : Nat) : write (List.replicate k []) = List.replicate k '/' := by
  induction k with
  | zero => rfl
  | succ k ih => rw [List.replicate_succ, List.replicate_succ, ← ih]; rfl

theorem rooted_write (ss : List (List Char)) : ∀ c ∈ (write ss).head?, c = '/' := by
  intro c first
  cases ss with
  | nil => cases first
  | cons s rest => exact (Option.some.inj first).symm

theorem avoids_write {bad : Char → Bool} (slash : bad '/' = false) {ss : List (List Char)}
    (each : ∀ s ∈ ss, Avoids bad s) : Avoids bad (write ss) :=
  Avoids.flatMap fun s member => avoids_cons.mpr ⟨slash, each s member⟩

section Cutting
variable {p : Char → Bool}

theorem avoids_splitOnP (p : Char → Bool) (cs : List Char) : ∀ s ∈ cs.splitOnP p, Avoids p s := by
  induction cs with
  | nil => simp [Avoids]
  | cons c rest ih =>
    rw [List.splitOnP_cons_eq_if_modifyHead]
    intro s member
    split at member
    · rcases List.mem_cons.mp member with rfl | member
      · exact avoids_nil
      · exact ih s member
    · rename_i other
      obtain ⟨first, more, cut⟩ := List.exists_cons_of_ne_nil (List.splitOnP_ne_nil p rest)
      rw [cut] at ih member
      rw [List.modifyHead_cons] at member
      rcases List.mem_cons.mp member with rfl | member
      · exact avoids_cons.mpr ⟨Bool.eq_false_iff.mpr other, ih first List.mem_cons_self⟩
      · exact ih s (List.mem_cons_of_mem _ member)

theorem splitOnP_write (slash : p '/' = true) (cs : List Char) {ss : List (List Char)} (whole : ∀ s ∈ ss, Avoids p s) :
    (cs ++ write ss).splitOnP p = cs.splitOnP p ++ ss := by
  induction ss generalizing cs with
  | nil => simp [write_nil]
  | cons s rest ih =>
    have first : s.splitOnP p = [s] := List.splitOnP_eq_singleton (whole s List.mem_cons_self)
    have others := ih s fun t member => whole t (List.mem_cons_of_mem _ member)
    rw [write_cons, List.splitOnP_append_cons _ _ slash, others, first]
    rfl

end Cutting

/-- Slashes are cut off a path by leaving out the empty segments at its end. -/
theorem trimEnd_write {ss : List (List Char)} (whole : ∀ s ∈ ss, Avoids isSeparator s) :
    trimEnd isSlash (write ss) = write (ss.rdropWhile List.isEmpty) := by
  -- From the back, since that is where slashes are cut off.
  induction ss using List.reverseRecOn with
  | nil => rfl
  | append_singleton ss s ih =>
    have whole' := fun t member => whole t (List.mem_append_left [s] member)
    by_cases empty : s = []
    · subst empty
      rw [List.rdropWhile_concat_pos _ _ _ rfl, ← ih whole', write_append]
      exact trimEnd_replicate rfl 1
    · rw [List.rdropWhile_concat_neg _ _ _ (by simpa using empty)]
      refine trimEnd_of_last fun c last => ?_
      rw [write_append, write, write, List.flatMap_singleton, List.getLast?_append_of_ne_nil _ (by simp),
        List.getLast?_cons, List.getLast?_eq_some_getLast empty] at last
      obtain rfl := Option.some.inj last
      have separator := whole s (by simp) _ (List.getLast_mem empty)
      simp only [isSeparator, Bool.or_eq_false_iff] at separator
      exact separator.1

/-! ### Paths in normal form -/

/-- The text behind a separator in front. -/
def unrooted : List Char → List Char
  | c :: r => if isSeparator c then r else c :: r
  | [] => []

/-- The segments that a text leads through to whatever is written behind it. -/
def lead (cs : List Char) : List (List Char) :=
  if cs.isEmpty then [] else (((segments (unrooted cs)).map encode).foldl (pass goUp) []).reverse

/-- A text that begins as a path does. -/
def Rooted (cs : List Char) : Prop :=
  ∀ c ∈ cs.head?, isSeparator c = true

section Normal
variable {cs : List Char} {ss : List (List Char)}

theorem normalize_eq (cs : List Char) : normalize cs = write (follow [] ((segments (unrooted cs)).map encode)) := by
  cases cs <;> rfl

theorem standing_encode {s : List Char} (whole : Avoids isSeparator s) (down : step (encode s) = .down) :
    Standing (encode s) :=
  ⟨encode_of_avoids (avoids_encode sparesEscapes_isEscaped isEscaped_of_stands s), whole_encode whole, down⟩

theorem standing_of_passed {s : List Char} (member : s ∈ ((segments cs).map encode).foldl (pass goUp) []) : Standing s := by
  rcases mem_foldl_pass goUp_subset member with impossible | ⟨given, down⟩
  · cases impossible
  · obtain ⟨t, cut, rfl⟩ := List.mem_map.mp given
    exact standing_encode (avoids_splitOnP isSeparator cs t cut) down

theorem standing_lead (cs : List Char) : ∀ s ∈ lead cs, Standing s := by
  intro s member
  unfold lead at member
  split at member
  · cases member
  · exact standing_of_passed (List.mem_reverse.mp member)

/-- A path in normal form is written with segments that stand as they are. -/
theorem standing_normalize (cs : List Char) : ∃ ss, normalize cs = write ss ∧ ∀ s ∈ ss, Standing s := by
  refine ⟨_, normalize_eq cs, fun s member => ?_⟩
  rw [follow_eq] at member
  rcases List.mem_append.mp member with passed | last
  · exact standing_of_passed (List.mem_reverse.mp passed)
  · rw [mem_ending last]
    exact standing_nil

/-- What is written behind a text comes behind what the text leads through. -/
theorem normalize_append (rooted : Rooted cs) (some : ss ≠ []) (standing : ∀ s ∈ ss, Standing s) :
    normalize (cs ++ write ss) = write (lead cs ++ ss) := by
  have whole : ∀ s ∈ ss, Avoids isSeparator s := fun s member => (standing s member).whole
  have written : ss.map encode = ss :=
    (List.map_congr_left fun s member => (standing s member).written).trans (List.map_id ss)
  rw [normalize_eq]
  cases cs with
  | nil =>
    -- The slash in front is the one of the first segment.
    obtain ⟨s, rest, rfl⟩ := List.exists_cons_of_ne_nil some
    have cut : segments (s ++ write rest) = segments s ++ rest :=
      splitOnP_write rfl s fun t member => whole t (List.mem_cons_of_mem _ member)
    have first : segments s = [s] := List.splitOnP_eq_singleton (whole s List.mem_cons_self)
    have behind : unrooted (write (s :: rest)) = s ++ write rest := rfl
    rw [List.nil_append, behind, cut, first, List.singleton_append, written, ← List.nil_append (s :: rest),
      follow_append some standing]
    rfl
  | cons c r =>
    have separator : isSeparator c = true := rooted c rfl
    have behind : ∀ more, unrooted (c :: r ++ more) = r ++ more := fun more => if_pos separator
    have own : unrooted (c :: r) = r := if_pos separator
    have cut : segments (r ++ write ss) = segments r ++ ss := splitOnP_write rfl r whole
    rw [behind, cut, List.map_append, written, follow_append some standing, lead, own]
    rfl

/-- Up to slashes at its end a path is what its text leads through. -/
theorem trimEnd_normalize (cs : List Char) : trimEnd isSlash (normalize cs) = trimEnd isSlash (write (lead cs)) := by
  rw [normalize_eq]
  cases cs with
  | nil => rfl
  | cons c r =>
    have passed : lead (c :: r) = (((segments (unrooted (c :: r))).map encode).foldl (pass goUp) []).reverse := rfl
    rw [follow_eq, ← passed, write_append, ending]
    split
    · rw [write_nil, List.append_nil]
    · split
      · rw [write_nil, List.append_nil]
      · exact trimEnd_replicate rfl 1

/-- A path in normal form stays as it is up to slashes at its end. -/
theorem trimEnd_normalize_write (standing : ∀ s ∈ ss, Standing s) :
    trimEnd isSlash (normalize (write ss)) = trimEnd isSlash (write ss) := by
  cases ss with
  | nil => rfl
  | cons s rest =>
    have rooted : Rooted [] := fun _ none => by cases none
    have same := normalize_append rooted (List.cons_ne_nil s rest) standing
    rw [List.nil_append] at same
    rw [same]
    rfl

end Normal

theorem sparesEscapes_endsPath : SparesEscapes endsPath :=
  ⟨by decide, forall_alphanum (by decide +kernel)⟩

theorem endsPath_of_stands : ∀ b : UInt8, stands b = true → endsPath (charOf b) = false :=
  forall_byte (by decide +kernel)

end Path
end EngineClient
