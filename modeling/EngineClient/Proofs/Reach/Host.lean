import EngineClient.Proofs.Outbound
import EngineClient.Proofs.Text.Avoids
import Mathlib.Data.List.Basic

/-!
# Hosts in normal form

What the text of a host is written with. A host is a name without forbidden characters or an address; an address in
brackets has eight groups, and so at most eight colons.
-/

namespace EngineClient
open Text

namespace Address

/-! ### Texts of addresses -/

section Characters
variable {bad : Char → Bool}

theorem avoids_text4 (spares : ∀ c, c.isAlphanum = true → bad c = false) (dot : bad '.' = false) (n : Nat) :
    Avoids bad (text4 n) := by
  unfold text4
  rw [String.toList_intercalate]
  refine Avoids.intercalate (avoids_cons.mpr ⟨dot, avoids_nil⟩) fun part member => ?_
  simp only [List.map_cons, List.map_nil, List.mem_cons, List.not_mem_nil, or_false] at member
  rcases member with rfl | rfl | rfl | rfl <;> exact avoids_decimal spares _

theorem text4_ne_nil (n : Nat) : text4 n ≠ [] := by
  simp [text4]

theorem avoids_groupsText (spares : ∀ c, c.isAlphanum = true → bad c = false) (colon : bad ':' = false) (gs : List Nat) :
    Avoids bad (groupsText gs) := by
  refine Avoids.intercalate (avoids_cons.mpr ⟨colon, avoids_nil⟩) fun part member => ?_
  obtain ⟨g, _, rfl⟩ := List.mem_map.mp member
  exact avoids_toDigits spares (by decide) (by decide) g

/-- What the text of an address of version 6 has in its brackets. -/
def inside6 (gs : List Nat) : List Char :=
  if (longestZeros gs).2 < 2 then groupsText gs
  else groupsText (gs.take (longestZeros gs).1) ++ [':', ':'] ++
    groupsText (gs.drop ((longestZeros gs).1 + (longestZeros gs).2))

theorem text6_eq (gs : List Nat) : text6 gs = '[' :: inside6 gs ++ [']'] := rfl

theorem avoids_inside6 (spares : ∀ c, c.isAlphanum = true → bad c = false) (colon : bad ':' = false) (gs : List Nat) :
    Avoids bad (inside6 gs) := by
  have groups := avoids_groupsText spares colon
  have colons : Avoids bad [':', ':'] := avoids_cons.mpr ⟨colon, avoids_cons.mpr ⟨colon, avoids_nil⟩⟩
  unfold inside6
  split
  · exact groups gs
  · exact avoids_append.mpr ⟨avoids_append.mpr ⟨groups _, colons⟩, groups _⟩

end Characters

/-! ### Groups -/

theorem count_groupsText (gs : List Nat) : (groupsText gs).count ':' = gs.length - 1 := by
  have digits : ∀ g, (Text.hex g).count ':' = 0 := by
    intro g
    have clear : Avoids (· == ':') (Text.hex g) := avoids_toDigits (forall_alphanum (by decide)) (by decide) (by decide) g
    exact List.count_eq_zero.mpr fun member => by simpa using clear _ member
  induction gs with
  | nil => rfl
  | cons g rest ih =>
    cases rest with
    | nil => simp [groupsText, List.intercalate, digits]
    | cons h rest =>
      have shape : groupsText (g :: h :: rest) = Text.hex g ++ ':' :: groupsText (h :: rest) := by
        simp [groupsText, List.intercalate]
      rw [shape, List.count_append, List.count_cons_self, digits, ih]
      simp

theorem longestZeros_start (gs : List Nat) : (longestZeros gs).1 ≤ gs.length - 1 := by
  unfold longestZeros
  refine List.foldlRecOn _ _ (motive := fun best : Nat × Nat => best.1 ≤ gs.length - 1) (Nat.zero_le _) ?_
  intro best small i member
  have below := List.mem_range.mp member
  dsimp only
  split
  · dsimp only
    omega
  · exact small

theorem count_inside6 {gs : List Nat} (eight : gs.length = 8) : (inside6 gs).count ':' ≤ 8 := by
  have start := longestZeros_start gs
  unfold inside6
  split
  · rw [count_groupsText]
    omega
  · simp only [List.count_append, count_groupsText, List.length_take, List.length_drop]
    have two : [':', ':'].count ':' = 2 := rfl
    omega

theorem length_of_close? {g : Groups} (room : g.taken ≤ 8) (closed : g.close? = some gs) : gs.length = 8 := by
  unfold Groups.close? at closed
  unfold Groups.taken at room
  split at closed <;> rename_i before
  · split at closed
    · cases closed
      assumption
    · cases closed
  · rw [before] at room
    obtain rfl := Option.some.inj closed
    dsimp only at room
    simp
    omega

theorem taken_push (g : Groups) (ns : List Nat) :
    ({ g with since := g.since ++ ns } : Groups).taken = g.taken + ns.length := by
  unfold Groups.taken
  cases g.before with
  | none => simp
  | some before =>
    simp
    omega

theorem length_of_tail4? (read : tail4? cs = some t) : t.length = 2 := by
  unfold tail4? at read
  obtain ⟨parts, _, read⟩ := Option.bind_eq_some_iff.mp read
  split at read
  · cases read
    rfl
  · cases read

/-- Each group is only taken while there is room for it, a gap counting as one. -/
theorem length_of_groups? (room : g.taken ≤ 8) (read : groups? fuel g cs = some gs) : gs.length = 8 := by
  induction fuel generalizing g cs with
  | zero => cases read
  | succ fuel ih =>
    cases cs with
    | nil => exact length_of_close? room read
    | cons c r =>
      unfold groups? at read
      split at read
      · cases read
      rename_i more
      have pushed : ∀ n, (g.push n).taken ≤ 8 := by
        intro n
        rw [Groups.push, taken_push, List.length_singleton]
        omega
      split at read
      · split at read
        · cases read
        · rename_i first
          refine ih ?_ read
          simp only [Option.isSome_iff_ne_none, ne_eq, not_not] at first
          simp only [Groups.taken, first, List.length_nil] at more room ⊢
          omega
      · dsimp only at read
        split at read
        · exact length_of_close? (pushed _) read
        · cases read
        · exact ih (pushed _) read
        · split at read
          · cases read
          · rename_i narrow
            obtain ⟨t, last, closed⟩ := Option.bind_eq_some_iff.mp read
            refine length_of_close? ?_ closed
            rw [taken_push, length_of_tail4? last]
            simp only [Bool.or_eq_true, decide_eq_true_eq, not_or] at narrow
            omega
        · cases read

theorem length_of_parse6? (parsed : parse6? cs = .ok gs) : gs.length = 8 := by
  unfold parse6? at parsed
  dsimp only at parsed
  split at parsed
  · rename_i found
    cases parsed
    -- Two forms have groups: one that begins with a gap, and one that begins with a group.
    split at found
    · exact length_of_groups? (by decide) found
    · cases found
    · cases found
    · cases found
    · exact length_of_groups? (by decide) found
  · cases parsed

end Address

/-! ### Hosts -/

/-- The texts of hosts. -/
inductive Host.Written : List Char → Prop
  | name (some : cs ≠ []) (permitted : Avoids Host.isForbidden cs) : Written cs
  | address4 (n : Nat) : Written (Address.text4 n)
  | address6 (eight : gs.length = 8) : Written (Address.text6 gs)

theorem Host.permitted_of_name? (read : name? idna bytes = some name) : Avoids isForbidden name := by
  unfold name? at read
  split at read
  · split at read
    · cases read
    · rename_i free
      cases read
      simpa [Avoids] using free
  · exact idna.permitted read

theorem Host.written_of_parse? (parsed : Host.parse? idna cs = .ok host) : Host.Written host := by
  unfold Host.parse? at parsed
  split at parsed
  · unfold bracketed? at parsed
    split at parsed
    · obtain ⟨gs, groups, rfl⟩ := Except.map_eq_ok parsed
      exact .address6 (Address.length_of_parse6? groups)
    · cases parsed
  · split at parsed
    · cases parsed
    rename_i name read
    split at parsed
    · cases parsed
    rename_i some
    split at parsed
    · obtain ⟨n, _, rfl⟩ := Except.map_eq_ok parsed
      exact .address4 n
    · cases parsed
      exact .name (by simpa using some) (permitted_of_name? read)

end EngineClient
