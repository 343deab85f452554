import EngineClient.Pool
import Mathlib.Data.Nat.Count

/-!
# Runs of pools

A task keeps to a contract if each of its steps is one that it guarantees, whatever it relies on happens between
them, and what it promises of its value holds where it ends. Contracts are composed along `andThen`, and in a run
the contracts of all tasks carry over to every time.
-/

namespace EngineClient
namespace Task

/-! ### Steps -/

theorem step?_eq_some {t t' : Task σ α} {s s' : σ} (h : t.step? s = some (t', s')) :
    ∃ change next, (t = .act change next ∨ t = .wait change next) ∧ t' = next s ∧ s' = change s := by
  cases t with
  | done a => cases h
  | act change next => cases h; exact ⟨change, next, .inl rfl, rfl, rfl⟩
  | wait change next => cases h; exact ⟨change, next, .inr rfl, rfl, rfl⟩

/-- Whether a task is done does not depend on the state. -/
theorem step?_ne_none {t : Task σ α} (h : t.step? s = some next) (s' : σ) : t.step? s' ≠ none := by
  cases t with
  | done a => cases h
  | act change next => exact fun none => by cases none
  | wait change next => exact fun none => by cases none

theorem step?_andThen {t t' : Task σ α} {s s' : σ} (h : t.step? s = some (t', s')) (k : α → Task σ β) :
    (t.andThen k).step? s = some (t'.andThen k, s') := by
  cases t with
  | done a => cases h
  | act change next => cases h; rfl
  | wait change next => cases h; rfl

theorem andThen_assoc (t : Task σ α) (k : α → Task σ β) (l : β → Task σ γ) :
    (t.andThen k).andThen l = t.andThen fun a => (k a).andThen l := by
  induction t with
  | done a => rfl
  | act change next ih => exact congrArg (act change) (funext ih)
  | wait change next ih => exact congrArg (wait change) (funext ih)

/-! ### Contracts -/

/-- From a state on, each step of a task is one of `guar`, whatever `rely` permits between them, and where it ends
`post` holds for good. -/
def Keeps (rely guar : σ → σ → Prop) (post : α → σ → Prop) : Task σ α → σ → Prop
  | done a, s => ∀ s', rely s s' → post a s'
  | act change next, s | wait change next, s =>
    ∀ s', rely s s' → guar s' (change s') ∧ (next s').Keeps rely guar post (change s')

section Keeps
variable {rely guar : σ → σ → Prop} {post : α → σ → Prop} {t : Task σ α}

theorem Keeps.mono (keeps : t.Keeps rely guar post s) (trans : ∀ {a b c}, rely a b → rely b c → rely a c)
    (h : rely s s') : t.Keeps rely guar post s' := by
  cases t with
  | done a => exact fun s'' later => keeps s'' (trans h later)
  | act change next => exact fun s'' later => keeps s'' (trans h later)
  | wait change next => exact fun s'' later => keeps s'' (trans h later)

theorem Keeps.step (keeps : t.Keeps rely guar post s) (refl : ∀ a, rely a a) (h : t.step? s = some (t', s')) :
    guar s s' ∧ t'.Keeps rely guar post s' := by
  obtain ⟨change, next, shape, rfl, rfl⟩ := step?_eq_some h
  rcases shape with rfl | rfl
  · exact keeps s (refl s)
  · exact keeps s (refl s)

/-- What a task promises is what those who go on with its value may use. -/
theorem Keeps.andThen {post : β → σ → Prop} {k : α → Task σ β} (refl : ∀ a, rely a a)
    (keeps : t.Keeps rely guar (fun a s => (k a).Keeps rely guar post s) s) :
    (t.andThen k).Keeps rely guar post s := by
  induction t generalizing s with
  | done a => exact keeps s (refl s)
  | act change next ih | wait change next ih =>
    intro s' between
    obtain ⟨step, rest⟩ := keeps s' between
    exact ⟨step, ih s' rest⟩

theorem Keeps.imp {post' : α → σ → Prop} (keeps : t.Keeps rely guar post s) (ends : ∀ a s, post a s → post' a s) :
    t.Keeps rely guar post' s := by
  induction t generalizing s with
  | done a => exact fun s' between => ends a s' (keeps s' between)
  | act change next ih | wait change next ih =>
    intro s' between
    obtain ⟨step, rest⟩ := keeps s' between
    exact ⟨step, ih s' rest⟩

theorem Keeps.persist (keeps : t.Keeps rely guar post s) (trans : ∀ {a b c}, rely a b → rely b c → rely a c) :
    t.Keeps rely guar (fun a s => ∀ s', rely s s' → post a s') s := by
  induction t generalizing s with
  | done a => exact fun s' between s'' later => keeps s'' (trans between later)
  | act change next ih | wait change next ih =>
    intro s' between
    obtain ⟨step, rest⟩ := keeps s' between
    exact ⟨step, ih s' rest⟩

theorem Keeps.invariant {inv : σ → Prop} (keeps : t.Keeps rely guar post s)
    (relied : ∀ {a b}, rely a b → inv a → inv b) (own : ∀ {a b}, guar a b → inv a → inv b) (start : inv s) :
    t.Keeps rely guar (fun a s => inv s ∧ post a s) s := by
  induction t generalizing s with
  | done a => exact fun s' between => ⟨relied between start, keeps s' between⟩
  | act change next ih | wait change next ih =>
    intro s' between
    obtain ⟨step, rest⟩ := keeps s' between
    exact ⟨step, ih s' rest (own step (relied between start))⟩

end Keeps

/-! ### Tasks that end soon -/

/-- A task is done after so many steps, whatever states it finds. -/
def EndsWithin : Nat → Task σ α → Prop
  | _, done _ => True
  | 0, _ => False
  | n + 1, act _ next | n + 1, wait _ next => ∀ s, (next s).EndsWithin n

theorem EndsWithin.mono {t : Task σ α} (h : t.EndsWithin m) (le : m ≤ n) : t.EndsWithin n := by
  induction t generalizing m n with
  | done a => cases n <;> trivial
  | act change next ih | wait change next ih =>
    obtain ⟨m, rfl⟩ : ∃ k, m = k + 1 := by
      cases m with
      | zero => exact h.elim
      | succ m => exact ⟨m, rfl⟩
    obtain ⟨n, rfl⟩ : ∃ k, n = k + 1 := ⟨n - 1, by omega⟩
    exact fun s => ih s (h s) (by omega)

theorem EndsWithin.andThen {t : Task σ α} {k : α → Task σ β} (first : t.EndsWithin m)
    (rest : ∀ a, (k a).EndsWithin n) : (t.andThen k).EndsWithin (m + n) := by
  induction t generalizing m with
  | done a => exact (rest a).mono (Nat.le_add_left n m)
  | act change next ih | wait change next ih =>
    cases m with
    | zero => exact first.elim
    | succ m =>
      rw [Nat.succ_add]
      exact fun s => ih s (first s)

theorem EndsWithin.step {t : Task σ α} (h : t.EndsWithin (n + 1)) (step : t.step? s = some (t', s')) :
    t'.EndsWithin n := by
  obtain ⟨change, next, shape, rfl, rfl⟩ := step?_eq_some step
  rcases shape with rfl | rfl <;> exact h s

end Task

namespace Run
variable {r : Run σ α}

/-! ### Turns -/

theorem task_step (turn : r.turns n = .step i) (task : r.task i n = some t)
    (step : t.step? (r.state n) = some (t', s')) : r.task i (n + 1) = some t' ∧ r.state (n + 1) = s' := by
  have found : ((r.pool n).tasks i).bind (fun t => t.step? (r.pool n).state) = some (t', s') := by
    have same : (r.pool n).tasks i = some t := task
    rw [same]
    exact step
  simp only [Run.task, Run.state, Run.pool, turn, Pool.turn, found, Pool.set]
  simp

/-- A turn of a task that takes no step changes nothing. -/
theorem pool_of_stuck (turn : r.turns n = .step i) (task : r.task i n = some t) (stuck : t.step? (r.state n) = none) :
    r.pool (n + 1) = r.pool n := by
  have found : ((r.pool n).tasks i).bind (fun t => t.step? (r.pool n).state) = none := by
    have same : (r.pool n).tasks i = some t := task
    rw [same]
    exact stuck
  simp only [Run.pool, turn, Pool.turn, found]

theorem task_skip (turn : r.turns n ≠ .step i) (kept : r.turns n ≠ .drop i) :
    r.task i (n + 1) = r.task i n := by
  simp only [Run.task, Run.pool]
  cases h : r.turns n with
  | drop j =>
    have other : i ≠ j := fun e => kept (e ▸ h)
    simp [Pool.turn, Pool.set, other]
  | step j =>
    have other : i ≠ j := fun e => turn (e ▸ h)
    simp only [Pool.turn]
    split
    · simp [Pool.set, other]
    · rfl

/-- What a turn does to the state is what a step of one task does, if anything. -/
theorem state_succ (r : Run σ α) (n : Nat) : r.state (n + 1) = r.state n ∨
    ∃ i t t', r.turns n = .step i ∧ r.task i n = some t ∧ t.step? (r.state n) = some (t', r.state (n + 1)) := by
  simp only [Run.task, Run.state, Run.pool]
  cases h : r.turns n with
  | drop j => exact .inl rfl
  | step j =>
    simp only [Pool.turn]
    split
    · rename_i t' s' found
      obtain ⟨t, task, step⟩ := Option.bind_eq_some_iff.mp found
      exact .inr ⟨j, t, t', rfl, task, step⟩
    · exact .inl rfl

theorem task_succ (h : r.task i (n + 1) = some u) :
    (r.task i n = some u ∧ r.turns n ≠ .drop i ∧ (r.turns n = .step i → u.step? (r.state n) = none)) ∨
    ∃ t, r.task i n = some t ∧ r.turns n = .step i ∧ t.step? (r.state n) = some (u, r.state (n + 1)) := by
  by_cases dropped : r.turns n = .drop i
  · simp [Run.task, Run.pool, dropped, Pool.turn, Pool.set] at h
  · by_cases turn : r.turns n = .step i
    · cases task : r.task i n with
      | none =>
        have same : (r.pool n).tasks i = none := task
        simp [Run.task, Run.pool, turn, Pool.turn, same] at h
      | some t =>
        cases step : t.step? (r.state n) with
        | none =>
          have same : r.task i (n + 1) = r.task i n := congrArg (fun p => p.tasks i) (pool_of_stuck turn task step)
          rw [same, task] at h
          cases h
          exact .inl ⟨rfl, dropped, fun _ => step⟩
        | some next =>
          obtain ⟨t', s'⟩ := next
          obtain ⟨left, state⟩ := task_step turn task step
          cases left.symm.trans h
          exact .inr ⟨t, rfl, turn, by rw [state]; exact step⟩
    · rw [task_skip turn dropped] at h
      exact .inl ⟨h, dropped, fun e => (turn e).elim⟩

/-- From one time to another no turn of task `i` changes anything. -/
def Idle (r : Run σ α) (i m n : Nat) : Prop :=
  ∀ l, m ≤ l → l < n → r.turns l = .step i → r.state (l + 1) = r.state l

theorem Idle.append (first : r.Idle i l m) (rest : r.Idle i m n) : r.Idle i l n := by
  intro k le lt turn
  by_cases early : k < m
  · exact first k le early turn
  · exact rest k (by omega) lt turn

theorem idle_succ (same : r.turns n = .step i → r.state (n + 1) = r.state n) : r.Idle i n (n + 1) := by
  intro l le lt turn
  obtain rfl : l = n := by omega
  exact same turn

/-- A task that is there later is the same, and its turns have changed nothing, or it has gone on by a first step. -/
theorem task_turns (task : r.task i m = some t) (le : m ≤ n) (later : r.task i n = some u) :
    (u = t ∧ r.Idle i m n) ∨
    ∃ l t', m ≤ l ∧ l < n ∧ r.Idle i m l ∧ r.turns l = .step i ∧ t.step? (r.state l) = some (t', r.state (l + 1)) ∧
      r.task i (l + 1) = some t' := by
  induction n, le using Nat.le_induction generalizing u with
  | base => exact .inl ⟨Option.some.inj (later.symm.trans task), fun l le lt => by omega⟩
  | succ n le ih =>
    rcases task_succ later with ⟨before, _, stuck⟩ | ⟨v, before, turn, step⟩
    · rcases ih before with ⟨same, idle⟩ | ⟨l, t', since, lt, found⟩
      · refine .inl ⟨same, idle.append (idle_succ fun turn => ?_)⟩
        exact congrArg Pool.state (pool_of_stuck turn before (stuck turn))
      · exact .inr ⟨l, t', since, by omega, found⟩
    · rcases ih before with ⟨rfl, idle⟩ | ⟨l, t', since, lt, found⟩
      · exact .inr ⟨n, u, le, by omega, idle, turn, step, later⟩
      · exact .inr ⟨l, t', since, by omega, found⟩

theorem task_later (task : r.task i m = some t) (le : m ≤ n) (later : r.task i n = some u) : u = t ∨
    ∃ l t', m ≤ l ∧ l < n ∧ r.turns l = .step i ∧ t.step? (r.state l) = some (t', r.state (l + 1)) ∧
      r.task i (l + 1) = some t' := by
  rcases task_turns task le later with ⟨same, _⟩ | ⟨l, t', since, lt, _, found⟩
  · exact .inl same
  · exact .inr ⟨l, t', since, lt, found⟩

theorem idle_of_done (task : r.task i m = some (.done a)) (le : m ≤ n) (later : r.task i n = some u) :
    u = .done a ∧ r.Idle i m n := by
  rcases task_turns task le later with ended | ⟨_, _, _, _, _, _, step, _⟩
  · exact ended
  · cases step

/-- A task that stands before a step still does, or it has taken that step. -/
theorem next_turn {change : σ → σ} {next : σ → Task σ α} (steps : ∀ s, t.step? s = some (next s, change s))
    (task : r.task i m = some t) (le : m ≤ n) (later : r.task i n = some u) :
    (u = t ∧ r.Idle i m n) ∨ ∃ l, m ≤ l ∧ l < n ∧ r.Idle i m l ∧ r.turns l = .step i ∧
      r.state (l + 1) = change (r.state l) ∧ r.task i (l + 1) = some (next (r.state l)) := by
  rcases task_turns task le later with same | ⟨l, t', since, lt, idle, turn, step, left⟩
  · exact .inl same
  · rw [steps] at step
    obtain ⟨rfl, state⟩ := Prod.mk.inj (Option.some.inj step)
    exact .inr ⟨l, since, lt, idle, turn, state.symm, left⟩

/-- A task is there until it is dropped. -/
theorem task_kept (task : r.task i m = some t) (le : m ≤ n) (kept : ∀ l < n, r.turns l ≠ .drop i) :
    ∃ u, r.task i n = some u := by
  induction n, le using Nat.le_induction with
  | base => exact ⟨t, task⟩
  | succ n le ih =>
    obtain ⟨u, before⟩ := ih fun l lt => kept l (by omega)
    by_cases turn : r.turns n = .step i
    · cases step : u.step? (r.state n) with
      | none =>
        have same := pool_of_stuck turn before step
        exact ⟨u, (congrArg (fun p => p.tasks i) same).trans before⟩
      | some next => exact ⟨next.1, (task_step turn before step).1⟩
    · exact ⟨u, (task_skip turn (kept n (by omega))).trans before⟩

theorem task_none (gone : r.task j m = none) (le : m ≤ n) : r.task j n = none := by
  induction n, le using Nat.le_induction with
  | base => exact gone
  | succ n _ ih =>
    cases later : r.task j (n + 1) with
    | none => rfl
    | some t =>
      rcases task_succ later with ⟨before, _⟩ | ⟨t', before, _⟩
      · cases ih.symm.trans before
      · cases ih.symm.trans before

theorem task_drop (turn : r.turns n = .drop j) : r.task j (n + 1) = none ∧ r.state (n + 1) = r.state n := by
  simp [Run.task, Run.state, Run.pool, turn, Pool.turn, Pool.set]

theorem pool_of_none (turn : r.turns n = .step j) (gone : r.task j n = none) : r.pool (n + 1) = r.pool n := by
  have none : (r.pool n).tasks j = none := gone
  simp [Run.pool, turn, Pool.turn, none]

/-! ### Parts of a task -/

/-- From one time to another a part of task `i` has been taken so far by the turns of the task. -/
inductive Advances {β : Type} (r : Run σ α) (i : Nat) : Task σ β → Nat → Task σ β → Nat → Prop
  | refl : Advances r i t n t n
  | step (turn : r.turns m = .step i) (step : t.step? (r.state m) = some (t', s'))
    (rest : Advances r i t' (m + 1) u n) : Advances r i t m u n
  | skip (turn : r.turns m ≠ .step i) (kept : r.turns m ≠ .drop i)
    (rest : Advances r i t (m + 1) u n) : Advances r i t m u n

/-- Task `i` stands before a part of it at one time, and has done it with a value at another. -/
def Performs (r : Run σ α) (i : Nat) (part : Task σ β) (m : Nat) (b : β) (n : Nat) : Prop :=
  (∃ k : β → Task σ α, r.task i m = some (part.andThen k)) ∧ r.Advances i part m (.done b) n

theorem Advances.le (h : r.Advances i t m u n) : m ≤ n := by
  induction h with
  | refl => exact Nat.le_refl _
  | step _ _ _ ih => omega
  | skip _ _ _ ih => omega

theorem Advances.trans (first : r.Advances i t l u m) (second : r.Advances i u m v n) : r.Advances i t l v n := by
  induction first with
  | refl => exact second
  | step turn step _ ih => exact .step turn step (ih second)
  | skip turn kept _ ih => exact .skip turn kept (ih second)

theorem Advances.first (h : r.Advances i t m u n) (task : r.task i m = some t) : u = t ∨
    ∃ l t', l < n ∧ r.turns l = .step i ∧ t.step? (r.state l) = some (t', r.state (l + 1)) ∧
      r.task i (l + 1) = some t' ∧ r.Advances i t' (l + 1) u n := by
  induction h with
  | refl => exact .inl rfl
  | step turn step rest _ =>
    obtain ⟨later, state⟩ := task_step turn task step
    exact .inr ⟨_, _, rest.le, turn, by rw [state]; exact step, later, rest⟩
  | skip turn kept rest ih =>
    rcases ih ((task_skip turn kept).trans task) with same | ⟨l, t', found⟩
    · exact .inl same
    · exact .inr ⟨l, t', found⟩

theorem Advances.next (h : r.Advances i t m (.done b) n) (turn : r.turns m = .step i)
    (step : t.step? (r.state m) = some (t', s')) : r.Advances i t' (m + 1) (.done b) n := by
  cases h with
  | refl => cases step
  | step _ first rest =>
    cases first.symm.trans step
    exact rest
  | skip other _ _ => exact (other turn).elim

theorem Advances.task {k : β → Task σ α} (h : r.Advances i t m u n) (task : r.task i m = some (t.andThen k)) :
    r.task i n = some (u.andThen k) := by
  induction h with
  | refl => exact task
  | step turn step _ ih => exact ih (task_step turn task (Task.step?_andThen step k)).1
  | skip turn kept _ ih => exact ih ((task_skip turn kept).trans task)

theorem advances_of_task (start : r.task i m = some t) (le : m ≤ n) (task : r.task i n = some u)
    (going : ∀ s, u.step? s ≠ none) : r.Advances i t m u n := by
  induction n, le using Nat.le_induction generalizing u with
  | base =>
    cases start.symm.trans task
    exact .refl
  | succ n _ ih =>
    rcases task_succ task with ⟨same, kept, stuck⟩ | ⟨v, before, turn, step⟩
    · have turn : r.turns n ≠ .step i := fun e => going _ (stuck e)
      exact (ih same going).trans (.skip turn kept .refl)
    · exact (ih before (Task.step?_ne_none step)).trans (.step turn step .refl)

/-- A part that ends soon is performed by a task that is not dropped and has enough turns. -/
theorem performs_of_turns {k : β → Task σ α} (task : r.task i m = some (t.andThen k)) (short : t.EndsWithin d)
    (kept : ∀ l < n, r.turns (m + l) ≠ .drop i) (turns : d ≤ Nat.count (fun l => r.turns (m + l) = .step i) n) :
    ∃ b, ∃ l ≤ m + n, r.Performs i t m b l := by
  suffices h : ∃ b, ∃ l ≤ m + n, r.Advances i t m (.done b) l by
    obtain ⟨b, l, le, advances⟩ := h
    exact ⟨b, l, le, ⟨k, task⟩, advances⟩
  induction n generalizing t m d with
  | zero =>
    rw [Nat.count_zero] at turns
    obtain rfl : d = 0 := by omega
    cases t with
    | done b => exact ⟨b, m, by omega, .refl⟩
    | act change next => exact short.elim
    | wait change next => exact short.elim
  | succ n ih =>
    have shift : (fun l => r.turns (m + (l + 1)) = .step i) = fun l => r.turns (m + 1 + l) = .step i := by
      funext l
      rw [Nat.add_right_comm m 1 l, Nat.add_assoc]
    have kept' : ∀ l < n, r.turns (m + 1 + l) ≠ .drop i := by
      intro l lt
      rw [Nat.add_right_comm m 1 l, Nat.add_assoc]
      exact kept (l + 1) (by omega)
    rw [Nat.count_succ'] at turns
    simp only [shift, Nat.add_zero] at turns
    by_cases turn : r.turns m = .step i
    · rw [if_pos turn] at turns
      cases step : t.step? (r.state m) with
      | none =>
        cases t with
        | done b => exact ⟨b, m, by omega, .refl⟩
        | act change next => cases step
        | wait change next => cases step
      | some next =>
        obtain ⟨t', s'⟩ := next
        have later := (task_step turn task (Task.step?_andThen step k)).1
        have shorter : t'.EndsWithin (d - 1) := by
          cases d with
          | zero => cases t <;> first | exact short.elim | cases step
          | succ d => exact short.step step
        obtain ⟨b, l, le, rest⟩ := ih later shorter kept' (by omega)
        exact ⟨b, l, by omega, .step turn step rest⟩
    · rw [if_neg turn] at turns
      have stays := kept 0 (by omega)
      have later := (task_skip turn stays).trans task
      obtain ⟨b, l, le, rest⟩ := ih later short kept' (by omega)
      exact ⟨b, l, by omega, .skip turn stays rest⟩

/-- A part of task `i` as far as so many turns take it, unless the task is dropped or done before. -/
def taken (r : Run σ α) (i : Nat) : Task σ β → Nat → Nat → Option (Task σ β)
  | t, _, 0 => some t
  | t, m, d + 1 =>
    if r.turns m = .step i then (t.step? (r.state m)).bind fun next => r.taken i next.1 (m + 1) d
    else if r.turns m = .drop i then none
    else r.taken i t (m + 1) d

theorem advances_of_taken {t : Task σ β} (h : r.taken i t m d = some u) : r.Advances i t m u (m + d) := by
  induction d generalizing t m with
  | zero =>
    cases h
    exact .refl
  | succ d ih =>
    unfold taken at h
    rw [← Nat.add_assoc, Nat.add_right_comm]
    split at h
    · rename_i turn
      obtain ⟨⟨t', s'⟩, step, rest⟩ := Option.bind_eq_some_iff.mp h
      exact .step turn step (ih rest)
    · rename_i turn
      split at h
      · cases h
      · rename_i kept
        exact .skip turn kept (ih h)

theorem performs_of_taken {t : Task σ β} {k : β → Task σ α} (task : r.task i m = some (t.andThen k)) (d : Nat)
    (value : (r.taken i t m d).bind Task.value? = some b) : r.Performs i t m b (m + d) := by
  obtain ⟨u, found, value⟩ := Option.bind_eq_some_iff.mp value
  cases u with
  | done a =>
    cases value
    exact ⟨⟨k, task⟩, advances_of_taken found⟩
  | act change next => cases value
  | wait change next => cases value

/-! ### Contracts of all tasks -/

/-- All tasks of a run keep to contracts that fit each other. -/
structure Sound (r : Run σ α) (rely : σ → σ → Prop) (guar : Nat → σ → σ → Prop) : Prop where
  refl : ∀ s, rely s s
  trans : ∀ {a b c}, rely a b → rely b c → rely a c
  fits : ∀ {i a b}, guar i a b → rely a b
  start : ∀ {i t}, r.task i 0 = some t → t.Keeps rely (guar i) (fun _ _ => True) (r.state 0)

section Sound
variable {rely : σ → σ → Prop} {guar : Nat → σ → σ → Prop}

theorem Sound.keeps (sound : r.Sound rely guar) (n : Nat) :
    ∀ {i t}, r.task i n = some t → t.Keeps rely (guar i) (fun _ _ => True) (r.state n) := by
  induction n with
  | zero => exact sound.start
  | succ n ih =>
    intro i u task
    have between : rely (r.state n) (r.state (n + 1)) := by
      rcases r.state_succ n with same | ⟨j, t, t', _, before, step⟩
      · rw [same]
        exact sound.refl _
      · exact sound.fits ((ih before).step sound.refl step).1
    rcases task_succ task with ⟨before, _, _⟩ | ⟨t, before, _, step⟩
    · exact (ih before).mono sound.trans between
    · exact ((ih before).step sound.refl step).2

theorem Sound.turn (sound : r.Sound rely guar) (n : Nat) : r.state (n + 1) = r.state n ∨
    ∃ i, r.turns n = .step i ∧ guar i (r.state n) (r.state (n + 1)) := by
  rcases r.state_succ n with same | ⟨i, t, t', turn, task, step⟩
  · exact .inl same
  · exact .inr ⟨i, turn, ((sound.keeps n task).step sound.refl step).1⟩

theorem Sound.relied (sound : r.Sound rely guar) (le : m ≤ n) : rely (r.state m) (r.state n) := by
  induction n, le using Nat.le_induction with
  | base => exact sound.refl _
  | succ n _ ih =>
    rcases sound.turn n with same | ⟨i, _, step⟩
    · rw [same]
      exact ih
    · exact sound.trans ih (sound.fits step)

theorem Sound.advances {guar' : σ → σ → Prop} {post : β → σ → Prop} {k : β → Task σ α}
    (sound : r.Sound rely guar) (h : r.Advances i t m u n) (task : r.task i m = some (t.andThen k))
    (keeps : t.Keeps rely guar' post (r.state m)) : u.Keeps rely guar' post (r.state n) := by
  induction h with
  | refl => exact keeps
  | step turn step _ ih =>
    obtain ⟨later, state⟩ := task_step turn task (Task.step?_andThen step k)
    apply ih later
    rw [state]
    exact (keeps.step sound.refl step).2
  | skip turn kept _ ih =>
    exact ih ((task_skip turn kept).trans task) (keeps.mono sound.trans (sound.relied (Nat.le_succ _)))

theorem Sound.own {guar' : σ → σ → Prop} {post : β → σ → Prop} {k : β → Task σ α} (sound : r.Sound rely guar)
    (h : r.Advances i t m u n) (task : r.task i m = some (t.andThen k)) (keeps : t.Keeps rely guar' post (r.state m)) :
    ∀ l, m ≤ l → l < n → r.turns l = .step i → guar' (r.state l) (r.state (l + 1)) := by
  induction h with
  | refl => exact fun l le lt => by omega
  | step turn step _ ih =>
    obtain ⟨later, state⟩ := task_step turn task (Task.step?_andThen step k)
    obtain ⟨kept, rest⟩ := keeps.step sound.refl step
    rw [← state] at kept rest
    intro l le lt turn'
    rcases Nat.eq_or_lt_of_le le with rfl | lt'
    · exact kept
    · exact ih later rest l lt' lt turn'
  | skip turn kept _ ih =>
    intro l le lt turn'
    rcases Nat.eq_or_lt_of_le le with rfl | lt'
    · exact (turn turn').elim
    · exact ih ((task_skip turn kept).trans task) (keeps.mono sound.trans (sound.relied (Nat.le_succ _))) l lt' lt turn'

/-- What a part promises holds when it has been performed. -/
theorem Sound.performs {guar' : σ → σ → Prop} {post : β → σ → Prop} (sound : r.Sound rely guar)
    (h : r.Performs i t m b n) (keeps : t.Keeps rely guar' post (r.state m)) : post b (r.state n) := by
  obtain ⟨⟨k, task⟩, advances⟩ := h
  exact sound.advances advances task keeps _ (sound.refl _)

/-- What a task promises holds as long as it goes on, and where it ends. -/
theorem Sound.keeps_task {guar' : σ → σ → Prop} {post : α → σ → Prop} (sound : r.Sound rely guar)
    (start : r.task i 0 = some t) (keeps : t.Keeps rely guar' post (r.state 0)) (n : Nat) :
    ∀ {u}, r.task i n = some u → u.Keeps rely guar' post (r.state n) := by
  induction n with
  | zero =>
    intro u task
    cases start.symm.trans task
    exact keeps
  | succ n ih =>
    intro u task
    rcases task_succ task with ⟨before, _, _⟩ | ⟨v, before, _, step⟩
    · exact (ih before).mono sound.trans (sound.relied (Nat.le_succ n))
    · exact ((ih before).step sound.refl step).2

end Sound
end Run
end EngineClient
