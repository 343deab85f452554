import EngineClient.Proofs.Run

/-!
# Tasks that go alike

Two tasks go alike if they take steps of the same kinds, keep states related that are related, and end with related
values. Then they do so under every schedule, and nobody can tell one from the other by what is related.
-/

namespace EngineClient
namespace Task

/-- From related states on, two tasks take their steps side by side. -/
inductive Alike (rel : σ → τ → Prop) (post : α → β → Prop) : Task σ α → Task τ β → Prop
  | done (values : post a b) : Alike rel post (done a) (done b)
  | act (steps : ∀ s t, rel s t → rel (f s) (g t)) (rest : ∀ s t, rel s t → Alike rel post (next s) (next' t)) :
    Alike rel post (act f next) (act g next')
  | wait (steps : ∀ s t, rel s t → rel (f s) (g t)) (rest : ∀ s t, rel s t → Alike rel post (next s) (next' t)) :
    Alike rel post (wait f next) (wait g next')

section Alike
variable {rel : σ → τ → Prop} {post : α → β → Prop} {t : Task σ α} {u : Task τ β}

theorem Alike.andThen {post' : γ → δ → Prop} {k : α → Task σ γ} {l : β → Task τ δ} (alike : t.Alike rel post u)
    (rest : ∀ a b, post a b → (k a).Alike rel post' (l b)) : (t.andThen k).Alike rel post' (u.andThen l) := by
  induction alike with
  | done values => exact rest _ _ values
  | act steps _ ih => exact .act steps ih
  | wait steps _ ih => exact .wait steps ih

theorem Alike.run (alike : t.Alike rel post u) (related : rel s s') :
    post (t.run s).1 (u.run s').1 ∧ rel (t.run s).2 (u.run s').2 := by
  induction alike generalizing s s' with
  | done values => exact ⟨values, related⟩
  | act steps _ ih | wait steps _ ih => exact ih s s' related (steps s s' related)

theorem Alike.step (alike : t.Alike rel post u) (related : rel s s') :
    (t.step? s = none ∧ u.step? s' = none) ∨ ∃ t₁ s₁ u₁ s₁', t.step? s = some (t₁, s₁) ∧
      u.step? s' = some (u₁, s₁') ∧ rel s₁ s₁' ∧ t₁.Alike rel post u₁ := by
  cases alike with
  | done values => exact .inl ⟨rfl, rfl⟩
  | act steps rest | wait steps rest =>
    exact .inr ⟨_, _, _, _, rfl, rfl, steps s s' related, rest s s' related⟩

theorem Alike.value {u : Task τ α} (alike : t.Alike rel (fun a b => b = a) u) : u.value? = t.value? := by
  cases alike with
  | done values => exact congrArg some values
  | act _ _ => rfl
  | wait _ _ => rfl

end Alike
end Task

/-! ### Runs that go alike -/

/-- The states of two pools are related, and the tasks that are left go alike. -/
structure Pool.Alike (rel : σ → τ → Prop) (post : α → β → Prop) (p : Pool σ α) (q : Pool τ β) : Prop where
  state : rel p.state q.state
  tasks : ∀ i, (p.tasks i = none ∧ q.tasks i = none) ∨
    ∃ t u, p.tasks i = some t ∧ q.tasks i = some u ∧ t.Alike rel post u

section Pools
variable {rel : σ → τ → Prop} {post : α → β → Prop} {p : Pool σ α} {q : Pool τ β}

theorem Pool.Alike.turn (alike : p.Alike rel post q) (turn : Turn) : (p.turn turn).Alike rel post (q.turn turn) := by
  cases turn with
  | drop i =>
    refine ⟨alike.state, fun j => ?_⟩
    by_cases dropped : j = i
    · simp [Pool.turn, Pool.set, dropped]
    · simpa [Pool.turn, Pool.set, dropped] using alike.tasks j
  | step i =>
    rcases alike.tasks i with ⟨none, none'⟩ | ⟨t, u, task, task', same⟩
    · simpa [Pool.turn, none, none'] using alike
    · rcases same.step alike.state with ⟨stuck, stuck'⟩ | ⟨t₁, s₁, u₁, s₁', step, step', related, rest⟩
      · simpa [Pool.turn, task, task', stuck, stuck'] using alike
      · have taken : p.turn (.step i) = p.set i (some t₁) s₁ := by simp [Pool.turn, task, step]
        have taken' : q.turn (.step i) = q.set i (some u₁) s₁' := by simp [Pool.turn, task', step']
        rw [taken, taken']
        refine ⟨related, fun j => ?_⟩
        by_cases own : j = i
        · simpa [Pool.set, own] using rest
        · simpa [Pool.set, own] using alike.tasks j

theorem Pool.Alike.value {q : Pool τ α} (alike : p.Alike rel (fun a b => b = a) q) (i : Nat) :
    (q.tasks i).map Task.value? = (p.tasks i).map Task.value? := by
  rcases alike.tasks i with ⟨none, none'⟩ | ⟨t, u, task, task', same⟩
  · rw [none, none']
    rfl
  · rw [task, task', Option.map_some, Option.map_some, same.value]

theorem Pool.Alike.values (alike : p.Alike rel post q) (i : Nat) :
    Option.Rel (Option.Rel post) ((p.tasks i).map Task.value?) ((q.tasks i).map Task.value?) := by
  rcases alike.tasks i with ⟨none, none'⟩ | ⟨t, u, task, task', same⟩
  · rw [none, none']
    exact .none
  · rw [task, task']
    cases same with
    | done values => exact .some (.some values)
    | act _ _ => exact .some .none
    | wait _ _ => exact .some .none

/-- Pools that are alike stay so under every schedule. -/
theorem Pool.Alike.pool (alike : p.Alike rel post q) (turns : Nat → Turn) (n : Nat) :
    (Run.pool ⟨p, turns⟩ n).Alike rel post (Run.pool ⟨q, turns⟩ n) := by
  induction n with
  | zero => exact alike
  | succ n ih => exact ih.turn (turns n)

end Pools
end EngineClient
