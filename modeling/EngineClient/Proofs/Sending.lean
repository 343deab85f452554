import EngineClient.Api.State
import EngineClient.Proofs.Run

/-!
# What tasks send

Whether the steps of a task hand anything over to the network: none of them, or at most one.
-/

namespace EngineClient
open EngineClient.Task

variable {s s' : State}

/-- The next step of a task hands a request over to the network, in some state at least. -/
def Task.Sends (t : Task State α) : Prop :=
  ∃ s t' s', t.step? s = some (t', s') ∧ s'.wire.sent ≠ s.wire.sent

theorem not_sends_act {next : State → Task State α} (same : ∀ s, (change s).wire.sent = s.wire.sent) :
    ¬ (act change next).Sends := by
  rintro ⟨s, t', s', step, sent⟩
  cases step
  exact sent (same s)

theorem going_of_sends {t : Task State α} (sends : t.Sends) (s : State) : t.step? s ≠ none := by
  obtain ⟨_, _, _, step, _⟩ := sends
  exact step?_ne_none step s

/-- No step of a task hands anything over to the network. -/
def Task.Silent : Task State α → Prop
  | done _ => True
  | act change next | wait change next => ∀ s, (change s).wire.sent = s.wire.sent ∧ (next s).Silent

theorem Task.Silent.step {t : Task State α} (silent : t.Silent) (step : t.step? s = some (t', s')) :
    s'.wire.sent = s.wire.sent ∧ t'.Silent := by
  obtain ⟨change, next, shape, rfl, rfl⟩ := step?_eq_some step
  rcases shape with rfl | rfl
  · exact silent s
  · exact silent s

theorem Task.Silent.not_sends {t : Task State α} (silent : t.Silent) : ¬ t.Sends := by
  rintro ⟨s, t', s', step, sent⟩
  exact sent (silent.step step).1

theorem Task.Silent.andThen {t : Task State α} {k : α → Task State β} (first : t.Silent) (rest : ∀ a, (k a).Silent) :
    (t.andThen k).Silent := by
  induction t with
  | done a => exact rest a
  | act change next ih | wait change next ih => exact fun s => ⟨(first s).1, ih s (first s).2⟩

theorem Task.Silent.advances {r : Run State β} {t u : Task State α} (silent : t.Silent)
    (advances : r.Advances i t m u n) : u.Silent := by
  induction advances with
  | refl => exact silent
  | step _ step _ ih => exact ih (silent.step step).2
  | skip _ _ _ ih => exact ih silent

theorem silent_update {f : State → State} (same : ∀ s, (f s).wire.sent = s.wire.sent) : (Task.update f).Silent :=
  fun s => ⟨same s, trivial⟩

/-- At most one step of a task hands something over, and that step is one of `hand`. -/
def Task.SendsOnce (hand : State → State → Prop) : Task State α → Prop
  | done _ => True
  | act change next | wait change next =>
    (∀ s, (change s).wire.sent = s.wire.sent ∧ (next s).SendsOnce hand) ∨
      ∀ s, hand s (change s) ∧ (next s).Silent

section SendsOnce
variable {hand : State → State → Prop} {t t' : Task State α}

theorem Task.Silent.sendsOnce (silent : t.Silent) : t.SendsOnce hand := by
  induction t with
  | done a => trivial
  | act change next ih | wait change next ih => exact .inl fun s => ⟨(silent s).1, ih s (silent s).2⟩

theorem Task.SendsOnce.andThen {k : α → Task State β} (first : t.SendsOnce hand) (rest : ∀ a, (k a).Silent) :
    (t.andThen k).SendsOnce hand := by
  induction t with
  | done a => exact (rest a).sendsOnce
  | act change next ih | wait change next ih =>
    rcases first with quiet | hands
    · exact .inl fun s => ⟨(quiet s).1, ih s (quiet s).2⟩
    · exact .inr fun s => ⟨(hands s).1, (hands s).2.andThen rest⟩

theorem Task.SendsOnce.of_shape (once : t.SendsOnce hand) (shape : t = .act change next ∨ t = .wait change next) :
    (∀ s, (change s).wire.sent = s.wire.sent ∧ (next s).SendsOnce hand) ∨
      ∀ s, hand s (change s) ∧ (next s).Silent := by
  rcases shape with rfl | rfl
  · exact once
  · exact once

theorem Task.SendsOnce.step (once : t.SendsOnce hand) (step : t.step? s = some (t', s')) : t'.SendsOnce hand := by
  obtain ⟨change, next, shape, rfl, rfl⟩ := step?_eq_some step
  rcases once.of_shape shape with quiet | hands
  · exact (quiet s).2
  · exact (hands s).2.sendsOnce

theorem Task.SendsOnce.hands (once : t.SendsOnce hand) (sends : t.Sends) (step : t.step? s = some (t', s')) :
    hand s s' ∧ t'.Silent := by
  obtain ⟨s₁, t₁, s₁', step₁, sent⟩ := sends
  obtain ⟨change, next, shape, rfl, rfl⟩ := step?_eq_some step
  rcases once.of_shape shape with quiet | hands
  · have same : s₁'.wire.sent = s₁.wire.sent := by
      rcases shape with rfl | rfl
      · cases step₁
        exact (quiet s₁).1
      · cases step₁
        exact (quiet s₁).1
    exact (sent same).elim
  · exact hands s

theorem Task.SendsOnce.imp {hand' : State → State → Prop} (once : t.SendsOnce hand)
    (kind : ∀ s s', hand s s' → hand' s s') : t.SendsOnce hand' := by
  induction t with
  | done a => trivial
  | act change next ih | wait change next ih =>
    rcases once with quiet | hands
    · exact .inl fun s => ⟨(quiet s).1, ih s (quiet s).2⟩
    · exact .inr fun s => ⟨kind s _ (hands s).1, (hands s).2⟩

theorem Task.SendsOnce.advances {r : Run State β} {u : Task State α} (once : t.SendsOnce hand)
    (advances : r.Advances i t m u n) : u.SendsOnce hand := by
  induction advances with
  | refl => exact once
  | step _ step _ ih => exact ih (once.step step)
  | skip _ _ _ ih => exact ih once

end SendsOnce

/-! ### Exchanges -/

theorem Client.exchange_run (c : Client) (o : Outbound) : c.exchange o =
    act (fun w => (c.depart o w).2) fun w => match (c.depart o w).1 with
      | .error e => done (.error e)
      | .ok flight => Task.afterWait (c.arrive flight) := rfl

theorem Client.send_run (c : Client) (d : Draft) : c.send d =
    act id fun w => match c.clear d w with
      | .error e => done (.error e)
      | .ok o => c.exchange o := rfl

theorem Client.send_within_run (c : Client) (d : Draft) (k : Except ClientError Reply → Task State α) :
    ((c.send d).within State.wire State.setWire).andThen k =
      act id fun s => match c.clear d s.wire with
        | .error e => k (.error e)
        | .ok o => act (fun s => s.setWire (c.depart o s.wire).2) fun s => match (c.depart o s.wire).1 with
          | .error e => k (.error e)
          | .ok flight => wait (fun s => s.setWire (c.arrive flight s.wire).2) fun s =>
            k (c.arrive flight s.wire).1 := by
  refine congrArg (act _) (funext fun s => ?_)
  dsimp only [id]
  cases c.clear d s.wire with
  | error e => rfl
  | ok o =>
    refine congrArg (act _) (funext fun s => ?_)
    dsimp only
    cases (c.depart o s.wire).1 with
    | error e => rfl
    | ok flight => rfl

theorem Client.sent_noteIf (c : Client) (e : LogEvent) (w : Wire) : (c.noteIf e w).sent = w.sent := by
  unfold noteIf
  split
  · rfl
  · rfl

@[simp]
theorem Client.sent_shut (w : Wire) : (shut w).sent = w.sent := by
  unfold shut
  split <;> rfl

theorem Client.sent_arrive (c : Client) (e : InFlight) (w : Wire) : (c.arrive e w).2.sent = w.sent := by
  unfold arrive
  dsimp only
  split
  · exact c.sent_noteIf _ w
  · exact c.sent_noteIf _ w
  · exact c.sent_noteIf _ w
  · rfl
  · split
    · rfl
    · exact c.sent_noteIf _ _

end EngineClient
