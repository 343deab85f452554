import EngineClient.Proofs.Alike
import EngineClient.Proofs.Given.Course

/-!
# Calls that came before

On a connection whose authorization is given, what was called before makes no difference to what is called later, as
long as the network replies as before. What was sent and logged goes on from where it was, and so does the clock.
-/

namespace EngineClient
open EngineClient.State EngineClient.Task

/-! ### Wires with a past -/

namespace Wire

/-- What a wire would be if another one had come before it. -/
def before (past w : Wire) : Wire :=
  { w with
    network := past.network
    now := ⟨past.now.nanos + w.now.nanos⟩
    sent := past.sent ++ w.sent
    log := past.log ++ w.log }

/-- A wire without a past that replies as another one does from now on. -/
def anew (past : Wire) : Wire where
  network := fun sent => past.network (past.sent ++ sent)
  now := ⟨0⟩
  today := past.today
  isOpen := past.isOpen

theorem note_before (e : LogEvent) (past w : Wire) : (past.before w).note e = past.before (w.note e) := by
  unfold note before
  simp only [List.append_assoc]

theorem before_anew (past : Wire) : past.before past.anew = past := by
  unfold before anew
  simp only [List.append_nil, Nat.add_zero]

end Wire

namespace Client
variable {past w : Wire} (c : Client)

/-- An exchange that departed so much later. -/
def InFlight.after (past : Instant) (flight : InFlight) : InFlight :=
  { flight with departed := ⟨past.nanos + flight.departed.nanos⟩ }

theorem noteIf_before (e : LogEvent) : c.noteIf e (past.before w) = past.before (c.noteIf e w) := by
  unfold noteIf
  split
  · exact Wire.note_before e past w
  · rfl

theorem shut_before : shut (past.before w) = past.before (shut w) := by
  have opened : (past.before w).isOpen = w.isOpen := rfl
  unfold shut
  rw [opened]
  split
  · rw [Wire.note_before]
    rfl
  · rfl

theorem network_shut (w : Wire) : (shut w).network = w.network := by
  unfold shut
  split <;> rfl

theorem record_before (x : Sent) : (past.before w).record x = past.before (w.record x) := by
  unfold Wire.record Wire.before
  simp only [List.append_assoc]

theorem depart_before (o : Outbound) (replies : w.network = past.anew.network) : c.depart o (past.before w) =
    ((c.depart o w).1.map (InFlight.after past.now), past.before (c.depart o w).2) := by
  have outcome : (past.before w).network (past.before w).sent o = w.network w.sent o := by
    rw [replies]
    rfl
  unfold depart
  rw [outcome, noteIf_before]
  unfold trace
  cases w.network w.sent o with
  | unreachable f =>
    dsimp only
    rw [noteIf_before]
    rfl
  | refused f | broken f | silent | answered delay reply =>
    dsimp only
    rw [record_before]
    rfl

theorem waitUntil_before (t : Instant) : waitUntil ⟨past.now.nanos + t.nanos⟩ (past.before w) =
    past.before (waitUntil t w) := by
  unfold waitUntil Wire.before
  simp only [Nat.add_max_add_left]

theorem arrive_before (flight : InFlight) : c.arrive (flight.after past.now) (past.before w) =
    ((c.arrive flight w).1, past.before (c.arrive flight w).2) := by
  have later : ∀ d, (flight.after past.now).departed.later d = ⟨past.now.nanos + (flight.departed.later d).nanos⟩ := by
    intro d
    unfold InFlight.after Instant.later
    simp only [Nat.add_assoc]
  unfold arrive Client.deadline
  simp only [later]
  have outcome : (flight.after past.now).outcome = flight.outcome := rfl
  have outbound : (flight.after past.now).outbound = flight.outbound := rfl
  rw [outcome, outbound]
  cases flight.outcome with
  | unreachable f | refused f | broken f =>
    dsimp only
    rw [noteIf_before]
  | silent =>
    dsimp only
    rw [waitUntil_before]
  | answered delay reply =>
    dsimp only
    simp only [ge_iff_le, Nat.add_le_add_iff_left]
    split
    · rw [waitUntil_before]
    · rw [waitUntil_before, noteIf_before]

theorem network_noteIf (e : LogEvent) (w : Wire) : (c.noteIf e w).network = w.network := by
  unfold noteIf
  split <;> rfl

theorem network_depart (o : Outbound) (w : Wire) : (c.depart o w).2.network = w.network := by
  unfold depart trace
  cases w.network w.sent o with
  | unreachable f =>
    dsimp only
    rw [network_noteIf, network_noteIf]
  | refused f | broken f | silent | answered delay reply => exact c.network_noteIf _ w

theorem network_arrive (flight : InFlight) (w : Wire) : (c.arrive flight w).2.network = w.network := by
  unfold arrive
  dsimp only
  split
  · exact c.network_noteIf _ w
  · exact c.network_noteIf _ w
  · exact c.network_noteIf _ w
  · rfl
  · split
    · rfl
    · exact c.network_noteIf _ _

end Client

/-! ### Tasks go alike with and without a past -/

/-- A state on a wire with a past. -/
def State.resume (past : Wire) (s : State) : State :=
  s.setWire (past.before s.wire)

@[simp]
theorem State.closed_resume (past : Wire) (s : State) : (s.resume past).closed = s.closed := rfl

@[simp]
theorem State.slot_resume (past : Wire) (s : State) : (s.resume past).slot = s.slot := rfl

theorem State.note_resume (e : LogEvent) (past : Wire) (s : State) :
    (s.resume past).note e = (s.note e).resume past :=
  congrArg s.setWire (Wire.note_before e past s.wire)

/-- One state is another one on a wire with a past, and the network replies as from then on. -/
def State.Resumes (past : Wire) (s s' : State) : Prop :=
  s.wire.network = past.anew.network ∧ s' = s.resume past

section Alike
variable {past : Wire} {next : State → Task State α} {next' : State → Task State β} {post : α → β → Prop}

theorem resumes_act {f g : State → State} (kept : ∀ s, (f s).wire.network = s.wire.network)
    (same : ∀ s, s.wire.network = past.anew.network → g (s.resume past) = (f s).resume past)
    (rest : ∀ s, s.wire.network = past.anew.network → (next s).Alike (Resumes past) post (next' (s.resume past))) :
    (act f next).Alike (Resumes past) post (act g next') := by
  refine .act ?_ ?_
  · rintro s _ ⟨replies, rfl⟩
    exact ⟨(kept s).trans replies, same s replies⟩
  · rintro s _ ⟨replies, rfl⟩
    exact rest s replies

theorem resumes_wait {f g : State → State} (kept : ∀ s, (f s).wire.network = s.wire.network)
    (same : ∀ s, g (s.resume past) = (f s).resume past)
    (rest : ∀ s, (next s).Alike (Resumes past) post (next' (s.resume past))) :
    (wait f next).Alike (Resumes past) post (wait g next') := by
  refine .wait ?_ ?_
  · rintro s _ ⟨replies, rfl⟩
    exact ⟨(kept s).trans replies, same s⟩
  · rintro s _ ⟨_, rfl⟩
    exact rest s

theorem resumes_look (rest : ∀ s, (next s).Alike (Resumes past) post (next' (s.resume past))) :
    (act id next).Alike (Resumes past) post (act id next') :=
  resumes_act (fun _ => rfl) (fun _ _ => rfl) fun s _ => rest s

theorem resumes_note (e : LogEvent) (rest : ∀ s, (next s).Alike (Resumes past) post (next' (s.resume past))) :
    (act (State.note e) next).Alike (Resumes past) post (act (State.note e) next') :=
  resumes_act (fun _ => rfl) (fun s _ => note_resume e past s) fun s _ => rest s

theorem resumes_update {f : State → State} (kept : ∀ s, (f s).wire.network = s.wire.network)
    (same : ∀ s, f (s.resume past) = (f s).resume past) :
    (Task.update f).Alike (Resumes past) (fun a b => b = a) (Task.update f) :=
  resumes_act kept (fun s _ => same s) fun _ _ => .done rfl

/-- A task gives the same with a past as without. -/
def Task.Timeless (past : Wire) (t : Task State α) : Prop :=
  t.Alike (Resumes past) (fun a b => b = a) t

theorem Task.Timeless.andThen {t : Task State α} {k : α → Task State β} (first : t.Timeless past)
    (rest : ∀ a, (k a).Timeless past) : (t.andThen k).Timeless past := by
  refine Alike.andThen first ?_
  rintro _ a rfl
  exact rest a

theorem Task.Timeless.map {t : Task State α} (first : t.Timeless past) (f : α → β) :
    (t.andThen fun a => done (f a)).Timeless past :=
  first.andThen fun _ => .done rfl

theorem timeless_done {α : Type} (a : α) : (done a : Task State α).Timeless past :=
  .done rfl

end Alike

/-! ### Calls -/

namespace Connection
variable {c : Connection} {past : Wire}

theorem exchange_timeless (c : Client) (d : Draft) {k : Except ClientError Reply → Task State α}
    (rest : ∀ reply, (k reply).Timeless past) :
    (((c.send d).within State.wire State.setWire).andThen k).Timeless past := by
  rw [Client.send_within_run]
  refine resumes_look fun s => ?_
  have cleared : c.clear d (s.resume past).wire = c.clear d s.wire := rfl
  rw [cleared]
  cases c.clear d s.wire with
  | error e => exact rest (.error e)
  | ok o =>
    have departs : ∀ s : State, s.wire.network = past.anew.network → c.depart o (s.resume past).wire =
        ((c.depart o s.wire).1.map (Client.InFlight.after past.now), past.before (c.depart o s.wire).2) :=
      fun s replies => c.depart_before o replies
    refine resumes_act (fun s => c.network_depart o s.wire) (fun s replies => ?_) fun s replies => ?_
    · rw [departs s replies]
      rfl
    · rw [departs s replies]
      cases (c.depart o s.wire).1 with
      | error e => exact rest (.error e)
      | ok flight =>
        have arrives : ∀ s : State, c.arrive (flight.after past.now) (s.resume past).wire =
            ((c.arrive flight s.wire).1, past.before (c.arrive flight s.wire).2) :=
          fun s => c.arrive_before flight
        refine resumes_wait (fun s => c.network_arrive flight s.wire) (fun s => ?_) fun s => ?_
        · rw [arrives s]
          rfl
        · rw [arrives s]
          exact rest _

theorem judge_timeless (x : Except Error Response) : (judge x).Timeless past := by
  cases x with
  | error e => exact timeless_done _
  | ok response =>
    unfold judge
    dsimp only
    split
    · exact timeless_done _
    · exact resumes_look fun s => .done rfl

theorem noted_timeless (x : Except Error Response) : ((noted x).andThen judge).Timeless past := by
  cases x with
  | error e => exact timeless_done _
  | ok response => exact resumes_note _ fun _ => judge_timeless _

theorem checkOpen_timeless : TokenCache.checkOpen.run.Timeless past := by
  rw [TokenCache.checkOpen_run]
  refine resumes_look fun s => ?_
  rw [slot_resume]
  split
  · exact timeless_done _
  · exact timeless_done _

variable (fixed : c.tokens.strategy.fixed? = some a)
include fixed

theorem send_timeless (request : Request) : (c.send request).run.Timeless past := by
  rw [send_fixed_run fixed]
  refine resumes_look fun s => ?_
  rw [closed_resume]
  split
  · exact timeless_done _
  · refine resumes_look fun s => ?_
    rw [slot_resume]
    split
    · exact timeless_done _
    · exact resumes_note _ fun _ => exchange_timeless c.client _ fun reply => noted_timeless _

theorem ensure_timeless : c.tokens.ensure.run.Timeless past := by
  unfold TokenCache.ensure
  cases strategy : c.tokens.strategy with
  | signOn service => exact (not_signOn fixed strategy).elim
  | basic a => exact timeless_done _
  | token token =>
    dsimp only
    rw [Call.run_bind]
    refine checkOpen_timeless.andThen fun r => ?_
    cases r with
    | error e => exact timeless_done _
    | ok _ => exact timeless_done _

theorem authenticate_timeless : c.authenticate.run.Timeless past := by
  unfold authenticate
  rw [Call.run_bind, ensureOpen_run]
  refine resumes_look fun s => ?_
  dsimp only
  rw [closed_resume]
  split
  · exact timeless_done _
  · dsimp only [andThen]
    rw [TokenCache.token_run]
    exact (ensure_timeless fixed).map _

theorem close_timeless : c.close.Timeless past := by
  rw [close_run]
  refine resumes_act (fun _ => rfl) (fun _ _ => rfl) fun s _ => ?_
  rw [closed_resume]
  split
  · exact timeless_done _
  · have revokes : c.tokens.revoke.Timeless past := by
      rw [TokenCache.revoke_run]
      refine resumes_act (fun _ => rfl) (fun _ _ => rfl) fun s _ => ?_
      cases strategy : c.tokens.strategy with
      | signOn service => exact (not_signOn fixed strategy).elim
      | token token => exact timeless_done _
      | basic a => exact timeless_done _
    have shuts : (Client.close.within State.wire State.setWire).Timeless past := by
      refine resumes_act (fun s => Client.network_shut s.wire) (fun s _ => ?_) fun _ _ => .done rfl
      exact congrArg s.setWire Client.shut_before
    exact revokes.andThen fun _ => shuts.andThen fun _ => resumes_note _ fun _ => .done rfl

end Connection

/-! ### Acts -/

/-- A change outside leaves the network alone and is the same with a past as without. -/
def Act.Timeless (past : Wire) : Act → Prop
  | .outside change => ∀ w, (change w).network = w.network ∧ change (past.before w) = past.before (change w)
  | _ => True

namespace Connection
variable {c : Connection} {past : Wire} (fixed : c.tokens.strategy.fixed? = some a)
include fixed

theorem task_timeless {act : Act} (timeless : act.Timeless past) : (act.task c).Timeless past := by
  cases act with
  | close => exact (close_timeless fixed).map _
  | outside change =>
    have changes : (changeOutside change).Timeless past := by
      refine resumes_update (fun s => (timeless s.wire).1) fun s => ?_
      show s.setWire (change (past.before s.wire)) = _
      rw [(timeless s.wire).2]
      rfl
    exact changes.map _
  | call entry =>
    have run : (Act.call entry).task c = (entry.call c).run := rfl
    rw [run, entry.call_run c]
    split
    · exact (authenticate_timeless fixed).map _
    · exact (send_timeless fixed _).map _
    · exact timeless_done _

theorem mingle_resumes {acts : Nat → Act} (timeless : ∀ i, (acts i).Timeless past) (turns : Nat → Turn) (n : Nat) :
    ((c.mingle acts { wire := past.anew } turns).pool n).Alike (Resumes past) (fun a b => b = a)
      ((c.mingle acts { wire := past } turns).pool n) := by
  have start : ({ wire := past } : State) = State.resume past { wire := past.anew } := by
    unfold resume
    rw [past.before_anew]
    rfl
  refine Pool.Alike.pool ⟨⟨rfl, start⟩, fun i => ?_⟩ turns n
  exact .inr ⟨_, _, rfl, rfl, task_timeless fixed (timeless i)⟩

end Connection
end EngineClient
