import EngineClient.Api.Connection
import EngineClient.Proofs.Run
import EngineClient.Proofs.Token.Invariant

/-!
# Contracts of calls

What each call on a connection does to the token and what it promises of its value, whatever other calls do between
its steps.
-/

namespace EngineClient
open EngineClient.State EngineClient.Task

/-- Finding or fetching a token begins flights and settles the slot; it never empties or revokes it. -/
def State.Deed.Fetches (d : Deed) : Prop :=
  d = .other ∨ d = .begin ∨ d = .settle

variable {margin : Span} {allowed : Deed → Prop} {s s' : State}

/-! ### Single steps -/

theorem does_other (other : allowed .other) (move : Move margin .other s s') : Does margin allowed s s' :=
  ⟨.other, other, move⟩

theorem Task.Keeps.lasting {post : α → State → Prop} {t : Task State α} (coherent : s.Coherent)
    (keeps : t.Keeps Lawful (Does margin allowed) post s) : t.Keeps Lawful (Does margin allowed)
      (fun a s => s.Coherent ∧ ∀ s', Lawful s s' → post a s') s :=
  (keeps.persist Lawful.trans).invariant (fun lawful coherent => (lawful coherent).1)
    (fun step coherent => (step.lawful coherent).1) coherent

theorem Call.run_bind (x : Call α) (f : α → Call β) : (x >>= f).run = x.run.andThen fun r => match r with
    | .ok a => (f a).run
    | .error e => done (.error e) := by
  refine congrArg (Task.andThen _) (funext fun r => ?_)
  cases r <;> rfl

theorem Call.run_ofTask_bind (t : Task State α) (f : α → Call β) :
    (Call.ofTask t >>= f).run = t.andThen fun a => (f a).run := by
  have lifted : (Call.ofTask t).run = t.andThen fun a => done (.ok a) := rfl
  rw [Call.run_bind, lifted, andThen_assoc]
  rfl

theorem Call.task_bind {r : Run State γ} {x : Call α} {f : α → Call β} {k : Except Error β → Task State γ}
    (task : r.task i m = some ((x >>= f).run.andThen k)) (first : r.Advances i x.run m (.done (.ok a)) n) :
    r.task i n = some ((f a).run.andThen k) := by
  rw [Call.run_bind, andThen_assoc] at task
  exact first.task task

theorem Call.performs_of_taken {r : Run State γ} {x : Call α} {f : α → Call β} {k : Except Error β → Task State γ}
    (task : r.task i m = some ((x >>= f).run.andThen k)) (d : Nat)
    (value : (r.taken i x.run m d).bind Task.value? = some (.ok a)) :
    r.Performs i x.run m (.ok a) (m + d) ∧ r.task i (m + d) = some ((f a).run.andThen k) := by
  have parts := task
  rw [Call.run_bind, andThen_assoc] at parts
  have performs := Run.performs_of_taken parts d value
  exact ⟨performs, Call.task_bind task performs.2⟩

theorem Call.keeps_bind {rely guar : State → State → Prop} {post : Except Error β → State → Prop}
    {x : Call α} {f : α → Call β} (refl : ∀ a, rely a a)
    (keeps : x.run.Keeps rely guar (fun r s => match r with
      | .ok a => (f a).run.Keeps rely guar post s
      | .error e => ∀ s', rely s s' → post (.error e) s') s) :
    (x >>= f).run.Keeps rely guar post s := by
  refine Keeps.andThen (t := x.run) refl (keeps.imp ?_)
  intro r s h
  cases r with
  | ok a => exact h
  | error e => exact h

/-! ### Kinds of steps -/

/-- From coherent states on, each step of a task is of one of the kinds allowed. -/
def Task.Obeys (margin : Span) (allowed : Deed → Prop) (t : Task State α) : Prop :=
  ∀ s : State, s.Coherent → t.Keeps Lawful (Does margin allowed) (fun _ _ => True) s

theorem Task.Keeps.obeys {post : α → State → Prop} {t : Task State α}
    (keeps : ∀ s, s.Coherent → t.Keeps Lawful (Does margin allowed) post s) : t.Obeys margin allowed :=
  fun s coherent => (keeps s coherent).imp (fun _ _ _ => trivial)

theorem Task.obeys_done (a : α) : (done a : Task State α).Obeys margin allowed :=
  fun _ _ _ _ => trivial

theorem Task.obeys_act {next : State → Task State α} (step : ∀ s, Does margin allowed s (change s))
    (rest : ∀ s, (next s).Obeys margin allowed) : (act change next).Obeys margin allowed := by
  intro s coherent s₁ between
  exact ⟨step s₁, rest s₁ _ ((step s₁).lawful (between coherent).1).1⟩

theorem Task.Obeys.andThen {t : Task State α} {k : α → Task State β} (first : t.Obeys margin allowed)
    (rest : ∀ a, (k a).Obeys margin allowed) : (t.andThen k).Obeys margin allowed := by
  intro s coherent
  refine Keeps.andThen Lawful.refl (((first s coherent).lasting coherent).imp ?_)
  rintro a s' ⟨coherent', _⟩
  exact rest a s' coherent'

theorem Task.Obeys.map {t : Task State α} (h : t.Obeys margin allowed) (f : α → β) :
    (t.andThen fun a => done (f a)).Obeys margin allowed :=
  h.andThen fun a => obeys_done (f a)

theorem Call.obeys_bind {x : Call α} {f : α → Call β} (first : x.run.Obeys margin allowed)
    (rest : ∀ a, (f a).run.Obeys margin allowed) : (x >>= f).run.Obeys margin allowed := by
  refine Obeys.andThen (t := x.run) first ?_
  rintro (e | a)
  · exact obeys_done _
  · exact rest a

theorem Call.obeys_ofTask {t : Task State α} (h : t.Obeys margin allowed) : (Call.ofTask t).run.Obeys margin allowed :=
  h.andThen fun _ => obeys_done _

theorem within_obeys (other : allowed .other) (t : Task Wire α) :
    (t.within State.wire State.setWire).Obeys margin allowed := by
  induction t with
  | done a => exact obeys_done a
  | act change next ih | wait change next ih =>
    exact obeys_act (fun s => does_other other (setWire_move margin _ s)) fun s => ih s.wire

theorem update_obeys {f : State → State} (step : ∀ s, Does margin allowed s (f s)) :
    (Task.update f).Obeys margin allowed :=
  obeys_act step fun _ => obeys_done _

theorem note_obeys (other : allowed .other) (e : LogEvent) : (Task.update (State.note e)).Obeys margin allowed :=
  update_obeys fun s => does_other other (setWire_move margin _ s)

theorem read_obeys (other : allowed .other) (f : State → α) : (Task.read f).Obeys margin allowed :=
  obeys_act (fun s => does_other other (.refl margin s)) fun _ => obeys_done _

/-! ### Flights -/

namespace TokenCache

theorem follow_run (t : TokenCache) (service : SignOn) (g : Nat) : (t.follow service g).run =
    act (launch t.client service g) fun _ => act id fun s =>
      match s.result? g with
      | some r => act (settle t.margin g r) fun _ => done r
      | none => wait (fun s => (land t.client g s).2) fun s =>
        act (settle t.margin g (land t.client g s).1) fun _ => done (land t.client g s).1 := rfl

theorem departed_launch (c : Client) (service : SignOn) (known : (s.flight? g).isSome) :
    (launch c service g s).Departed g := by
  obtain ⟨f, found⟩ := Option.isSome_iff_exists.mp known
  unfold launch
  rw [found]
  cases f with
  | begun =>
    have departs : ∀ s' f', s'.flights = s.flights → f' ≠ .begun → (setFlight g f' s').Departed g := by
      intro s' f' flights gone
      refine ⟨f', ?_, gone⟩
      have same : s'.flight? g = some .begun := by rw [flight?_of_flights flights, found]
      rw [flight?_setFlight, if_pos rfl, same]
      rfl
    dsimp only
    split
    · exact departs _ _ rfl (by simp)
    · split
      · rename_i sent
        obtain ⟨-, rfl⟩ := Prod.mk.inj sent
        exact departs _ _ rfl (by simp)
      · rename_i sent
        obtain ⟨-, rfl⟩ := Prod.mk.inj sent
        exact departs _ _ rfl (by simp)
  | underway e => exact ⟨.underway e, found, by simp⟩
  | landed r => exact ⟨.landed r, found, by simp⟩

theorem result_land (c : Client) (departed : s.Departed g) :
    (land c g s).2.result? g = some (land c g s).1 := by
  obtain ⟨f, found, gone⟩ := departed
  unfold land
  rw [found]
  cases f with
  | begun => exact (gone rfl).elim
  | underway e =>
    rw [result?_eq_some]
    dsimp only
    rw [flight?_setFlight, if_pos rfl]
    have same : (s.onWire (c.arrive e)).2.flight? g = some (.underway e) := found
    rw [same]
    rfl
  | landed r => exact result?_eq_some.mpr found

theorem settled_settle (result : s.result? g = some r) : (s.settle margin g r).slot ≠ .pending g := by
  unfold settle
  split
  · cases r <;> simp
  · assumption

theorem settle_keeps (fetch : ∀ d, d.Fetches → allowed d) (coherent : s.Coherent) (result : s.result? g = some r) :
    (act (settle margin g r) fun _ => done r : Task State (Except Error AccessToken)).Keeps Lawful (Does margin allowed)
      (fun r s => s.result? g = some r ∧ s.slot ≠ .pending g) s := by
  intro s₁ between
  obtain ⟨coherent₁, evolves₁⟩ := between coherent
  have result₁ := evolves₁.result result
  obtain ⟨d, kind, move⟩ := settle_move margin result₁
  refine ⟨⟨d, fetch d (kind.imp id .inr), move⟩, fun s₂ later => ?_⟩
  have evolves₂ := (later (coherent₁.move move)).2
  have result₂ := (Evolves.move coherent₁ move).result result₁
  exact ⟨evolves₂.result result₂, evolves₂.settled (known_of_result result₂) (settled_settle result₁)⟩

/-- Whoever follows a flight gets what the flight has brought, and leaves a slot that does not wait for it. -/
theorem follow_keeps (t : TokenCache) (service : SignOn) (fetch : ∀ d, d.Fetches → allowed d)
    (coherent : s.Coherent) (known : (s.flight? g).isSome) :
    (t.follow service g).run.Keeps Lawful (Does t.margin allowed)
      (fun r s => s.result? g = some r ∧ s.slot ≠ .pending g) s := by
  have other := fetch .other (.inl rfl)
  rw [follow_run]
  intro s₁ between₁
  obtain ⟨coherent₁, evolves₁⟩ := between₁ coherent
  have launched := launch_move t.margin t.client service g s₁
  refine ⟨does_other other launched, fun s₂ between₂ => ?_⟩
  obtain ⟨coherent₂, evolves₂⟩ := between₂ (coherent₁.move launched)
  have departed₂ := evolves₂.departed (departed_launch t.client service (evolves₁.known known))
  refine ⟨does_other other (.refl t.margin s₂), ?_⟩
  dsimp only [id]
  split
  · rename_i r result
    exact settle_keeps fetch coherent₂ result
  · intro s₃ between₃
    obtain ⟨coherent₃, evolves₃⟩ := between₃ coherent₂
    have landed := land_move t.margin t.client g s₃
    exact ⟨does_other other landed,
      settle_keeps fetch (coherent₃.move landed) (result_land t.client (evolves₃.departed departed₂))⟩

end TokenCache

/-! ### Finding a token -/

/-- The generation of the token that was found or is fetched. -/
def State.Found.generation? : Found → Option Nat
  | .closed => none
  | .cached g _ | .flight g => some g

/-- What is known of a state in which something was found. -/
def State.Found.Stands (s : State) : Found → Prop
  | .closed => True
  | .cached g token => s.result? g = some (.ok token) ∧ s.slot ≠ .pending g
  | .flight g => (s.flight? g).isSome

/-- What those who found something get in the end: the token that was cached, or the result of the flight. -/
def State.Found.Brings (r : Except Error (AccessToken × Option Nat)) (s : State) : Found → Prop
  | .closed => r = .error .closed
  | .cached g token => s.result? g = some (.ok token) ∧ s.slot ≠ .pending g ∧ r = .ok (token, some g)
  | .flight g =>
    ∃ result, s.result? g = some result ∧ s.slot ≠ .pending g ∧ r = result.map fun token => (token, some g)

/-- A token that comes with a generation is the one its flight has brought, and that flight is over. -/
def Issued (r : Except Error (AccessToken × Option Nat)) (s : State) : Prop :=
  ∀ token g, r = .ok (token, some g) → s.result? g = some (.ok token) ∧ s.slot ≠ .pending g

theorem State.Found.Brings.issued {found : Found} (h : found.Brings r s) : Issued r s := by
  intro token g same
  subst same
  cases found with
  | closed => cases h
  | cached g' token' =>
    obtain ⟨result, settled, same⟩ := h
    cases same
    exact ⟨result, settled⟩
  | flight g' =>
    obtain ⟨result, landed, settled, same⟩ := h
    cases result with
    | error e => cases same
    | ok token' =>
      cases same
      exact ⟨landed, settled⟩

theorem acquire_does (margin : Span) (fetch : ∀ d, d.Fetches → allowed d) (s : State) :
    Does margin allowed s (s.acquire margin).2 := by
  obtain ⟨d, kind, move⟩ := acquire_move margin s
  exact ⟨d, fetch d (kind.imp id .inl), move⟩

theorem acquire_slot (margin : Span) (s : State) (found : (s.acquire margin).1.generation? = some g) :
    (s.acquire margin).2.slot.generation? = some g := by
  unfold acquire at found ⊢
  split
  · rename_i slot
    rw [slot] at found
    cases found
  · rename_i h slot
    rw [slot] at found
    exact (congrArg Slot.generation? slot).trans found
  · rename_i slot
    rw [slot] at found
    exact found
  · rename_i h t slot
    rw [slot] at found
    dsimp only at found ⊢
    split
    · rename_i expired
      rw [if_pos expired] at found
      exact found
    · rename_i good
      rw [if_neg good] at found
      exact (congrArg Slot.generation? slot).trans found

theorem acquire_stands (margin : Span) (coherent : s.Coherent) :
    (s.acquire margin).1.Stands (s.acquire margin).2 := by
  have new : ∀ s' : State, s'.flights = (s.generation + 1, .begun) :: s.flights →
      (Found.flight (s.generation + 1)).Stands s' := by
    intro s' flights
    simp [Found.Stands, flight?, flights]
  unfold acquire
  split
  · trivial
  · rename_i slot
    exact (coherent.pending slot).2
  · exact new _ rfl
  · rename_i slot
    split
    · exact new _ rfl
    · refine ⟨(coherent.ready slot).2, fun pending => ?_⟩
      cases slot.symm.trans pending

namespace TokenCache

theorem take_flight_run (t : TokenCache) (service : SignOn) (g : Nat) : (t.take service (.flight g)).run =
    (t.follow service g).run.andThen fun r => done (r.map fun token => (token, some g)) := by
  refine congrArg (Task.andThen _) (funext fun r => ?_)
  cases r <;> rfl

theorem take_keeps (t : TokenCache) (service : SignOn) (fetch : ∀ d, d.Fetches → allowed d)
    (coherent : s.Coherent) {found : Found} (stands : found.Stands s) :
    (t.take service found).run.Keeps Lawful (Does t.margin allowed) (fun r s => found.Brings r s) s := by
  cases found with
  | closed => exact fun _ _ => rfl
  | cached g token =>
    intro s' between
    obtain ⟨_, evolves⟩ := between coherent
    obtain ⟨result, settled⟩ := stands
    exact ⟨evolves.result result, evolves.settled (known_of_result result) settled, rfl⟩
  | flight g =>
    rw [take_flight_run]
    refine Keeps.andThen Lawful.refl ?_
    refine ((follow_keeps t service fetch coherent stands).lasting coherent).imp ?_
    rintro r s' ⟨_, lasting⟩ s'' later
    obtain ⟨landed, settled⟩ := lasting s'' later
    exact ⟨r, landed, settled, rfl⟩

theorem ensure_run {t : TokenCache} (signOn : t.strategy = .signOn service) : t.ensure.run =
    act (fun s => (s.acquire t.margin).2) fun s => (t.take service (s.acquire t.margin).1).run := by
  unfold ensure
  rw [signOn]
  rfl

theorem checkOpen_run : checkOpen.run =
    act id fun s => if s.slot = .revoked then done (.error .closed) else done (.ok ()) := by
  refine congrArg (act id) (funext fun s => ?_)
  show (if s.slot = .revoked then throw .closed else pure () : Call Unit).run = _
  split <;> rfl

theorem checkOpen_obeys (other : allowed .other) : checkOpen.run.Obeys margin allowed := by
  refine Call.obeys_bind (Call.obeys_ofTask (read_obeys other _)) fun slot => ?_
  split
  · exact obeys_done _
  · exact obeys_done _

theorem ensure_keeps (t : TokenCache) (fetch : ∀ d, d.Fetches → allowed d) (coherent : s.Coherent) :
    t.ensure.run.Keeps Lawful (Does t.margin allowed) Issued s := by
  cases strategy : t.strategy with
  | signOn service =>
    rw [ensure_run strategy]
    intro s₁ between
    obtain ⟨coherent₁, _⟩ := between coherent
    have does := acquire_does t.margin fetch s₁
    refine ⟨does, ?_⟩
    exact (take_keeps t service fetch (does.lawful coherent₁).1 (acquire_stands t.margin coherent₁)).imp
      fun _ _ brings => brings.issued
  | token token =>
    unfold ensure
    rw [strategy]
    refine Call.keeps_bind Lawful.refl ((checkOpen_obeys (fetch _ (.inl rfl)) s coherent).imp ?_)
    rintro (e | a) s' _
    · exact fun _ _ _ _ same => by cases same
    · exact fun _ _ _ _ same => by cases same
  | basic authorization =>
    unfold ensure
    rw [strategy]
    exact fun _ _ _ _ same => by cases same

end TokenCache
end EngineClient
