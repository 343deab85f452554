import EngineClient.Proofs.Token.Move

/-!
# The slot and the flights at all times

`Coherent` says how the slot and the flights belong together; `Evolves` says what of a state never changes back.
Every move keeps the one and respects the other, and so does any number of moves.
-/

namespace EngineClient
namespace State

/-- Flights are numbered from one on. The slot is about the last one, and only the last one may be unfinished, while
the slot waits for it or after the end. -/
structure Coherent (s : State) : Prop where
  numbered : s.flights.map Prod.fst = (List.range' 1 s.generation).reverse
  pending : s.slot = .pending g → g = s.generation ∧ (s.flight? g).isSome
  ready : s.slot = .ready g t → g = s.generation ∧ s.result? g = some (.ok t)
  unfinished : s.flight? g = some f → f.isLanded = false → g = s.generation ∧ (s.slot = .pending g ∨ s.slot = .revoked)

/-- What holds between a state and a later one. -/
structure Evolves (s s' : State) : Prop where
  generation : s.generation ≤ s'.generation
  known : (s.flight? g).isSome → (s'.flight? g).isSome
  departed : s.Departed g → s'.Departed g
  result : s.result? g = some r → s'.result? g = some r
  /-- The slot does not wait for a generation again. -/
  settled : (s.flight? g).isSome → s.slot ≠ .pending g → s'.slot ≠ .pending g
  /-- A generation that has left the slot does not come back. -/
  gone : (s.flight? g).isSome → s.slot.generation? ≠ some g → s'.slot.generation? ≠ some g
  revoked : s.slot = .revoked → s'.slot = .revoked ∧ s'.generation = s.generation
  closed : s.closed = true → s'.closed = true

theorem Evolves.refl (s : State) : Evolves s s :=
  ⟨Nat.le_refl _, id, id, id, fun _ => id, fun _ => id, fun h => ⟨h, rfl⟩, id⟩

theorem Evolves.trans (first : Evolves a b) (second : Evolves b c) : Evolves a c where
  generation := Nat.le_trans first.generation second.generation
  known h := second.known (first.known h)
  departed h := second.departed (first.departed h)
  result h := second.result (first.result h)
  settled known h := second.settled (first.known known) (first.settled known h)
  gone known h := second.gone (first.known known) (first.gone known h)
  revoked h := by
    obtain ⟨slot, generation⟩ := first.revoked h
    obtain ⟨slot', generation'⟩ := second.revoked slot
    exact ⟨slot', generation'.trans generation⟩
  closed h := second.closed (first.closed h)

/-! ### Facts on coherent states -/

variable {s s' : State} {g : Nat} {f f' : Flight} {r : Except Error AccessToken} {t : AccessToken}

theorem Coherent.initial (w : Wire) : Coherent { wire := w } where
  numbered := rfl
  pending h := by cases h
  ready h := by cases h
  unfinished h := by cases h

theorem Coherent.length_flights (coherent : s.Coherent) : s.flights.length = s.generation := by
  have same := congrArg List.length coherent.numbered
  rwa [List.length_map, List.length_reverse, List.length_range'] at same

theorem Coherent.fresh (coherent : s.Coherent) (later : s.generation < g) : s.flight? g = none := by
  apply List.lookup_eq_none_iff.mpr
  intro p member
  have key : p.1 ∈ (List.range' 1 s.generation).reverse := by
    rw [← coherent.numbered]
    exact List.mem_map_of_mem member
  rw [List.mem_reverse, List.mem_range'_1] at key
  have other : g ≠ p.1 := by omega
  simpa using other

theorem Coherent.le_generation (coherent : s.Coherent) (known : (s.flight? g).isSome) : g ≤ s.generation := by
  by_contra later
  rw [coherent.fresh (by omega)] at known
  cases known

theorem Coherent.generation_of_slot (coherent : s.Coherent) (slot : s.slot.generation? = some g) :
    g = s.generation := by
  unfold Slot.generation? at slot
  split at slot
  · rename_i h pending
    cases slot
    exact (coherent.pending pending).1
  · rename_i h t ready
    cases slot
    exact (coherent.ready ready).1
  · cases slot

theorem known_of_result (h : s.result? g = some r) : (s.flight? g).isSome := by
  rw [result?_eq_some.mp h]
  rfl

theorem flight?_of_flights (flights : s'.flights = s.flights) (g : Nat) : s'.flight? g = s.flight? g := by
  unfold flight?
  rw [flights]

theorem result?_of_flights (flights : s'.flights = s.flights) (g : Nat) : s'.result? g = s.result? g := by
  unfold result?
  rw [flight?_of_flights flights]

theorem flight?_of_fly (found : s.flight? g = some f) (flights : s'.flights = (s.setFlight g f').flights) (h : Nat) :
    s'.flight? h = if h = g then some f' else s.flight? h := by
  rw [flight?_of_flights flights, flight?_setFlight, found]
  rfl

/-! ### Moves keep states coherent -/

theorem Coherent.fly (coherent : s.Coherent) (found : s.flight? g = some f) (unfinished : f.isLanded = false)
    (slot : s'.slot = s.slot) (generation : s'.generation = s.generation)
    (flights : s'.flights = (s.setFlight g f').flights) : s'.Coherent := by
  have look := flight?_of_fly found flights
  constructor
  · rw [flights, generation, ← coherent.numbered]
    simp only [setFlight, List.map_map]
    apply List.map_congr_left
    intro p _
    simp only [Function.comp]
    split
    · rename_i same
      exact same.symm
    · rfl
  · intro h pending
    rw [slot] at pending
    obtain ⟨last, known⟩ := coherent.pending pending
    refine ⟨last.trans generation.symm, ?_⟩
    rw [look]
    split
    · rfl
    · exact known
  · intro h t ready
    rw [slot] at ready
    obtain ⟨last, result⟩ := coherent.ready ready
    refine ⟨last.trans generation.symm, ?_⟩
    rw [result?_eq_some] at result ⊢
    rw [look]
    split
    · rename_i same
      subst same
      cases found.symm.trans result
      cases unfinished
    · exact result
  · intro h f'' found'' unfinished''
    rw [look] at found''
    rw [slot, generation]
    split at found''
    · rename_i same
      rw [same]
      exact coherent.unfinished found unfinished
    · exact coherent.unfinished found'' unfinished''

theorem Coherent.begin (coherent : s.Coherent) (vacant : s.slot = .empty ∨ ∃ g t, s.slot = .ready g t) :
    s.begin.Coherent where
  numbered := by
    simp only [State.begin, List.map_cons, coherent.numbered]
    rw [List.range'_concat, List.reverse_append, Nat.one_mul, Nat.add_comm 1]
    rfl
  pending h := by
    cases h
    exact ⟨rfl, by simp [flight?, State.begin]⟩
  ready h := by cases h
  unfinished found unlanded := by
    rename_i g f
    by_cases last : g = s.generation + 1
    · exact ⟨last, .inl (last ▸ rfl)⟩
    · have other : (g == s.generation + 1) = false := by simpa using last
      have before : s.flight? g = some f := by
        simpa only [flight?, State.begin, List.lookup_cons, other] using found
      rcases (coherent.unfinished before unlanded).2 with pending | revoked
      · rcases vacant with empty | ⟨_, _, ready⟩
        · cases empty.symm.trans pending
        · cases ready.symm.trans pending
      · rcases vacant with empty | ⟨_, _, ready⟩
        · cases empty.symm.trans revoked
        · cases ready.symm.trans revoked

theorem Coherent.settle (coherent : s.Coherent) (slot : s.slot = .pending g) (result : s.result? g = some r) :
    (s.settle margin g r).Coherent := by
  have last := (coherent.pending slot).1
  have landed : ∀ h f, s.flight? h = some f → f.isLanded = true := by
    intro h f found
    by_contra unlanded
    rw [Bool.not_eq_true] at unlanded
    have same := (coherent.unfinished found unlanded).1.trans last.symm
    subst same
    cases found.symm.trans (result?_eq_some.mp result)
    cases unlanded
  unfold State.settle
  rw [if_pos slot]
  constructor
  · exact coherent.numbered
  · intro h pending
    cases r <;> cases pending
  · intro h t ready
    cases r with
    | error e => cases ready
    | ok t' =>
      cases ready
      exact ⟨last, result⟩
  · intro h f found unlanded
    rw [landed h f found] at unlanded
    cases unlanded

theorem Coherent.drop (coherent : s.Coherent) (slot : s.slot = .ready g t) : (s.drop g).Coherent where
  numbered := coherent.numbered
  pending h := by cases h
  ready h := by cases h
  unfinished found unlanded := by
    rcases (coherent.unfinished found unlanded).2 with pending | revoked
    · cases slot.symm.trans pending
    · cases slot.symm.trans revoked

theorem Coherent.revoke (coherent : s.Coherent) : Coherent { s with slot := .revoked } where
  numbered := coherent.numbered
  pending h := by cases h
  ready h := by cases h
  unfinished found unlanded := ⟨(coherent.unfinished found unlanded).1, .inr rfl⟩

theorem Coherent.move (coherent : s.Coherent) (move : Move margin d s s') : s'.Coherent := by
  cases move with
  | quiet slot generation flights _ =>
    have look := flight?_of_flights flights
    have results := result?_of_flights flights
    constructor
    · rw [flights, generation]; exact coherent.numbered
    · intro g; rw [slot, generation, look]; exact coherent.pending
    · intro g t; rw [slot, generation, results]; exact coherent.ready
    · intro g f; rw [slot, generation, look]; exact coherent.unfinished
  | fly found unfinished _ slot generation flights _ => exact coherent.fly found unfinished slot generation flights
  | begin vacant =>
    refine coherent.begin (vacant.imp id ?_)
    rintro ⟨g, t, slot, _⟩
    exact ⟨g, t, slot⟩
  | settle slot result => exact coherent.settle slot result
  | drop slot => exact coherent.drop slot
  | revoke => exact coherent.revoke

/-! ### Moves only lead on -/

theorem Evolves.of_quiet (slot : s'.slot = s.slot) (generation : s'.generation = s.generation)
    (flights : s'.flights = s.flights) (closed : s.closed = true → s'.closed = true) : s.Evolves s' := by
  have look := flight?_of_flights flights
  have results := result?_of_flights flights
  constructor
  · omega
  · intro g; rw [look]; exact id
  · rintro g ⟨f, found, gone⟩; exact ⟨f, by rw [look]; exact found, gone⟩
  · intro g r; rw [results]; exact id
  · intro g; rw [slot]; exact fun _ => id
  · intro g; rw [slot]; exact fun _ => id
  · intro h; exact ⟨slot.trans h, generation⟩
  · exact closed

theorem Evolves.fly (found : s.flight? g = some f) (unfinished : f.isLanded = false) (gone : f' ≠ .begun)
    (slot : s'.slot = s.slot) (generation : s'.generation = s.generation)
    (flights : s'.flights = (s.setFlight g f').flights) (closed : s.closed = true → s'.closed = true) :
    s.Evolves s' := by
  have look := flight?_of_fly found flights
  constructor
  · omega
  · intro h known
    rw [look]
    split
    · rfl
    · exact known
  · rintro h ⟨f'', found'', gone''⟩
    by_cases same : h = g
    · exact ⟨f', by rw [look, if_pos same], gone⟩
    · exact ⟨f'', by rw [look, if_neg same]; exact found'', gone''⟩
  · intro h r result
    rw [result?_eq_some] at result ⊢
    rw [look]
    split
    · rename_i same
      subst same
      cases found.symm.trans result
      cases unfinished
    · exact result
  · intro h; rw [slot]; exact fun _ => id
  · intro h; rw [slot]; exact fun _ => id
  · intro h; exact ⟨slot.trans h, generation⟩
  · exact closed

theorem Evolves.begin (coherent : s.Coherent) (vacant : s.slot = .empty ∨ ∃ g t, s.slot = .ready g t) :
    s.Evolves s.begin := by
  have old : ∀ {g}, (s.flight? g).isSome → g ≠ s.generation + 1 := by
    intro g known
    have le := coherent.le_generation known
    omega
  have look : ∀ {g}, (s.flight? g).isSome →
      ((s.generation + 1, Flight.begun) :: s.flights).lookup g = s.flight? g := by
    intro g known
    have other : (g == s.generation + 1) = false := by simpa using old known
    simp only [List.lookup_cons, other]
    rfl
  constructor
  · exact Nat.le_succ _
  · intro g known
    exact (congrArg Option.isSome (look known)).trans known
  · rintro g ⟨f, found, gone⟩
    exact ⟨f, (look (by rw [found]; rfl)).trans found, gone⟩
  · intro g r result
    have found := result?_eq_some.mp result
    exact result?_eq_some.mpr ((look (by rw [found]; rfl)).trans found)
  · intro g known _ pending
    exact old known (Slot.pending.inj pending).symm
  · intro g known _ slot
    exact old known (Option.some.inj slot).symm
  · intro revoked
    rcases vacant with empty | ⟨_, _, ready⟩
    · cases empty.symm.trans revoked
    · cases ready.symm.trans revoked
  · exact id

theorem Evolves.slot {slot : Slot} (wire : Wire) (settled : ∀ g, slot ≠ .pending g)
    (gone : ∀ g, slot.generation? = some g → s.slot.generation? = some g)
    (revoked : s.slot = .revoked → slot = .revoked) : s.Evolves { s with wire, slot } where
  generation := Nat.le_refl _
  known := id
  departed := id
  result := id
  settled _ _ := settled _
  gone _ left back := left (gone _ back)
  revoked h := ⟨revoked h, rfl⟩
  closed := id

theorem Evolves.move (coherent : s.Coherent) (move : Move margin d s s') : s.Evolves s' := by
  cases move with
  | quiet slot generation flights closed => exact .of_quiet slot generation flights closed
  | fly found unfinished gone slot generation flights closed =>
    exact .fly found unfinished gone slot generation flights closed
  | begin vacant =>
    refine .begin coherent (vacant.imp id ?_)
    rintro ⟨g, t, slot, _⟩
    exact ⟨g, t, slot⟩
  | settle slot result =>
    rename_i r g
    unfold State.settle
    rw [if_pos slot]
    cases r with
    | ok t =>
      refine .slot _ (fun _ h => by cases h) (fun h same => ?_) (fun h => ?_)
      · rw [slot]
        exact same
      · cases slot.symm.trans h
    | error e => exact .slot _ (fun _ h => by cases h) (fun _ h => by cases h) (fun h => by cases slot.symm.trans h)
  | drop slot => exact .slot _ (fun _ h => by cases h) (fun _ h => by cases h) (fun h => by cases slot.symm.trans h)
  | revoke => exact .slot _ (fun _ h => by cases h) (fun _ h => by cases h) (fun _ => rfl)

/-! ### What calls rely on and guarantee -/

/-- Coherent states stay so, and evolve. -/
def Lawful (s s' : State) : Prop :=
  s.Coherent → s'.Coherent ∧ s.Evolves s'

/-- A step of one of the kinds allowed. -/
def Does (margin : Span) (allowed : Deed → Prop) (s s' : State) : Prop :=
  ∃ d, allowed d ∧ Move margin d s s'

theorem Lawful.refl (s : State) : Lawful s s :=
  fun coherent => ⟨coherent, .refl s⟩

theorem Lawful.trans (first : Lawful a b) (second : Lawful b c) : Lawful a c := by
  intro coherent
  obtain ⟨middle, evolves⟩ := first coherent
  obtain ⟨last, evolves'⟩ := second middle
  exact ⟨last, evolves.trans evolves'⟩

theorem Does.lawful (h : Does margin allowed s s') : Lawful s s' := by
  obtain ⟨d, _, move⟩ := h
  exact fun coherent => ⟨coherent.move move, .move coherent move⟩

end State
end EngineClient
