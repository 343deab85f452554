import EngineClient.Proofs.Token.Together

/-!
# Single flight

However calls take turns, at most one exchange for a token is unfinished, and all who began or joined it get what it
has brought, whatever has become of the slot.
-/

namespace EngineClient
open EngineClient.State EngineClient.Task

/-! ### Unfinished flights -/

/-- The flights that have not landed. -/
def State.unfinished (s : State) : List (Nat × Flight) :=
  s.flights.filter fun p => !p.2.isLanded

theorem lookup_of_mem {flights : List (Nat × Flight)} (distinct : (flights.map Prod.fst).Nodup)
    (member : p ∈ flights) : flights.lookup p.1 = some p.2 := by
  induction flights with
  | nil => cases member
  | cons q rest ih =>
    rw [List.map_cons, List.nodup_cons] at distinct
    obtain ⟨new, distinct⟩ := distinct
    rw [List.lookup_cons]
    rcases List.mem_cons.mp member with rfl | later
    · rw [beq_self_eq_true]
    · have other : p.1 ≠ q.1 := by
        intro same
        rw [← same] at new
        exact new (List.mem_map_of_mem later)
      rw [beq_false_of_ne other]
      exact ih distinct later

theorem State.Coherent.length_unfinished {s : State} (coherent : s.Coherent) : s.unfinished.length ≤ 1 := by
  have distinct : (s.flights.map Prod.fst).Nodup := by
    rw [coherent.numbered, List.nodup_reverse]
    exact List.nodup_range'
  have last : ∀ g ∈ s.unfinished.map Prod.fst, g = s.generation := by
    intro g member
    obtain ⟨p, found, rfl⟩ := List.mem_map.mp member
    obtain ⟨stored, unlanded⟩ := List.mem_filter.mp found
    exact (coherent.unfinished (lookup_of_mem distinct stored) (by simpa using unlanded)).1
  have once : (s.unfinished.map Prod.fst).Nodup := distinct.sublist (List.filter_sublist.map Prod.fst)
  rw [List.eq_replicate_of_mem last, List.nodup_replicate, List.length_map] at once
  exact once

/-! ### How long an ensure takes -/

namespace TokenCache

theorem follow_ends (t : TokenCache) (service : SignOn) (g : Nat) : (t.follow service g).run.EndsWithin 4 := by
  rw [follow_run]
  intro _ s
  dsimp only
  split
  · exact fun _ => trivial
  · exact fun _ _ => trivial

theorem take_ends (t : TokenCache) (service : SignOn) (found : Found) : (t.take service found).run.EndsWithin 4 := by
  cases found with
  | closed => trivial
  | cached g token => trivial
  | flight g =>
    rw [take_flight_run]
    exact (follow_ends t service g).andThen (n := 0) fun _ => trivial

theorem ensure_ends {t : TokenCache} (signOn : t.strategy = .signOn service) : t.ensure.run.EndsWithin 5 := by
  rw [ensure_run signOn]
  exact fun s => take_ends t service _

end TokenCache

/-! ### Boarding a flight -/

/-- By its turn, an ensure of task `i` begins the flight of a generation or joins it; `k` is what follows. -/
structure Boards (r : Run State α) (t : TokenCache) (i m g : Nat)
    (k : Except Error (AccessToken × Option Nat) → Task State α) : Prop where
  turn : r.turns m = .step i
  task : r.task i m = some (t.ensure.run.andThen k)
  found : ((r.state m).acquire t.margin).1 = .flight g

theorem Boards.result {r : Run State α} {guar : Nat → State → State → Prop} (boards : Boards r t i m g k)
    (signOn : t.strategy = .signOn service) (sound : r.Sound Lawful guar) (initial : (r.state 0).Coherent)
    (kept : ∀ l < n, r.turns (m + l) ≠ .drop i) (turns : 5 ≤ Nat.count (fun l => r.turns (m + l) = .step i) n) :
    ∃ result, ∃ l ≤ m + n, r.task i l = some (k (result.map fun token => (token, some g))) ∧
      ∀ l' ≥ l, (r.state l').result? g = some result := by
  obtain ⟨b, l, le, performs⟩ := Run.performs_of_turns boards.task (TokenCache.ensure_ends signOn) kept turns
  obtain ⟨_, brings⟩ := sound.brings initial signOn boards.turn performs
  rw [boards.found] at brings
  obtain ⟨result, landed, _, rfl⟩ := brings
  refine ⟨result, l, le, performs.2.task boards.task, fun l' later => ?_⟩
  exact (sound.lawful initial later).2.2.result landed

/-- At most one flight is unfinished at any time, and each flight has one result, which all calls get that board it,
unless they are dropped: their ensure is over after five turns of theirs at the latest. -/
theorem single_flight (t : TokenCache) (signOn : t.strategy = .signOn service) (calls : Nat → CacheCall) (w : Wire)
    (turns : Nat → Turn) :
    let r := t.together calls w turns
    (∀ n, (r.state n).unfinished.length ≤ 1) ∧
    ∀ g, ∃ result, ∀ i m n k, Boards r t i m g k → (∀ l < n, turns (m + l) ≠ .drop i) →
      5 ≤ Nat.count (fun l => turns (m + l) = .step i) n →
      ∃ l ≤ m + n, r.task i l = some (k (result.map fun token => (token, some g))) ∧
        ∀ l' ≥ l, (r.state l').result? g = some result := by
  intro r
  have sound : r.Sound Lawful fun i => Does t.margin (calls i).Allows := t.together_sound w turns calls
  have initial : (r.state 0).Coherent := Coherent.initial w
  refine ⟨fun n => (sound.lawful initial (Nat.le_refl n)).1.length_unfinished, fun g => ?_⟩
  by_cases landed : ∃ l result, (r.state l).result? g = some result
  · obtain ⟨l₀, result, landed⟩ := landed
    refine ⟨result, fun i m n k boards kept often => ?_⟩
    obtain ⟨result', l, le, task, brought⟩ := boards.result signOn sound initial kept often
    -- Results stay, so that any two of them are the same once both are there.
    have later := (sound.lawful initial (Nat.le_max_left l₀ l)).2.2.result landed
    obtain rfl : result' = result := Option.some.inj ((brought _ (Nat.le_max_right l₀ l)).symm.trans later)
    exact ⟨l, le, task, brought⟩
  · refine ⟨.error .closed, fun i m n k boards kept often => ?_⟩
    obtain ⟨result', l, _, _, brought⟩ := boards.result signOn sound initial kept often
    exact (landed ⟨l, result', brought l (Nat.le_refl l)⟩).elim

/-- Two calls share a flight, and the cache is revoked before it has landed. -/
theorem single_flight_outlives_revoke :
    let calls : Nat → CacheCall := fun i => if i = 2 then .revoke else .ensure
    let turns := Sample.turns [0, 1, 2, 1, 0, 1, 0, 1, 0, 1, 0]
    ∃ result : Except Error AccessToken, ∀ i < 2, ∃ l ≤ 11, (Sample.cache.together calls Sample.wire turns).task i l =
      some (done (.issued (result.map fun token => (token, some 1)))) := by
  intro calls turns
  obtain ⟨_, shared⟩ := single_flight Sample.cache rfl calls Sample.wire turns
  obtain ⟨result, shared⟩ := shared 1
  refine ⟨result, fun i lt => ?_⟩
  obtain rfl | rfl : i = 0 ∨ i = 1 := by omega
  · obtain ⟨l, le, task, _⟩ := shared 0 0 11 (fun r => done (.issued r)) ⟨rfl, rfl, by decide +kernel⟩
      (by decide +kernel) (by decide +kernel)
    exact ⟨l, le, task⟩
  · obtain ⟨l, le, task, _⟩ := shared 1 1 10 (fun r => done (.issued r)) ⟨rfl, rfl, by decide +kernel⟩
      (by decide +kernel) (by decide +kernel)
    exact ⟨l, le, task⟩

end EngineClient
