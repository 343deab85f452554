import EngineClient.Proofs.Token.Together
import Mathlib.Data.Finset.Card

/-!
# The account of flights

Every flight but the one that the slot is about has been paid for: its token was invalidated or had expired, or it
failed. A generation is invalidated at most once.
-/

namespace EngineClient
open EngineClient.State EngineClient.Task

/-! ### Entries -/

/-- By a turn, a call to invalidate a generation empties the cache. -/
def Empties (calls : Nat → CacheCall) (r : Run State Returned) (g n : Nat) : Prop :=
  ∃ i, r.turns n = .step i ∧ calls i = .invalidate g ∧ (r.state n).slot ≠ .empty ∧ (r.state (n + 1)).slot = .empty

/-- By a turn, a flight takes the place of a token that has expired. -/
def Replaces (margin : Span) (r : Run State α) (n : Nat) : Prop :=
  ∃ g token h, (r.state n).slot = .ready g token ∧ token.isExpired (r.state n).wire.now margin = true ∧
    (r.state (n + 1)).slot = .pending h

/-- By a turn, the slot is settled with the error that its flight has brought. -/
def Fails (r : Run State α) (n : Nat) : Prop :=
  ∃ g e, (r.state n).slot = .pending g ∧ (r.state n).result? g = some (.error e) ∧ (r.state (n + 1)).slot = .empty

/-- How many tokens are waited for or held. -/
def State.held (s : State) : Nat :=
  if s.slot.isPending || s.slot.isReady then 1 else 0

theorem Slot.eq_ready {slot : Slot} (ready : slot.isReady = true) (generation : slot.generation? = some g) :
    ∃ token, slot = .ready g token := by
  cases slot with
  | ready h token =>
    cases generation
    exact ⟨token, rfl⟩
  | empty | pending _ | revoked => cases ready

theorem held_le (s : State) : s.held ≤ 1 := by
  unfold held
  split <;> simp

theorem CacheCall.invalidate_of_allows {call : CacheCall} (h : call.Allows (.drop g)) : call = .invalidate g := by
  cases call with
  | invalidate h' =>
    rcases h with h | h
    · cases h
    · cases h
      rfl
  | revoke => rcases h with h | h <;> cases h
  | outside change => cases h
  | ensure | credential | token => rcases h with h | h | h <;> cases h

section Turns
variable {margin : Span} {calls : Nat → CacheCall} {r : Run State Returned}
  (sound : r.Sound Lawful fun i => Does margin (calls i).Allows)
include sound

/-! ### Single turns -/

open scoped Classical in
/-- What a turn adds to the flights, it adds to the entries or to what is held. -/
theorem balance (n : Nat) (lasting : (r.state (n + 1)).slot ≠ .revoked) :
    (r.state (n + 1)).flights.length + (r.state n).held = (r.state n).flights.length + (r.state (n + 1)).held +
      ((if ∃ g, Empties calls r g n then 1 else 0) + (if Replaces margin r n then 1 else 0) +
        if Fails r n then 1 else 0) := by
  have turned := sound.turn n
  unfold Empties Replaces Fails State.held Slot.isPending Slot.isReady
  generalize r.state (n + 1) = s' at *
  generalize r.state n = s at *
  rcases turned with same | ⟨i, turn, d, allowed, move⟩
  · subst same
    cases slot : s'.slot <;> simp
  · cases move with
    | quiet slot generation flights _ =>
      rw [slot, flights]
      cases slot : s.slot <;> simp
    | fly found unfinished _ slot generation flights _ =>
      rw [slot, flights]
      cases slot : s.slot <;> simp [setFlight]
    | begin vacant =>
      rcases vacant with slot | ⟨g, token, slot, expired⟩
      · simp [slot]
      · simp [slot, expired]
    | settle slot result =>
      rename_i result' g
      cases result' with
      | ok token => simp [settle, slot]
      | error e =>
        -- The turn is not one of a call to invalidate, so that it counts once.
        have other : ∀ h j, r.turns n = .step j → calls j ≠ .invalidate h := by
          intro h j turn' call
          cases turn.symm.trans turn'
          rw [call] at allowed
          rcases allowed with allowed | allowed <;> cases allowed
        simpa [settle, slot, result] using other
    | drop slot =>
      rename_i g token
      have entry : ∃ h j, r.turns n = .step j ∧ calls j = .invalidate h :=
        ⟨g, i, turn, CacheCall.invalidate_of_allows allowed⟩
      simp [slot, entry]
    | revoke => exact (lasting rfl).elim

theorem length_flights_of_revoked (revoked : (r.state (n + 1)).slot = .revoked) :
    (r.state (n + 1)).flights.length = (r.state n).flights.length := by
  have turned := sound.turn n
  generalize r.state (n + 1) = s' at *
  generalize r.state n = s at *
  rcases turned with rfl | ⟨j, turn', d, allowed, move⟩
  · rfl
  · refine move.length_flights fun begins => ?_
    subst begins
    cases move
    cases revoked

theorem invalidate_turn (turn : r.turns n = .step i) (call : calls i = .invalidate g) :
    (r.state (n + 1)).slot = (r.state n).slot ∨
      ∃ token, (r.state n).slot = .ready g token ∧ (r.state (n + 1)).slot = .empty := by
  have turned := sound.turn n
  generalize r.state (n + 1) = s' at *
  generalize r.state n = s at *
  rcases turned with rfl | ⟨j, turn', d, allowed, move⟩
  · exact .inl rfl
  · cases turn.symm.trans turn'
    rw [call] at allowed
    rcases allowed with rfl | rfl
    · cases move with
      | quiet slot _ _ _ => exact .inl slot
      | fly _ _ _ slot _ _ _ => exact .inl slot
    · cases move with
      | drop slot => exact .inr ⟨_, slot, rfl⟩

theorem Empties.ready (entry : Empties calls r g n) : ∃ token, (r.state n).slot = .ready g token := by
  obtain ⟨i, turn, call, before, after⟩ := entry
  rcases invalidate_turn sound turn call with same | ⟨token, slot, _⟩
  · exact (before (same.symm.trans after)).elim
  · exact ⟨token, slot⟩

/-! ### All turns -/

variable (initial : (r.state 0).Coherent)
include initial

theorem Empties.not_later (first : Empties calls r g m) (second : Empties calls r g n) : ¬ m < n := by
  intro later
  obtain ⟨token, ready⟩ := first.ready sound
  obtain ⟨_, _, _, _, empty⟩ := first
  obtain ⟨coherent, _, evolves⟩ := sound.lawful initial (Nat.le_succ m)
  have known := evolves.known (known_of_result (coherent.ready ready).2)
  have left : (r.state (m + 1)).slot.generation? ≠ some g := by
    rw [empty]
    exact fun h => by cases h
  obtain ⟨token', back⟩ := second.ready sound
  apply (sound.lawful initial later).2.2.gone known left
  rw [back]
  rfl

theorem Empties.once (first : Empties calls r g m) (second : Empties calls r g n) : m = n := by
  have := first.not_later sound initial second
  have := second.not_later sound initial first
  omega

open scoped Classical in
theorem count_empties_le (G : Finset Nat) (within : ∀ i g, calls i = .invalidate g → g ∈ G) (n : Nat) :
    Nat.count (fun m => ∃ g, Empties calls r g m) n ≤ G.card := by
  have generation : ∀ m, ∃ g, (∃ g, Empties calls r g m) → Empties calls r g m := by
    intro m
    by_cases some : ∃ g, Empties calls r g m
    · obtain ⟨g, entry⟩ := some
      exact ⟨g, fun _ => entry⟩
    · exact ⟨0, fun h => (some h).elim⟩
  choose f entry using generation
  rw [Nat.count_eq_card_filter_range]
  refine Finset.card_le_card_of_injOn f ?_ ?_
  · intro m member
    obtain ⟨i, _, call, _⟩ := entry m (Finset.mem_filter.mp member).2
    exact within i _ call
  · intro m member m' member' same
    have first := entry m (Finset.mem_filter.mp member).2
    have second := entry m' (Finset.mem_filter.mp member').2
    rw [← same] at second
    exact first.once sound initial second

end Turns

/-! ### The account -/

open scoped Classical in
/-- How many flights have been paid for by the turns so far. -/
noncomputable def paid (margin : Span) (calls : Nat → CacheCall) (r : Run State Returned) (n : Nat) : Nat :=
  Nat.count (fun m => ∃ g, Empties calls r g m) n + Nat.count (Replaces margin r) n + Nat.count (Fails r) n

/-- All flights but the one held are paid for, up to the end; from then on there are no more of them. -/
theorem length_flights {calls : Nat → CacheCall} {r : Run State Returned}
    (sound : r.Sound Lawful fun i => Does margin (calls i).Allows) (new : r.state 0 = { wire := w }) (n : Nat) :
    ((r.state n).slot ≠ .revoked → (r.state n).flights.length = paid margin calls r n + (r.state n).held) ∧
      (r.state n).flights.length ≤ paid margin calls r n + 1 := by
  classical
  induction n with
  | zero =>
    rw [new]
    unfold paid
    simp only [Nat.count_zero]
    exact ⟨fun _ => rfl, Nat.zero_le _⟩
  | succ n ih =>
    obtain ⟨exactly, atMost⟩ := ih
    have more : paid margin calls r n ≤ paid margin calls r (n + 1) := by
      unfold paid
      simp only [Nat.count_succ]
      omega
    by_cases revoked : (r.state (n + 1)).slot = .revoked
    · have same := length_flights_of_revoked sound revoked
      exact ⟨fun lasting => (lasting revoked).elim, by omega⟩
    · have initial : (r.state 0).Coherent := by
        rw [new]
        exact .initial w
      have evolves := (sound.lawful initial (Nat.le_succ n)).2.2
      have paidBefore := exactly fun h => revoked (evolves.revoked h).1
      have balanced := balance sound n revoked
      have atMostOne := held_le (r.state (n + 1))
      unfold paid at *
      simp only [Nat.count_succ]
      refine ⟨fun _ => ?_, ?_⟩
      · omega
      · omega

open scoped Classical in
/-- Before the end there are as many flights as entries and one more while a token is waited for or held; each
generation is emptied once; flights number at most one more than the generations that calls invalidate, if nothing
expires and nothing fails; and a call to invalidate another generation than the one held drops nothing. -/
theorem no_redundant_flights (t : TokenCache) (calls : Nat → CacheCall) (w : Wire) (turns : Nat → Turn) :
    let r := t.together calls w turns
    (∀ n, (r.state n).slot ≠ .revoked → (r.state n).flights.length =
      Nat.count (fun m => ∃ g, Empties calls r g m) n + Nat.count (Replaces t.margin r) n + Nat.count (Fails r) n +
        (r.state n).held) ∧
    (∀ g m n, Empties calls r g m → Empties calls r g n → m = n) ∧
    (∀ n (G : Finset Nat), (∀ i g, calls i = .invalidate g → g ∈ G) → (∀ m < n, ¬ Replaces t.margin r m) →
      (∀ m < n, ¬ Fails r m) → (r.state n).flights.length ≤ 1 + G.card) ∧
    ∀ n i g h token, turns n = .step i → calls i = .invalidate g → (r.state n).slot = .ready h token → g ≠ h →
      (r.state (n + 1)).slot = .ready h token := by
  intro r
  have sound : r.Sound Lawful fun i => Does t.margin (calls i).Allows := t.together_sound w turns calls
  have initial : (r.state 0).Coherent := Coherent.initial w
  refine ⟨fun n => (length_flights sound rfl n).1, fun g m n first => first.once sound initial, ?_, ?_⟩
  · intro n G within unexpired unfailed
    have atMost := (length_flights sound rfl n).2
    unfold paid at atMost
    have noneReplaced := Nat.count_of_forall_not unexpired
    have noneFailed := Nat.count_of_forall_not unfailed
    have emptied := count_empties_le sound initial G within n
    omega
  · intro n i g h token turn call slot other
    rcases invalidate_turn sound turn call with same | ⟨token', ready, _⟩
    · exact same.trans slot
    · cases ready.symm.trans slot
      exact (other rfl).elim

/-- A token is refused, another one is fetched, and a late refusal of the first one drops nothing. -/
theorem no_redundant_flights_late_refusal :
    let calls : Nat → CacheCall := fun i => if i = 0 ∨ i = 2 then .ensure else .invalidate 1
    let r := Sample.cache.together calls Sample.wire (Sample.turns [0, 0, 0, 0, 0, 1, 2, 2, 2, 2, 2, 3])
    (r.state 12).flights.length ≤ 1 + ({1} : Finset Nat).card ∧ (r.state 12).slot = (r.state 11).slot := by
  intro calls r
  obtain ⟨_, _, bound, late⟩ := no_redundant_flights Sample.cache calls Sample.wire
    (Sample.turns [0, 0, 0, 0, 0, 1, 2, 2, 2, 2, 2, 3])
  have within : ∀ i g, calls i = .invalidate g → g ∈ ({1} : Finset Nat) := by
    intro i g call
    by_cases ensures : i = 0 ∨ i = 2
    · rw [show calls i = .ensure from if_pos ensures] at call
      cases call
    · rw [show calls i = .invalidate 1 from if_neg ensures] at call
      cases call
      exact Finset.mem_singleton_self 1
  have lasting : ∀ m < 12, ¬ ((r.state m).slot.isReady = true ∧ (r.state (m + 1)).slot.isPending = true) := by
    decide +kernel
  have landing : ∀ m < 12, ¬ ((r.state m).slot.isPending = true ∧ (r.state (m + 1)).slot = .empty) := by
    decide +kernel
  have second : ∃ token, (r.state 11).slot = .ready 2 token :=
    Slot.eq_ready (by decide +kernel) (by decide +kernel)
  refine ⟨bound 12 {1} within ?_ ?_, ?_⟩
  · rintro m lt ⟨g, token, h, before, _, after⟩
    exact lasting m lt ⟨by rw [before]; rfl, by rw [after]; rfl⟩
  · rintro m lt ⟨g, e, before, _, after⟩
    exact landing m lt ⟨by rw [before]; rfl, after⟩
  · obtain ⟨token, ready⟩ := second
    exact (late 11 3 1 2 token rfl rfl ready (by decide)).trans ready.symm

end EngineClient
