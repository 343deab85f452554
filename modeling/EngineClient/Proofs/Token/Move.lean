import EngineClient.Api.TokenCache
import Mathlib.Data.List.Nodup

/-!
# What a step does to the token

Every step on the state of a connection is a `Move`: it leaves the slot alone, begins a flight, settles the slot,
drops the token or enters the end. Whatever holds of the slot and the flights at all times follows from the moves.
-/

namespace EngineClient

/-- The generation of the token that is waited for or held. -/
def Slot.generation? : Slot → Option Nat
  | .pending g | .ready g _ => some g
  | _ => none

def Slot.isPending : Slot → Bool
  | .pending _ => true
  | _ => false

def Slot.isReady : Slot → Bool
  | .ready _ _ => true
  | _ => false

def Flight.isLanded : Flight → Bool
  | .landed _ => true
  | _ => false

namespace State

/-- A flight that is no longer only begun. -/
def Departed (s : State) (g : Nat) : Prop :=
  ∃ f, s.flight? g = some f ∧ f ≠ .begun

/-! ### Looking flights up -/

theorem lookup_replace (flights : List (Nat × Flight)) (g h : Nat) (f : Flight) :
    (flights.map fun p => if p.1 = g then (g, f) else p).lookup h =
      if h = g then (flights.lookup g).map fun _ => f else flights.lookup h := by
  induction flights with
  | nil => simp
  | cons p rest ih =>
    obtain ⟨k, old⟩ := p
    simp only [List.map_cons]
    by_cases stored : k = g <;> by_cases asked : h = k <;> grind

theorem flight?_setFlight (s : State) (g h : Nat) (f : Flight) :
    (s.setFlight g f).flight? h = if h = g then (s.flight? g).map fun _ => f else s.flight? h :=
  lookup_replace s.flights g h f

theorem result?_eq_some {s : State} : s.result? g = some r ↔ s.flight? g = some (.landed r) := by
  unfold result?
  split
  · rename_i r' flight
    rw [flight]
    simp
  · rename_i unlanded
    constructor
    · intro h
      cases h
    · intro h
      exact (unlanded r h).elim

/-! ### Moves -/

inductive Deed
  | other
  | begin
  | settle
  | drop (g : Nat)
  | revoke
  deriving DecidableEq

/-- What a step of each kind does to the slot and the flights, where tokens count as expired by a margin. Steps of other
kinds are free in what they do to the wire and the list of those asked. -/
inductive Move (margin : Span) : Deed → State → State → Prop
  | quiet (slot : s'.slot = s.slot) (generation : s'.generation = s.generation) (flights : s'.flights = s.flights)
    (closed : s.closed = true → s'.closed = true) : Move margin .other s s'
  | fly (found : s.flight? g = some f) (unfinished : f.isLanded = false) (gone : f' ≠ .begun)
    (slot : s'.slot = s.slot) (generation : s'.generation = s.generation)
    (flights : s'.flights = (s.setFlight g f').flights) (closed : s.closed = true → s'.closed = true) :
    Move margin .other s s'
  | begin (vacant : s.slot = .empty ∨ ∃ g t, s.slot = .ready g t ∧ t.isExpired s.wire.now margin = true) :
    Move margin .begin s s.begin
  | settle (slot : s.slot = .pending g) (result : s.result? g = some r) : Move margin .settle s (s.settle margin g r)
  | drop (slot : s.slot = .ready g t) : Move margin (.drop g) s (s.drop g)
  | revoke : Move margin .revoke s { s with slot := .revoked }

theorem Move.refl (margin : Span) (s : State) : Move margin .other s s :=
  .quiet rfl rfl rfl id

theorem Move.length_flights (move : Move margin d s s') (other : d ≠ .begin) :
    s'.flights.length = s.flights.length := by
  cases move with
  | quiet _ _ flights _ => rw [flights]
  | fly _ _ _ _ _ flights _ =>
    rw [flights]
    exact List.length_map _
  | begin _ => exact (other rfl).elim
  | settle _ _ =>
    unfold State.settle
    split
    · rfl
    · rfl
  | drop _ => rfl
  | revoke => rfl

theorem setWire_move (margin : Span) (w : Wire) (s : State) : Move margin .other s (s.setWire w) :=
  .quiet rfl rfl rfl id

theorem note_move (margin : Span) (e : LogEvent) (s : State) : Move margin .other s (s.note e) :=
  setWire_move margin _ s

theorem acquire_move (margin : Span) (s : State) :
    ∃ d, (d = .other ∨ d = .begin) ∧ Move margin d s (s.acquire margin).2 := by
  unfold acquire
  split
  · exact ⟨.other, .inl rfl, .refl margin s⟩
  · exact ⟨.other, .inl rfl, note_move margin _ s⟩
  · rename_i slot
    exact ⟨.begin, .inr rfl, .begin (.inl slot)⟩
  · rename_i g t slot
    split
    · rename_i expired
      exact ⟨.begin, .inr rfl, .begin (.inr ⟨g, t, slot, expired⟩)⟩
    · exact ⟨.other, .inl rfl, note_move margin _ s⟩

theorem settle_move (margin : Span) {s : State} (result : s.result? g = some r) :
    ∃ d, (d = .other ∨ d = .settle) ∧ Move margin d s (s.settle margin g r) := by
  by_cases slot : s.slot = .pending g
  · exact ⟨.settle, .inr rfl, .settle slot result⟩
  · refine ⟨.other, .inl rfl, ?_⟩
    unfold settle
    rw [if_neg slot]
    exact .refl margin s

theorem invalidate_move (margin : Span) (g : Nat) (s : State) :
    ∃ d, (d = .other ∨ d = .drop g) ∧ Move margin d s (s.invalidate g) := by
  unfold invalidate
  split
  · rename_i cached t slot
    split
    · rename_i same
      subst same
      exact ⟨.drop cached, .inr rfl, .drop slot⟩
    · exact ⟨.other, .inl rfl, .refl margin s⟩
  · exact ⟨.other, .inl rfl, .refl margin s⟩

theorem launch_move (margin : Span) (c : Client) (service : SignOn) (g : Nat) (s : State) :
    Move margin .other s (TokenCache.launch c service g s) := by
  unfold TokenCache.launch
  split
  · rename_i found
    have flies : ∀ f s', f ≠ .begun → s'.slot = s.slot → s'.generation = s.generation → s'.flights = s.flights →
        s'.closed = s.closed → Move margin .other s (setFlight g f s') := by
      intro f s' gone slot generation flights closed
      refine .fly found rfl gone slot generation ?_ (fun h => closed.trans h)
      simp only [setFlight, flights]
    dsimp only
    split
    · exact flies _ _ (by simp) rfl rfl rfl rfl
    · split
      · rename_i sent
        obtain ⟨-, rfl⟩ := Prod.mk.inj sent
        exact flies _ _ (by simp) rfl rfl rfl rfl
      · rename_i sent
        obtain ⟨-, rfl⟩ := Prod.mk.inj sent
        exact flies _ _ (by simp) rfl rfl rfl rfl
  · exact .refl margin s

theorem land_move (margin : Span) (c : Client) (g : Nat) (s : State) :
    Move margin .other s (TokenCache.land c g s).2 := by
  unfold TokenCache.land
  split
  · exact .refl margin s
  · rename_i e found
    exact .fly found rfl (by simp) rfl rfl rfl id
  · exact .refl margin s

end State
end EngineClient
