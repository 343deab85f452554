import EngineClient.Proofs.Secrecy.Exchange

/-!
# States with other secrets

Two states of a connection that differ in passwords and tokens only stay so with each atomic step.
-/

namespace EngineClient
open EngineClient.State

/-! ### Twins -/

/-- Services of sign-on that differ in the password. -/
inductive SignOn.Twin : SignOn → SignOn → Prop
  | password (tokenUrl revokeUrl username : String) (secrets : p.Twin p') :
    Twin ⟨tokenUrl, revokeUrl, .password username p⟩ ⟨tokenUrl, revokeUrl, .password username p'⟩

/-- Connections that differ in the password that is exchanged for tokens. -/
structure Connection.Twin (c c' : Connection) : Prop where
  client : c'.client = c.client
  root : c'.root = c.root
  margin : c'.tokens.margin = c.tokens.margin
  own : c.tokens.client = c.client
  own' : c'.tokens.client = c.client
  plain : ∀ h ∈ c.root.headers, h.1 ≠ .authorization
  signOn : ∃ service service', c.tokens.strategy = .signOn service ∧ c'.tokens.strategy = .signOn service' ∧
    service.Twin service'

inductive Slot.Twin : Slot → Slot → Prop
  | empty : Twin .empty .empty
  | pending (g : Nat) : Twin (.pending g) (.pending g)
  | ready (g : Nat) (tokens : t.Twin t') : Twin (.ready g t) (.ready g t')
  | revoked : Twin .revoked .revoked

inductive Flight.Twin (client : Client) : Flight → Flight → Prop
  | begun : Twin client .begun .begun
  | underway (exchanges : Client.InFlight.Twin client Reply.Twin e e') : Twin client (.underway e) (.underway e')
  | landed (results : Except.Related AccessToken.Twin r r') : Twin client (.landed r) (.landed r')

/-- States of a connection that differ in passwords and tokens only. -/
structure State.Twin (c : Connection) (s s' : State) : Prop where
  wire : Wire.Twin c s.wire s'.wire
  slot : s.slot.Twin s'.slot
  generation : s'.generation = s.generation
  flights : List.Forall₂ (fun f f' => f'.1 = f.1 ∧ Flight.Twin c.tokens.client f.2 f'.2) s.flights s'.flights
  closed : s'.closed = s.closed
  asked : s'.asked = s.asked

theorem State.Twin.initial {c : Connection} (wires : Wire.Twin c w w') : State.Twin c { wire := w } { wire := w' } where
  wire := wires
  slot := .empty
  generation := rfl
  flights := .nil
  closed := rfl
  asked := rfl

/-! ### Atomic steps -/

section Steps
variable {c : Connection} {s s' : State} (twins : State.Twin c s s')
include twins

theorem State.flight?_twin (g : Nat) : Option.Rel (Flight.Twin c.tokens.client) (s.flight? g) (s'.flight? g) := by
  have flights := twins.flights
  unfold flight?
  generalize s.flights = fs at flights ⊢
  generalize s'.flights = fs' at flights ⊢
  induction flights with
  | nil => exact .none
  | @cons f f' rest rest' same _ ih =>
    obtain ⟨h, flight⟩ := f
    obtain ⟨h', flight'⟩ := f'
    obtain ⟨known, same⟩ := same
    dsimp only at known same
    subst known
    rw [List.lookup_cons, List.lookup_cons]
    cases g == h' with
    | true => exact .some same
    | false => exact ih

theorem State.result?_twin (g : Nat) :
    Option.Rel (Except.Related AccessToken.Twin) (s.result? g) (s'.result? g) := by
  have flights := flight?_twin twins g
  unfold result?
  generalize s.flight? g = f at flights ⊢
  generalize s'.flight? g = f' at flights ⊢
  cases flights with
  | none => exact .none
  | some same =>
    cases same with
    | begun => exact .none
    | underway _ => exact .none
    | landed results => exact .some results

theorem State.setFlight_twin (g : Nat) {f f' : Flight} (flight : Flight.Twin c.tokens.client f f') :
    State.Twin c (s.setFlight g f) (s'.setFlight g f') := by
  refine { twins with flights := ?_ }
  have flights := twins.flights
  unfold setFlight
  dsimp only
  rw [List.forall₂_map_left_iff, List.forall₂_map_right_iff]
  refine flights.imp fun p p' same => ?_
  rw [same.1]
  split
  · exact ⟨rfl, flight⟩
  · exact ⟨same.1, same.2⟩

theorem State.setWire_twin {w w' : Wire} (wires : Wire.Twin c w w') : State.Twin c (s.setWire w) (s'.setWire w') :=
  { twins with wire := wires }

theorem State.note_twin (e : LogEvent) : State.Twin c (s.note e) (s'.note e) :=
  setWire_twin twins { twins.wire with log := congrArg (· ++ [e]) twins.wire.log }

theorem State.noteAll_twin (es : List LogEvent) : State.Twin c (s.noteAll es) (s'.noteAll es) :=
  setWire_twin twins { twins.wire with log := congrArg (· ++ es) twins.wire.log }

omit twins in
theorem State.settleEvents_twin (margin : Span) (g : Nat) {r r' : Except Error AccessToken}
    (results : Except.Related AccessToken.Twin r r') : settleEvents margin g r' = settleEvents margin g r := by
  cases results with
  | error e => rfl
  | ok tokens => simp only [settleEvents, tokens.lifetime]

theorem State.settle_twin (margin : Span) (g : Nat) {r r' : Except Error AccessToken}
    (results : Except.Related AccessToken.Twin r r') :
    State.Twin c (s.settle margin g r) (s'.settle margin g r') := by
  have waits : s'.slot = .pending g ↔ s.slot = .pending g := by
    have slots := twins.slot
    generalize s.slot = slot at slots ⊢
    generalize s'.slot = slot' at slots ⊢
    cases slots <;> simp
  unfold settle
  by_cases pending : s.slot = .pending g
  · rw [if_pos pending, if_pos (waits.mpr pending), settleEvents_twin margin g results]
    have noted := noteAll_twin twins (settleEvents margin g r)
    cases results with
    | error e => exact { noted with slot := .empty }
    | ok tokens => exact { noted with slot := .ready g tokens }
  · rw [if_neg pending, if_neg fun h => pending (waits.mp h)]
    exact twins

theorem State.invalidate_twin (g : Nat) : State.Twin c (s.invalidate g) (s'.invalidate g) := by
  have slots := twins.slot
  unfold invalidate
  generalize first : s.slot = slot at slots ⊢
  generalize second : s'.slot = slot' at slots ⊢
  cases slots with
  | empty | pending _ | revoked => exact twins
  | ready cached tokens =>
    dsimp only
    split
    · exact { note_twin twins (.tokenInvalidated g) with slot := .empty }
    · exact twins

theorem State.revoke_twin : s.revoke.1.Twin s'.revoke.1 ∧ State.Twin c s.revoke.2 s'.revoke.2 :=
  ⟨twins.slot, { twins with slot := .revoked }⟩

theorem State.begin_twin : State.Twin c s.begin s'.begin := by
  unfold begin
  rw [twins.generation]
  exact { note_twin twins (.flightBegun (s.generation + 1)) with
    slot := .pending _
    generation := rfl
    flights := .cons ⟨rfl, .begun⟩ twins.flights }

/-- What callers find who need a token. -/
inductive State.Found.Twin : Found → Found → Prop
  | closed : Twin .closed .closed
  | cached (g : Nat) (tokens : t.Twin t') : Twin (.cached g t) (.cached g t')
  | flight (g : Nat) : Twin (.flight g) (.flight g)

theorem State.acquire_twin (margin : Span) :
    Found.Twin (s.acquire margin).1 (s'.acquire margin).1 ∧ State.Twin c (s.acquire margin).2 (s'.acquire margin).2 := by
  have slots := twins.slot
  have flies := begin_twin twins
  have joins : Found.Twin (.flight (s.generation + 1)) (.flight (s'.generation + 1)) := by
    rw [twins.generation]
    exact .flight _
  unfold acquire
  generalize first : s.slot = slot at slots ⊢
  generalize second : s'.slot = slot' at slots ⊢
  cases slots with
  | revoked => exact ⟨.closed, twins⟩
  | pending g => exact ⟨.flight g, note_twin twins _⟩
  | empty => exact ⟨joins, flies⟩
  | ready g tokens =>
    dsimp only
    rw [twins.wire.now, tokens.isExpired]
    split
    · exact ⟨joins, flies⟩
    · exact ⟨.cached g tokens, note_twin twins _⟩

theorem State.onWire_twin {rel : α → β → Prop} {f : Wire → α × Wire} {g : Wire → β × Wire}
    (steps : rel (f s.wire).1 (g s'.wire).1 ∧ Wire.Twin c (f s.wire).2 (g s'.wire).2) :
    rel (s.onWire f).1 (s'.onWire g).1 ∧ State.Twin c (s.onWire f).2 (s'.onWire g).2 :=
  ⟨steps.1, setWire_twin twins steps.2⟩

end Steps

/-! ### Flights -/

section Flights
variable {c : Connection} {service service' : SignOn} {s s' : State}

/-- A token is asked for alike, whoever was asked for tickets before. -/
theorem Connection.drafts_token (signOn : c.tokens.strategy = .signOn service) (services : service.Twin service') :
    ∃ d d', (∀ before, service.tokenDraft before = .ok d) ∧ (∀ before, service'.tokenDraft before = .ok d') ∧
      c.Drafts c.tokens.client Reply.Twin d d' ∧ service'.asked = service.asked ∧
      service'.requestEvent = service.requestEvent := by
  cases services with
  | @password p p' tokenUrl revokeUrl username secrets =>
    have size := Text.Form.length_render [("grant_type", "password"), SignOn.scope, ("username", username)] "password"
      secrets.symm
    exact ⟨_, _, fun _ => rfl, fun _ => rfl, c.drafts_signOn signOn (.inl rfl) size, rfl, rfl⟩

theorem Connection.drafts_revocation (signOn : c.tokens.strategy = .signOn service) (services : service.Twin service')
    {t t' : AccessToken} (tokens : t.Twin t') :
    c.Drafts c.tokens.client Reply.Twin (service.revokeDraft t) (service'.revokeDraft t') := by
  cases services with
  | password tokenUrl revokeUrl username _ =>
    have size := Text.Form.length_render [("scope", "")] "token" tokens.value.symm
    exact c.drafts_signOn signOn (.inr rfl) size

namespace TokenCache

theorem launch_twin (signOn : c.tokens.strategy = .signOn service) (services : service.Twin service') (g : Nat)
    (twins : State.Twin c s s') :
    State.Twin c (launch c.tokens.client service g s) (launch c.tokens.client service' g s') := by
  obtain ⟨d, d', drafted, drafted', drafts, asked, noted⟩ := c.drafts_token signOn services
  have flights := flight?_twin twins g
  unfold launch
  generalize s.flight? g = f at flights ⊢
  generalize s'.flight? g = f' at flights ⊢
  cases flights with
  | none => exact twins
  | some same =>
    cases same with
    | underway _ => exact twins
    | landed _ => exact twins
    | begun =>
      have asks : State.Twin c { s.note service.requestEvent with asked := s.asked ++ service.asked }
          { s'.note service.requestEvent with asked := s'.asked ++ service.asked } :=
        { note_twin twins service.requestEvent with asked := by rw [twins.asked] }
      have sent := onWire_twin asks (drafts.dispatch asks.wire)
      dsimp only
      rw [drafted, drafted', noted, asked]
      dsimp only
      generalize State.onWire (dispatch c.tokens.client d) _ = first at sent ⊢
      generalize State.onWire (dispatch c.tokens.client d') _ = second at sent ⊢
      obtain ⟨left, t⟩ := first
      obtain ⟨left', t'⟩ := second
      obtain ⟨outcomes, states⟩ := sent
      cases outcomes with
      | error e => exact setFlight_twin states g (.landed (.error _))
      | ok exchanges => exact setFlight_twin states g (.underway exchanges)

theorem land_twin (g : Nat) (twins : State.Twin c s s') :
    Except.Related AccessToken.Twin (land c.tokens.client g s).1 (land c.tokens.client g s').1 ∧
      State.Twin c (land c.tokens.client g s).2 (land c.tokens.client g s').2 := by
  have flights := flight?_twin twins g
  unfold land
  generalize s.flight? g = f at flights ⊢
  generalize s'.flight? g = f' at flights ⊢
  cases flights with
  | none => exact ⟨.error _, twins⟩
  | some same =>
    cases same with
    | begun => exact ⟨.error _, twins⟩
    | landed results => exact ⟨results, twins⟩
    | @underway e e' exchanges =>
      obtain ⟨replies, states⟩ := onWire_twin twins (c.tokens.client.arrive_twin exchanges twins.wire)
      have results : Except.Related AccessToken.Twin
          (tokenOf c.tokens.client (s.onWire (c.tokens.client.arrive e)).2.wire.now (s.onWire (c.tokens.client.arrive e)).1)
          (tokenOf c.tokens.client (s'.onWire (c.tokens.client.arrive e')).2.wire.now
            (s'.onWire (c.tokens.client.arrive e')).1) := by
        rw [states.wire.now]
        exact tokenOf_twin replies c.tokens.client _
      exact ⟨results, setFlight_twin states g (.landed results)⟩

end TokenCache
end Flights
end EngineClient
