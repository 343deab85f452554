import EngineClient.Proofs.Acts
import EngineClient.Proofs.Answer.Decided

/-!
# Calls that run alone

A call that runs to its end with nothing in between. Between such calls the slot waits for no flight, so that a call
that needs a token either takes the one in the slot or makes one exchange for the next.
-/

namespace EngineClient
open EngineClient.State EngineClient.Task

variable {s : State}

/-! ### Running to the end -/

/-- What a call gives, and the state it leaves, when nothing happens between its steps. -/
def Call.alone (x : Call α) (s : State) : Except Error α × State :=
  Task.run x.run s

theorem Call.alone_ok {x : Call α} {f : α → Call β} (first : x.alone s = (.ok a, s')) :
    (x >>= f).alone s = (f a).alone s' := by
  unfold alone at first ⊢
  rw [Call.run_bind, run_andThen, first]

theorem Call.alone_error {x : Call α} {f : α → Call β} (first : x.alone s = (.error e, s')) :
    (x >>= f).alone s = (.error e, s') := by
  unfold alone at first ⊢
  rw [Call.run_bind, run_andThen, first]
  rfl

theorem run_within (t : Task Wire α) (s : State) :
    (t.within State.wire State.setWire).run s = ((t.run s.wire).1, s.setWire (t.run s.wire).2) := by
  induction t generalizing s with
  | done a => rfl
  | act change next ih | wait change next ih => exact ih s.wire (s.setWire (change s.wire))

theorem Task.Keeps.run {rely guar : σ → σ → Prop} {post : α → σ → Prop} {t : Task σ α} {s : σ}
    (keeps : t.Keeps rely guar post s) (refl : ∀ s, rely s s) (trans : ∀ {a b c}, rely a b → rely b c → rely a c)
    (fits : ∀ {a b}, guar a b → rely a b) : rely s (t.run s).2 ∧ post (t.run s).1 (t.run s).2 := by
  induction t generalizing s with
  | done a => exact ⟨refl s, keeps s (refl s)⟩
  | act change next ih | wait change next ih =>
    obtain ⟨step, rest⟩ := keeps s (refl s)
    obtain ⟨later, ends⟩ := ih s rest
    exact ⟨trans (fits step) later, ends⟩

theorem Task.Obeys.run {t : Task State α} (obeys : t.Obeys margin allowed) (coherent : s.Coherent) :
    (t.run s).2.Coherent ∧ s.Evolves (t.run s).2 :=
  ((obeys s coherent).run Lawful.refl Lawful.trans Does.lawful).1 coherent

/-! ### The exchange for a token -/

theorem Client.run_exchange (c : Client) (o : Outbound) (w : Wire) : (c.exchange o).run w =
    match c.depart o w with
    | (.error e, w) => (.error e, w)
    | (.ok flight, w) => c.arrive flight w := by
  unfold exchange
  have departs : (Task.atom (c.depart o)).run w = c.depart o w := rfl
  rw [bind_eq, run_andThen, departs]
  obtain ⟨r, w'⟩ := c.depart o w
  cases r <;> rfl

theorem Client.run_send (c : Client) (d : Draft) (w : Wire) : (c.send d).run w =
    match TokenCache.dispatch c d w with
    | (.error e, w) => (.error e, w)
    | (.ok flight, w) => c.arrive flight w := by
  unfold send TokenCache.dispatch
  have clears : (Task.read (c.clear d)).run w = (c.clear d w, w) := rfl
  rw [bind_eq, run_andThen, clears]
  cases c.clear d w with
  | error e => rfl
  | ok o => exact c.run_exchange o w

namespace TokenCache

/-- The wire on which the next token is asked for. -/
def asking (service : SignOn) (s : State) : Wire :=
  (s.wire.note (.flightBegun (s.generation + 1))).note service.requestEvent

/-- The exchange for the next token: what it brings, and the wire after it. -/
def fetch (c : Client) (service : SignOn) (s : State) : Except Error AccessToken × Wire :=
  match service.tokenDraft s.asked with
  | .error e => (.error (.auth e), asking service s)
  | .ok d =>
    let (reply, w) := (c.send d).run (asking service s)
    (tokenOf c w.now reply, w)

/-- The state after the exchange for the next token, whatever the exchange has brought. -/
def renew (t : TokenCache) (service : SignOn) (s : State) : State :=
  let (brought, w) := fetch t.client service s
  { wire := w.noteAll (settleEvents t.margin (s.generation + 1) brought)
    slot := match brought with
      | .ok token => .ready (s.generation + 1) token
      | .error _ => .empty
    generation := s.generation + 1
    flights := (s.generation + 1, .landed brought) :: s.flights
    closed := s.closed
    asked := s.asked ++ service.asked }

end TokenCache

theorem TokenCache.slot_renew_ok {token : AccessToken} (fetched : (fetch t.client service s).1 = .ok token) :
    (renew t service s).slot = .ready (s.generation + 1) token := by
  simp only [renew, fetched]

theorem TokenCache.slot_renew_error (fetched : (fetch t.client service s).1 = .error e) :
    (renew t service s).slot = .empty := by
  simp only [renew, fetched]

/-- A flight of the next generation, which the slot waits for. -/
def State.flying (s : State) (f : Flight) : State :=
  { s with
    slot := .pending (s.generation + 1)
    generation := s.generation + 1
    flights := (s.generation + 1, f) :: s.flights }

theorem State.flight?_flying (s : State) (f : Flight) : (s.flying f).flight? (s.generation + 1) = some f := by
  simp [flight?, flying]

theorem replace_of_unknown {flights : List (Nat × Flight)} (unknown : flights.lookup g = none) (f : Flight) :
    flights.map (fun p => if p.1 = g then (g, f) else p) = flights := by
  rw [List.map_congr_left, List.map_id]
  intro p member
  have other : p.1 ≠ g := by
    intro same
    have absent := List.lookup_eq_none_iff.mp unknown p member
    simp [same] at absent
  rw [if_neg other, id]

theorem State.setFlight_flying (unknown : s.flight? (s.generation + 1) = none) (f f' : Flight) :
    (s.flying f).setFlight (s.generation + 1) f' = s.flying f' := by
  simp only [setFlight, flying, List.map_cons, replace_of_unknown unknown f', if_true]

namespace TokenCache
variable {t : TokenCache} {service : SignOn}

theorem renew_eq (t : TokenCache) (service : SignOn) (s : State) (fetched : fetch t.client service s = (r, w)) :
    renew t service s = ({ s with wire := w, asked := s.asked ++ service.asked }.flying (.landed r)).settle t.margin
      (s.generation + 1) r := by
  unfold renew settle
  rw [fetched]
  exact (if_pos rfl).symm

/-- What a flight has come to by the time it has departed, and the wire then. -/
def depart (c : Client) (service : SignOn) (s : State) : Flight × Wire :=
  let w := s.wire.note service.requestEvent
  match service.tokenDraft s.asked with
  | .error e => (.landed (.error (.auth e)), w)
  | .ok d =>
    match dispatch c d w with
    | (.error e, w) => (.landed (.error (.ofClient e)), w)
    | (.ok e, w) => (.underway e, w)

theorem launch_flying (c : Client) (service : SignOn) (unknown : s.flight? (s.generation + 1) = none) :
    launch c service (s.generation + 1) (s.flying .begun) =
      { s with wire := (depart c service s).2, asked := s.asked ++ service.asked }.flying (depart c service s).1 := by
  have lands : ∀ w f, setFlight (s.generation + 1) f
      ({ s with wire := w, asked := s.asked ++ service.asked }.flying .begun) =
        { s with wire := w, asked := s.asked ++ service.asked }.flying f :=
    fun w f => State.setFlight_flying (s := { s with wire := w, asked := s.asked ++ service.asked }) unknown _ f
  have begun := State.flight?_flying s .begun
  have asked : (s.flying .begun).asked = s.asked := rfl
  unfold launch depart
  rw [begun]
  dsimp only
  rw [asked]
  cases service.tokenDraft s.asked with
  | error e => exact lands _ _
  | ok d =>
    dsimp only [onWire]
    have wire : ((s.flying .begun).note service.requestEvent).wire = s.wire.note service.requestEvent := rfl
    rw [wire]
    obtain ⟨r, w⟩ := dispatch c d (s.wire.note service.requestEvent)
    cases r with
    | error e => exact lands w _
    | ok e => exact lands w _

theorem land_flying (c : Client) (e : Client.InFlight) (unknown : s.flight? (s.generation + 1) = none) :
    land c (s.generation + 1) (s.flying (.underway e)) =
      (tokenOf c (c.arrive e s.wire).2.now (c.arrive e s.wire).1, { s with wire := (c.arrive e s.wire).2 }.flying
        (.landed (tokenOf c (c.arrive e s.wire).2.now (c.arrive e s.wire).1))) := by
  unfold land
  rw [State.flight?_flying]
  have lands := State.setFlight_flying (s := { s with wire := (c.arrive e s.wire).2 }) unknown (.underway e)
    (.landed (tokenOf c (c.arrive e s.wire).2.now (c.arrive e s.wire).1))
  exact congrArg (Prod.mk _) lands

theorem fetch_of_depart (c : Client) (service : SignOn) (s : State) :
    let begun := s.note (.flightBegun (s.generation + 1))
    (∃ r w, depart c service begun = (.landed r, w) ∧ fetch c service s = (r, w)) ∨
    ∃ e w, depart c service begun = (.underway e, w) ∧
      fetch c service s = (tokenOf c (c.arrive e w).2.now (c.arrive e w).1, (c.arrive e w).2) := by
  intro begun
  have asked : begun.asked = s.asked := rfl
  have wire : begun.wire.note service.requestEvent = asking service s := rfl
  unfold depart fetch
  rw [asked, wire]
  cases service.tokenDraft s.asked with
  | error e => exact .inl ⟨_, _, rfl, rfl⟩
  | ok d =>
    dsimp only
    rw [c.run_send d]
    obtain ⟨r, w'⟩ := dispatch c d (asking service s)
    cases r with
    | error e => exact .inl ⟨_, _, rfl, rfl⟩
    | ok e => exact .inr ⟨_, _, rfl, rfl⟩

/-- Alone, whoever begins a flight makes the exchange. -/
theorem follow_flying (t : TokenCache) (service : SignOn) (unknown : s.flight? (s.generation + 1) = none) :
    (t.follow service (s.generation + 1)).alone s.begin = ((fetch t.client service s).1, renew t service s) := by
  have launched : launch t.client service (s.generation + 1) s.begin =
      { s with
        wire := (depart t.client service (s.note (.flightBegun (s.generation + 1)))).2
        asked := s.asked ++ service.asked }.flying (depart t.client service (s.note (.flightBegun (s.generation + 1)))).1 :=
    launch_flying (s := s.note (.flightBegun (s.generation + 1))) t.client service unknown
  unfold Call.alone
  rw [follow_run]
  simp only [Task.run, launched, id]
  rcases fetch_of_depart t.client service s with ⟨r, w, departed, fetched⟩ | ⟨e, w, departed, fetched⟩
  · rw [renew_eq t service s fetched, fetched, departed]
    have landed := result?_eq_some.mpr
      (State.flight?_flying { s with wire := w, asked := s.asked ++ service.asked } (.landed r))
    simp only [landed, Task.run]
  · rw [renew_eq t service s fetched, fetched, departed]
    have under := State.flight?_flying { s with wire := w, asked := s.asked ++ service.asked } (.underway e)
    have waits : ({ s with wire := w, asked := s.asked ++ service.asked }.flying (.underway e)).result?
        (s.generation + 1) = none := by
      unfold result?
      rw [under]
    have lands := land_flying (s := { s with wire := w, asked := s.asked ++ service.asked }) t.client e unknown
    simp only [waits, Task.run, lands]

end TokenCache

/-! ### What an exchange brings -/

/-- A token is as it was issued at some moment. -/
def AccessToken.IsIssued (t : AccessToken) : Prop :=
  ∃ now text life, issued? now text life = some t

/-- A token is the one that an answer to the request for it has named. -/
def SignOn.Answers (c : Client) (service : SignOn) (s : State) (t : AccessToken) : Prop :=
  ∃ d reply body a, service.tokenDraft s.asked = .ok d ∧
    ((c.send d).run (TokenCache.asking service s)).1 = .ok reply ∧
    reply.read c.settings.maxBodySize = .ok body ∧ Answer.read body = .ok a ∧
    a.accessToken = some t.value.expose ∧ AccessToken.bearer? t.value.expose = some t.authorization

theorem TokenCache.fetch_eq_ok (fetched : (fetch c service s).1 = .ok t) : service.Answers c s t ∧ t.IsIssued := by
  unfold fetch at fetched
  split at fetched
  · cases fetched
  · rename_i d drafted
    dsimp only at fetched
    unfold tokenOf at fetched
    split at fetched
    · cases fetched
    · rename_i reply replied
      split at fetched
      · cases fetched
      · rename_i body reads
        cases answered : Answer.token ((c.send d).run (asking service s)).2.now reply.status body with
        | error e =>
          rw [answered] at fetched
          cases fetched
        | ok t' =>
          rw [answered] at fetched
          cases fetched
          obtain ⟨a, value, answer, named, issued⟩ := Answer.token_eq_ok answered
          obtain ⟨same, bearer, _⟩ := AccessToken.issued?_eq_some issued
          have exposed : value = t.value.expose := congrArg Secret.expose same.symm
          subst exposed
          exact ⟨⟨d, reply, body, a, drafted, replied, reads, answer, named, bearer⟩, _, _, _, issued⟩

/-! ### Tokens near their end -/

/-- The end of a token is not farther off than the margin, nor than half of its life. -/
def AccessToken.Near (now : Instant) (margin : Span) (t : AccessToken) : Prop :=
  ∃ life ends, t.lifetime = some life ∧ t.expiresAt = some ends ∧
    ends.nanos ≤ now.nanos + Nat.min margin.nanos (life.nanos / 2)

theorem AccessToken.isExpired_iff_near {t : AccessToken} (issued : t.IsIssued) (now : Instant) (margin : Span) :
    t.isExpired now margin = true ↔ t.Near now margin := by
  obtain ⟨moment, text, life, issued⟩ := issued
  obtain ⟨_, _, lifetime, expires⟩ := issued?_eq_some issued
  unfold isExpired Near cappedMargin
  rw [lifetime, expires]
  cases life with
  | none => simp
  | some life =>
    have ends : (some life).bind moment.add? = moment.add? life := rfl
    rw [ends]
    unfold Instant.add?
    simp only [Span.min, Span.half]
    by_cases named : moment.nanos + life.nanos < Instant.bound
    · by_cases limited : now.nanos + margin.nanos.min (life.nanos / 2) < Instant.bound
      · simp [named, limited]
      · -- Past the last moment that can be named every end is near.
        have late : moment.nanos + life.nanos ≤ now.nanos + margin.nanos.min (life.nanos / 2) := by omega
        simp [named, limited, late]
    · simp [named]

/-! ### Between calls -/

/-- An open connection on which no call is under way. -/
structure State.Rests (s : State) : Prop where
  coherent : s.Coherent
  opened : s.closed = false
  slot : s.slot = .empty ∨ ∃ g t, s.slot = .ready g t ∧ t.IsIssued

def State.Lacks (margin : Span) (s : State) : Prop :=
  s.slot = .empty ∨ ∃ g t, s.slot = .ready g t ∧ t.Near s.wire.now margin

theorem State.Rests.initial (w : Wire) : State.Rests { wire := w } :=
  ⟨.initial w, rfl, .inl rfl⟩

theorem State.Rests.setWire (rests : s.Rests) (w : Wire) : (s.setWire w).Rests where
  coherent := rests.coherent.move (setWire_move .zero w s)
  opened := rests.opened
  slot := rests.slot

theorem State.Rests.unknown (rests : s.Rests) : s.flight? (s.generation + 1) = none :=
  rests.coherent.fresh (Nat.lt_succ_self s.generation)

theorem State.Rests.drop (rests : s.Rests) (slot : s.slot = .ready g t) : (s.drop g).Rests where
  coherent := rests.coherent.drop slot
  opened := rests.opened
  slot := .inl rfl

theorem State.acquire_lacking (rests : s.Rests) (lacks : s.Lacks margin) :
    s.acquire margin = (.flight (s.generation + 1), s.begin) := by
  unfold acquire
  rcases rests.slot with empty | ⟨g, t, ready, issued⟩
  · rw [empty]
  · rcases lacks with empty | ⟨g', t', ready', near⟩
    · rw [empty]
    · cases ready.symm.trans ready'
      rw [ready]
      simp only [(AccessToken.isExpired_iff_near issued _ _).mpr near, if_true]

theorem State.acquire_cached {token : AccessToken} (rests : s.Rests) (slot : s.slot = .ready g token)
    (good : ¬ token.Near s.wire.now margin) : s.acquire margin = (.cached g token, s.note (.tokenReused g)) := by
  obtain ⟨g', token', ready, issued⟩ : ∃ g t, s.slot = .ready g t ∧ t.IsIssued := by
    rcases rests.slot with empty | ready
    · cases slot.symm.trans empty
    · exact ready
  cases slot.symm.trans ready
  have unexpired : ¬ token.isExpired s.wire.now margin = true :=
    fun expired => good ((AccessToken.isExpired_iff_near issued _ _).mp expired)
  unfold acquire
  rw [slot]
  simp [unexpired]

namespace TokenCache
variable {t : TokenCache} {service : SignOn}

theorem ensure_lacking (signOn : t.strategy = .signOn service) (rests : s.Rests) (lacks : s.Lacks t.margin) :
    t.ensure.alone s = ((fetch t.client service s).1.map fun token => (token, some (s.generation + 1)),
      renew t service s) := by
  have follows := follow_flying t service rests.unknown
  unfold Call.alone at follows ⊢
  rw [ensure_run signOn]
  simp only [Task.run, acquire_lacking rests lacks, take_flight_run, run_andThen, follows]

theorem ensure_cached {token : AccessToken} (signOn : t.strategy = .signOn service) (rests : s.Rests)
    (slot : s.slot = .ready g token) (good : ¬ token.Near s.wire.now t.margin) :
    t.ensure.alone s = (.ok (token, some g), s.note (.tokenReused g)) := by
  unfold Call.alone
  rw [ensure_run signOn]
  simp only [Task.run, acquire_cached rests slot good]
  rfl

end TokenCache

theorem State.Rests.renew {t : TokenCache} (signOn : t.strategy = .signOn service) (rests : s.Rests)
    (lacks : s.Lacks t.margin) : (t.renew service s).Rests where
  coherent := by
    have obeys : t.ensure.run.Obeys t.margin fun _ => True :=
      Keeps.obeys fun s coherent => t.ensure_keeps (fun _ _ => trivial) coherent
    have ends := (obeys.run rests.coherent).1
    have left : (t.ensure.run.run s).2 = t.renew service s :=
      congrArg Prod.snd (TokenCache.ensure_lacking signOn rests lacks)
    rwa [left] at ends
  opened := rests.opened
  slot := by
    cases fetched : (TokenCache.fetch t.client service s).1 with
    | error e => exact .inl (TokenCache.slot_renew_error fetched)
    | ok token => exact .inr ⟨_, token, TokenCache.slot_renew_ok fetched, (TokenCache.fetch_eq_ok fetched).2⟩

end EngineClient
