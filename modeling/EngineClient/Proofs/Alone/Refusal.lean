import EngineClient.Proofs.Alone.Reuse

/-!
# Refused tokens

What becomes of a token that the engine has refused. Refused for the first exchange of a request it is gone for good,
and nothing is handed out or sent before another one has been fetched. Refused for the second one it stays in the slot.
-/

namespace EngineClient
open EngineClient.State EngineClient.Task

/-- Between two states, an event hands out or carries the token of a generation. -/
inductive Event.Uses (s s' : State) (g : Nat) : Event → Prop
  | fetch (slot : s'.slot = .ready g token) : Uses s s' g (.fetch (.ok token))
  | reuse (slot : s.slot = .ready g token) : Uses s s' g (.reuse token)
  | exchange (slot : s.slot = .ready g token) : Uses s s' g (.exchange request token.authorization reply)

/-- An event is one that hands out or carries a token. -/
def Event.usesToken (e : Event) : Bool :=
  e.brought?.isSome || e.isExchange || match e with
    | .reuse _ => true
    | _ => false

theorem Event.fetch_mem_of_latest? {history : List Event} (latest : latest? history = some token) :
    .fetch (.ok token) ∈ history := by
  obtain ⟨e, member, brought⟩ := List.mem_filterMap.mp (List.mem_of_getLast? latest)
  unfold brought? at brought
  split at brought
  · cases brought
    exact member
  · cases brought

/-- A generation has been given out, and only later ones are in the slot. -/
structure State.Outlives (g : Nat) (s : State) : Prop where
  given : g ≤ s.generation
  slot : ∀ h, s.slot.generation? = some h → g < h

theorem TokenCache.generation_renew {t : TokenCache} {s : State}
    (slot : (t.renew service s).slot.generation? = some g) : g = s.generation + 1 := by
  cases fetched : (fetch t.client service s).1 with
  | ok token =>
    rw [slot_renew_ok fetched] at slot
    exact (Option.some.inj slot).symm
  | error e =>
    rw [slot_renew_error fetched] at slot
    cases slot

namespace Connection
variable {c : Connection} {s s' : State} {history : List Event}

/-! ### Later generations -/

theorem Happens.outlives (happens : c.Happens s e s') (outlives : s.Outlives g) : s'.Outlives g := by
  cases happens with
  | fetch signOn lacks =>
    refine ⟨Nat.le_succ_of_le outlives.given, fun h slot => ?_⟩
    rw [TokenCache.generation_renew slot]
    exact Nat.lt_succ_of_le outlives.given
  | given _ => exact outlives
  | reuse _ _ _ | exchange _ | outside _ => exact ⟨outlives.given, outlives.slot⟩
  | drop _ => exact ⟨outlives.given, fun h slot => by cases slot⟩

theorem Follows.outlives (follows : c.Follows s history s') (outlives : s.Outlives g) : s'.Outlives g := by
  induction follows with
  | nil => exact outlives
  | cons happens _ ih => exact ih (happens.outlives outlives)

theorem Happens.uses_later (happens : c.Happens s e s') (outlives : s.Outlives g) (uses : e.Uses s s' h) : g < h := by
  cases uses with
  | fetch slot => exact (happens.outlives outlives).slot h (by rw [slot]; rfl)
  | reuse slot | exchange slot => exact outlives.slot h (by rw [slot]; rfl)

theorem Carries.ready (carries : c.Carries s a) (fetched : c.tokens.strategy.fixed? = none) :
    ∃ g token, s.slot = .ready g token ∧ a = token.authorization := by
  unfold Carries at carries
  rwa [fetched] at carries

/-- An exchange carries the token in the slot and leaves it there. -/
theorem Happens.carried (happens : c.Happens s (.exchange request a reply) s')
    (fetched : c.tokens.strategy.fixed? = none) :
    ∃ g token, s.slot = .ready g token ∧ a = token.authorization ∧ s'.slot = .ready g token := by
  generalize same : Event.exchange request a reply = e at happens
  cases happens with
  | exchange carries =>
    cases same
    obtain ⟨g, token, slot, carried⟩ := carries.ready fetched
    exact ⟨g, token, slot, carried, slot⟩
  | fetch _ _ | reuse _ _ _ | given _ | drop _ | outside _ => cases same

/-- An event that hands out or carries a token uses one generation. -/
theorem Happens.uses (happens : c.Happens s e s') (fetched : c.tokens.strategy.fixed? = none) (one : e.usesToken = true) :
    ∃ g, e.Uses s s' g := by
  cases happens with
  | fetch signOn lacks =>
    rename_i service
    cases brought : (TokenCache.fetch c.tokens.client service s).1 with
    | ok token => exact ⟨_, .fetch (TokenCache.slot_renew_ok brought)⟩
    | error e =>
      rw [brought] at one
      cases one
  | reuse _ slot _ => exact ⟨_, .reuse slot⟩
  | exchange carries =>
    obtain ⟨g, token, slot, rfl⟩ := carries.ready fetched
    exact ⟨g, .exchange slot⟩
  | given _ | drop _ | outside _ => cases one

/-- From an empty slot on, no token is used before one has been fetched. -/
theorem Follows.fetched (follows : c.Follows s history s₁) (happens : c.Happens s₁ e s₂) (empty : s.slot = .empty)
    (uses : e.Uses s₁ s₂ g) : ∃ token, .fetch (.ok token) ∈ history ++ [e] := by
  have latest := follows.latest [] fun g token slot => by cases empty.symm.trans slot
  rw [List.nil_append] at latest
  cases uses with
  | fetch slot => exact ⟨_, List.mem_append_right _ (List.mem_singleton_self _)⟩
  | reuse slot | exchange slot =>
    exact ⟨_, List.mem_append_left _ (Event.fetch_mem_of_latest? (latest _ _ slot))⟩

/-! ### The two refusals of a send -/

/-- The first exchange of a send that is refused is followed by the drop of its token, the second one by nothing. -/
theorem Sending.refusal {before rest : List Event} (sending : c.Sending request today events r)
    (fetched : c.tokens.strategy.fixed? = none)
    (split : events = before ++ .exchange request a (.ok response) :: rest) (refused : response.status = .unauthorized) :
    (before.countP Event.isExchange = 0 ∧ ∃ more, rest = .drop request :: more) ∨
      (before.countP Event.isExchange = 1 ∧ rest = []) := by
  -- A send has at most five events, so that the place of the exchange can be found by trying each.
  cases sending with
  | unobtained obtains =>
    have none := Event.isExchange_of_obtained obtains
    rcases before with _ | ⟨b, _ | ⟨b₁, before⟩⟩
    · cases split
      cases none
    · cases split
    · cases split
  | once obtains last =>
    have own := Event.isExchange_of_obtained obtains
    rcases before with _ | ⟨b, _ | ⟨b₁, before⟩⟩
    · cases split
      cases own
    · cases split
      exact (last response rfl refused fetched).elim
    · simp at split
  | unreplaced obtains refused' _ =>
    have own := Event.isExchange_of_obtained obtains
    rcases before with _ | ⟨b, _ | ⟨b₁, _ | ⟨b₂, _ | ⟨b₃, before⟩⟩⟩⟩
    · cases split
      cases own
    · cases split
      exact .inl ⟨by simp [own], _, rfl⟩
    · cases split
    · cases split
    · simp at split
  | twice obtains refused' _ =>
    have own := Event.isExchange_of_obtained obtains
    rcases before with _ | ⟨b, _ | ⟨b₁, _ | ⟨b₂, _ | ⟨b₃, _ | ⟨b₄, before⟩⟩⟩⟩⟩
    · cases split
      cases own
    · cases split
      exact .inl ⟨by simp [own], _, rfl⟩
    · cases split
    · cases split
    · cases split
      exact .inr ⟨by simp [List.countP_cons, own], rfl⟩
    · simp at split

/-- While its token is good, a connection hands it out again. -/
theorem authenticate_cached (signOn : c.tokens.strategy = .signOn service) (rests : s.Rests)
    (slot : s.slot = .ready g token) (good : ¬ token.Near s.wire.now c.tokens.margin) :
    c.authenticate.alone s = (.ok token, s.note (.tokenReused g)) := by
  have run : c.authenticate.alone s = c.tokens.token.alone s := Call.alone_ok (ensureOpen_alone rests)
  rw [run]
  exact Call.alone_ok (TokenCache.ensure_cached signOn rests slot good)

/-! ### What comes later -/

/-- Whatever a session does next, a token that it uses is of a later generation, and an exchange has brought one. -/
def LeavesBehind (c : Connection) (g : Nat) (since : List Event) (s : State) : Prop :=
  ∀ acts, Act.close ∉ acts → ∃ courses, c.Tells s acts courses (c.play acts s).1 (c.play acts s).2 ∧
    ∀ before e after, courses.flatten = before ++ e :: after → e.usesToken = true → ∃ s₁ s₂,
      c.Follows s before s₁ ∧ c.Happens s₁ e s₂ ∧ c.Follows s₂ after (c.play acts s).2 ∧
      (∃ h, e.Uses s₁ s₂ h) ∧ (∀ h, e.Uses s₁ s₂ h → g < h) ∧ ∃ token, .fetch (.ok token) ∈ since ++ before ++ [e]

/-- A token that is dropped is left behind. -/
theorem Follows.leavesBehind (follows : c.Follows s (.drop request :: more) s') (rests : s.Rests)
    (fetched : c.tokens.strategy.fixed? = none) (slot : s.slot = .ready g token) :
    c.LeavesBehind g (.drop request :: more) s' := by
  intro acts opened
  have rests' := follows.rests rests
  obtain ⟨courses, tells⟩ := play_tells fetched rests' opened
  refine ⟨courses, tells, fun before e after split one => ?_⟩
  have later := tells.follows
  rw [split] at later
  obtain ⟨s₁, s₂, first, happens, last⟩ := later.middle
  obtain ⟨h, uses⟩ := happens.uses fetched one
  cases follows with
  | cons drops since =>
    cases drops with
    | drop slot' =>
      cases slot.symm.trans slot'
      have given : g ≤ s.generation := Nat.le_of_eq (rests.coherent.ready slot).1
      have outlives : State.Outlives g ((s.note (.refused g request.path)).drop g) := ⟨given, fun _ slot => by cases slot⟩
      have whole := since.append first
      refine ⟨s₁, s₂, first, happens, last, ⟨h, uses⟩, fun h' uses' => ?_, ?_⟩
      · exact happens.uses_later (whole.outlives outlives) uses'
      · obtain ⟨token', brought⟩ := whole.fetched happens rfl uses
        exact ⟨token', List.mem_cons_of_mem _ brought⟩

end Connection

/-- Refusals that a call meets in a session on a connection that signs on. After the first exchange of a send, the
token is left behind. After the second it is still in the slot, and is handed out again while it is good. -/
theorem refused_token_left_behind (c : Connection) (signOn : c.tokens.strategy = .signOn service) (acts : List Act)
    (opened : Act.close ∉ acts) (w : Wire) (entry : Entry) (aim : entry.aim c = .response request) :
    let s := (c.play acts { wire := w }).2
    let r := ((Act.call entry).task c).run s
    ∃ events, c.Follows s events r.2 ∧ c.Course r.2.wire.today (.call entry) events r.1 ∧
      ∀ before a response rest, events = before ++ .exchange request a (.ok response) :: rest →
        response.status = .unauthorized → ∃ s₁ s₂ g token, c.Follows s before s₁ ∧
          c.Happens s₁ (.exchange request a (.ok response)) s₂ ∧ c.Follows s₂ rest r.2 ∧
          s₁.slot = .ready g token ∧ a = token.authorization ∧
          ((before.countP Event.isExchange = 0 ∧ c.LeavesBehind g rest r.2) ∨
            (before.countP Event.isExchange = 1 ∧ r.2.slot = .ready g token ∧
              (¬ token.Near r.2.wire.now c.tokens.margin →
                c.authenticate.alone r.2 = (.ok token, r.2.note (.tokenReused g))))) := by
  intro s r
  have fetched : c.tokens.strategy.fixed? = none := by simp [signOn, Strategy.fixed?]
  have rests : s.Rests := c.play_rests (.initial w) opened
  obtain ⟨events, follows, sending⟩ := c.send_alone request rests
  have ends : r = (((c.send request).alone s).1.map entry.ofResponse, ((c.send request).alone s).2) := by
    simp only [r, Connection.run_call, aim]
  rw [ends]
  refine ⟨events, follows, .response aim sending, fun before a response rest split refused => ?_⟩
  have parts := follows
  rw [split] at parts
  obtain ⟨s₁, s₂, first, happens, last⟩ := parts.middle
  obtain ⟨g, token, slot, carried, stays⟩ := happens.carried fetched
  refine ⟨s₁, s₂, g, token, first, happens, last, slot, carried, ?_⟩
  rcases sending.refusal fetched split refused with ⟨none, more, rfl⟩ | ⟨one, rfl⟩
  · exact .inl ⟨none, last.leavesBehind (happens.rests (first.rests rests)) fetched stays⟩
  · cases last with
    | nil => exact .inr ⟨one, stays, Connection.authenticate_cached signOn (follows.rests rests) stays⟩

namespace Sample

def issued (value : String) : AccessToken where
  value := ⟨value⟩
  authorization := (HeaderValue.literal ("Bearer " ++ value)).markSensitive
  lifetime := none
  expiresAt := none

/-- The service gives a first token and then others; the engine refuses every request. -/
def refusing : Wire where
  network sent o := match o.method, sent.length with
    | .post, 0 => answer 200 "\x7b\"access_token\":\"A\"\x7d"
    | .post, _ => answer 200 "\x7b\"access_token\":\"B\"\x7d"
    | _, _ => answer 401 ""

/-- The state that a send leaves which was refused twice. -/
def refused : State := (connection.play [.call (.send (.get "x"))] { wire := refusing }).2

end Sample

/-- The token A that was fetched ahead is refused by the first exchange of the next send, and left behind. -/
theorem refused_token_left_behind_once :
    Act.close ∉ Sample.ahead ∧ Sample.resting.slot = .ready 1 (Sample.issued "A") ∧
    ((Sample.connection.exchanged (.get "x") (Sample.issued "A").authorization Sample.resting.wire).1.map
      Response.status) = .ok .unauthorized ∧
    ∃ events, Sample.connection.Follows Sample.resting events
      (((Act.call (.send (.get "x"))).task Sample.connection).run Sample.resting).2 ∧
      ∀ before a response rest, events = before ++ .exchange (.get "x") a (.ok response) :: rest →
        response.status = .unauthorized → before.countP Event.isExchange = 0 →
        ∃ g, Sample.connection.LeavesBehind g rest
          (((Act.call (.send (.get "x"))).task Sample.connection).run Sample.resting).2 := by
  have opened : Act.close ∉ Sample.ahead := by simp [Sample.ahead]
  have resting : (Sample.connection.play Sample.ahead { wire := Sample.wire }).2 = Sample.resting := rfl
  have behind := refused_token_left_behind Sample.connection rfl Sample.ahead opened Sample.wire (.send (.get "x")) rfl
  dsimp only at behind
  rw [resting] at behind
  obtain ⟨events, follows, _, refusals⟩ := behind
  refine ⟨opened, by decide +kernel, by decide +kernel, events, follows, fun before a response rest split refused first => ?_⟩
  obtain ⟨_, _, g, _, _, _, _, _, _, ⟨_, left⟩ | ⟨one, _⟩⟩ := refusals before a response rest split refused
  · exact ⟨g, left⟩
  · omega

/-- The token B is refused by the second exchange of a send. The next call takes it from the slot, and no exchange for
another one is made. -/
theorem second_refusal_keeps_token :
    (Sample.connection.play [.call (.send (.get "x"))] { wire := Sample.refusing }).1 =
      [.error (.auth (.unauthorized (.ofStatus .unauthorized)))] ∧
    Sample.refused.wire.sent.map (fun x => x.request.map fun o => (o.method, o.headers.getAll .authorization)) =
      [some (.post, []), some (.get, [(Sample.issued "A").authorization]), some (.post, []),
        some (.get, [(Sample.issued "B").authorization])] ∧
    Sample.refused.slot = .ready 2 (Sample.issued "B") ∧
    (Sample.connection.play [.call .authenticate] Sample.refused).1 = [.ok (.token (Sample.issued "B"))] ∧
    (Sample.connection.play [.call .authenticate] Sample.refused).2.wire.sent = Sample.refused.wire.sent := by
  decide +kernel

end EngineClient
