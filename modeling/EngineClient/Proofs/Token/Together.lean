import EngineClient.Proofs.Token.Calls

/-!
# Calls that go on together

Any number of calls on one new token cache or on one new connection, in any order of their steps, any of them dropped
at any time. Beside them anything may happen on the wire: the clock goes on, and exchanges go through their stages.
-/

namespace EngineClient
open EngineClient.State EngineClient.Task

variable {margin : Span} {allowed : Deed → Prop} {s : State}

/-! ### The other calls on a cache -/

/-- A credential with a generation carries the token that its flight has brought, and that flight is over. -/
def Authorizes (r : Except Error Credential) (s : State) : Prop :=
  ∀ credential g, r = .ok credential → credential.generation = some g → ∃ token,
    s.result? g = some (.ok token) ∧ credential.authorization = token.authorization ∧ s.slot ≠ .pending g

theorem Issued.authorizes {r : Except Error (AccessToken × Option Nat)} (issued : Issued r s) :
    Authorizes (r.map fun p => { authorization := p.1.authorization, generation := p.2 }) s := by
  intro credential g same generation
  cases r with
  | error e => cases same
  | ok p =>
    obtain ⟨token, x⟩ := p
    cases same
    obtain rfl : x = some g := generation
    obtain ⟨result, settled⟩ := issued token g rfl
    exact ⟨token, result, rfl, settled⟩

namespace TokenCache

theorem credential_run {t : TokenCache} (bearer : ∀ a, t.strategy ≠ .basic a) :
    t.credential.run = t.ensure.run.andThen fun r =>
      done (r.map fun p => { authorization := p.1.authorization, generation := p.2 }) := by
  have same : t.credential.run = (t.ensure >>= fun p => pure {
      authorization := p.1.authorization, generation := p.2 } : Call Credential).run := by
    unfold credential
    split
    · rename_i a basic
      exact (bearer a basic).elim
    · rfl
  rw [same]
  refine congrArg (Task.andThen _) (funext fun r => ?_)
  cases r <;> rfl

theorem token_run (t : TokenCache) : t.token.run = t.ensure.run.andThen fun r => done (r.map Prod.fst) := by
  refine congrArg (Task.andThen _) (funext fun r => ?_)
  cases r <;> rfl

theorem credential_keeps (t : TokenCache) (fetch : ∀ d, d.Fetches → allowed d) (coherent : s.Coherent) :
    t.credential.run.Keeps Lawful (Does t.margin allowed) Authorizes s := by
  by_cases bearer : ∀ a, t.strategy ≠ .basic a
  · rw [credential_run bearer]
    refine Keeps.andThen Lawful.refl (((ensure_keeps t fetch coherent).lasting coherent).imp ?_)
    rintro r s' ⟨_, issued⟩ s'' later
    exact (issued s'' later).authorizes
  · obtain ⟨a, basic⟩ := not_forall_not.mp bearer
    unfold credential
    rw [basic]
    refine Call.keeps_bind Lawful.refl ((checkOpen_obeys (fetch _ (.inl rfl)) s coherent).imp ?_)
    rintro (e | _) s' _
    · exact fun _ _ _ _ same => by cases same
    · rintro s'' later credential g same generation
      cases same
      cases generation

theorem token_obeys (t : TokenCache) (fetch : ∀ d, d.Fetches → allowed d) : t.token.run.Obeys t.margin allowed := by
  rw [token_run]
  exact (Keeps.obeys fun s coherent => ensure_keeps t fetch coherent).andThen fun _ => obeys_done _

theorem generation_invalidate (settled : s.slot ≠ .pending g) : (s.invalidate g).slot.generation? ≠ some g := by
  unfold State.invalidate
  split
  · rename_i cached token slot
    split
    · exact fun h => by cases h
    · rename_i other
      rw [slot]
      exact fun h => other (Option.some.inj h)
  · rename_i unready
    intro found
    unfold Slot.generation? at found
    split at found
    · rename_i h pending
      cases found
      exact settled pending
    · rename_i h token ready
      exact unready h token ready
    · cases found

theorem invalidate_does (margin : Span) (g : Nat) (other : allowed .other) (drop : allowed (.drop g)) (s : State) :
    Does margin allowed s (s.invalidate g) := by
  obtain ⟨d, kind, move⟩ := invalidate_move margin g s
  rcases kind with rfl | rfl
  · exact ⟨.other, other, move⟩
  · exact ⟨.drop g, drop, move⟩

theorem invalidate_obeys (g : Nat) (other : allowed .other) (drop : allowed (.drop g)) :
    (invalidate g).Obeys margin allowed :=
  update_obeys fun s => invalidate_does margin g other drop s

/-- A generation that is over is not in the slot once it has been invalidated. -/
theorem invalidate_keeps (g : Nat) (other : allowed .other) (drop : allowed (.drop g)) (coherent : s.Coherent) :
    (invalidate g).Keeps Lawful (Does margin allowed)
      (fun _ s' => (s.flight? g).isSome → s.slot ≠ .pending g → s'.slot.generation? ≠ some g) s := by
  intro s₁ between₁
  obtain ⟨coherent₁, evolves₁⟩ := between₁ coherent
  have does := invalidate_does margin g other drop s₁
  refine ⟨does, fun s₂ between₂ known settled => ?_⟩
  obtain ⟨coherent', evolves'⟩ := does.lawful coherent₁
  have gone := generation_invalidate (evolves₁.settled known settled)
  exact (between₂ coherent').2.gone (evolves'.known (evolves₁.known known)) gone

theorem revokeToken_obeys (other : allowed .other) (c : Client) (service : SignOn) (token : AccessToken) :
    (revokeToken c service token).Obeys margin allowed :=
  (within_obeys other _).andThen fun _ => note_obeys other _

theorem revoke_run (t : TokenCache) : t.revoke = act (fun s => s.revoke.2) fun s =>
    match t.strategy, s.slot with
    | .signOn service, .ready _ token => revokeToken t.client service token
    | .signOn _, .pending g => Task.update (State.note (.flightDiscarded g))
    | _, _ => done () := rfl

theorem revoke_obeys (t : TokenCache) (other : allowed .other) (revoke : allowed .revoke) :
    t.revoke.Obeys margin allowed := by
  rw [revoke_run]
  refine obeys_act (fun s => ⟨.revoke, revoke, .revoke⟩) fun s => ?_
  split
  · exact revokeToken_obeys other _ _ _
  · exact note_obeys other _
  · exact obeys_done _

end TokenCache

/-! ### Calls on a connection -/

namespace Connection

theorem ensureOpen_obeys (other : allowed .other) : ensureOpen.run.Obeys margin allowed := by
  refine Call.obeys_bind (Call.obeys_ofTask (read_obeys other _)) fun closed => ?_
  cases closed
  · exact obeys_done _
  · exact obeys_done _

theorem authorize_keeps (c : Connection) (fetch : ∀ d, d.Fetches → allowed d) (coherent : s.Coherent) :
    c.authorize.run.Keeps Lawful (Does c.tokens.margin allowed) Authorizes s := by
  have other := fetch .other (.inl rfl)
  refine Call.keeps_bind Lawful.refl (((ensureOpen_obeys other s coherent).lasting coherent).imp ?_)
  rintro (e | _) s' ⟨coherent', _⟩
  · exact fun _ _ _ _ same => by cases same
  · exact c.tokens.credential_keeps fetch coherent'

theorem execute_obeys (c : Connection) (request : Request) (authorization : HeaderValue) (other : allowed .other) :
    (c.execute request authorization).run.Obeys margin allowed := by
  refine Call.obeys_bind (Call.obeys_ofTask (note_obeys other _)) fun _ => ?_
  refine Call.obeys_bind (Call.obeys_ofTask (within_obeys other _)) fun reply => ?_
  cases reply with
  | error e => exact obeys_done _
  | ok reply =>
    dsimp only
    split
    · exact obeys_done _
    · exact Call.obeys_bind (Call.obeys_ofTask (note_obeys other _)) fun _ => obeys_done _

theorem faultOf_obeys (r : Response) (other : allowed .other) : (faultOf r).run.Obeys margin allowed :=
  Call.obeys_bind (Call.obeys_ofTask (read_obeys other _)) fun _ => obeys_done _

theorem failUnauthorized_obeys (r : Response) (other : allowed .other) :
    (failUnauthorized r).run.Obeys margin allowed :=
  Call.obeys_bind (faultOf_obeys r other) fun _ => obeys_done _

theorem checkStatus_obeys (r : Response) (other : allowed .other) : (checkStatus r).run.Obeys margin allowed := by
  unfold checkStatus
  split
  · exact obeys_done _
  · exact Call.obeys_bind (faultOf_obeys r other) fun _ => obeys_done _

theorem giveUp_obeys (request : Request) (other : allowed .other) (drop : allowed (.drop g)) :
    (giveUp request g).Obeys margin allowed :=
  (note_obeys other _).andThen fun _ => TokenCache.invalidate_obeys g other drop

/-- A generation that is over is not in the slot once it has been given up. -/
theorem giveUp_keeps (request : Request) (g : Nat) (other : allowed .other) (drop : allowed (.drop g))
    (coherent : s.Coherent) : (giveUp request g).Keeps Lawful (Does margin allowed)
      (fun _ s' => (s.flight? g).isSome → s.slot ≠ .pending g → s'.slot.generation? ≠ some g) s := by
  intro s₁ between
  obtain ⟨coherent₁, evolves₁⟩ := between coherent
  refine ⟨does_other other (note_move margin _ s₁), ?_⟩
  refine (TokenCache.invalidate_keeps g other drop (coherent₁.move (note_move margin _ s₁))).imp ?_
  intro _ s' gone known settled
  exact gone (evolves₁.known known) (evolves₁.settled known settled)

section Send
variable (c : Connection) (fetch : ∀ d, d.Fetches → allowed d) (drop : ∀ g, allowed (.drop g))
include fetch

theorem authorize_obeys : c.authorize.run.Obeys c.tokens.margin allowed :=
  Keeps.obeys fun _ coherent => c.authorize_keeps fetch coherent

theorem authenticate_obeys : c.authenticate.run.Obeys c.tokens.margin allowed :=
  Call.obeys_bind (ensureOpen_obeys (fetch .other (.inl rfl))) fun _ => c.tokens.token_obeys fetch

include drop

theorem retry_obeys (request : Request) (g : Nat) : (c.retry request g).run.Obeys c.tokens.margin allowed := by
  have other := fetch .other (.inl rfl)
  refine Call.obeys_bind (Call.obeys_ofTask (giveUp_obeys request other (drop g))) fun _ => ?_
  refine Call.obeys_bind (c.authorize_obeys fetch) fun second => ?_
  refine Call.obeys_bind (c.execute_obeys request second.authorization other) fun response => ?_
  split
  · exact failUnauthorized_obeys response other
  · exact checkStatus_obeys response other

theorem send_obeys (request : Request) : (c.send request).run.Obeys c.tokens.margin allowed := by
  have other := fetch .other (.inl rfl)
  refine Call.obeys_bind (c.authorize_obeys fetch) fun first => ?_
  refine Call.obeys_bind (c.execute_obeys request first.authorization other) fun response => ?_
  split
  · exact checkStatus_obeys response other
  · split
    · exact failUnauthorized_obeys response other
    · exact c.retry_obeys fetch drop request _

end Send

theorem close_run (c : Connection) : c.close =
    act (fun s => { s with closed := true }) fun s =>
      if s.closed then done () else c.tokens.revoke.andThen fun _ =>
        (Client.close.within State.wire State.setWire).andThen fun _ =>
          Task.update (State.note (.closed (String.ofList c.root.url))) := rfl

theorem close_obeys (c : Connection) (other : allowed .other) (revoke : allowed .revoke) :
    c.close.Obeys margin allowed := by
  rw [close_run]
  refine obeys_act (fun s => does_other other (.quiet rfl rfl rfl fun _ => rfl)) fun s => ?_
  split
  · exact obeys_done _
  · refine (c.tokens.revoke_obeys other revoke).andThen fun _ => ?_
    refine (within_obeys other _).andThen fun _ => ?_
    exact note_obeys other _

end Connection

/-! ### Calls that go on together -/

inductive Returned
  | issued (r : Except Error (AccessToken × Option Nat))
  | credential (r : Except Error Credential)
  | token (r : Except Error AccessToken)
  | response (r : Except Error Response)
  | nothing

/-- A call on a token cache, or a change outside. -/
inductive CacheCall
  | ensure
  | credential
  | token
  | invalidate (generation : Nat)
  | revoke
  | outside (change : Wire → Wire)

/-- A call on a connection, or a change outside. -/
inductive ConnectionCall
  | send (request : Request)
  | authenticate
  | close
  | outside (change : Wire → Wire)

def changeOutside (change : Wire → Wire) : Task State Unit :=
  Task.update fun s => s.setWire (change s.wire)

theorem changeOutside_obeys (other : allowed .other) (change : Wire → Wire) :
    (changeOutside change).Obeys margin allowed :=
  update_obeys fun s => does_other other (setWire_move margin _ s)

namespace CacheCall

def task (t : TokenCache) : CacheCall → Task State Returned
  | ensure => t.ensure.run.andThen fun r => done (.issued r)
  | credential => t.credential.run.andThen fun r => done (.credential r)
  | token => t.token.run.andThen fun r => done (.token r)
  | invalidate g => (TokenCache.invalidate g).andThen fun _ => done .nothing
  | revoke => t.revoke.andThen fun _ => done .nothing
  | outside change => (changeOutside change).andThen fun _ => done .nothing

/-- What each call may do to the token. -/
def Allows : CacheCall → Deed → Prop
  | ensure, d | credential, d | token, d => d.Fetches
  | invalidate g, d => d = .other ∨ d = .drop g
  | revoke, d => d = .other ∨ d = .revoke
  | outside _, d => d = .other

theorem task_obeys (t : TokenCache) (call : CacheCall) : (call.task t).Obeys t.margin call.Allows := by
  cases call with
  | ensure => exact (Keeps.obeys fun _ coherent => t.ensure_keeps (fun _ => id) coherent).map _
  | credential => exact (Keeps.obeys fun _ coherent => t.credential_keeps (fun _ => id) coherent).map _
  | token => exact (t.token_obeys fun _ => id).map _
  | invalidate g => exact (TokenCache.invalidate_obeys g (.inl rfl) (.inr rfl)).map _
  | revoke => exact (t.revoke_obeys (.inl rfl) (.inr rfl)).map _
  | outside change =>
    have other : (outside change).Allows .other := rfl
    exact (changeOutside_obeys other change).map _

end CacheCall

namespace ConnectionCall

def task (c : Connection) : ConnectionCall → Task State Returned
  | send request => (c.send request).run.andThen fun r => done (.response r)
  | authenticate => c.authenticate.run.andThen fun r => done (.token r)
  | close => c.close.andThen fun _ => done .nothing
  | outside change => (changeOutside change).andThen fun _ => done .nothing

def Allows : ConnectionCall → Deed → Prop
  | send _, d => d.Fetches ∨ ∃ g, d = .drop g
  | authenticate, d => d.Fetches
  | close, d => d = .other ∨ d = .revoke
  | outside _, d => d = .other

theorem task_obeys (c : Connection) (call : ConnectionCall) : (call.task c).Obeys c.tokens.margin call.Allows := by
  cases call with
  | send request => exact (c.send_obeys (fun _ => .inl) (fun g => .inr ⟨g, rfl⟩) request).map _
  | authenticate => exact (c.authenticate_obeys fun _ => id).map _
  | close => exact (c.close_obeys (.inl rfl) (.inr rfl)).map _
  | outside change =>
    have other : (outside change).Allows .other := rfl
    exact (changeOutside_obeys other change).map _

end ConnectionCall

/-! ### Runs -/

/-- Calls on a cache that is new, on some wire, by some schedule. -/
def TokenCache.together (t : TokenCache) (calls : Nat → CacheCall) (w : Wire) (turns : Nat → Turn) :
    Run State Returned :=
  { start := { tasks := fun i => some ((calls i).task t), state := { wire := w } }, turns }

/-- Calls on a connection that is new, on some wire, by some schedule. -/
def Connection.together (c : Connection) (calls : Nat → ConnectionCall) (w : Wire) (turns : Nat → Turn) :
    Run State Returned :=
  { start := { tasks := fun i => some ((calls i).task c), state := { wire := w } }, turns }

theorem Run.sound_of_obeys {r : Run State α} {allowed : Nat → Deed → Prop} (initial : (r.state 0).Coherent)
    (obeys : ∀ {i t}, r.task i 0 = some t → t.Obeys margin (allowed i)) :
    r.Sound Lawful fun i => Does margin (allowed i) where
  refl := Lawful.refl
  trans := Lawful.trans
  fits := Does.lawful
  start task := obeys task _ initial

theorem Run.Sound.lawful {r : Run State α} {guar : Nat → State → State → Prop} (sound : r.Sound Lawful guar)
    (initial : (r.state 0).Coherent) (le : m ≤ n) :
    (r.state m).Coherent ∧ (r.state n).Coherent ∧ (r.state m).Evolves (r.state n) := by
  obtain ⟨coherent, _⟩ := sound.relied (Nat.zero_le m) initial
  exact ⟨coherent, sound.relied le coherent⟩

/-- An ensure brings what it finds when it looks at the slot by its first turn. -/
theorem Run.Sound.brings {r : Run State α} {guar : Nat → State → State → Prop} (sound : r.Sound Lawful guar)
    (initial : (r.state 0).Coherent) {t : TokenCache} (signOn : t.strategy = .signOn service)
    (turn : r.turns m = .step i) (performs : r.Performs i t.ensure.run m b n) :
    r.state (m + 1) = ((r.state m).acquire t.margin).2 ∧ ((r.state m).acquire t.margin).1.Brings b (r.state n) := by
  obtain ⟨⟨k, task⟩, advances⟩ := performs
  rw [TokenCache.ensure_run signOn] at task advances
  have rest := advances.next turn rfl
  obtain ⟨task', state'⟩ := Run.task_step turn task rfl
  dsimp only at rest task' state'
  obtain ⟨coherent, coherent', _⟩ := sound.lawful initial (Nat.le_succ m)
  have stands := acquire_stands t.margin coherent
  rw [← state'] at stands
  have keeps : Keeps Lawful (Does t.margin fun _ => True) _ _ _ :=
    t.take_keeps service (fun _ _ => trivial) coherent' stands
  exact ⟨state', sound.performs ⟨⟨k, task'⟩, rest⟩ keeps⟩

section Runs
variable (t : TokenCache) (c : Connection) (w : Wire) (turns : Nat → Turn)

theorem TokenCache.together_sound (calls : Nat → CacheCall) :
    (t.together calls w turns).Sound Lawful fun i => Does t.margin (calls i).Allows := by
  refine Run.sound_of_obeys (Coherent.initial w) fun task => ?_
  cases task
  exact CacheCall.task_obeys t _

theorem Connection.together_sound (calls : Nat → ConnectionCall) :
    (c.together calls w turns).Sound Lawful fun i => Does c.tokens.margin (calls i).Allows := by
  refine Run.sound_of_obeys (Coherent.initial w) fun task => ?_
  cases task
  exact ConnectionCall.task_obeys c _

end Runs

/-! ### A sample -/

namespace Sample

def client : Client :=
  { settings := {}, defaults := .empty, proxy := none, roots := none }

def cache : TokenCache :=
  { client
    strategy := .signOn { tokenUrl := "https://e/t", revokeUrl := "https://e/r", grant := .password "u" ⟨"p"⟩ }
    margin := .zero }

def connection : Connection :=
  { client
    tokens := cache
    root := { url := "https://e/a".toList, path := "/a".toList, mediaType := .xml, headers := [] } }

def answer (status : Nat) (body : String) : Outcome :=
  .answered .zero { status := ⟨status⟩, headers := .empty, frames := [.data (Text.utf8 body)] }

/-- The service gives a first token and then others; the engine refuses the request that follows the first token. -/
def wire : Wire where
  network sent o := match o.method, sent.length with
    | .post, 0 => answer 200 "\x7b\"access_token\":\"A\"\x7d"
    | .post, _ => answer 200 "\x7b\"access_token\":\"B\"\x7d"
    | _, 1 => answer 401 ""
    | _, _ => answer 200 ""

/-- Tasks take steps as listed, then task 0 does. -/
def turns (steps : List Nat) (n : Nat) : Turn :=
  .step (steps.getD n 0)

end Sample
end EngineClient
