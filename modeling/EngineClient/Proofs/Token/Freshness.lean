import EngineClient.Proofs.Token.Together

/-!
# Fresh credentials

Generations are handed out in the order in which callers look at the slot, a generation has one authorization, and a
request whose token was refused goes out again with a token of a later generation.
-/

namespace EngineClient
open EngineClient.State EngineClient.Task

variable {margin : Span} {allowed : Deed → Prop} {s s' : State} {r : Run State α}

/-! ### What is handed out -/

theorem State.Found.Brings.generation {found : Found} (brings : found.Brings (.ok (token, x)) s) :
    ∃ g, x = some g ∧ found.generation? = some g := by
  cases found with
  | closed => cases brings
  | cached g token' =>
    obtain ⟨_, _, same⟩ := brings
    cases same
    exact ⟨g, rfl, rfl⟩
  | flight g =>
    obtain ⟨result, _, _, same⟩ := brings
    cases result with
    | error e => cases same
    | ok token' =>
      cases same
      exact ⟨g, rfl, rfl⟩

/-- What an ensure hands out is of the generation that the slot is about when it has been looked at. -/
theorem handed_generation {t : TokenCache} {guar : Nat → State → State → Prop} (signOn : t.strategy = .signOn service)
    (sound : r.Sound Lawful guar) (initial : (r.state 0).Coherent) (turn : r.turns m = .step i)
    (performs : r.Performs i t.ensure.run m (.ok (token, x)) n) : x = some (r.state (m + 1)).generation := by
  obtain ⟨state', brings⟩ := sound.brings initial signOn turn performs
  obtain ⟨g, rfl, found⟩ := brings.generation
  have slot := acquire_slot t.margin _ found
  rw [← state'] at slot
  rw [(sound.lawful initial (Nat.le_refl (m + 1))).1.generation_of_slot slot]

/-! ### After a refusal -/

/-- A generation was handed out and is no longer in the slot. -/
structure State.Past (g : Nat) (s : State) : Prop where
  coherent : s.Coherent
  known : (s.flight? g).isSome
  left : s.slot.generation? ≠ some g

theorem State.Past.lawful (past : s.Past g) (between : Lawful s s') : s'.Past g := by
  obtain ⟨coherent, evolves⟩ := between past.coherent
  exact ⟨coherent, evolves.known past.known, evolves.gone past.known past.left⟩

theorem State.Past.later (past : s.Past g) (slot : s.slot.generation? = some h) : g < h := by
  have last := past.coherent.generation_of_slot slot
  have le := past.coherent.le_generation past.known
  have other : h ≠ g := fun same => past.left (by rw [slot, same])
  omega

namespace TokenCache
variable {t : TokenCache} (signOn : t.strategy = .signOn service) (fetch : ∀ d, d.Fetches → allowed d)
include signOn fetch

theorem ensure_later (past : s.Past g) : t.ensure.run.Keeps Lawful (Does t.margin allowed)
    (fun r _ => ∀ token x, r = .ok (token, x) → ∃ h, x = some h ∧ g < h) s := by
  rw [ensure_run signOn]
  intro s₁ between
  have past₁ := past.lawful between
  have does := acquire_does t.margin fetch s₁
  have past₂ := past₁.lawful does.lawful
  refine ⟨does, ?_⟩
  refine (t.take_keeps service fetch past₂.coherent (acquire_stands t.margin past₁.coherent)).imp ?_
  rintro r s' brings token x rfl
  obtain ⟨h, rfl, found⟩ := brings.generation
  exact ⟨h, rfl, past₂.later (acquire_slot t.margin s₁ found)⟩

theorem credential_later (past : s.Past g) : t.credential.run.Keeps Lawful (Does t.margin allowed)
    (fun r _ => ∀ credential, r = .ok credential → ∃ h, credential.generation = some h ∧ g < h) s := by
  have bearer : ∀ a, t.strategy ≠ .basic a := by
    intro a basic
    cases signOn.symm.trans basic
  rw [credential_run bearer]
  refine Keeps.andThen Lawful.refl ((ensure_later signOn fetch past).imp ?_)
  rintro (e | ⟨token, x⟩) s' later s'' _ credential same
  · cases same
  · cases same
    exact later token x rfl

end TokenCache

theorem Connection.authorize_later {c : Connection} (signOn : c.tokens.strategy = .signOn service)
    (fetch : ∀ d, d.Fetches → allowed d) (past : s.Past g) :
    c.authorize.run.Keeps Lawful (Does c.tokens.margin allowed)
      (fun r _ => ∀ credential, r = .ok credential → ∃ h, credential.generation = some h ∧ g < h) s := by
  have checks : ensureOpen.run.Keeps Lawful (Does c.tokens.margin allowed) (fun _ s => s.Past g ∧ True) s :=
    (ensureOpen_obeys (fetch .other (.inl rfl)) s past.coherent).invariant
      (fun between past => past.lawful between) (fun step past => past.lawful step.lawful) past
  refine Call.keeps_bind Lawful.refl (checks.imp ?_)
  rintro (e | _) s' ⟨past', _⟩
  · exact fun _ _ _ same => by cases same
  · exact TokenCache.credential_later signOn fetch past'

/-! ### Sends that are refused -/

/-- A send by task `i` has just received a 401 for its first dispatch; `k` is what follows the send. -/
def Refused (r : Run State α) (c : Connection) (i : Nat) (request : Request)
    (k : Except Error Response → Task State α) (first : Credential) (n : Nat) : Prop :=
  ∃ l m response, r.task i l = some ((c.send request).run.andThen k) ∧ r.Performs i c.authorize.run l (.ok first) m ∧
    r.Performs i (c.execute request first.authorization).run m (.ok response) n ∧ response.status = .unauthorized

theorem Connection.retry_run (c : Connection) (request : Request) (g : Nat) : (c.retry request g).run =
    (giveUp request g).andThen fun _ => (do
      let second ← c.authorize
      let response ← c.execute request second.authorization
      if response.status = .unauthorized then failUnauthorized response else checkStatus response :
        Call Response).run := rfl

theorem Refused.left {c : Connection} (refused : Refused r c i request k first n) :
    ∃ response, r.task i n = some ((match first.generation with
      | none => Connection.failUnauthorized response
      | some g => c.retry request g).run.andThen k) := by
  obtain ⟨l, m, response, task, authorized, executed, status⟩ := refused
  unfold Connection.send at task
  have dispatched := Call.task_bind task authorized.2
  have left := Call.task_bind dispatched executed.2
  rw [if_neg (fun other => other status)] at left
  exact ⟨response, left⟩

theorem Refused.task {c : Connection} (refused : Refused r c i request k first n)
    (generation : first.generation = some g) : r.task i n = some ((c.retry request g).run.andThen k) := by
  obtain ⟨response, left⟩ := refused.left
  rw [generation] at left
  exact left

/-- A send by task `i` that was refused on a token of a generation is about to dispatch again with another
credential. -/
def Redispatches (r : Run State α) (c : Connection) (i : Nat) (request : Request)
    (k : Except Error Response → Task State α) (g : Nat) (second : Credential) (n : Nat) : Prop :=
  ∃ first l m, Refused r c i request k first l ∧ first.generation = some g ∧
    r.Performs i (Connection.giveUp request g) l () m ∧ r.Performs i c.authorize.run m (.ok second) n

theorem Redispatches.later {c : Connection} {guar : Nat → State → State → Prop}
    (redispatches : Redispatches r c i request k g second n) (signOn : c.tokens.strategy = .signOn service)
    (sound : r.Sound Lawful guar) (initial : (r.state 0).Coherent) : ∃ h, second.generation = some h ∧ g < h := by
  obtain ⟨first, l, m, ⟨l₀, l₁, _, _, authorized, executed, _⟩, generation, given, again⟩ := redispatches
  -- The first credential carries the token of a flight that is over.
  have coherent₀ := (sound.lawful initial (Nat.le_refl l₀)).1
  have authorizes : Keeps Lawful (Does c.tokens.margin fun _ => True) Authorizes _ _ :=
    c.authorize_keeps (fun _ _ => trivial) coherent₀
  obtain ⟨token, result, _, settled⟩ := sound.performs authorized authorizes first g rfl generation
  obtain ⟨_, coherent, evolves⟩ := sound.lawful initial executed.2.le
  have known := evolves.known (known_of_result result)
  have waiting := evolves.settled (known_of_result result) settled
  -- Once it has been given up it is past, and whatever comes next is later.
  have givesUp : Keeps Lawful (Does c.tokens.margin fun _ => True) _ _ _ :=
    Connection.giveUp_keeps request g trivial trivial coherent
  have left := sound.performs given givesUp known waiting
  obtain ⟨_, coherent', evolves'⟩ := sound.lawful initial given.2.le
  have fresh : Keeps Lawful (Does c.tokens.margin fun _ => True) _ _ _ :=
    Connection.authorize_later signOn (fun _ _ => trivial) ⟨coherent', evolves'.known known, left⟩
  exact sound.performs again fresh second rfl

/-- Generations handed out only grow in the order in which callers look at the slot, credentials of one generation
have one authorization, and a second dispatch is made with a later generation than the one refused. -/
theorem second_dispatch_is_fresh (c : Connection) (signOn : c.tokens.strategy = .signOn service)
    (calls : Nat → ConnectionCall) (w : Wire) (turns : Nat → Turn) :
    let r := c.together calls w turns
    (∀ i j m m' n n' token token' x x', m ≤ m' → turns m = .step i → turns m' = .step j →
      r.Performs i c.tokens.ensure.run m (.ok (token, x)) n →
      r.Performs j c.tokens.ensure.run m' (.ok (token', x')) n' → ∃ g g', x = some g ∧ x' = some g' ∧ g ≤ g') ∧
    (∀ i j m m' n n' a b g, r.Performs i c.tokens.credential.run m (.ok a) n →
      r.Performs j c.tokens.credential.run m' (.ok b) n' → a.generation = some g → b.generation = some g →
      a.authorization = b.authorization) ∧
    ∀ i request k g second n, Redispatches r c i request k g second n → ∃ h, second.generation = some h ∧ g < h := by
  intro r
  have sound : r.Sound Lawful fun i => Does c.tokens.margin (calls i).Allows := c.together_sound w turns calls
  have initial : (r.state 0).Coherent := Coherent.initial w
  refine ⟨?_, ?_, ?_⟩
  · intro i j m m' n n' token token' x x' order turn turn' performs performs'
    have first := handed_generation signOn sound initial turn performs
    have second := handed_generation signOn sound initial turn' performs'
    exact ⟨_, _, first, second, (sound.lawful initial (Nat.succ_le_succ order)).2.2.generation⟩
  · intro i j m m' n n' a b g performs performs' generation generation'
    have authorizes : ∀ l, Keeps Lawful (Does c.tokens.margin fun _ => True) Authorizes c.tokens.credential.run
        (r.state l) := fun l =>
      c.tokens.credential_keeps (fun _ _ => trivial) (sound.lawful initial (Nat.le_refl l)).1
    obtain ⟨token, result, carried, _⟩ := sound.performs performs (authorizes m) a g rfl generation
    obtain ⟨token', result', carried', _⟩ := sound.performs performs' (authorizes m') b g rfl generation'
    -- A flight has one result, so that both carry the same token.
    have lasting := (sound.lawful initial (Nat.le_max_left n n')).2.2.result result
    have lasting' := (sound.lawful initial (Nat.le_max_right n n')).2.2.result result'
    cases lasting.symm.trans lasting'
    rw [carried, carried']
  · intro i request k g second n redispatches
    exact redispatches.later signOn sound initial

def Sample.first : Credential :=
  { authorization := (HeaderValue.literal "Bearer A").markSensitive, generation := some 1 }

def Sample.second : Credential :=
  { authorization := (HeaderValue.literal "Bearer B").markSensitive, generation := some 2 }

def Sample.refusal : Response :=
  { status := .unauthorized, headers := .empty, body := [] }

/-- A request whose token is refused goes out again with the next one. -/
theorem second_dispatch_is_fresh_alone :
    let r := Sample.connection.together (fun _ => .send (.get "x")) Sample.wire (Sample.turns [])
    Redispatches r Sample.connection 0 (.get "x") (fun x => done (.response x)) 1 Sample.second 19 ∧
      ∃ h, Sample.second.generation = some h ∧ 1 < h := by
  intro r
  have begun : r.task 0 0 = some ((Sample.connection.send (.get "x")).run.andThen fun x => done (.response x)) := rfl
  have left := begun
  unfold Connection.send at left
  obtain ⟨authorized, left⟩ := Call.performs_of_taken (a := Sample.first) left 6 (by decide +kernel)
  obtain ⟨executed, _⟩ := Call.performs_of_taken (a := Sample.refusal) left 5 (by decide +kernel)
  have refused : Refused r Sample.connection 0 (.get "x") (fun x => done (.response x)) Sample.first 11 :=
    ⟨0, 6, Sample.refusal, begun, authorized, executed, rfl⟩
  have left := refused.task rfl
  rw [Connection.retry_run, andThen_assoc] at left
  have given := Run.performs_of_taken (b := ()) left 2 (by decide +kernel)
  have left := given.2.task left
  obtain ⟨again, _⟩ := Call.performs_of_taken (a := Sample.second) left 6 (by decide +kernel)
  have redispatches : Redispatches r Sample.connection 0 (.get "x") (fun x => done (.response x)) 1 Sample.second 19 :=
    ⟨Sample.first, 11, 13, refused, rfl, given, again⟩
  obtain ⟨_, _, fresh⟩ := second_dispatch_is_fresh Sample.connection rfl (fun _ => .send (.get "x")) Sample.wire
    (Sample.turns [])
  exact ⟨redispatches, fresh _ _ _ _ _ _ redispatches⟩

end EngineClient
