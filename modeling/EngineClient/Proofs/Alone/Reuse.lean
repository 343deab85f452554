import EngineClient.Proofs.Alone.Session

/-!
# Which token is used

Over a whole session on a connection that signs on: when a token is fetched, when the one in the slot is taken, and
which one goes with each request.
-/

namespace EngineClient
open EngineClient.State EngineClient.Task

namespace Connection

/-! ### Sessions told act by act -/

/-- Acts one after another, each with its events and with what it gives. -/
inductive Tells (c : Connection) : State → List Act → List (List Event) → List (Except Error Value) → State → Prop
  | nil : Tells c s [] [] [] s
  | cons {act : Act} (follows : c.Follows s events s') (course : c.Course s'.wire.today act events r)
    (rest : Tells c s' acts courses results s'') : Tells c s (act :: acts) (events :: courses) (r :: results) s''

section Tells
variable {c : Connection} {s s' : State}

theorem play_tells (fetched : c.tokens.strategy.fixed? = none) (rests : s.Rests) {acts : List Act}
    (opened : Act.close ∉ acts) : ∃ courses, c.Tells s acts courses (c.play acts s).1 (c.play acts s).2 := by
  induction acts generalizing s with
  | nil => exact ⟨[], .nil⟩
  | cons act acts ih =>
    rw [List.mem_cons, not_or] at opened
    obtain ⟨events, follows, course⟩ := act_course fetched rests (Ne.symm opened.1)
    obtain ⟨courses, tells⟩ := ih (follows.rests rests) opened.2
    exact ⟨events :: courses, .cons follows course tells⟩

theorem Tells.follows (tells : c.Tells s acts courses results s') : c.Follows s courses.flatten s' := by
  induction tells with
  | nil => exact .nil
  | cons follows _ _ ih => exact follows.append ih

end Tells

/-! ### What each event means for the token -/

/-- An event in a state that a history has led to: it fetches a token exactly if one is lacking, and otherwise it
takes and carries the token that was brought last. If the connection was created from options, no other authorization
leaves with a request. -/
structure Fits (c : Connection) (service : SignOn) (history : List Event) (s : State) (e : Event) : Prop where
  fetches : e.token?.isSome → (e.isFetch = true ↔ s.Lacks c.tokens.margin)
  brings : ∀ token, e = .fetch (.ok token) → service.Answers c.tokens.client s token
  gives : ∀ token, e.token? = some (.ok token) → Event.latest? (history ++ [e]) = some token
  reuses : ∀ token, e = .reuse token → Event.latest? history = some token ∧ ¬ token.Near s.wire.now c.tokens.margin
  carries : ∀ request a reply, e = .exchange request a reply → ∃ token, Event.latest? history = some token ∧
    AccessToken.bearer? token.value.expose = some a ∧ ∀ idna fs options log, create idna fs options = (log, .ok c) →
      ∀ o, c.client.outbound (c.root.draft request a) = .ok o → o.headers.getAll .authorization = [a]

section Fits
variable {c : Connection} {s s' : State} {history : List Event}

theorem fits_of_other (token : e.token? = none) (exchange : e.isExchange = false) : c.Fits service history s e := by
  constructor
  · simp [token]
  · rintro t rfl
    cases token
  · simp [token]
  · rintro t rfl
    cases token
  · rintro request a reply rfl
    cases exchange

theorem Happens.fits (happens : c.Happens s e s') (signOn : c.tokens.strategy = .signOn service) (rests : s.Rests)
    (latest : ∀ g token, s.slot = .ready g token → Event.latest? history = some token) :
    c.Fits service history s e := by
  have fetched : c.tokens.strategy.fixed? = none := by simp [signOn, Strategy.fixed?]
  cases happens with
  | fetch signOn' lacks =>
    cases signOn.symm.trans signOn'
    constructor
    · exact fun _ => ⟨fun _ => lacks, fun _ => rfl⟩
    · intro token brought
      exact (TokenCache.fetch_eq_ok (Event.fetch.inj brought)).1
    · intro token brought
      have same : (TokenCache.fetch c.tokens.client service s).1 = .ok token := Option.some.inj brought
      rw [Event.latest?_concat, same]
      rfl
    · rintro token ⟨⟩
    · rintro request a reply ⟨⟩
  | reuse _ slot good =>
    have last := latest _ _ slot
    constructor
    · refine fun _ => ⟨(fun fetches => by cases fetches), ?_⟩
      rintro (empty | ⟨g', token', slot', near⟩)
      · cases slot.symm.trans empty
      · cases slot.symm.trans slot'
        exact (good near).elim
    · rintro token ⟨⟩
    · rintro token ⟨⟩
      rw [Event.latest?_concat]
      exact last
    · rintro token ⟨⟩
      exact ⟨last, good⟩
    · rintro request a reply ⟨⟩
  | exchange carries =>
    constructor
    · rintro ⟨⟩
    · rintro token ⟨⟩
    · rintro token ⟨⟩
    · rintro token ⟨⟩
    · rintro request a reply ⟨⟩
      unfold Carries at carries
      rw [fetched] at carries
      obtain ⟨g, token, slot, rfl⟩ := carries
      have issued : token.IsIssued := by
        rcases rests.slot with empty | ⟨g', token', slot', issued⟩
        · cases slot.symm.trans empty
        · cases slot.symm.trans slot'
          exact issued
      obtain ⟨_, text, _, issued⟩ := issued
      obtain ⟨value, bearer, _⟩ := AccessToken.issued?_eq_some issued
      obtain rfl : text = token.value.expose := congrArg Secret.expose value.symm
      refine ⟨token, latest g token slot, bearer, fun idna fs options log created o leaves => ?_⟩
      exact c.client.authorization_outbound (headers_of_create created) leaves
  | given _ | drop _ | outside _ => exact fits_of_other rfl rfl

end Fits
end Connection

/-- A session on a connection that signs on and is not closed: each act consists of the events of its course, the
source of tickets is asked once for each exchange for a token, and every event fits those before it. -/
theorem token_reuse (c : Connection) (signOn : c.tokens.strategy = .signOn service) (acts : List Act)
    (opened : Act.close ∉ acts) (w : Wire) :
    let s := (c.play acts { wire := w }).2
    ∃ courses, c.Tells { wire := w } acts courses (c.play acts { wire := w }).1 s ∧
      s.asked = (courses.flatten.filter Event.isFetch).flatMap (fun _ => service.asked) ∧
      ∀ before e after, courses.flatten = before ++ e :: after → ∃ s₁ s₂, c.Follows { wire := w } before s₁ ∧
        c.Happens s₁ e s₂ ∧ c.Follows s₂ after s ∧ c.Sends s₁.wire s₂.wire e ∧ c.Fits service before s₁ e := by
  intro s
  have fetched : c.tokens.strategy.fixed? = none := by simp [signOn, Strategy.fixed?]
  have initial : State.Rests { wire := w } := .initial w
  obtain ⟨courses, tells⟩ := Connection.play_tells fetched initial opened
  refine ⟨courses, tells, ?_, ?_⟩
  · have asked := tells.follows.asked signOn
    simpa using asked
  · intro before e after split
    have follows := tells.follows
    rw [split] at follows
    obtain ⟨s₁, s₂, first, happens, rest⟩ := follows.middle
    have latest := first.latest [] fun g token slot => by cases slot
    exact ⟨s₁, s₂, first, happens, rest, happens.sends, happens.fits signOn (first.rests initial) latest⟩

def Sample.later : List Act :=
  [.call (.service (.get ⟨"vms/1"⟩ {})), .outside (Wire.advance (.seconds 1)), .call .authenticate]

def Sample.played : List (Except Error Value) × State :=
  Sample.connection.play Sample.later { wire := Sample.wire }

/-- The first token is refused; the second one serves the request and is still in the slot later. -/
theorem token_reuse_after_refusal :
    Act.close ∉ Sample.later ∧
    (∃ token, token.value = ⟨"B"⟩ ∧ Sample.played.1 =
      [.ok (.response { status := ⟨200⟩, headers := .empty, body := [] }), .ok .nothing, .ok (.token token)]) ∧
    ∃ courses, Sample.connection.Tells { wire := Sample.wire } Sample.later courses Sample.played.1 Sample.played.2 ∧
      Sample.played.2.asked = (courses.flatten.filter Event.isFetch).flatMap fun _ => [] := by
  have opened : Act.close ∉ Sample.later := by simp [Sample.later]
  have played : Sample.connection.play Sample.later { wire := Sample.wire } = Sample.played := rfl
  have reuse := token_reuse Sample.connection rfl Sample.later opened Sample.wire
  dsimp only at reuse
  rw [played] at reuse
  obtain ⟨courses, tells, asked, _⟩ := reuse
  refine ⟨opened, ⟨{
    value := ⟨"B"⟩, authorization := (HeaderValue.literal "Bearer B").markSensitive
    lifetime := none, expiresAt := none }, rfl, ?_⟩, courses, tells, asked⟩
  decide +kernel

end EngineClient
