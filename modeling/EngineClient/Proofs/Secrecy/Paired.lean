import EngineClient.Proofs.Alike
import EngineClient.Proofs.Secrecy.Document
import EngineClient.Proofs.Sending

/-!
# Exchanges side by side

Two exchanges that look the same in the log, with outcomes that look the same, on wires that are related in some way. As
long as equal changes leave wires related, the two exchanges do so as well, and they end alike.
-/

namespace EngineClient
open EngineClient.Task

/-- Wires stay related when the same is done to both, and when requests are handed over that are related as well. -/
structure Wire.Keeps (rel : Wire → Wire → Prop) (handed : Sent → Sent → Prop) : Prop where
  now : ∀ {w w'}, rel w w' → w'.now = w.now
  note : ∀ {w w'}, rel w w' → ∀ e, rel (w.note e) (w'.note e)
  clock : ∀ {w w'}, rel w w' → ∀ t, rel { w with now := t } { w' with now := t }
  record : ∀ {w w' x x'}, rel w w' → handed x x' → rel (w.record x) (w'.record x')

/-- Outcomes of one kind; of two replies the log shows the same, and a client receives related ones. -/
inductive Outcome.Paired (c : Client) (post : Reply → Reply → Prop) : Outcome → Outcome → Prop
  | unreachable (failure : Failure) : Paired c post (.unreachable failure) (.unreachable failure)
  | refused (failure : Failure) : Paired c post (.refused failure) (.refused failure)
  | broken (failure : Failure) : Paired c post (.broken failure) (.broken failure)
  | silent : Paired c post .silent .silent
  | answered (delay : Span) (status : r'.status = r.status) (headers : r'.headers.render = r.headers.render)
    (received : post (c.received r) (c.received r')) : Paired c post (.answered delay r) (.answered delay r')

theorem Outcome.Paired.refl (c : Client) {post : Reply → Reply → Prop} (same : ∀ r, post r r) (outcome : Outcome) :
    Paired c post outcome outcome := by
  cases outcome with
  | unreachable f => exact .unreachable f
  | refused f => exact .refused f
  | broken f => exact .broken f
  | silent => exact .silent
  | answered delay r => exact .answered delay rfl rfl (same _)

namespace Client
variable {c : Client} {rel : Wire → Wire → Prop} {handed : Sent → Sent → Prop} {post : Reply → Reply → Prop}
variable {o o' : Outbound} {w w' : Wire}

theorem failureEvent_of_same (method : o'.method.name = o.method.name) (uri : o'.uri.text = o.uri.text) (text : String) :
    failureEvent o' text = failureEvent o text := by
  unfold failureEvent
  rw [method, uri]

theorem responseEvent_of_same (method : o'.method.name = o.method.name) (uri : o'.uri.text = o.uri.text)
    {status status' : Status} {m m' : HeaderMap} (same : status' = status) (headers : m'.render = m.render) :
    responseEvent o' status' m' = responseEvent o status m := by
  unfold responseEvent
  rw [method, uri, same, headers]

/-- Requests that look the same in the log, are handed over as related ones, and have outcomes that look the same. -/
structure Pairs (c : Client) (rel : Wire → Wire → Prop) (handed : Sent → Sent → Prop) (post : Reply → Reply → Prop)
    (o o' : Outbound) : Prop where
  looks : requestEvent o' = requestEvent o
  refused : handed ⟨c.tunnelFor o, none⟩ ⟨c.tunnelFor o', none⟩
  sent : handed ⟨c.tunnelFor o, some o⟩ ⟨c.tunnelFor o', some o'⟩
  outcome : ∀ {w w'}, rel w w' → Outcome.Paired c post (w.network w.sent o) (w'.network w'.sent o')

theorem noteIf_keeps (keeps : Wire.Keeps rel handed) (related : rel w w') (e : LogEvent) :
    rel (c.noteIf e w) (c.noteIf e w') := by
  unfold noteIf
  split
  · exact keeps.note related e
  · exact related

/-- Both fail at once with the same error, or both are under way since the same moment. -/
theorem depart_pairs (keeps : Wire.Keeps rel handed) (pairs : c.Pairs rel handed post o o') (related : rel w w') :
    rel (c.depart o w).2 (c.depart o' w').2 ∧
      ((∃ e, (c.depart o w).1 = .error e ∧ (c.depart o' w').1 = .error e) ∨
        ∃ t, (c.depart o w).1 = .ok ⟨o, w.network w.sent o, t⟩ ∧
          (c.depart o' w').1 = .ok ⟨o', w'.network w'.sent o', t⟩) := by
  obtain ⟨looks, refused, sent, outcome⟩ := pairs
  obtain ⟨method, uri, _⟩ := LogEvent.request.inj looks
  have outcomes := outcome related
  have noted := noteIf_keeps (c := c) keeps related (requestEvent o)
  have held := keeps.record noted refused
  have left := keeps.record noted sent
  unfold depart
  rw [looks]
  generalize w.network w.sent o = first at outcomes ⊢
  generalize w'.network w'.sent o' = second at outcomes ⊢
  cases outcomes with
  | unreachable f =>
    simp only [trace, failureEvent_of_same method uri]
    exact ⟨noteIf_keeps keeps noted _, .inl ⟨_, rfl, rfl⟩⟩
  | refused f =>
    simp only [trace]
    exact ⟨held, .inr ⟨_, rfl, by rw [keeps.now held]⟩⟩
  | broken f | silent | answered delay status headers received =>
    simp only [trace]
    exact ⟨left, .inr ⟨_, rfl, by rw [keeps.now left]⟩⟩

theorem arrive_answered (c : Client) (o : Outbound) (delay : Span) (r : Reply) (departed : Instant) (w : Wire) :
    c.arrive ⟨o, .answered delay r, departed⟩ w =
      if (departed.later delay).nanos ≥ (departed.later c.settings.requestTimeout).nanos then
        (.error (.timeout c.settings.requestTimeout), waitUntil (departed.later c.settings.requestTimeout) w)
      else (.ok (c.received r), c.noteIf (responseEvent o r.status r.headers) (waitUntil (departed.later delay) w)) :=
  rfl

/-- What comes of two exchanges that are under way since the same moment. -/
theorem arrive_pairs (keeps : Wire.Keeps rel handed) (method : o'.method.name = o.method.name)
    (uri : o'.uri.text = o.uri.text) (outcomes : Outcome.Paired c post outcome outcome') (related : rel w w') :
    Except.Related post (c.arrive ⟨o, outcome, t⟩ w).1 (c.arrive ⟨o', outcome', t⟩ w').1 ∧
      rel (c.arrive ⟨o, outcome, t⟩ w).2 (c.arrive ⟨o', outcome', t⟩ w').2 := by
  have waited : ∀ moment, rel (waitUntil moment w) (waitUntil moment w') := by
    intro moment
    unfold waitUntil
    rw [keeps.now related]
    exact keeps.clock related _
  cases outcomes with
  | unreachable f | refused f | broken f =>
    simp only [arrive, failureEvent_of_same method uri]
    exact ⟨.error _, noteIf_keeps keeps related _⟩
  | silent => exact ⟨.error _, waited _⟩
  | @answered r' r delay status headers received =>
    rw [arrive_answered, arrive_answered, responseEvent_of_same method uri status headers]
    split
    · exact ⟨.error _, waited _⟩
    · exact ⟨.ok received, noteIf_keeps keeps (waited _) _⟩

theorem exchange_pairs (keeps : Wire.Keeps rel handed) (pairs : c.Pairs rel handed post o o') :
    (c.exchange o).Alike rel (Except.Related post) (c.exchange o') := by
  obtain ⟨method, uri, _⟩ := LogEvent.request.inj pairs.looks
  rw [exchange_run, exchange_run]
  refine .act (fun w w' related => (depart_pairs keeps pairs related).1) fun w w' related => ?_
  rcases (depart_pairs keeps pairs related).2 with ⟨e, left, left'⟩ | ⟨t, left, left'⟩
  · rw [left, left']
    exact .done (.error e)
  · have outcomes := pairs.outcome related
    rw [left, left']
    exact .wait (fun w w' related => (arrive_pairs keeps method uri outcomes related).2)
      fun w w' related => .done (arrive_pairs keeps method uri outcomes related).1

end Client
end EngineClient
