import EngineClient.Proofs.Alone.Event
import EngineClient.Proofs.Outbound

/-!
# Sending a request

The course of a send that runs alone: which exchanges it makes, in which order, and what it gives. The second
exchange differs from the first in its authorization only.
-/

namespace EngineClient
open EngineClient.State EngineClient.Task

/-! ### What a send comes to -/

/-- What is made of the last response. -/
def Response.verdict (today : Nat) (r : Response) : Except Error Response :=
  if r.status.isSuccess then .ok r
  else if r.status = .unauthorized then .error (.auth (.unauthorized (Fault.ofResponse today r)))
  else .error (.fault (Fault.ofResponse today r))

namespace Connection

/-- The events of a send and what it gives, when faults are read at a moment of the calendar. -/
inductive Sending (c : Connection) (request : Request) (today : Nat) : List Event → Except Error Response → Prop
  | unobtained (obtains : e.obtained? = some (.error error)) : Sending c request today [e] (.error error)
  | once (obtains : e.obtained? = some (.ok a))
    (last : ∀ response, reply = .ok response → response.status = .unauthorized → c.tokens.strategy.fixed? ≠ none) :
    Sending c request today [e, .exchange request a reply] (reply.bind (Response.verdict today))
  | unreplaced (obtains : e.obtained? = some (.ok a)) (refused : response.status = .unauthorized)
    (fetched : c.tokens.strategy.fixed? = none) :
    Sending c request today [e, .exchange request a (.ok response), .drop request, .fetch (.error error)] (.error error)
  | twice (obtains : e.obtained? = some (.ok a)) (refused : response.status = .unauthorized)
    (fetched : c.tokens.strategy.fixed? = none) :
    Sending c request today
      [e, .exchange request a (.ok response), .drop request, .fetch (.ok token),
        .exchange request token.authorization reply]
      (reply.bind (Response.verdict today))

variable {c : Connection} {s : State}

/-- What is left of an exchange when its response has been read, or cannot be. -/
def noted : Except Error Response → Task State (Except Error Response)
  | .error e => done (.error e)
  | .ok r => act (State.note (.received r.status.text r.body.length)) fun _ => done (.ok r)

theorem noted_run (r : Except Error Response) (s : State) :
    (noted r).run s = (r, s.noteAll (receivedEvents r)) := by
  cases r with
  | error e => simp [noted, receivedEvents, Task.run, State.noteAll, Wire.noteAll, State.setWire]
  | ok r => rfl

theorem execute_run (c : Connection) (request : Request) (a : HeaderValue) : (c.execute request a).run =
    act (State.note (c.announcement request)) fun _ =>
      ((c.client.send (c.root.draft request a)).within State.wire State.setWire).andThen fun reply =>
        noted (readReply c.client reply) := by
  unfold execute Call.update
  rw [Call.run_ofTask_bind]
  refine congrArg (act _) (funext fun _ => ?_)
  rw [andThen]
  dsimp only
  rw [Call.run_ofTask_bind]
  refine congrArg (Task.andThen _) (funext fun reply => ?_)
  cases reply with
  | error e => rfl
  | ok reply =>
    unfold readReply
    dsimp only
    cases reply.read c.client.settings.maxBodySize <;> rfl

theorem execute_alone (c : Connection) (request : Request) (a : HeaderValue) (s : State) :
    (c.execute request a).alone s =
      ((c.exchanged request a s.wire).1, s.setWire (c.exchanged request a s.wire).2) := by
  have announced : (s.note (c.announcement request)).wire = s.wire.note (c.announcement request) := rfl
  unfold Call.alone exchanged
  rw [execute_run]
  simp only [Task.run, run_andThen, run_within, noted_run, announced]
  generalize (c.client.send (c.root.draft request a)).run (s.wire.note (c.announcement request)) = sent
  rfl

theorem faultOf_alone (r : Response) (s : State) :
    (faultOf r).alone s = (.ok (Fault.ofResponse s.wire.today r), s) := rfl

theorem failUnauthorized_alone (refused : r.status = .unauthorized) (s : State) :
    (failUnauthorized r).alone s = (r.verdict s.wire.today, s) := by
  have fails : ¬ r.status.isSuccess = true := by
    rw [refused]
    decide
  unfold Response.verdict
  rw [if_neg fails, if_pos refused]
  exact Call.alone_ok (faultOf_alone r s)

theorem checkStatus_alone (other : r.status ≠ .unauthorized) (s : State) :
    (checkStatus r).alone s = (r.verdict s.wire.today, s) := by
  unfold Response.verdict checkStatus
  rw [if_neg other]
  split
  · rfl
  · exact Call.alone_ok (faultOf_alone r s)

theorem giveUp_alone (request : Request) (slot : s.slot = .ready g token) :
    (Call.ofTask (giveUp request g)).alone s = (.ok (), (s.note (.refused g request.path)).drop g) := by
  have run : (Call.ofTask (giveUp request g)).alone s = (.ok (), (s.note (.refused g request.path)).invalidate g) := rfl
  have drops : (s.note (.refused g request.path)).invalidate g = (s.note (.refused g request.path)).drop g := by
    simp [State.invalidate, slot]
  rw [run, drops]

/-- A token is obtained for an empty slot by an exchange only. -/
theorem Happens.fetches (happens : c.Happens s e s') (empty : s.slot = .empty)
    (fetched : c.tokens.strategy.fixed? = none) (obtains : e.obtained? = some r) :
    ∃ brought, e = .fetch brought ∧ r = brought.map AccessToken.authorization := by
  cases happens with
  | fetch signOn lacks =>
    cases obtains
    exact ⟨_, rfl, rfl⟩
  | reuse _ slot _ => cases empty.symm.trans slot
  | given fixed => cases fetched.symm.trans fixed
  | exchange _ => cases obtains
  | drop _ => cases obtains
  | outside change => cases obtains

theorem decide_alone (c : Connection) (request : Request) (a : HeaderValue) (s : State) :
    (do let response ← c.execute request a
        if response.status = .unauthorized then failUnauthorized response else checkStatus response :
      Call Response).alone s =
    ((c.exchanged request a s.wire).1.bind (Response.verdict (c.exchanged request a s.wire).2.today),
      s.setWire (c.exchanged request a s.wire).2) := by
  have executed := execute_alone c request a s
  cases replied : (c.exchanged request a s.wire).1 with
  | error e =>
    rw [replied] at executed
    exact Call.alone_error executed
  | ok response =>
    rw [replied] at executed
    rw [Call.alone_ok executed]
    split
    · rename_i refused
      exact failUnauthorized_alone refused _
    · rename_i other
      exact checkStatus_alone other _

theorem retry_alone (c : Connection) (request : Request) (rests : s.Rests) (slot : s.slot = .ready g token)
    (fetched : c.tokens.strategy.fixed? = none) (obtains : e.obtained? = some (.ok a))
    (refused : response.status = .unauthorized) :
    ∃ events, c.Follows s events ((c.retry request g).alone s).2 ∧
      c.Sending request ((c.retry request g).alone s).2.wire.today
        (e :: .exchange request a (.ok response) :: events) ((c.retry request g).alone s).1 := by
  have dropped : c.Happens s (.drop request) ((s.note (.refused g request.path)).drop g) := .drop slot
  have rests' := dropped.rests rests
  obtain ⟨e', happens, obtains', holds⟩ := authorize_alone (c := c) rests'
  -- The slot is empty by then, so that what follows is a fetch.
  obtain ⟨brought, rfl, same⟩ := happens.fetches rfl fetched obtains'
  unfold retry
  rw [Call.alone_ok (giveUp_alone request slot)]
  cases authorized : c.authorize.alone ((s.note (.refused g request.path)).drop g) with
  | mk r s₁ =>
    rw [authorized] at happens same holds
    cases r with
    | error error =>
      cases brought with
      | ok token' => cases same
      | error error' =>
        cases same
        rw [Call.alone_error authorized]
        exact ⟨_, .cons dropped happens.follows, .unreplaced obtains refused fetched⟩
    | ok second =>
      cases brought with
      | error error' => cases same
      | ok token' =>
        have carried : second.authorization = token'.authorization := Except.ok.inj same
        have carries := (holds second rfl).carries
        rw [Call.alone_ok authorized, decide_alone c request second.authorization s₁]
        rw [carried] at carries ⊢
        have exchange : c.Happens s₁ (.exchange request token'.authorization _) _ := .exchange carries
        generalize c.exchanged request token'.authorization s₁.wire = exchanged at exchange ⊢
        exact ⟨_, .cons dropped (.cons happens exchange.follows), .twice obtains refused fetched⟩

/-- A send on an open connection between calls goes one of the ways that sends go. -/
theorem send_alone (c : Connection) (request : Request) (rests : s.Rests) :
    ∃ events, c.Follows s events ((c.send request).alone s).2 ∧
      c.Sending request ((c.send request).alone s).2.wire.today events ((c.send request).alone s).1 := by
  obtain ⟨e, happens, obtains, holds⟩ := authorize_alone (c := c) rests
  unfold send
  cases authorized : c.authorize.alone s with
  | mk r s₁ =>
    rw [authorized] at happens obtains holds
    cases r with
    | error error =>
      rw [Call.alone_error authorized]
      exact ⟨[e], happens.follows, .unobtained obtains⟩
    | ok first =>
      have stands := holds first rfl
      have exchange : c.Happens s₁ (.exchange request first.authorization _) _ := .exchange stands.carries
      have executed := execute_alone c request first.authorization s₁
      rw [Call.alone_ok authorized]
      cases replied : (c.exchanged request first.authorization s₁.wire).1 with
      | error error =>
        rw [replied] at executed exchange
        rw [Call.alone_error executed]
        exact ⟨_, .cons happens exchange.follows, .once obtains fun _ answered => by cases answered⟩
      | ok response =>
        rw [replied] at executed exchange
        rw [Call.alone_ok executed]
        by_cases refused : response.status = .unauthorized
        · -- Only a token that was fetched can be replaced.
          rw [if_neg (not_not_intro refused)]
          rcases stands with ⟨fixed, none⟩ | ⟨fetched, g, token, slot, _, generation⟩
          · rw [none, failUnauthorized_alone refused]
            refine ⟨_, .cons happens exchange.follows, .once obtains fun _ _ _ => ?_⟩
            rw [fixed]
            simp
          · rw [generation]
            have rests₂ := exchange.rests (happens.rests rests)
            obtain ⟨events, follows, sending⟩ := retry_alone c request rests₂ slot fetched obtains refused
            exact ⟨_, .cons happens (.cons exchange follows), sending⟩
        · rw [if_pos refused, checkStatus_alone refused]
          refine ⟨_, .cons happens exchange.follows, .once obtains fun _ answered refused' => ?_⟩
          cases answered
          exact (refused refused').elim

end Connection

/-! ### What is handed over -/

/-- What the network gets of an exchange: the request that leaves, unless the tunnel to it is refused. -/
def Client.Delivers (c : Client) (o : Outbound) (x : Sent) : Prop :=
  x = ⟨c.tunnelFor o, none⟩ ∨ x = ⟨c.tunnelFor o, some o⟩

theorem Client.sent_depart (c : Client) (o : Outbound) (w : Wire) :
    (c.depart o w).2.sent = w.sent ∨ ∃ x, c.Delivers o x ∧ (c.depart o w).2.sent = w.sent ++ [x] := by
  unfold depart trace
  cases w.network w.sent o with
  | unreachable f =>
    left
    dsimp only
    rw [sent_noteIf, sent_noteIf]
  | refused f =>
    right
    refine ⟨_, .inl rfl, ?_⟩
    simp only [Wire.record, sent_noteIf]
  | broken f | silent | answered delay reply =>
    right
    refine ⟨_, .inr rfl, ?_⟩
    simp only [Wire.record, sent_noteIf]

def Client.HandsAtMost (c : Client) (d : Draft) (w w' : Wire) : Prop :=
  w'.sent = w.sent ∨ ∃ o x, c.outbound d = .ok o ∧ c.Delivers o x ∧ w'.sent = w.sent ++ [x]

theorem Client.outbound_of_clear {c : Client} (cleared : c.clear d w = .ok o) : c.outbound d = .ok o := by
  obtain ⟨p, prepared, rfl⟩ := prepared_of_clear cleared
  unfold outbound
  rw [prepared]
  rfl

theorem Client.depart_hands {c : Client} (leaves : c.outbound d = .ok o) (w : Wire) :
    c.HandsAtMost d w (c.depart o w).2 := by
  rcases c.sent_depart o w with quiet | ⟨x, delivers, sent⟩
  · exact .inl quiet
  · exact .inr ⟨o, x, leaves, delivers, sent⟩

theorem TokenCache.dispatch_hands (c : Client) (d : Draft) (w : Wire) : c.HandsAtMost d w (dispatch c d w).2 := by
  unfold dispatch
  cases cleared : c.clear d w with
  | error e => exact .inl rfl
  | ok o => exact Client.depart_hands (Client.outbound_of_clear cleared) w

theorem Client.send_hands (c : Client) (d : Draft) (w : Wire) : c.HandsAtMost d w ((c.send d).run w).2 := by
  have handed := TokenCache.dispatch_hands c d w
  rw [c.run_send d w]
  cases dispatched : TokenCache.dispatch c d w with
  | mk r w' =>
    rw [dispatched] at handed
    cases r with
    | error e => exact handed
    | ok flight =>
      unfold HandsAtMost at handed ⊢
      rw [sent_arrive]
      exact handed

/-- What each event hands over to the network: an exchange its request, and nothing else anything. -/
def Connection.Sends (c : Connection) (w w' : Wire) : Event → Prop
  | .fetch _ => w'.sent = w.sent ∨
    ∃ service before d, c.tokens.strategy = .signOn service ∧ service.tokenDraft before = .ok d ∧
      c.tokens.client.HandsAtMost d w w'
  | .exchange request a _ => c.client.HandsAtMost (c.root.draft request a) w w'
  | .reuse _ => ∃ g, w' = w.note (.tokenReused g)
  | .given _ => w' = w
  | .drop request => ∃ g, w' = (w.note (.refused g request.path)).note (.tokenInvalidated g)
  | .outside change => w' = change w

theorem Connection.Happens.sends {c : Connection} {s s' : State} (happens : c.Happens s e s') :
    c.Sends s.wire s'.wire e := by
  cases happens with
  | fetch signOn lacks =>
    rename_i service
    have sent : (c.tokens.renew service s).wire.sent = (TokenCache.fetch c.tokens.client service s).2.sent := rfl
    unfold Sends Client.HandsAtMost
    rw [sent, TokenCache.fetch]
    cases drafted : service.tokenDraft s.asked with
    | error e => exact .inl rfl
    | ok d =>
      exact .inr ⟨service, s.asked, d, signOn, drafted, c.tokens.client.send_hands d (TokenCache.asking service s)⟩
  | @exchange _ a request carries =>
    have sent : (s.setWire (c.exchanged request a s.wire).2).wire.sent =
      ((c.client.send (c.root.draft request a)).run (s.wire.note (c.announcement request))).2.sent := rfl
    unfold Sends Client.HandsAtMost
    rw [sent]
    exact c.client.send_hands _ (s.wire.note (c.announcement request))
  | reuse _ _ _ | drop _ => exact ⟨_, rfl⟩
  | given _ | outside change => rfl

end EngineClient
