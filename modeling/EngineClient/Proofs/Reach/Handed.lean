import EngineClient.Proofs.Steps

/-!
# What leaves

Every request that calls on a connection hand over to the network, however they take their turns, has been drafted for
one of three purposes: a request below the root, the exchange for a token, the revocation of one.
-/

namespace EngineClient
open EngineClient.State EngineClient.Task

/-- A flight that departs hands over at most the request for a token. -/
theorem TokenCache.launch_drafts (c : Client) (service : SignOn) (g : Nat) (s : State) :
    (launch c service g s).wire.sent = s.wire.sent ∨
      ∃ before d, service.tokenDraft before = .ok d ∧ c.HandsAtMost d s.wire (launch c service g s).wire := by
  unfold launch
  split
  · dsimp only
    split
    · exact .inl rfl
    · rename_i d drafted
      have hands : c.HandsAtMost d s.wire ((s.note service.requestEvent).onWire (dispatch c d)).2.wire :=
        dispatch_hands c d (s.wire.note service.requestEvent)
      split
      · rename_i sent
        obtain ⟨-, rfl⟩ := Prod.mk.inj sent
        exact .inr ⟨_, d, drafted, hands⟩
      · rename_i sent
        obtain ⟨-, rfl⟩ := Prod.mk.inj sent
        exact .inr ⟨_, d, drafted, hands⟩
  · exact .inl rfl

namespace Connection

/-- What reaches the network of a connection: a request below the root, the exchange for a token or the revocation of
one, or the tunnel to it. -/
inductive Leaves (c : Connection) : Sent → Prop
  | request (leaves : c.client.outbound (c.root.draft request a) = .ok o) (delivers : c.client.Delivers o x) : Leaves c x
  | token {before : List String} (signOn : c.tokens.strategy = .signOn service)
    (drafted : service.tokenDraft before = .ok d) (leaves : c.tokens.client.outbound d = .ok o)
    (delivers : c.tokens.client.Delivers o x) : Leaves c x
  | revocation (signOn : c.tokens.strategy = .signOn service)
    (leaves : c.tokens.client.outbound (service.revokeDraft token) = .ok o)
    (delivers : c.tokens.client.Delivers o x) : Leaves c x

/-- A step hands at most one request over, one that leaves from the connection. -/
def Hands (c : Connection) (s s' : State) : Prop :=
  s'.wire.sent = s.wire.sent ∨ ∃ x, c.Leaves x ∧ s'.wire.sent = s.wire.sent ++ [x]

variable {c : Connection} {s s' : State}

theorem Hands.quiet (same : s'.wire.sent = s.wire.sent) : c.Hands s s' :=
  .inl same

theorem hands_request (hands : c.client.HandsAtMost (c.root.draft request a) s.wire s'.wire) : c.Hands s s' := by
  rcases hands with same | ⟨o, x, leaves, delivers, sent⟩
  · exact .inl same
  · exact .inr ⟨x, .request leaves delivers, sent⟩

theorem hands_token {before : List String} (signOn : c.tokens.strategy = .signOn service)
    (drafted : service.tokenDraft before = .ok d)
    (hands : c.tokens.client.HandsAtMost d s.wire s'.wire) : c.Hands s s' := by
  rcases hands with same | ⟨o, x, leaves, delivers, sent⟩
  · exact .inl same
  · exact .inr ⟨x, .token signOn drafted leaves delivers, sent⟩

theorem hands_revocation (signOn : c.tokens.strategy = .signOn service)
    (hands : c.tokens.client.HandsAtMost (service.revokeDraft token) s.wire s'.wire) : c.Hands s s' := by
  rcases hands with same | ⟨o, x, leaves, delivers, sent⟩
  · exact .inl same
  · exact .inr ⟨x, .revocation signOn leaves delivers, sent⟩

/-! ### Steps -/

theorem launch_hands (signOn : c.tokens.strategy = .signOn service) (g : Nat) (s : State) :
    c.Hands s (TokenCache.launch c.tokens.client service g s) := by
  rcases TokenCache.launch_drafts c.tokens.client service g s with quiet | ⟨_, d, drafted, hands⟩
  · exact .quiet quiet
  · exact hands_token signOn drafted hands

theorem sent_land (c : Client) (g : Nat) (s : State) : (TokenCache.land c g s).2.wire.sent = s.wire.sent := by
  unfold TokenCache.land
  split
  · rfl
  · exact c.sent_arrive _ s.wire
  · rfl

theorem sent_settle (margin : Span) (g : Nat) (r : Except Error AccessToken) (s : State) :
    (s.settle margin g r).wire.sent = s.wire.sent := by
  unfold State.settle
  split <;> rfl

theorem sent_acquire (margin : Span) (s : State) : (s.acquire margin).2.wire.sent = s.wire.sent := by
  unfold State.acquire
  split
  · rfl
  · rfl
  · rfl
  · split <;> rfl

theorem sent_invalidate (g : Nat) (s : State) : (s.invalidate g).wire.sent = s.wire.sent := by
  unfold State.invalidate
  split
  · split <;> rfl
  · rfl

end Connection

/-! ### Runs -/

/-- If each turn hands over nothing or one thing of a kind, then all that is handed over is of that kind. -/
theorem Run.handed_of_turns {r : Run State α} {kind : Sent → Prop}
    (turns : ∀ n, (r.state (n + 1)).wire.sent = (r.state n).wire.sent ∨
      ∃ x, kind x ∧ (r.state (n + 1)).wire.sent = (r.state n).wire.sent ++ [x]) (n : Nat) :
    ∃ handed, (r.state n).wire.sent = (r.state 0).wire.sent ++ handed ∧ ∀ x ∈ handed, kind x := by
  induction n with
  | zero => exact ⟨[], (List.append_nil _).symm, fun x member => by cases member⟩
  | succ n ih =>
    obtain ⟨handed, sent, all⟩ := ih
    rcases turns n with quiet | ⟨x, own, more⟩
    · exact ⟨handed, by rw [quiet, sent], all⟩
    · refine ⟨handed ++ [x], by rw [more, sent, List.append_assoc], fun y member => ?_⟩
      rcases List.mem_append.mp member with before | last
      · exact all y before
      · cases List.mem_singleton.mp last
        exact own

/-- A change outside leaves alone what was sent. -/
def Act.SparesSent : Act → Prop
  | .outside change => ∀ w, (change w).sent = w.sent
  | _ => True

namespace Connection
variable {c : Connection} {s s' : State}

theorem Step.hands {act : Act} (step : c.Step act s s') (spares : act.SparesSent) : c.Hands s s' := by
  cases step with
  | stay | close _ | revoke _ | note e => exact .quiet rfl
  | shut => exact .quiet (Client.sent_shut s.wire)
  | acquire signOn => exact .quiet (sent_acquire _ s)
  | launch signOn g => exact launch_hands signOn g s
  | land signOn g => exact .quiet (sent_land _ g s)
  | settle signOn g r => exact .quiet (sent_settle _ g r s)
  | invalidate fetched g => exact .quiet (sent_invalidate g s)
  | depart _ _ leaves _ => exact hands_request (Client.depart_hands leaves s.wire)
  | arrive flight => exact .quiet (c.client.sent_arrive flight s.wire)
  | revocation signOn leaves => exact hands_revocation signOn (Client.depart_hands leaves s.wire)
  | revoked signOn flight => exact .quiet (c.tokens.client.sent_arrive flight s.wire)
  | outside changes =>
    subst changes
    exact .quiet (spares s.wire)

/-- All that acts hand over, however they take their turns, leaves from the connection. -/
theorem mingle_sent (c : Connection) (acts : Nat → Act) (spares : ∀ i, (acts i).SparesSent) (s : State)
    (turns : Nat → Turn) (n : Nat) : ∃ handed, ((c.mingle acts s turns).state n).wire.sent = s.wire.sent ++ handed ∧
      ∀ x ∈ handed, c.Leaves x := by
  refine Run.handed_of_turns (r := c.mingle acts s turns) (fun n => ?_) n
  rcases c.mingle_steps acts s turns n with same | ⟨i, _, step⟩
  · exact .inl (by rw [same])
  · exact step.hands (spares i)

end Connection
end EngineClient
