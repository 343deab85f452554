import EngineClient.Proofs.Alone.Refusal
import EngineClient.Proofs.Given.Past
import EngineClient.Proofs.Reach.Target

/-!
# Sessions with given credentials

All runs on a connection that was created with a token, or with a name and a password that go with every request.
-/

namespace EngineClient
open EngineClient.State EngineClient.Task

/-- Options with a token, or with a name and a password that go with every request, give one authorization. On all runs
on the connection that is created from them no token is fetched, and all that reaches the network is requests that are
called for, with that authorization. Each call hands its request over once at most, not at all only if it is refused
before, and what is read of the reply decides what it gives; a response that is refused is given as such. And what comes
before a close changes nothing but the wire, so that later calls go as on a new connection with the same replies. -/
theorem given_credentials_go_along (created : Connection.create idna fs o = (log, .ok c))
    (given : o.token.isSome ∨ o.auth = .basic) : ∃ a, o.Gives a ∧
    (∀ acts w turns,
      let r := c.mingle acts { wire := w } turns
      (∀ n, (r.state n).flights = [] ∧ (r.state n).asked = []) ∧
      ((∀ i, (acts i).SparesSent) → ∀ n, ∃ handed, (r.state n).wire.sent = w.sent ++ handed ∧
        ∀ x ∈ handed, c.Presents a acts x) ∧
      (∀ i entry request, acts i = .call entry → entry.aim c = .response request → ∀ n,
        (∀ t, r.task i n = some t → ∃ result, t.value? = result.map (Except.map entry.ofResponse) ∧
          c.Delivery request a r i n result ∧
          ∀ k l, k < n → l < n → Connection.HandsOver r i k → Connection.HandsOver r i l → k = l) ∧
        ((∀ l < n, turns l ≠ .drop i) → 8 ≤ Nat.count (fun l => turns l = .step i) n →
          ∃ b, r.task i n = some (done b))) ∧
      ∀ n, (∀ k < n, ∀ i, turns k = .step i → acts i ≠ .close) →
        let past := (r.state n).wire
        r.state n = { wire := past } ∧
        (∀ d e, c.Refuses d (r.state n) e → ∃ e', c.client.clear d past = .error e' ∧ e = .ofClient e') ∧
        ∀ later, (∀ i, (later i).Timeless past) → ∀ turns m,
          (c.mingle later (r.state n) turns).state m =
            ((c.mingle later { wire := past.anew } turns).state m).resume past ∧
          ∀ i, ((c.mingle later (r.state n) turns).task i m).map Task.value? =
            ((c.mingle later { wire := past.anew } turns).task i m).map Task.value?) ∧
    ∀ today (response : Response), response.status = .unauthorized →
      response.verdict today = .error (.auth (.unauthorized (Fault.ofResponse today response))) := by
  obtain ⟨a, gives, fixed⟩ := Connection.fixed_of_create created given
  have plain := Connection.headers_of_create created
  refine ⟨a, gives, fun acts w turns => ⟨?_, ?_, ?_, ?_⟩, ?_⟩
  · exact c.mingle_fetches_none fixed acts w turns
  · exact fun spares n => Connection.mingle_presents fixed acts w turns n spares plain
  · intro i entry request calls aims n
    have start : (c.mingle acts { wire := w } turns).task i 0 =
        some ((c.send request).run.andThen fun y => done (y.map entry.ofResponse)) := by
      show some ((acts i).task c) = _
      rw [calls]
      show some (entry.call c).run = _
      rw [entry.call_run, aims]
    refine ⟨fun t task => ?_, fun kept turned => Connection.send_returns fixed start kept turned⟩
    obtain ⟨result, value, delivery⟩ := Connection.send_delivery fixed start task
    exact ⟨result, value, delivery, fun k l lt lt' => delivery.once lt lt'⟩
  · intro n opened
    have pristine := Connection.mingle_pristine fixed acts w turns n opened
    refine ⟨pristine, fun d e refuses => ?_, fun later timeless turns' m => ?_⟩
    · rw [pristine] at refuses
      exact refuses.cleared
    have alike := Connection.mingle_resumes fixed timeless turns' m
    rw [pristine]
    exact ⟨alike.state.2, alike.value⟩
  · intro today response refused
    have fails : ¬ response.status.isSuccess = true := by
      rw [refused]
      decide
    rw [Response.verdict, if_neg fails, if_pos refused]

namespace Sample

def basic : Options :=
  { options with auth := .basic }

/-- A request, while time passes. -/
def requesting : Nat → Act
  | 0 => .call (.send (.get "vms"))
  | _ => .outside (Wire.advance (.seconds 1))

def unauthorized : Error :=
  .auth (.unauthorized (.ofStatus .unauthorized))

end Sample

/-- The engine refuses the name and the password. They have gone along with one request, and the call says so. -/
theorem given_credentials_go_along_refused : ∃ log c, Connection.create .ascii {} Sample.basic = (log, .ok c) ∧
    let r := c.mingle Sample.requesting { wire := Sample.refusing } (Sample.turns [0, 1, 0, 0, 0, 1, 0, 0, 0, 0])
    r.task 0 10 = some (done (.error Sample.unauthorized)) ∧
    (∃ x, (r.state 10).wire.sent = [x] ∧ c.Presents (basicAuthorization "u" "p") Sample.requesting x) ∧
    ∀ later, (∀ i, (later i).Timeless (r.state 10).wire) → ∀ turns m i,
      ((c.mingle later (r.state 10) turns).task i m).map Task.value? =
        ((c.mingle later { wire := (r.state 10).wire.anew } turns).task i m).map Task.value? := by
  have computed : (Connection.create .ascii {} Sample.basic).2.map (fun c =>
      let r := c.mingle Sample.requesting { wire := Sample.refusing } (Sample.turns [0, 1, 0, 0, 0, 1, 0, 0, 0, 0])
      ((r.task 0 10).map Task.value?, (r.state 10).wire.sent.length)) = .ok (some (some (.error Sample.unauthorized)), 1) := by
    decide +kernel
  obtain ⟨c, made, values⟩ := Except.map_eq_ok computed
  have created := Connection.create_eq_of_ok made
  obtain ⟨value, length⟩ := Prod.mk.inj values
  obtain ⟨a, gives, runs, _⟩ := given_credentials_go_along created (.inr rfl)
  obtain rfl : a = basicAuthorization "u" "p" := by
    cases gives with
    | token token _ => cases token
    | basic _ username password =>
      cases username
      cases password
      rfl
  obtain ⟨_, presents, calls, pristine⟩ := runs Sample.requesting Sample.refusing (Sample.turns [0, 1, 0, 0, 0, 1, 0, 0, 0, 0])
  refine ⟨_, c, created, ?_, ?_, ?_⟩
  · obtain ⟨b, returned⟩ := (calls 0 _ _ rfl rfl 10).2 (by decide) (by decide)
    rw [returned] at value
    cases value
    exact returned
  · have spares : ∀ i, (Sample.requesting i).SparesSent := by
      intro i
      cases i with
      | zero => trivial
      | succ i => exact fun _ => rfl
    obtain ⟨handed, sent, all⟩ := presents spares 10
    obtain ⟨x, sole⟩ := List.length_eq_one_iff.mp length
    rw [sole] at sent
    refine ⟨x, sole, all x ?_⟩
    have whole : [x] = handed := sent
    rw [← whole]
    exact List.mem_singleton_self x
  · have opened : ∀ k < 10, ∀ i, Sample.turns [0, 1, 0, 0, 0, 1, 0, 0, 0, 0] k = .step i → Sample.requesting i ≠ .close := by
      intro k _ i _
      cases i with
      | zero => exact fun same => by cases same
      | succ i => exact fun same => by cases same
    obtain ⟨_, _, behaves⟩ := pristine 10 opened
    exact fun later timeless turns m i => (behaves later timeless turns m).2 i

end EngineClient
