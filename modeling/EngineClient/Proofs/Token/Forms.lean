import EngineClient.Proofs.Closed
import EngineClient.Proofs.Headers.Encoded
import EngineClient.Proofs.Reach.Unsplit
import EngineClient.Proofs.Text.Form
import EngineClient.Proofs.Token.Revocation

/-!
# Forms for the sign-on service

What the sign-on service reads of a request for a token, and of one to revoke a token. A flight asks for tickets and
sends its request where it departs, and it departs once; no other step does either.
-/

namespace EngineClient
open EngineClient.State EngineClient.Task

variable {s s' : State} {g : Nat}

/-! ### Forms -/

/-- The fields that are read from the body of a request. -/
def Outbound.fields? (o : Outbound) : Option (List Text.Form.Field) :=
  (Text.decode? o.body).map Text.Form.parse

/-- A request that posts a form to a URL. -/
structure Outbound.Posts (o : Outbound) (url : String) (fields : List Text.Form.Field) : Prop where
  method : o.method = .post
  uri : Uri.parse? url = .ok o.uri
  contentType : o.headers.getAll .contentType = [Draft.formType]
  fields : o.fields? = some fields

theorem Client.getAll_of_outbound {c : Client} {k : HeaderName} (leaves : c.outbound d = .ok o)
    (single : (d.allHeaders.filter fun h => h.1 = k) = [(k, v)]) (other : k ≠ .acceptEncoding) :
    o.headers.getAll k = [v] := by
  obtain ⟨_, _, headers, _⟩ := outbound_eq_ok leaves
  have own : (HeaderMap.ofList d.allHeaders).getAll k = [v] := by
    rw [HeaderMap.getAll_ofList, single]
    rfl
  have present : (HeaderMap.ofList d.allHeaders).contains k = true := by
    apply HeaderMap.contains_of_getAll (v := v)
    rw [own]
    exact List.mem_singleton_self v
  rw [headers, ← own]
  exact c.getAll_outgoingHeaders (fun _ _ _ => present) other

namespace SignOn

theorem posts_of_outbound {c : Client} {headers : List Header} {fields : List Text.Form.Field}
    (untyped : ∀ h ∈ headers, h.1 ≠ .contentType) (leaves : c.outbound (formDraft url headers fields) = .ok o) :
    o.Posts url fields := by
  obtain ⟨accepted, method, _, body⟩ := Client.outbound_eq_ok leaves
  have all : (formDraft url headers fields).allHeaders = (.contentType, Draft.formType) :: headers :=
    allHeaders_formDraft (by simpa using untyped)
  have none : headers.filter (fun h => h.1 = .contentType) = [] := by simpa using untyped
  refine ⟨method, Draft.parse_of_target? accepted, ?_, ?_⟩
  · refine Client.getAll_of_outbound leaves ?_ (by decide)
    rw [all, List.filter_cons_of_pos (by decide), none]
  · have contents : o.body = Text.encode (Text.Form.render fields) := body
    unfold Outbound.fields?
    rw [contents, Text.decode?_encode, Option.map_some, Text.Form.parse_render]

/-! ### Requests for a token -/

def passwordForm (username : String) (password : Secret) : List Text.Form.Field :=
  [("grant_type", "password"), ("scope", "ovirt-app-api"), ("username", username), ("password", password.expose)]

/-- The form that asks for a token with a ticket, which stands in a header. -/
def ticketForm : List Text.Form.Field :=
  [("grant_type", "urn:ovirt:params:oauth:grant-type:http"), ("scope", "ovirt-app-api")]

def revocationForm (token : AccessToken) : List Text.Form.Field :=
  [("scope", ""), ("token", token.value.expose)]

/-- A flight sends one request, one of a kind, or it has failed without one. -/
inductive SendsFor (c : Client) (kind : Outbound → Prop) (g : Nat) (w : Wire) (s : State) : Prop
  | departs (own : kind o) (wire : s.wire = (c.depart o w).2) : SendsFor c kind g w s
  | fails (wire : s.wire = w) (result : s.result? g = some (.error e)) : SendsFor c kind g w s

/-- How a flight asks for a token, after a note of it: with a name and a password in the form, or with a ticket that its
source, with all that it was asked before, has given for the URL. Without a ticket there is no request. -/
inductive Requests (service : SignOn) (c : Client) (g : Nat) (s s' : State) : Prop
  | password (grant : service.grant = .password username password) (asked : s'.asked = s.asked)
    (sends : SendsFor c (fun o => o.Posts service.tokenUrl (passwordForm username password)) g
      (s.wire.note service.requestEvent) s') :
    Requests service c g s s'
  | ticket (grant : service.grant = .kerberos source) (given : source.ticket s.asked service.tokenUrl = .ok ticket)
    (asked : s'.asked = s.asked ++ [service.tokenUrl])
    (sends : SendsFor c (fun o => o.Posts service.tokenUrl ticketForm ∧
      ∃ v, o.headers.getAll .authorization = [v] ∧ v.encoded? "Negotiate " = some ticket) g
      (s.wire.note service.requestEvent) s') :
    Requests service c g s s'
  | refused (grant : service.grant = .kerberos source) (failed : source.ticket s.asked service.tokenUrl = .error text)
    (asked : s'.asked = s.asked ++ [service.tokenUrl]) (wire : s'.wire = s.wire.note service.requestEvent)
    (result : s'.result? g = some (.error (.auth (.negotiation text)))) : Requests service c g s s'

theorem posts_password {c : Client} (leaves : c.outbound
      (formDraft url [acceptJson] (grantFields (.password username password))) = .ok o) :
    o.Posts url (passwordForm username password) :=
  posts_of_outbound (by simp [acceptJson]; decide) leaves

theorem posts_ticket {c : Client} (leaves : c.outbound
      (formDraft url [acceptJson, negotiation ticket] (grantFields (.kerberos source))) = .ok o) :
    o.Posts url ticketForm ∧
      ∃ v, o.headers.getAll .authorization = [v] ∧ v.encoded? "Negotiate " = some ticket := by
  refine ⟨posts_of_outbound (by simp [acceptJson, negotiation]; decide) leaves, (negotiation ticket).2, ?_,
    HeaderValue.encoded?_negotiation ticket⟩
  refine Client.getAll_of_outbound leaves ?_ (by decide)
  rw [allHeaders_formDraft rfl]
  rfl

theorem posts_revocation {c : Client} {service : SignOn} (leaves : c.outbound (service.revokeDraft token) = .ok o) :
    o.Posts service.revokeUrl (revocationForm token) :=
  posts_of_outbound (by simp [acceptJson]; decide) leaves

end SignOn

/-! ### Flights that depart -/

/-- A flight that had only begun has departed. -/
def State.TakesOff (g : Nat) (s s' : State) : Prop :=
  s.flight? g = some .begun ∧ s'.Departed g

theorem State.result?_setFlight (known : s.flight? g = some f) (r : Except Error AccessToken) :
    (s.setFlight g (.landed r)).result? g = some r := by
  rw [result?_eq_some, flight?_setFlight, if_pos rfl, known]
  rfl

namespace TokenCache

section Launch
variable {c : Client} {service : SignOn} (begun : s.flight? g = some .begun)
include begun

theorem launch_of_drafted {kind : Outbound → Prop} (drafted : service.tokenDraft s.asked = .ok d)
    (kinds : ∀ o, c.outbound d = .ok o → kind o) :
    (launch c service g s).asked = s.asked ++ service.asked ∧
      SignOn.SendsFor c kind g (s.wire.note service.requestEvent) (launch c service g s) := by
  have asking : (s.note service.requestEvent).wire = s.wire.note service.requestEvent := rfl
  unfold launch State.onWire dispatch
  rw [begun]
  dsimp only
  rw [drafted]
  dsimp only
  rw [asking]
  generalize s.wire.note service.requestEvent = asking
  cases cleared : c.clear d asking with
  | error e => exact ⟨rfl, .fails rfl (State.result?_setFlight begun _)⟩
  | ok o =>
    have own := kinds o (Client.outbound_of_clear cleared)
    dsimp only
    cases departed : c.depart o asking with
    | mk left w =>
      have wire : w = (c.depart o asking).2 := by rw [departed]
      cases left with
      | error e => exact ⟨rfl, .departs own wire⟩
      | ok flight => exact ⟨rfl, .departs own wire⟩

theorem launch_of_refused (refused : service.tokenDraft s.asked = .error e) :
    (launch c service g s).asked = s.asked ++ service.asked ∧
      (launch c service g s).wire = s.wire.note service.requestEvent ∧
      (launch c service g s).result? g = some (.error (.auth e)) := by
  unfold launch
  rw [begun]
  dsimp only
  rw [refused]
  exact ⟨rfl, rfl, State.result?_setFlight begun _⟩

theorem requests_of_launch : service.Requests c g s (launch c service g s) := by
  cases grant : service.grant with
  | password username password =>
    have none : service.asked = [] := by
      rw [SignOn.asked, grant]
    have drafted : service.tokenDraft s.asked = .ok (SignOn.formDraft service.tokenUrl [SignOn.acceptJson]
        (SignOn.grantFields (.password username password))) := by
      rw [SignOn.tokenDraft, grant]
    obtain ⟨asked, sends⟩ := launch_of_drafted begun drafted fun o leaves => SignOn.posts_password leaves
    rw [none, List.append_nil] at asked
    exact .password grant asked sends
  | kerberos source =>
    have one : service.asked = [service.tokenUrl] := by
      rw [SignOn.asked, grant]
    cases given : source.ticket s.asked service.tokenUrl with
    | error text =>
      have refused : service.tokenDraft s.asked = .error (.negotiation text) := by
        rw [SignOn.tokenDraft, grant]
        dsimp only
        rw [given]
      obtain ⟨asked, wire, result⟩ := launch_of_refused (c := c) begun refused
      rw [one] at asked
      exact .refused grant given asked wire result
    | ok ticket =>
      have drafted : service.tokenDraft s.asked = .ok (SignOn.formDraft service.tokenUrl
          [SignOn.acceptJson, SignOn.negotiation ticket] (SignOn.grantFields (.kerberos source))) := by
        rw [SignOn.tokenDraft, grant]
        dsimp only
        rw [given]
      obtain ⟨asked, sends⟩ := launch_of_drafted begun drafted fun o leaves => SignOn.posts_ticket leaves
      rw [one] at asked
      exact .ticket grant given asked sends

end Launch

theorem launch_of_departed (c : Client) (service : SignOn) (gone : s.flight? g ≠ some .begun) :
    launch c service g s = s := by
  unfold launch
  split
  · rename_i begun
    exact absurd begun gone
  · rfl

end TokenCache

/-! ### Other steps -/

theorem State.TakesOff.moved (takesOff : TakesOff g s s') : s'.flight? g ≠ some .begun := by
  intro begun
  obtain ⟨_, f, found, gone⟩ := takesOff
  rw [begun] at found
  exact gone (Option.some.inj found).symm

theorem begun_acquire (margin : Span) (begun : s.flight? g = some .begun) :
    (s.acquire margin).2.flight? g = some .begun := by
  have begins : ((s.generation + 1, Flight.begun) :: s.flights).lookup g = some .begun := by
    rw [List.lookup_cons]
    split
    · rfl
    · exact begun
  unfold State.acquire
  split
  · exact begun
  · exact begun
  · exact begins
  · split
    · exact begins
    · exact begun

theorem begun_setFlight (other : g ≠ h) (begun : s.flight? g = some .begun) :
    (s.setFlight h f).flight? g = some .begun := by
  rw [flight?_setFlight, if_neg other]
  exact begun

theorem begun_land (c : Client) (h : Nat) (begun : s.flight? g = some .begun) :
    (TokenCache.land c h s).2.flight? g = some .begun := by
  unfold TokenCache.land
  split
  · exact begun
  · rename_i underway
    have other : g ≠ h := by
      rintro rfl
      cases begun.symm.trans underway
    exact begun_setFlight other begun
  · exact begun

theorem begun_launch (c : Client) (service : SignOn) (other : g ≠ h) (begun : s.flight? g = some .begun) :
    (TokenCache.launch c service h s).flight? g = some .begun := by
  unfold TokenCache.launch
  split
  · dsimp only
    split
    · exact begun_setFlight other begun
    · split
      · rename_i sent
        obtain ⟨-, rfl⟩ := Prod.mk.inj sent
        exact begun_setFlight other begun
      · rename_i sent
        obtain ⟨-, rfl⟩ := Prod.mk.inj sent
        exact begun_setFlight other begun
  · exact begun

theorem asked_acquire (margin : Span) (s : State) : (s.acquire margin).2.asked = s.asked := by
  unfold State.acquire
  split
  · rfl
  · rfl
  · rfl
  · split <;> rfl

theorem asked_land (c : Client) (g : Nat) (s : State) : (TokenCache.land c g s).2.asked = s.asked := by
  unfold TokenCache.land
  split <;> rfl

theorem asked_settle (margin : Span) (g : Nat) (r : Except Error AccessToken) (s : State) :
    (s.settle margin g r).asked = s.asked := by
  unfold State.settle
  split <;> rfl

theorem asked_invalidate (g : Nat) (s : State) : (s.invalidate g).asked = s.asked := by
  unfold State.invalidate
  split
  · split <;> rfl
  · rfl

namespace Connection
variable {c : Connection} {service : SignOn} {act : Act}

/-- A turn at which no flight departs: no source of tickets is asked, and what leaves, if anything, is a request below
the root or the revocation of a token. -/
inductive Aside (c : Connection) (service : SignOn) (s s' : State) : Prop
  | quiet (asked : s'.asked = s.asked) (sent : s'.wire.sent = s.wire.sent) : Aside c service s s'
  | request (leaves : c.client.outbound (c.root.draft request a) = .ok o) (asked : s'.asked = s.asked)
    (wire : s'.wire = (c.client.depart o s.wire).2) : Aside c service s s'
  | revocation (posts : o.Posts service.revokeUrl (SignOn.revocationForm token)) (asked : s'.asked = s.asked)
    (wire : s'.wire = (c.tokens.client.depart o s.wire).2) : Aside c service s s'

/-- No step but its own lets a flight depart. -/
theorem Step.launches (step : c.Step act s s') (signOn : c.tokens.strategy = .signOn service)
    (takesOff : TakesOff g s s') : s' = TokenCache.launch c.tokens.client service g s := by
  have begun := takesOff.1
  have same : s'.flights ≠ s.flights := by
    intro same
    apply takesOff.moved
    rw [flight?_of_flights same]
    exact begun
  cases step with
  | stay | close _ | revoke _ | note e | shut | depart _ _ _ _ | arrive flight | revocation _ _ | revoked _ flight
  | outside _ => exact absurd rfl same
  | settle signOn' h r => exact absurd (flights_settle _ h r s) same
  | invalidate fetched h => exact absurd (flights_invalidate h s) same
  | acquire signOn' => exact absurd (begun_acquire _ begun) takesOff.moved
  | land signOn' h => exact absurd (begun_land _ h begun) takesOff.moved
  | launch signOn' h =>
    obtain rfl := Strategy.signOn.inj (signOn'.symm.trans signOn)
    by_cases own : g = h
    · rw [own]
    · exact absurd (begun_launch _ _ own begun) takesOff.moved

theorem Step.aside (step : c.Step act s s') (signOn : c.tokens.strategy = .signOn service) (spares : act.SparesSent)
    (grounded : ∀ g, ¬ TakesOff g s s') : c.Aside service s s' := by
  cases step with
  | stay | close _ | revoke _ | note e => exact .quiet rfl rfl
  | shut => exact .quiet rfl (Client.sent_shut s.wire)
  | acquire signOn' => exact .quiet (asked_acquire _ s) (sent_acquire _ s)
  | land signOn' g => exact .quiet (asked_land _ g s) (sent_land _ g s)
  | settle signOn' g r => exact .quiet (asked_settle _ g r s) (sent_settle _ g r s)
  | invalidate fetched g => exact .quiet (asked_invalidate g s) (sent_invalidate g s)
  | depart _ _ leaves _ => exact .request leaves rfl rfl
  | arrive flight => exact .quiet rfl (c.client.sent_arrive flight s.wire)
  | revoked signOn' flight => exact .quiet rfl (c.tokens.client.sent_arrive flight s.wire)
  | outside changes =>
    subst changes
    exact .quiet rfl (spares s.wire)
  | revocation signOn' leaves =>
    obtain rfl := Strategy.signOn.inj (signOn'.symm.trans signOn)
    exact .revocation (SignOn.posts_revocation leaves) rfl rfl
  | launch signOn' g =>
    by_cases begun : s.flight? g = some .begun
    · have known : (s.flight? g).isSome := by rw [begun]; rfl
      exact absurd ⟨begun, TokenCache.departed_launch _ _ known⟩ (grounded g)
    · rw [TokenCache.launch_of_departed _ _ begun]
      exact .quiet rfl rfl

end Connection

/-! ### Runs -/

/-- What has departed does not begin again. -/
theorem Run.Sound.takesOff_once {r : Run State α} {guar : Nat → State → State → Prop} (sound : r.Sound Lawful guar)
    (initial : (r.state 0).Coherent) (first : TakesOff g (r.state m) (r.state (m + 1)))
    (second : TakesOff g (r.state n) (r.state (n + 1))) : m = n := by
  have apart : ∀ {m n}, m < n → TakesOff g (r.state m) (r.state (m + 1)) → (r.state n).flight? g ≠ some .begun := by
    intro m n lt takesOff begun
    obtain ⟨_, _, evolves⟩ := sound.lawful initial lt
    obtain ⟨f, found, gone⟩ := evolves.departed takesOff.2
    rw [begun] at found
    exact gone (Option.some.inj found).symm
  rcases Nat.lt_trichotomy m n with before | same | after
  · exact absurd second.1 (apart before first)
  · exact same
  · exact absurd first.1 (apart after second)

theorem TokenCache.revokeToken_posts (c : Client) (service : SignOn) (token : AccessToken) :
    (revokeToken c service token).SendsOnce fun s s' =>
      ∃ o, o.Posts service.revokeUrl (SignOn.revocationForm token) ∧ s' = s.setWire (c.depart o s.wire).2 := by
  refine (revokeToken_sendsOnce c service token).imp ?_
  rintro s s' ⟨p, prepared, rfl⟩
  refine ⟨c.outgoing p, SignOn.posts_revocation (c := c) ?_, rfl⟩
  rw [Client.outbound, prepared]
  rfl

/-- Whatever calls take turns on a connection, each flight departs once at most, and there it asks for a token with the
very name and password, or with the ticket that the source gives for the URL, if it gives one. At all other turns no
source is asked, and no form is sent but one that revokes a token. A revocation sends one such form at most, with the
very token. -/
theorem sign_on_forms {c : Connection} (signOn : c.tokens.strategy = .signOn service)
    (spares : ∀ i, (acts i).SparesSent) (w : Wire) (turns : Nat → Turn) :
    let r := c.mingle acts { wire := w } turns
    (∀ g n, TakesOff g (r.state n) (r.state (n + 1)) →
      service.Requests c.tokens.client g (r.state n) (r.state (n + 1)) ∧
      ∀ m, TakesOff g (r.state m) (r.state (m + 1)) → m = n) ∧
    (∀ n, (∀ g, ¬ TakesOff g (r.state n) (r.state (n + 1))) → c.Aside service (r.state n) (r.state (n + 1))) ∧
    ∀ token, (TokenCache.revokeToken c.tokens.client service token).SendsOnce fun s s' =>
      ∃ o, o.Posts service.revokeUrl (SignOn.revocationForm token) ∧
        s' = s.setWire (c.tokens.client.depart o s.wire).2 := by
  intro r
  refine ⟨fun g n takesOff => ⟨?_, fun m other => ?_⟩, fun n grounded => ?_,
    TokenCache.revokeToken_posts c.tokens.client service⟩
  · rcases c.mingle_steps acts { wire := w } turns n with same | ⟨i, _, step⟩
    · have begun : (r.state (n + 1)).flight? g = some .begun := (congrArg (State.flight? · g) same).trans takesOff.1
      exact absurd begun takesOff.moved
    · have launched := step.launches signOn takesOff
      rw [launched]
      exact TokenCache.requests_of_launch takesOff.1
  · exact (c.mingle_sound acts w turns).takesOff_once (Coherent.initial w) other takesOff
  · rcases c.mingle_steps acts { wire := w } turns n with same | ⟨i, _, step⟩
    · exact .quiet (congrArg State.asked same) (congrArg (fun s => s.wire.sent) same)
    · exact step.aside signOn (spares i) grounded

namespace Sample

def service (grant : Grant) : SignOn :=
  { tokenUrl := "https://e/t", revokeUrl := "https://e/r", grant }

def granted (grant : Grant) : Connection :=
  { connection with tokens := { cache with strategy := .signOn (service grant) } }

def signIn (_ : Nat) : Act :=
  .call .authenticate

def signing (grant : Grant) : Run State (Except Error Value) :=
  (granted grant).mingle signIn { wire } (turns [])

/-- A password in which every character would end or change a field if it were written as it stands. -/
def reserved : Grant :=
  .password "jörg" ⟨"&a=b+c%26"⟩

def ticketed : Grant :=
  .kerberos ⟨fun _ _ => .ok [0x60, 0x82, 0xff]⟩

/-- The wire on which the first flight departs. -/
def announced (grant : Grant) : Wire :=
  TokenCache.asking (service grant) { wire }

theorem signing_takesOff (grant : Grant) : TakesOff 1 ((signing grant).state 2) ((signing grant).state 3) := by
  have begun : ((signing grant).state 2).flight? 1 = some .begun := rfl
  have launched : (signing grant).state 3 = TokenCache.launch client (service grant) 1 ((signing grant).state 2) := rfl
  refine ⟨begun, ?_⟩
  rw [launched]
  exact TokenCache.departed_launch _ _ (by rw [begun]; rfl)

end Sample

theorem sign_on_forms_reserved : (∃ o : Outbound,
      ((Sample.signing Sample.reserved).state 3).wire = (Sample.client.depart o (Sample.announced Sample.reserved)).2 ∧
      o.fields? = some [("grant_type", "password"), ("scope", "ovirt-app-api"), ("username", "jörg"),
        ("password", "&a=b+c%26")]) ∧
    ((Sample.signing Sample.ticketed).state 3).asked = ["https://e/t"] ∧ ∃ o : Outbound,
      ((Sample.signing Sample.ticketed).state 3).wire = (Sample.client.depart o (Sample.announced Sample.ticketed)).2 ∧
      ∃ v, o.headers.getAll .authorization = [v] ∧ v.encoded? "Negotiate " = some [0x60, 0x82, 0xff] := by
  have requests : ∀ grant, (Sample.service grant).Requests Sample.client 1 ((Sample.signing grant).state 2)
      ((Sample.signing grant).state 3) := by
    intro grant
    have spares : ∀ i, (Sample.signIn i).SparesSent := fun _ => trivial
    obtain ⟨flights, _⟩ := sign_on_forms (c := Sample.granted grant) rfl spares Sample.wire (Sample.turns [])
    exact (flights 1 2 (Sample.signing_takesOff grant)).1
  refine ⟨?_, ?_⟩
  · cases requests Sample.reserved with
    | password grant asked sends =>
      cases grant
      cases sends with
      | departs own wire => exact ⟨_, wire, own.fields⟩
      | fails wire result =>
        have sent : ((Sample.signing Sample.reserved).state 3).wire.sent.length = 1 := by decide +kernel
        rw [wire] at sent
        cases sent
    | ticket grant _ _ _ => cases grant
    | refused grant _ _ _ _ => cases grant
  · cases requests Sample.ticketed with
    | password grant _ _ => cases grant
    | refused grant failed _ _ _ =>
      cases grant
      cases failed
    | ticket grant given asked sends =>
      cases grant
      cases given
      refine ⟨asked, ?_⟩
      cases sends with
      | departs own wire => exact ⟨_, wire, own.2⟩
      | fails wire result =>
        have sent : ((Sample.signing Sample.ticketed).state 3).wire.sent.length = 1 := by decide +kernel
        rw [wire] at sent
        cases sent

end EngineClient
