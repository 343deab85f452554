import EngineClient.Proofs.Headers.Grouped
import EngineClient.Proofs.Reach.Handed
import EngineClient.Proofs.Secrecy.Answer
import EngineClient.Proofs.Secrecy.Paired

/-!
# Exchanges with other secrets

Two clients, on networks that answer them alike, make exchanges that differ in a credential only. What they log is the
same.
-/

namespace EngineClient
open EngineClient.Task

/-! ### Headers on one line -/

namespace HeaderMap
variable {m a b : HeaderMap}

/-- On one line, maps look the same that differ in the values of a name that carries credentials. -/
theorem render_of_sameBut (same : SameBut n a b) (hidden : n.carriesCredentials = true) (distinct : a.names.Nodup)
    (distinct' : b.names.Nodup) (count : (a.getAll n).length = (b.getAll n).length) : a.render = b.render := by
  unfold render
  rw [toList_of_nodup distinct, toList_of_nodup distinct', ← same.names, List.map_flatMap, List.map_flatMap]
  refine congrArg (String.intercalate ", ") (List.flatMap_congr fun k _ => ?_)
  by_cases own : k = n
  · subst own
    have marked : ∀ vs : List HeaderValue, (vs.map fun v => (k, v)).map (fun h =>
        h.1.text ++ ": " ++ if h.1.carriesCredentials || h.2.sensitive then Secret.mark
          else h.2.text?.getD "<binary>") = List.replicate vs.length (k.text ++ ": " ++ Secret.mark) := by
      intro vs
      simp [hidden, List.eq_replicate_iff]
    rw [marked, marked, count]
  · rw [same.values k own]

end HeaderMap

theorem Client.nodup_outgoingHeaders (c : Client) (hs : List Header) :
    (c.outgoingHeaders (.ofList hs)).names.Nodup := by
  have listed : (HeaderMap.ofList hs).names.Nodup := HeaderMap.nodup_appendAll (m := .empty) List.nodup_nil hs
  have applied := HeaderMap.nodup_appendAll listed (c.defaults.toList.filter fun h => !(HeaderMap.ofList hs).contains h.1)
  unfold outgoingHeaders
  dsimp only
  split
  · exact HeaderMap.nodup_of_names (HeaderMap.names_insertTo _ _ _) applied
  · exact applied

/-! ### Requests -/

namespace Connection

/-- A request to the API, with whatever credential. -/
def Asks (c : Connection) (o : Outbound) : Prop :=
  ∃ request a, c.client.outbound (c.root.draft request a) = .ok o

/-- A request to the sign-on service, with whatever form. -/
def SignsOn (c : Connection) (o : Outbound) : Prop :=
  ∃ service url fields, c.tokens.strategy = .signOn service ∧ (url = service.tokenUrl ∨ url = service.revokeUrl) ∧
    c.tokens.client.outbound (SignOn.formDraft url [SignOn.acceptJson] fields) = .ok o

end Connection

/-- Requests that differ in the authorization, or, to the sign-on service, in a body of the same length. -/
inductive Outbound.Twin (c : Connection) : Outbound → Outbound → Prop
  | request (asks : c.Asks o) (asks' : c.Asks o') (same : o.SameBut .authorization o') : Twin c o o'
  | signOn {body : Bytes} (posts : c.SignsOn o) (size : body.length = o.body.length) : Twin c o { o with body }

/-- What reaches the network in two exchanges that differ in their credentials. -/
inductive Sent.Twin (c : Connection) : Sent → Sent → Prop
  | refused (tunnel : Option Tunnel) : Twin c ⟨tunnel, none⟩ ⟨tunnel, none⟩
  | request (tunnel : Option Tunnel) (twins : Outbound.Twin c o o') : Twin c ⟨tunnel, some o⟩ ⟨tunnel, some o'⟩

/-- Outcomes that are the same but for replies, which a client receives as related ones. -/
inductive Outcome.Related (c : Client) (rel : Reply → Reply → Prop) : Outcome → Outcome → Prop
  | unreachable (failure : Failure) : Related c rel (.unreachable failure) (.unreachable failure)
  | refused (failure : Failure) : Related c rel (.refused failure) (.refused failure)
  | broken (failure : Failure) : Related c rel (.broken failure) (.broken failure)
  | silent : Related c rel .silent .silent
  | answered (delay : Span) (status : r'.status = r.status) (headers : r'.headers = r.headers)
    (received : rel (c.received r) (c.received r')) : Related c rel (.answered delay r) (.answered delay r')

theorem Outcome.Related.refl {rel : Reply → Reply → Prop} (refl : ∀ r, rel r r) (c : Client) (outcome : Outcome) :
    Related c rel outcome outcome := by
  cases outcome with
  | unreachable f => exact .unreachable f
  | refused f => exact .refused f
  | broken f => exact .broken f
  | silent => exact .silent
  | answered delay r => exact .answered delay rfl rfl (refl _)

/-- Networks that give requests to the API the same answers, whatever their credentials, and requests to the sign-on
service answers that differ in access tokens only, whatever their bodies. -/
structure Network.Twin (c : Connection) (network network' : Network) : Prop where
  request : ∀ {before before' o o'}, List.Forall₂ (Sent.Twin c) before before' → c.Asks o → c.Asks o' →
    o.SameBut .authorization o' → network' before' o' = network before o
  signOn : ∀ {before before' o} {body : Bytes}, List.Forall₂ (Sent.Twin c) before before' → c.SignsOn o →
    body.length = o.body.length →
      Outcome.Related c.tokens.client Reply.Twin (network before o) (network' before' { o with body })

/-- Wires that nothing tells apart but secrets. -/
structure Wire.Twin (c : Connection) (w w' : Wire) : Prop where
  network : Network.Twin c w.network w'.network
  now : w'.now = w.now
  today : w'.today = w.today
  sent : List.Forall₂ (Sent.Twin c) w.sent w'.sent
  log : w'.log = w.log
  isOpen : w'.isOpen = w.isOpen

/-! ### One exchange -/

/-- Requests that look the same in the log, and whose outcomes are received as related replies. -/
structure Connection.Exchanges (c : Connection) (client : Client) (rel : Reply → Reply → Prop) (o o' : Outbound) :
    Prop where
  twins : Outbound.Twin c o o'
  method : o'.method = o.method
  uri : o'.uri = o.uri
  headers : o'.headers.render = o.headers.render
  size : o'.body.length = o.body.length
  outcome : ∀ {w w'}, Wire.Twin c w w' →
    Outcome.Related client rel (w.network w.sent o) (w'.network w'.sent o')

/-- Exchanges under way that look the same in the log, and whose outcomes are received as related replies. -/
structure Client.InFlight.Twin (client : Client) (rel : Reply → Reply → Prop) (e e' : InFlight) : Prop where
  method : e'.outbound.method = e.outbound.method
  uri : e'.outbound.uri = e.outbound.uri
  outcome : Outcome.Related client rel e.outcome e'.outcome
  departed : e'.departed = e.departed

section Exchange
variable {c : Connection} {w w' : Wire} {o o' : Outbound} {rel : Reply → Reply → Prop}

theorem Wire.Twin.keeps (c : Connection) : Wire.Keeps (Wire.Twin c) (Sent.Twin c) where
  now := fun twins => twins.now
  note := fun twins e => { twins with log := congrArg (· ++ [e]) twins.log }
  clock := fun twins _ => { twins with now := rfl }
  record := fun twins sent => { twins with sent := List.rel_append twins.sent (.cons sent .nil) }

theorem Outcome.Related.paired {client : Client} {outcome outcome' : Outcome}
    (related : Related client rel outcome outcome') : Paired client rel outcome outcome' := by
  cases related with
  | unreachable f => exact .unreachable f
  | refused f => exact .refused f
  | broken f => exact .broken f
  | silent => exact .silent
  | answered delay status headers received => exact .answered delay status (congrArg HeaderMap.render headers) received

namespace Client
variable (client : Client)

theorem requestEvent_of_same (method : o'.method = o.method) (uri : o'.uri = o.uri)
    (headers : o'.headers.render = o.headers.render) (size : o'.body.length = o.body.length) :
    requestEvent o' = requestEvent o := by
  unfold requestEvent
  rw [method, uri, headers, size]

theorem pairs_of_exchanges (exchanges : c.Exchanges client rel o o') :
    client.Pairs (Wire.Twin c) (Sent.Twin c) rel o o' := by
  obtain ⟨requests, method, uri, headers, size, outcome⟩ := exchanges
  have tunnel : client.tunnelFor o' = client.tunnelFor o := by
    unfold tunnelFor
    rw [uri]
  refine ⟨requestEvent_of_same method uri headers size, ?_, ?_, fun twins => (outcome twins).paired⟩
  · rw [tunnel]
    exact .refused _
  · rw [tunnel]
    exact .request _ requests

theorem depart_twin (exchanges : c.Exchanges client rel o o') (twins : Wire.Twin c w w') :
    Except.Related (InFlight.Twin client rel) (client.depart o w).1 (client.depart o' w').1 ∧
      Wire.Twin c (client.depart o w).2 (client.depart o' w').2 := by
  have pairs := client.pairs_of_exchanges exchanges
  obtain ⟨wires, ⟨e, left, left'⟩ | ⟨t, left, left'⟩⟩ := depart_pairs (Wire.Twin.keeps c) pairs twins
  · rw [left, left']
    exact ⟨.error e, wires⟩
  · rw [left, left']
    exact ⟨.ok ⟨exchanges.method, exchanges.uri, exchanges.outcome twins, rfl⟩, wires⟩

theorem arrive_twin {e e' : InFlight} (flights : InFlight.Twin client rel e e') (twins : Wire.Twin c w w') :
    Except.Related rel (client.arrive e w).1 (client.arrive e' w').1 ∧
      Wire.Twin c (client.arrive e w).2 (client.arrive e' w').2 := by
  obtain ⟨o, outcome, departed⟩ := e
  obtain ⟨o', outcome', departed'⟩ := e'
  obtain ⟨method, uri, outcomes, rfl⟩ := flights
  exact arrive_pairs (Wire.Twin.keeps c) (congrArg Method.name method) (congrArg Uri.text uri) outcomes.paired twins

theorem exchange_twin (exchanges : c.Exchanges client rel o o') :
    (client.exchange o).Alike (Wire.Twin c) (Except.Related rel) (client.exchange o') :=
  exchange_pairs (Wire.Twin.keeps c) (client.pairs_of_exchanges exchanges)

end Client

/-! ### Drafts -/

/-- Drafts that come to the same error or to requests that are exchanged alike. -/
def Connection.Drafts (c : Connection) (client : Client) (rel : Reply → Reply → Prop) (d d' : Draft) : Prop :=
  Except.Related (c.Exchanges client rel) (client.outbound d) (client.outbound d')

theorem Client.clear_eq (client : Client) (d : Draft) (w : Wire) :
    client.clear d w = client.outbound d >>= fun o => if w.isOpen then .ok o else .error .closed := by
  unfold clear outbound
  cases d.prepare client.settings.security <;> rfl

section Drafts
variable {client : Client} {d d' : Draft}

theorem Connection.Drafts.clear (drafts : c.Drafts client rel d d') (twins : Wire.Twin c w w') :
    Except.Related (c.Exchanges client rel) (client.clear d w) (client.clear d' w') := by
  rw [client.clear_eq, client.clear_eq]
  refine drafts.bind fun o o' exchanges => ?_
  rw [twins.isOpen]
  split
  · exact .ok exchanges
  · exact .error _

theorem Connection.Drafts.send (drafts : c.Drafts client rel d d') :
    (client.send d).Alike (Wire.Twin c) (Except.Related rel) (client.send d') := by
  rw [Client.send_run, Client.send_run]
  refine .act (fun _ _ twins => twins) fun w w' twins => ?_
  rcases (drafts.clear twins).split with ⟨e, cleared, cleared'⟩ | ⟨o, o', cleared, cleared', exchanges⟩
  · rw [cleared, cleared']
    exact .done (.error e)
  · rw [cleared, cleared']
    exact client.exchange_twin exchanges

theorem Connection.Drafts.dispatch (drafts : c.Drafts client rel d d') (twins : Wire.Twin c w w') :
    Except.Related (Client.InFlight.Twin client rel) (TokenCache.dispatch client d w).1
      (TokenCache.dispatch client d' w').1 ∧
      Wire.Twin c (TokenCache.dispatch client d w).2 (TokenCache.dispatch client d' w').2 := by
  unfold TokenCache.dispatch
  rcases (drafts.clear twins).split with ⟨e, cleared, cleared'⟩ | ⟨o, o', cleared, cleared', exchanges⟩
  · rw [cleared, cleared']
    exact ⟨.error e, twins⟩
  · rw [cleared, cleared']
    exact client.depart_twin exchanges twins

end Drafts
end Exchange

/-- Forms to one place differ in their bodies only. -/
theorem Client.outbound_form (client : Client) (url : String) (hs : List Header) (fields fields' : List Text.Form.Field) :
    client.outbound (SignOn.formDraft url hs fields') =
      (client.outbound (SignOn.formDraft url hs fields)).map
        fun o => { o with body := Text.encode (Text.Form.render fields') } := by
  have headers : (SignOn.formDraft url hs fields').allHeaders = (SignOn.formDraft url hs fields).allHeaders := rfl
  have unspoiled : ∀ fields, (SignOn.formDraft url hs fields).spoiled = none := fun _ => rfl
  have target : ∀ fields, (SignOn.formDraft url hs fields).url = url := fun _ => rfl
  unfold outbound Draft.prepare
  rw [headers, unspoiled, unspoiled, target, target]
  cases Draft.target? client.settings.security url with
  | error e => rfl
  | ok uri => cases HeaderMap.ofListWithin? (SignOn.formDraft url hs fields).allHeaders <;> rfl

namespace Connection
variable (c : Connection)

theorem drafts_request (plain : ∀ h ∈ c.root.headers, h.1 ≠ .authorization) (request : Request) (a b : HeaderValue) :
    c.Drafts c.client Eq (c.root.draft request a) (c.root.draft request b) := by
  unfold Drafts
  rcases c.client.sameBut_outbound c.root request a b with ⟨e, left, left'⟩ | ⟨o, o', left, left', same⟩
  · rw [left, left']
    exact .error e
  · have one := c.client.authorization_outbound plain left
    have one' := c.client.authorization_outbound plain left'
    obtain ⟨_, _, headers, _⟩ := Client.outbound_eq_ok left
    obtain ⟨_, _, headers', _⟩ := Client.outbound_eq_ok left'
    -- One authorization in each, which the log masks; names are distinct, so that nothing else can differ in place.
    have shown : o.headers.render = o'.headers.render := by
      refine HeaderMap.render_of_sameBut same.headers (by decide) ?_ ?_ (by rw [one, one']; rfl)
      · rw [headers]
        exact c.client.nodup_outgoingHeaders _
      · rw [headers']
        exact c.client.nodup_outgoingHeaders _
    have asks : c.Asks o := ⟨request, a, left⟩
    have asks' : c.Asks o' := ⟨request, b, left'⟩
    rw [left, left']
    refine .ok ⟨.request asks asks' same, same.method.symm, same.uri.symm, shown.symm, by rw [same.body], ?_⟩
    intro w w' twins
    rw [twins.network.request twins.sent asks asks' same]
    exact .refl (fun _ => rfl) c.client _

theorem drafts_signOn (signOn : c.tokens.strategy = .signOn service)
    (beside : url = service.tokenUrl ∨ url = service.revokeUrl) {fields fields' : List Text.Form.Field}
    (size : (Text.encode (Text.Form.render fields')).length = (Text.encode (Text.Form.render fields)).length) :
    c.Drafts c.tokens.client Reply.Twin (SignOn.formDraft url [SignOn.acceptJson] fields)
      (SignOn.formDraft url [SignOn.acceptJson] fields') := by
  unfold Drafts
  rw [c.tokens.client.outbound_form url [SignOn.acceptJson] fields fields']
  cases left : c.tokens.client.outbound (SignOn.formDraft url [SignOn.acceptJson] fields) with
  | error e => exact .error e
  | ok o =>
    obtain ⟨_, _, _, body⟩ := Client.outbound_eq_ok left
    have posts : c.SignsOn o := ⟨service, url, fields, signOn, beside, left⟩
    have length : (Text.encode (Text.Form.render fields')).length = o.body.length := by
      rw [body]
      exact size
    exact .ok ⟨.signOn posts length, rfl, rfl, rfl, length, fun twins => twins.network.signOn twins.sent posts length⟩

end Connection

end EngineClient
