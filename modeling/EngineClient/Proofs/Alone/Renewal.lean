import EngineClient.Proofs.Alike
import EngineClient.Proofs.Alone.Session
import EngineClient.Proofs.Log

/-!
# Beginning anew

A connection whose last exchange for a token has failed behaves as a new one. What differs are the generations of
tokens, which go on from where they were, also in what is logged, and what lies in the past.
-/

namespace EngineClient
open EngineClient.State EngineClient.Task

/-! ### States with a past -/

def Slot.shift (k : Nat) : Slot → Slot
  | .empty => .empty
  | .pending g => .pending (k + g)
  | .ready g t => .ready (k + g) t
  | .revoked => .revoked

/-- An event in which generations go on from others. -/
def LogEvent.shift (k : Nat) : LogEvent → LogEvent
  | .refused g path => .refused (k + g) path
  | .tokenReused g => .tokenReused (k + g)
  | .flightJoined g => .flightJoined (k + g)
  | .flightBegun g => .flightBegun (k + g)
  | .flightFailed g error => .flightFailed (k + g) error
  | .flightDiscarded g => .flightDiscarded (k + g)
  | .shortLife g lifetime margin => .shortLife (k + g) lifetime margin
  | .tokenInvalidated g => .tokenInvalidated (k + g)
  | e => e

theorem LogEvent.shift_wire (k : Nat) (e : LogEvent) (wire : e.isWire = true) : e.shift k = e := by
  cases e <;> first | rfl | cases wire

/-- What a state would be if another one had come before it: generations go on from those of the past, and the log goes
on from its log. -/
def State.before (past s : State) : State :=
  { wire := s.wire.retold (LogEvent.shift past.generation) past.wire.log
    slot := s.slot.shift past.generation
    generation := past.generation + s.generation
    flights := s.flights.map (fun p => (past.generation + p.1, p.2)) ++ past.flights
    closed := s.closed
    asked := s.asked }

/-- A new connection on the wire of another one, on which nothing has been logged. The source of tickets is the same. -/
def State.renewed (s : State) : State :=
  { wire := { s.wire with log := [] }, asked := s.asked }

section Note
variable (past s : State)

theorem State.note_before (e : LogEvent) :
    (past.before s).note (e.shift past.generation) = past.before (s.note e) :=
  congrArg (past.before s).setWire (Wire.note_retold _ _ e s.wire)

theorem State.noteAll_before (es : List LogEvent) :
    (past.before s).noteAll (es.map (LogEvent.shift past.generation)) = past.before (s.noteAll es) :=
  congrArg (past.before s).setWire (Wire.noteAll_retold _ _ es s.wire)

end Note

theorem lookup_shift (flights : List (Nat × Flight)) (k g : Nat) :
    (flights.map fun p => (k + p.1, p.2)).lookup (k + g) = flights.lookup g := by
  induction flights with
  | nil => rfl
  | cons p rest ih =>
    obtain ⟨h, f⟩ := p
    by_cases found : g = h
    · simp [found]
    · have other : (g == h) = false := by simpa using found
      have other' : (k + g == k + h) = false := by simpa using found
      simp only [List.map_cons, List.lookup_cons, other, other', ih]

section Before
variable {past s : State} (coherent : past.Coherent)
include coherent

theorem State.flight?_before (s : State) (positive : 0 < g) :
    (past.before s).flight? (past.generation + g) = s.flight? g := by
  have unknown : past.flights.lookup (past.generation + g) = none := coherent.fresh (by omega)
  unfold flight? State.before
  rw [List.lookup_append, lookup_shift, unknown, Option.or_none]

theorem State.result?_before (s : State) (positive : 0 < g) :
    (past.before s).result? (past.generation + g) = s.result? g := by
  unfold result?
  rw [flight?_before coherent s positive]

theorem State.setFlight_before (s : State) (positive : 0 < g) (f : Flight) :
    (past.before s).setFlight (past.generation + g) f = past.before (s.setFlight g f) := by
  have unknown : past.flights.lookup (past.generation + g) = none := coherent.fresh (by omega)
  have shifted : (fun p : Nat × Flight => if past.generation + p.1 = past.generation + g
      then (past.generation + g, f) else (past.generation + p.1, p.2)) =
      fun p => (past.generation + (if p.1 = g then (g, f) else p).1, (if p.1 = g then (g, f) else p).2) := by
    funext p
    by_cases same : p.1 = g
    · simp [same]
    · simp [same]
  simp only [setFlight, State.before, List.map_append, List.map_map, replace_of_unknown unknown f, Function.comp_def,
    shifted]

omit coherent in
theorem TokenCache.dispatch_retold (c : Client) (d : Draft) (kept : ∀ e, e.isWire = true → f e = e) (w : Wire) :
    dispatch c d (w.retold f log) = ((dispatch c d w).1, (dispatch c d w).2.retold f log) := by
  have cleared : c.clear d (w.retold f log) = c.clear d w := rfl
  unfold dispatch
  rw [cleared]
  cases c.clear d w with
  | error e => rfl
  | ok o => exact c.depart_retold kept o

theorem TokenCache.launch_before (c : Client) (service : SignOn) (s : State) (positive : 0 < g) :
    launch c service (past.generation + g) (past.before s) = past.before (launch c service g s) := by
  have asks : (past.before s).note service.requestEvent = past.before (s.note service.requestEvent) := by
    have plain : service.requestEvent.shift past.generation = service.requestEvent := by
      unfold SignOn.requestEvent
      split <;> rfl
    have noted := past.note_before s service.requestEvent
    rwa [plain] at noted
  have asked : (past.before s).asked = s.asked := rfl
  have lands : ∀ s' f, setFlight (past.generation + g) f (past.before s') = past.before (setFlight g f s') :=
    fun s' f => setFlight_before coherent s' positive f
  unfold launch
  rw [flight?_before coherent s positive]
  split
  · dsimp only
    rw [asks, asked]
    split
    · exact lands { s.note service.requestEvent with asked := s.asked ++ service.asked } _
    · rename_i d _
      have leaves : ∀ w : Wire, dispatch c d (w.retold (LogEvent.shift past.generation) past.wire.log) =
          ((dispatch c d w).1, (dispatch c d w).2.retold (LogEvent.shift past.generation) past.wire.log) :=
        dispatch_retold c d (LogEvent.shift_wire past.generation)
      have wire : (past.before (s.note service.requestEvent)).wire =
        (s.note service.requestEvent).wire.retold (LogEvent.shift past.generation) past.wire.log := rfl
      dsimp only [onWire]
      rw [wire, leaves]
      obtain ⟨r, w⟩ := dispatch c d (s.note service.requestEvent).wire
      cases r with
      | error e => exact lands { s with wire := w, asked := s.asked ++ service.asked } _
      | ok e => exact lands { s with wire := w, asked := s.asked ++ service.asked } _
  · rfl

theorem TokenCache.land_before (c : Client) (s : State) (positive : 0 < g) :
    land c (past.generation + g) (past.before s) = ((land c g s).1, past.before (land c g s).2) := by
  unfold land
  rw [flight?_before coherent s positive]
  split
  · rfl
  · rename_i e _
    have arrives : c.arrive e (past.before s).wire =
        ((c.arrive e s.wire).1, (past.before (s.setWire (c.arrive e s.wire).2)).wire) :=
      c.arrive_retold (LogEvent.shift_wire past.generation) e
    dsimp only [onWire]
    rw [arrives]
    exact congrArg (Prod.mk _) (setFlight_before coherent (s.setWire (c.arrive e s.wire).2) positive _)
  · rfl

end Before

section Slot
variable (past s : State)

theorem State.settleEvents_shift (k g : Nat) (margin : Span) (r : Except Error AccessToken) :
    settleEvents margin (k + g) r = (settleEvents margin g r).map (LogEvent.shift k) := by
  unfold settleEvents
  split
  · split
    · split <;> rfl
    · rfl
  · rfl

theorem State.settle_before (margin : Span) (g : Nat) (r : Except Error AccessToken) :
    (past.before s).settle margin (past.generation + g) r = past.before (s.settle margin g r) := by
  have logs := past.noteAll_before s (settleEvents margin g r)
  rw [← settleEvents_shift] at logs
  have waits : (past.before s).slot = .pending (past.generation + g) ↔ s.slot = .pending g := by
    unfold State.before Slot.shift
    cases s.slot <;> simp
  unfold settle
  by_cases slot : s.slot = .pending g
  · rw [if_pos slot, if_pos (waits.mpr slot), logs]
    cases r <;> rfl
  · rw [if_neg slot, if_neg fun h => slot (waits.mp h)]

theorem State.invalidate_before (g : Nat) :
    (past.before s).invalidate (past.generation + g) = past.before (s.invalidate g) := by
  unfold invalidate
  cases slot : s.slot with
  | ready cached t =>
    have slot' : (past.before s).slot = .ready (past.generation + cached) t := by simp [State.before, slot, Slot.shift]
    rw [slot']
    by_cases same : cached = g
    · have noted : (past.before s).note (.tokenInvalidated (past.generation + g)) =
          past.before (s.note (.tokenInvalidated g)) := past.note_before s (.tokenInvalidated g)
      simp only [same, drop, if_true, noted]
      rfl
    · simp [same]
  | empty | pending _ | revoked => simp [State.before, slot, Slot.shift]

theorem State.revoke_before :
    (past.before s).revoke = (s.slot.shift past.generation, past.before s.revoke.2) := rfl

theorem State.begin_before : (past.before s).begin = past.before s.begin := by
  have next : (past.before s).generation + 1 = past.generation + (s.generation + 1) := by
    simp [State.before, Nat.add_assoc]
  have noted : (past.before s).note (.flightBegun (past.generation + (s.generation + 1))) =
      past.before (s.note (.flightBegun (s.generation + 1))) := past.note_before s (.flightBegun (s.generation + 1))
  unfold begin
  rw [next]
  dsimp only
  rw [noted]
  rfl

def State.Found.shift (k : Nat) : Found → Found
  | .closed => .closed
  | .cached g t => .cached (k + g) t
  | .flight g => .flight (k + g)

theorem State.acquire_before (margin : Span) : (past.before s).acquire margin =
    ((s.acquire margin).1.shift past.generation, past.before (s.acquire margin).2) := by
  have shifted : (past.before s).slot = s.slot.shift past.generation := rfl
  have generation : (past.before s).generation = past.generation + s.generation := rfl
  have now : (past.before s).wire.now = s.wire.now := rfl
  unfold acquire
  rw [shifted]
  cases s.slot with
  | empty => simp [Slot.shift, Found.shift, generation, Nat.add_assoc, past.begin_before s]
  | pending g => exact congrArg (Prod.mk _) (past.note_before s (.flightJoined g))
  | ready g t =>
    by_cases expired : t.isExpired s.wire.now margin = true
    · simp [Slot.shift, Found.shift, generation, now, Nat.add_assoc, expired, past.begin_before s]
    · have noted := past.note_before s (.tokenReused g)
      simp [Slot.shift, Found.shift, now, expired, ← noted, LogEvent.shift]
  | revoked => rfl

end Slot

/-! ### Tasks go alike with and without a past -/

/-- Generations in the slot are counted from one on. -/
def State.Counts (s : State) : Prop :=
  ∀ g, s.slot.generation? = some g → 0 < g

theorem State.Counts.mono {s s' : State} (counts : s.Counts)
    (same : ∀ g, s'.slot.generation? = some g → s.slot.generation? = some g) : s'.Counts :=
  fun g slot => counts g (same g slot)

theorem State.Counts.acquire {s : State} (counts : s.Counts) (margin : Span) : (s.acquire margin).2.Counts := by
  have next : s.begin.Counts := by
    rintro g ⟨⟩
    exact Nat.succ_pos _
  unfold State.acquire
  split
  · exact counts
  · exact counts
  · exact next
  · split
    · exact next
    · exact counts

theorem State.slot_settle (s : State) (margin : Span) (g : Nat) (r : Except Error AccessToken) (h : Nat)
    (slot : (s.settle margin g r).slot.generation? = some h) : s.slot.generation? = some h := by
  unfold settle at slot
  split at slot
  · rename_i pending
    rw [pending]
    cases r with
    | ok t => exact slot
    | error e => cases slot
  · exact slot

theorem State.slot_invalidate (s : State) (g h : Nat) (slot : (s.invalidate g).slot.generation? = some h) :
    s.slot.generation? = some h := by
  unfold invalidate at slot
  split at slot
  · split at slot
    · cases slot
    · exact slot
  · exact slot

theorem State.Move.slot_other {s s' : State} (move : Move margin .other s s') : s'.slot = s.slot := by
  cases move with
  | quiet slot _ _ _ => exact slot
  | fly _ _ _ slot _ _ _ => exact slot

def State.Behind (past s t : State) : Prop :=
  s.Counts ∧ t = past.before s

/-- Two calls go alike with and without a past, and their values correspond. -/
def Call.Renews (past : State) (f : α → β) (x : Call α) (y : Call β) : Prop :=
  x.run.Alike (State.Behind past) (fun r r' => r' = r.map f) y.run

section Alike
variable {past : State} {post : α → β → Prop} {f g : State → State} {next : State → Task State α}
  {next' : State → Task State β}

theorem alike_act (counts : ∀ s, s.Counts → (f s).Counts) (same : ∀ s, g (past.before s) = past.before (f s))
    (rest : ∀ s, s.Counts → (next s).Alike past.Behind post (next' (past.before s))) :
    (Task.act f next).Alike past.Behind post (Task.act g next') := by
  refine .act ?_ ?_
  · rintro s t ⟨counted, rfl⟩
    exact ⟨counts s counted, same s⟩
  · rintro s t ⟨counted, rfl⟩
    exact rest s counted

theorem alike_wait (counts : ∀ s, s.Counts → (f s).Counts) (same : ∀ s, g (past.before s) = past.before (f s))
    (rest : ∀ s, s.Counts → (next s).Alike past.Behind post (next' (past.before s))) :
    (Task.wait f next).Alike past.Behind post (Task.wait g next') := by
  refine .wait ?_ ?_
  · rintro s t ⟨counted, rfl⟩
    exact ⟨counts s counted, same s⟩
  · rintro s t ⟨counted, rfl⟩
    exact rest s counted

end Alike

namespace Call
variable {past : State}

theorem Renews.bind {f : α → β} {h : γ → δ} {x : Call α} {y : Call β} {k : α → Call γ} {l : β → Call δ}
    (first : x.Renews past f y) (rest : ∀ a, (k a).Renews past h (l (f a))) : (x >>= k).Renews past h (y >>= l) := by
  unfold Renews
  rw [Call.run_bind, Call.run_bind]
  refine Alike.andThen first ?_
  rintro r r' rfl
  cases r with
  | error e => exact .done rfl
  | ok a => exact rest a

theorem renews_pure (f : α → β) (a : α) : (pure a : Call α).Renews past f (pure (f a)) :=
  .done rfl

theorem renews_throw (f : α → β) (e : Error) : (throw e : Call α).Renews past f (throw e) :=
  .done rfl

theorem renews_ofTask {t u : Task State α} (alike : t.Alike past.Behind (fun a b => b = a) u) :
    (Call.ofTask t).Renews past id (Call.ofTask u) := by
  refine Alike.andThen alike ?_
  rintro a b rfl
  exact .done rfl

end Call

section Wire
variable {past : State} {post : α → β → Prop}

theorem alike_note {next : State → Task State α} {next' : State → Task State β} (e : LogEvent)
    (rest : ∀ s, s.Counts → (next s).Alike past.Behind post (next' (past.before s))) :
    (Task.act (State.note e) next).Alike past.Behind post (Task.act (State.note (e.shift past.generation)) next') :=
  alike_act (fun _ counts => counts) (past.note_before · e) rest

/-- An exchange goes the same way whatever was logged before it. -/
theorem alike_send (c : Client) (d : Draft) {k : Except ClientError Reply → Task State α}
    {k' : Except ClientError Reply → Task State β} (rest : ∀ reply, (k reply).Alike past.Behind post (k' reply)) :
    (((c.send d).within State.wire State.setWire).andThen k).Alike past.Behind post
      (((c.send d).within State.wire State.setWire).andThen k') := by
  have kept := LogEvent.shift_wire past.generation
  rw [Client.send_within_run, Client.send_within_run]
  refine alike_act (fun _ counts => counts) (fun _ => rfl) fun s _ => ?_
  have cleared : c.clear d (past.before s).wire = c.clear d s.wire := rfl
  rw [cleared]
  cases c.clear d s.wire with
  | error e => exact rest _
  | ok o =>
    have departs : ∀ s, c.depart o (past.before s).wire =
        ((c.depart o s.wire).1, (past.before (s.setWire (c.depart o s.wire).2)).wire) :=
      fun s => c.depart_retold kept o
    refine alike_act (fun _ counts => counts) (fun s => by rw [departs]; rfl) fun s _ => ?_
    rw [departs]
    dsimp only
    cases (c.depart o s.wire).1 with
    | error e => exact rest _
    | ok flight =>
      have arrives : ∀ s, c.arrive flight (past.before s).wire =
          ((c.arrive flight s.wire).1, (past.before (s.setWire (c.arrive flight s.wire).2)).wire) :=
        fun s => c.arrive_retold kept flight
      refine alike_wait (fun _ counts => counts) (fun s => by rw [arrives]; rfl) fun s _ => ?_
      rw [arrives]
      exact rest _

end Wire

theorem alike_update (past : State) {f : State → State} (counts : ∀ s, s.Counts → (f s).Counts)
    (same : ∀ s, f (past.before s) = past.before (f s)) :
    (Task.update f).Alike past.Behind (fun a b => b = a) (Task.update f) :=
  alike_act counts same fun _ _ => .done rfl

/-! ### Calls go alike with and without a past -/

theorem Call.renews_read {past : State} {get : State → α} (f : α → α) (same : ∀ s, get (past.before s) = f (get s)) :
    (Call.read get).Renews past f (Call.read get) := by
  refine alike_act (fun _ counts => counts) (fun _ => rfl) fun s _ => .done ?_
  exact congrArg Except.ok (same s)

namespace TokenCache
variable {past : State} (coherent : past.Coherent) (t : TokenCache) (service : SignOn)
include coherent

theorem follow_renews (positive : 0 < g) :
    (t.follow service g).Renews past id (t.follow service (past.generation + g)) := by
  have settles : ∀ r : Except Error AccessToken,
      (act (State.settle t.margin g r) fun _ => done r : Task State _).Alike past.Behind (fun r r' => r' = r.map id)
        (act (State.settle t.margin (past.generation + g) r) fun _ => done r) := by
    intro r
    refine alike_act (fun s counts => counts.mono (s.slot_settle t.margin g r))
      (fun s => past.settle_before s t.margin g r) fun _ _ => ?_
    exact .done (by cases r <;> rfl)
  unfold Call.Renews
  rw [follow_run, follow_run]
  refine alike_act (fun s counts => counts.mono ?_) (fun s => launch_before coherent t.client service s positive) ?_
  · rw [(launch_move .zero t.client service g s).slot_other]
    exact fun _ => id
  intro _ _
  refine alike_act (fun _ counts => counts) (fun _ => rfl) fun s _ => ?_
  rw [result?_before coherent s positive]
  split
  · rename_i r _
    exact settles r
  · refine alike_wait (fun s counts => counts.mono ?_) (fun s => ?_) fun s _ => ?_
    · rw [(land_move .zero t.client g s).slot_other]
      exact fun _ => id
    · rw [land_before coherent t.client s positive]
    · rw [land_before coherent t.client s positive]
      exact settles _

/-- The generation of what a call hands out, with a past. -/
def shift (past : State) (p : α × Option Nat) : α × Option Nat :=
  (p.1, p.2.map (past.generation + ·))

theorem take_renews {found : Found} (positive : ∀ g, found.generation? = some g → 0 < g) :
    (t.take service found).Renews past (shift past) (t.take service (found.shift past.generation)) := by
  cases found with
  | closed => exact Call.renews_throw _ _
  | cached g token => exact Call.renews_pure _ _
  | flight g => exact (follow_renews coherent t service (positive g rfl)).bind fun token => Call.renews_pure _ _

omit coherent in
theorem checkOpen_renews : checkOpen.Renews past id checkOpen := by
  have slot : (Call.read fun s => s.slot).Renews past (Slot.shift past.generation) (Call.read fun s => s.slot) :=
    Call.renews_read _ fun _ => rfl
  refine slot.bind fun slot => ?_
  cases slot with
  | revoked => exact Call.renews_throw _ _
  | empty => exact Call.renews_pure id ()
  | pending g => exact Call.renews_pure id ()
  | ready g token => exact Call.renews_pure id ()

theorem ensure_renews : t.ensure.Renews past (shift past) t.ensure := by
  cases strategy : t.strategy with
  | signOn service =>
    unfold Call.Renews
    rw [ensure_run strategy]
    refine alike_act (fun s counts => counts.acquire t.margin) (fun s => ?_) fun s counts => ?_
    · rw [past.acquire_before s t.margin]
    · rw [past.acquire_before s t.margin]
      refine take_renews coherent t service fun g found => ?_
      exact counts.acquire t.margin g (acquire_slot t.margin s found)
  | token token =>
    unfold ensure
    rw [strategy]
    exact checkOpen_renews.bind fun _ => Call.renews_pure (shift past) (token, none)
  | basic a =>
    unfold ensure
    rw [strategy]
    exact Call.renews_throw _ _

theorem token_renews : t.token.Renews past id t.token :=
  (ensure_renews coherent t).bind fun p => Call.renews_pure id p.1

end TokenCache

def Credential.shift (past : State) (credential : Credential) : Credential :=
  { credential with generation := credential.generation.map (past.generation + ·) }

theorem TokenCache.credential_renews {past : State} (coherent : past.Coherent) (t : TokenCache) :
    t.credential.Renews past (Credential.shift past) t.credential := by
  unfold credential
  split
  · rename_i a _
    exact checkOpen_renews.bind fun _ => Call.renews_pure (Credential.shift past) {
      authorization := a, generation := none }
  · exact (ensure_renews coherent t).bind fun p => Call.renews_pure (Credential.shift past) {
      authorization := p.1.authorization, generation := p.2 }

namespace Connection
variable {past : State}

theorem ensureOpen_renews : ensureOpen.Renews past id ensureOpen := by
  have closed : (Call.read fun s => s.closed).Renews past id (Call.read fun s => s.closed) :=
    Call.renews_read _ fun _ => rfl
  refine closed.bind fun closed => ?_
  cases closed with
  | true => exact Call.renews_throw _ _
  | false => exact Call.renews_pure id ()

theorem execute_renews (c : Connection) (request : Request) (a : HeaderValue) :
    (c.execute request a).Renews past id (c.execute request a) := by
  unfold Call.Renews
  rw [execute_run]
  refine alike_note (c.announcement request) fun _ _ => alike_send c.client _ fun reply => ?_
  cases readReply c.client reply with
  | error e => exact .done rfl
  | ok response => exact alike_note _ fun _ _ => .done rfl

theorem faultOf_renews (r : Response) : (faultOf r).Renews past id (faultOf r) := by
  have today : (Call.read fun s => s.wire.today).Renews past id (Call.read fun s => s.wire.today) :=
    Call.renews_read _ fun _ => rfl
  exact today.bind fun today => Call.renews_pure id _

theorem failUnauthorized_renews (r : Response) : (failUnauthorized r).Renews past id (failUnauthorized r) :=
  (faultOf_renews r).bind fun _ => Call.renews_throw _ _

theorem checkStatus_renews (r : Response) : (checkStatus r).Renews past id (checkStatus r) := by
  unfold checkStatus
  split
  · exact Call.renews_pure id r
  · exact (faultOf_renews r).bind fun _ => Call.renews_throw _ _

section Send
variable (coherent : past.Coherent) (c : Connection)
include coherent

theorem authorize_renews : c.authorize.Renews past (Credential.shift past) c.authorize :=
  ensureOpen_renews.bind fun _ => c.tokens.credential_renews coherent

theorem authenticate_renews : c.authenticate.Renews past id c.authenticate :=
  ensureOpen_renews.bind fun _ => c.tokens.token_renews coherent

theorem retry_renews (request : Request) (g : Nat) :
    (c.retry request g).Renews past id (c.retry request (past.generation + g)) := by
  have givesUp : (giveUp request g).Alike past.Behind (fun a b => b = a) (giveUp request (past.generation + g)) :=
    alike_note (.refused g request.path) fun _ _ =>
      alike_act (fun s counts => counts.mono (s.slot_invalidate g)) (fun s => past.invalidate_before s g)
        fun _ _ => .done rfl
  refine (Call.renews_ofTask givesUp).bind fun _ => ?_
  refine (authorize_renews coherent c).bind fun second => ?_
  refine (c.execute_renews request second.authorization).bind fun response => ?_
  dsimp only [id]
  split
  · exact failUnauthorized_renews response
  · exact checkStatus_renews response

theorem send_renews (request : Request) : (c.send request).Renews past id (c.send request) := by
  refine (authorize_renews coherent c).bind fun first => ?_
  refine (c.execute_renews request first.authorization).bind fun response => ?_
  dsimp only [id]
  split
  · exact checkStatus_renews response
  · cases generation : first.generation with
    | none =>
      simp only [Credential.shift, generation]
      exact failUnauthorized_renews response
    | some g =>
      simp only [Credential.shift, generation]
      exact retry_renews coherent c request g

end Send
end Connection

/-! ### Acts go alike with and without a past -/

theorem SignOn.revocationEvent_shift (k limit : Nat) (reply : Except ClientError Reply) :
    (revocationEvent limit reply).shift k = revocationEvent limit reply := by
  unfold revocationEvent
  grind [LogEvent.shift]

theorem TokenCache.noteRevocation_alike (past : State) (c : Client) (reply : Except ClientError Reply) :
    (noteRevocation c reply).Alike past.Behind (fun a b => b = a) (noteRevocation c reply) := by
  have plain := SignOn.revocationEvent_shift past.generation c.settings.maxBodySize reply
  refine alike_act (fun _ counts => counts) (fun s => ?_) fun _ _ => .done rfl
  have noted := past.note_before s (SignOn.revocationEvent c.settings.maxBodySize reply)
  rwa [plain] at noted

theorem TokenCache.revoke_alike (past : State) (t : TokenCache) :
    t.revoke.Alike past.Behind (fun a b => b = a) t.revoke := by
  rw [revoke_run]
  refine alike_act ?_ (fun s => by rw [past.revoke_before s]) fun s _ => ?_
  · rintro s counts g ⟨⟩
  · have shifted : (past.before s).slot = s.slot.shift past.generation := rfl
    rw [shifted]
    cases t.strategy with
    | token _ | basic _ => exact .done rfl
    | signOn service =>
      cases s.slot with
      | ready g token => exact alike_send _ _ (noteRevocation_alike past _)
      | pending g => exact alike_note (.flightDiscarded g) fun _ _ => .done rfl
      | empty | revoked => exact .done rfl

theorem Connection.close_alike (past : State) (c : Connection) :
    c.close.Alike past.Behind (fun a b => b = a) c.close := by
  rw [close_run]
  refine alike_act (fun _ counts => counts) (fun _ => rfl) fun s _ => ?_
  have closed : (past.before s).closed = s.closed := rfl
  rw [closed]
  split
  · exact .done rfl
  · refine (c.tokens.revoke_alike past).andThen fun _ _ _ => ?_
    have shuts : ∀ s, (past.before s).setWire (Client.shut (past.before s).wire) =
        past.before (s.setWire (Client.shut s.wire)) := by
      intro s
      have shut : Client.shut (past.before s).wire =
          (Client.shut s.wire).retold (LogEvent.shift past.generation) past.wire.log := Client.shut_retold rfl
      rw [shut]
      rfl
    refine alike_act (fun _ counts => counts) shuts fun _ _ => ?_
    exact alike_note (.closed _) fun _ _ => .done rfl

/-- A change outside leaves the log alone and does not look at it. -/
def Act.SparesLog : Act → Prop
  | .outside change => ∀ w log, change { w with log } = { change w with log }
  | _ => True

theorem Act.task_alike {past : State} (coherent : past.Coherent) (c : Connection) {act : Act} (spares : act.SparesLog) :
    (act.task c).Alike past.Behind (fun a b => b = a) (act.task c) := by
  have maps : ∀ {α β γ : Type} {t : Task State α} {u : Task State β} {post : α → β → Prop} (f : α → γ) (g : β → γ),
      t.Alike past.Behind post u → (∀ a b, post a b → g b = f a) →
        (t.andThen fun a => done (f a)).Alike past.Behind (fun a b => b = a) (u.andThen fun b => done (g b)) :=
    fun f g alike same => alike.andThen fun a b related => .done (same a b related)
  cases act with
  | close => exact maps _ _ (c.close_alike past) fun _ _ _ => rfl
  | outside change =>
    have changed : ∀ s, (past.before s).setWire (change (past.before s).wire) =
        past.before (s.setWire (change s.wire)) := by
      intro s
      have log : (change s.wire).log = s.wire.log := by
        have same : change s.wire = { change s.wire with log := s.wire.log } := spares s.wire s.wire.log
        rw [same]
      have retold : change (past.before s).wire =
          (change s.wire).retold (LogEvent.shift past.generation) past.wire.log := by
        rw [Wire.retold, log]
        exact spares s.wire _
      rw [retold]
      rfl
    exact maps _ _ (alike_update past (fun _ counts => counts) changed) fun _ _ _ => rfl
  | call entry =>
    have run : (Act.call entry).task c = (entry.call c).run := rfl
    rw [run, entry.call_run c]
    split
    · refine maps _ _ (Connection.authenticate_renews coherent c) ?_
      rintro r _ rfl
      cases r <;> rfl
    · refine maps _ _ (Connection.send_renews coherent c _) ?_
      rintro r _ rfl
      cases r <;> rfl
    · exact .done rfl

/-! ### After a failed exchange -/

/-- If the last flight has failed, all that a state between calls holds lies in the past. -/
theorem State.Rests.past_of_failed {s : State} (rests : s.Rests) (failed : s.result? s.generation = some (.error e)) :
    s = s.before s.renewed := by
  have empty : s.slot = .empty := by
    rcases rests.slot with empty | ⟨g, token, ready, _⟩
    · exact empty
    · obtain ⟨rfl, brought⟩ := rests.coherent.ready ready
      cases failed.symm.trans brought
  have opened := rests.opened
  obtain ⟨wire, slot, generation, flights, closed, asked⟩ := s
  cases empty
  cases opened
  simp [State.before, State.renewed, Slot.shift, Wire.retold]

section Play
variable {past s : State} (coherent : past.Coherent) (counts : s.Counts) (c : Connection)
include coherent counts

theorem Connection.play_before {acts : List Act} (spares : ∀ act ∈ acts, act.SparesLog) :
    c.play acts (past.before s) = ((c.play acts s).1, past.before (c.play acts s).2) := by
  induction acts generalizing s with
  | nil => rfl
  | cons act acts ih =>
    obtain ⟨own, others⟩ := List.forall_mem_cons.mp spares
    obtain ⟨value, counts', left⟩ := (act.task_alike coherent c own).run ⟨counts, rfl⟩
    rw [play_cons, play_cons, left, ih counts' others, value]

theorem Connection.mingle_before {acts : Nat → Act} (spares : ∀ i, (acts i).SparesLog) (turns : Nat → Turn) (n : Nat) :
    ((c.mingle acts s turns).pool n).Alike past.Behind (fun a b => b = a)
      ((c.mingle acts (past.before s) turns).pool n) := by
  refine Pool.Alike.pool ⟨⟨counts, rfl⟩, fun i => ?_⟩ turns n
  exact .inr ⟨_, _, rfl, rfl, (acts i).task_alike coherent c (spares i)⟩

end Play

/-! ### After a failed request -/

namespace Connection
variable {c : Connection} {s s₁ s₂ s₃ s₄ : State}

theorem execute_keeps_token (executed : (c.execute request a).alone s = (reply, s')) :
    s'.slot = s.slot ∧ s'.generation = s.generation := by
  rw [execute_alone] at executed
  cases executed
  exact ⟨rfl, rfl⟩

theorem send_unrefused (authorized : c.authorize.alone s = (.ok first, s₁))
    (executed : (c.execute request first.authorization).alone s₁ = (reply, s₂))
    (unrefused : ∀ response, reply = .ok response → response.status ≠ .unauthorized) :
    ((c.send request).alone s).2 = s₂ := by
  unfold send
  rw [Call.alone_ok authorized]
  cases reply with
  | error e => rw [Call.alone_error executed]
  | ok response =>
    have other := unrefused response rfl
    rw [Call.alone_ok executed, if_pos other, checkStatus_alone other]

theorem send_refused (authorized : c.authorize.alone s = (.ok first, s₁))
    (executed : (c.execute request first.authorization).alone s₁ = (.ok response, s₂))
    (refused : response.status = .unauthorized) (generation : first.generation = some g)
    (again : c.authorize.alone ((s₂.note (.refused g request.path)).invalidate g) = (.ok second, s₃))
    (executed' : (c.execute request second.authorization).alone s₃ = (reply, s₄)) :
    ((c.send request).alone s).2 = s₄ := by
  have givenUp : (Call.ofTask (giveUp request g)).alone s₂ =
      (.ok (), (s₂.note (.refused g request.path)).invalidate g) := rfl
  unfold send
  rw [Call.alone_ok authorized, Call.alone_ok executed, if_neg (not_not_intro refused), generation]
  dsimp only
  unfold retry
  rw [Call.alone_ok givenUp, Call.alone_ok again, decide_alone]
  rw [execute_alone] at executed'
  exact congrArg Prod.snd executed'

end Connection

/-- Once the last exchange for a token has failed, a connection that is not closed goes on as one that is new at the
same time, whatever is done next, in order or by turns: it gives the same, exchanges the same and logs the same, but for
generations and what lies in the past. And an exchange of a request that is not refused leaves the token and its
generation as they were when it began. -/
theorem failed_exchange_changes_nothing (c : Connection) (acts : List Act) (opened : Act.close ∉ acts) (w : Wire) :
    let s := (c.play acts { wire := w }).2
    (∀ e, s.result? s.generation = some (.error e) →
      (∀ later, (∀ act ∈ later, act.SparesLog) → (c.play later s).1 = (c.play later s.renewed).1 ∧
        (c.play later s).2 = s.before (c.play later s.renewed).2) ∧
      ∀ later, (∀ i, (later i).SparesLog) → ∀ turns n,
        (c.mingle later s turns).state n = s.before ((c.mingle later s.renewed turns).state n) ∧
        ∀ i, ((c.mingle later s turns).task i n).map Task.value? =
          ((c.mingle later s.renewed turns).task i n).map Task.value?) ∧
    (∀ request first s₁ reply s₂, c.authorize.alone s = (.ok first, s₁) →
      (c.execute request first.authorization).alone s₁ = (reply, s₂) →
      (∀ response, reply = .ok response → response.status ≠ .unauthorized) →
      ((c.send request).alone s).2 = s₂ ∧ s₂.slot = s₁.slot ∧ s₂.generation = s₁.generation) ∧
    ∀ request first s₁ response s₂ g second s₃ reply s₄, c.authorize.alone s = (.ok first, s₁) →
      (c.execute request first.authorization).alone s₁ = (.ok response, s₂) → response.status = .unauthorized →
      first.generation = some g →
      c.authorize.alone ((s₂.note (.refused g request.path)).invalidate g) = (.ok second, s₃) →
      (c.execute request second.authorization).alone s₃ = (reply, s₄) →
      ((c.send request).alone s).2 = s₄ ∧ s₄.slot = s₃.slot ∧ s₄.generation = s₃.generation := by
  intro s
  have rests : s.Rests := c.play_rests (.initial w) opened
  refine ⟨?_, ?_, ?_⟩
  · intro e failed
    have counts : s.renewed.Counts := by rintro g ⟨⟩
    have past := rests.past_of_failed failed
    constructor
    · intro later spares
      have same := c.play_before rests.coherent counts spares
      rw [← past] at same
      rw [same]
      exact ⟨rfl, rfl⟩
    · intro later spares turns n
      have alike := c.mingle_before rests.coherent counts spares turns n
      rw [← past] at alike
      exact ⟨alike.state.2, alike.value⟩
  · intro request first s₁ reply s₂ authorized executed unrefused
    exact ⟨Connection.send_unrefused authorized executed unrefused, Connection.execute_keeps_token executed⟩
  · intro request first s₁ response s₂ g second s₃ reply s₄ authorized executed refused generation again executed'
    exact ⟨Connection.send_refused authorized executed refused generation again executed',
      Connection.execute_keeps_token executed'⟩

def Sample.asking : List Act := [.outside (Wire.advance (.seconds 1)), .call .authenticate]

/-- A connection on which an exchange for a token has just failed, since nothing could be reached. -/
def Sample.failed : State := (Sample.connection.play Sample.asking { wire := { network := .closedOff } }).2

theorem failed_exchange_changes_nothing_unreachable :
    Act.close ∉ Sample.asking ∧ (∃ e, Sample.failed.result? Sample.failed.generation = some (.error e)) ∧
    (∀ act ∈ Sample.asking, act.SparesLog) ∧
    (Sample.connection.play Sample.asking Sample.failed).1 =
      (Sample.connection.play Sample.asking Sample.failed.renewed).1 ∧
    (Sample.connection.play Sample.asking Sample.failed).2.wire.log = Sample.failed.wire.log ++
      (Sample.connection.play Sample.asking Sample.failed.renewed).2.wire.log.map (LogEvent.shift 1) := by
  have opened : Act.close ∉ Sample.asking := by simp [Sample.asking]
  have failed : Sample.failed.result? Sample.failed.generation = some (.error (.ofClient (.transport
      [.described "client error (Connect)", .io .permissionDenied]))) := by decide +kernel
  have played : (Sample.connection.play Sample.asking { wire := { network := .closedOff } }).2 = Sample.failed := rfl
  have renewal := failed_exchange_changes_nothing Sample.connection Sample.asking opened { network := .closedOff }
  dsimp only at renewal
  rw [played] at renewal
  have spares : ∀ act ∈ Sample.asking, act.SparesLog := by simp [Sample.asking, Act.SparesLog, Wire.advance]
  obtain ⟨values, left⟩ := (renewal.1 _ failed).1 Sample.asking spares
  exact ⟨opened, ⟨_, failed⟩, spares, values, by rw [left]; rfl⟩

end EngineClient
