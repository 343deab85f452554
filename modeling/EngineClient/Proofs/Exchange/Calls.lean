import EngineClient.Proofs.Alone.Send
import EngineClient.Proofs.Exchange.Course

/-!
# Requests put together by calls

A request is put together by calls and then sent. A header that is none spoils it for good: the first such header is
what is reported, by the next form or by the send. Of a request that is not spoiled the first check that fails is
reported. In all these cases nothing is handed over.
-/

namespace EngineClient
open EngineClient.Task

namespace Draft

inductive Call
  | header (name value : String)
  | addHeader (name : HeaderName) (value : HeaderValue)
  | addHeaders (headers : List Header)
  | form (fields : List Text.Form.Field)
  | withBody (bytes : Bytes)

namespace Call

/-- What is wrong with a call: a name that is none, or else a value that is none. -/
def defect? : Call → Option ClientError
  | header name value =>
    if !isHeaderName (Text.lower name.toList) then some .headerName
    else if !(Text.utf8 value).all isValueByte then some .headerValue
    else none
  | _ => none

def headers : Call → List Header
  | header name value => match HeaderName.parse? name, HeaderValue.parse? value with
    | .ok name, .ok value => [(name, value)]
    | _, _ => []
  | addHeader name value => [(name, value)]
  | addHeaders headers => headers
  | form _ | withBody _ => []

def body? : Call → Option DraftBody
  | form fields => some (.form (Text.encode (Text.Form.render fields)))
  | withBody bytes => some (.bytes bytes)
  | _ => none

theorem kind_of_defect {call : Call} (defect : call.defect? = some e) : e.kind? = none := by
  cases call with
  | header name value =>
    rw [defect?] at defect
    split at defect
    · cases defect
      rfl
    · split at defect
      · cases defect
        rfl
      · cases defect
  | addHeader | addHeaders | form | withBody => cases defect

end Call

def take (d : Draft) : Call → Except ClientError Draft
  | .header name value => .ok (d.header name value)
  | .addHeader name value => .ok (d.addHeader name value)
  | .addHeaders headers => .ok (d.addHeaders headers)
  | .form fields => d.form fields
  | .withBody bytes => .ok (d.withBody bytes)

/-- What calls make of a draft if nothing is wrong with them: all headers are added, and the last body counts. -/
def after (d : Draft) (calls : List Call) : Draft :=
  { d with
    headers := d.headers ++ calls.flatMap Call.headers
    body := (calls.filterMap Call.body?).getLast?.getD d.body }

variable {d : Draft} {call : Call} {calls : List Call}

theorem after_cons (d : Draft) (call : Call) (calls : List Call) :
    d.after (call :: calls) = (d.after [call]).after calls := by
  cases body : call.body? with
  | none => simp [after, body]
  | some b => simp [after, body, List.getLast?_cons]

/-! ### What a call does -/

theorem header_eq (whole : d.spoiled = none) (name value : String) :
    d.header name value = match (Call.header name value).defect? with
      | some e => { d with spoiled := some e }
      | none => d.after [.header name value] := by
  have going : ¬ d.spoiled.isSome = true := by simp [whole]
  unfold header Call.defect?
  rw [if_neg going]
  unfold HeaderName.parse?
  dsimp only
  by_cases named : isHeaderName (Text.lower name.toList) = true
  · unfold HeaderValue.parse? HeaderValue.parseBytes?
    by_cases clean : (Text.utf8 value).all isValueByte = true
    · simp [named, clean, after, Call.headers, Call.body?, HeaderName.parse?, HeaderValue.parse?,
        HeaderValue.parseBytes?]
    · simp [named, clean, ClientError.ofHeader]
  · simp [named, ClientError.ofHeader]

theorem take_of_sound (whole : d.spoiled = none) (sound : call.defect? = none) : d.take call = .ok (d.after [call]) := by
  cases call with
  | header name value => rw [take, header_eq whole, sound]
  | addHeader name value => simp [take, addHeader, addHeaders, after, Call.headers, Call.body?]
  | addHeaders headers => simp [take, addHeaders, after, Call.headers, Call.body?]
  | form fields => simp [take, form, whole, after, Call.headers, Call.body?]
  | withBody bytes => simp [take, withBody, after, Call.headers, Call.body?]

theorem take_of_defect (whole : d.spoiled = none) (defect : call.defect? = some e) :
    d.take call = .ok { d with spoiled := some e } := by
  cases call with
  | header name value => rw [take, header_eq whole, defect]
  | addHeader | addHeaders | form | withBody => cases defect

/-- Of a spoiled draft a form reports what has spoiled it; any other call leaves it spoiled. -/
theorem take_of_spoiled (spoiled : d.spoiled = some e) (call : Call) :
    (∃ fields, call = .form fields) ∧ d.take call = .error e ∨
    (∀ fields, call ≠ .form fields) ∧ ∃ d', d.take call = .ok d' ∧ d'.spoiled = some e := by
  cases call with
  | form fields => exact .inl ⟨⟨fields, rfl⟩, by rw [take, form, spoiled]⟩
  | header name value =>
    refine .inr ⟨nofun, _, rfl, ?_⟩
    rw [header, if_pos (by rw [spoiled]; rfl)]
    exact spoiled
  | addHeader | addHeaders | withBody => exact .inr ⟨nofun, _, rfl, spoiled⟩

/-! ### What calls do -/

theorem foldlM_of_sound (whole : d.spoiled = none) (sound : ∀ call ∈ calls, call.defect? = none) :
    calls.foldlM take d = .ok (d.after calls) := by
  induction calls generalizing d with
  | nil => simp [after, pure, Except.pure]
  | cons call calls ih =>
    obtain ⟨first, rest⟩ := List.forall_mem_cons.mp sound
    rw [List.foldlM_cons, take_of_sound whole first, after_cons d call calls]
    exact ih whole rest

theorem foldlM_of_spoiled (spoiled : d.spoiled = some e) (calls : List Call) :
    (∃ fields, .form fields ∈ calls) ∧ calls.foldlM take d = .error e ∨
    (∀ fields, .form fields ∉ calls) ∧ ∃ d', calls.foldlM take d = .ok d' ∧ d'.spoiled = some e := by
  induction calls generalizing d with
  | nil => exact .inr ⟨fun _ => List.not_mem_nil, d, rfl, spoiled⟩
  | cons call calls ih =>
    rw [List.foldlM_cons]
    rcases take_of_spoiled spoiled call with ⟨⟨fields, rfl⟩, fails⟩ | ⟨other, d', taken, spoiled'⟩
    · rw [fails]
      exact .inl ⟨⟨fields, List.mem_cons_self⟩, rfl⟩
    · rw [taken]
      rcases ih spoiled' with ⟨⟨fields, later⟩, fails⟩ | ⟨none, rest⟩
      · exact .inl ⟨⟨fields, List.mem_cons_of_mem _ later⟩, fails⟩
      · refine .inr ⟨fun fields member => ?_, rest⟩
        rcases List.mem_cons.mp member with rfl | later
        · exact other fields rfl
        · exact none fields later

/-- The first call with a defect is `call`. -/
structure FirstDefect (calls before : List Call) (call : Call) (rest : List Call) (e : ClientError) : Prop where
  parts : calls = before ++ call :: rest
  sound : ∀ x ∈ before, x.defect? = none
  defect : call.defect? = some e

theorem sound_or_first (calls : List Call) :
    (∀ call ∈ calls, call.defect? = none) ∨ ∃ before call rest e, FirstDefect calls before call rest e := by
  cases found : calls.findSome? Call.defect? with
  | none => exact .inl (List.findSome?_eq_none_iff.mp found)
  | some e =>
    obtain ⟨before, call, rest, parts, defect, sound⟩ := List.findSome?_eq_some_iff.mp found
    exact .inr ⟨before, call, rest, e, parts, sound, defect⟩

theorem foldlM_of_first (whole : d.spoiled = none) (first : FirstDefect calls before call rest e) :
    (∃ fields, .form fields ∈ rest) ∧ calls.foldlM take d = .error e ∨
    (∀ fields, .form fields ∉ rest) ∧ ∃ d', calls.foldlM take d = .ok d' ∧ d'.spoiled = some e := by
  rw [first.parts, List.foldlM_append, foldlM_of_sound whole first.sound]
  have spoils := take_of_defect (d := d.after before) whole first.defect
  change _ ∧ (d.after before).take call >>= (fun d' => rest.foldlM take d') = _ ∨
    _ ∧ ∃ d', (d.after before).take call >>= (fun d' => rest.foldlM take d') = _ ∧ _
  rw [spoils]
  exact foldlM_of_spoiled rfl rest

/-! ### The checks of a draft -/

/-- The first check that a draft fails: that of its URL, that it can be put together, that the client is open. -/
inductive Fails (security : Security) (isOpen : Bool) (d : Draft) : ClientError → Prop
  | url (bad : target? security d.url = .error e) : Fails security isOpen d e
  | headers (good : target? security d.url = .ok uri) (many : HeaderMap.ofListWithin? d.allHeaders = none) :
    Fails security isOpen d (.build .tooManyHeaders)
  | closed (good : target? security d.url = .ok uri) (fits : HeaderMap.ofListWithin? d.allHeaders = some m)
    (shut : isOpen = false) : Fails security isOpen d .closed

theorem kind_of_target {url : String} (bad : target? security url = .error e) : e.kind? = none := by
  unfold target? at bad
  split at bad
  · cases bad
    rfl
  · split at bad
    · cases bad
      rfl
    · split at bad
      · cases bad
        rfl
      · cases bad
      · split at bad
        · cases bad
        · cases bad
          rfl
      · cases bad
        rfl

theorem Fails.kind (fails : d.Fails security isOpen e) : e.kind? = none := by
  cases fails with
  | url bad => exact kind_of_target bad
  | headers | closed => rfl

theorem clear_of_spoiled (c : Client) (spoiled : d.spoiled = some e) (w : Wire) : c.clear d w = .error e := by
  rw [Client.clear, prepare, spoiled]
  rfl

theorem clear_eq_error_iff (c : Client) (whole : d.spoiled = none) (w : Wire) :
    c.clear d w = .error e ↔ d.Fails c.settings.security w.isOpen e := by
  unfold Client.clear prepare
  rw [whole]
  constructor
  · intro refused
    cases located : target? c.settings.security d.url with
    | error e' =>
      rw [located] at refused
      cases refused
      exact .url located
    | ok uri =>
      rw [located] at refused
      cases within : HeaderMap.ofListWithin? d.allHeaders with
      | none =>
        rw [within] at refused
        cases refused
        exact .headers located within
      | some m =>
        rw [within] at refused
        cases isOpen : w.isOpen with
        | false =>
          rw [isOpen] at refused
          cases refused
          exact .closed located within rfl
        | true =>
          rw [isOpen] at refused
          cases refused
  · rintro (bad | ⟨good, many⟩ | ⟨good, fits, shut⟩)
    · rw [bad]
      rfl
    · rw [good, many]
      rfl
    · rw [good, fits, shut]
      rfl

/-- A draft that can leave has a URL that can be requested, and its client is open. -/
theorem passed_of_clear {c : Client} (cleared : c.clear d w = .ok o) :
    (∃ uri, target? c.settings.security d.url = .ok uri) ∧ w.isOpen = true := by
  refine ⟨⟨o.uri, (Client.outbound_eq_ok (Client.outbound_of_clear cleared)).1⟩, ?_⟩
  unfold Client.clear at cleared
  split at cleared
  · cases cleared
  · split at cleared
    · assumption
    · cases cleared

end Draft

namespace Client

def request (c : Client) (method : Method) (url : String) (calls : List Draft.Call) :
    Task Wire (Except ClientError Reply) :=
  match calls.foldlM Draft.take { method, url } with
  | .error e => done (.error e)
  | .ok d => c.send d

variable {c : Client} {method : Method} {url : String} {calls : List Draft.Call}
variable {f : Except ClientError Reply → α} {r : Run Wire α}

theorem request_of_sound (sound : ∀ call ∈ calls, call.defect? = none) :
    c.request method url calls = c.send (Draft.after { method, url } calls) := by
  rw [request, Draft.foldlM_of_sound rfl sound]

/-- A request with a defect is over as soon as a form reports it, or it is a send of a draft that is spoiled. -/
theorem request_of_first (c : Client) (method : Method) (url : String)
    (first : Draft.FirstDefect calls before call rest e) :
    c.request method url calls = done (.error e) ∨ ∃ d, c.request method url calls = c.send d ∧ d.spoiled = some e := by
  unfold request
  rcases Draft.foldlM_of_first (d := { method, url }) rfl first with ⟨_, fails⟩ | ⟨_, d, put, spoiled⟩
  · rw [fails]
    exact .inl rfl
  · rw [put]
    exact .inr ⟨d, rfl, spoiled⟩

theorem defect_turns (start : r.task i 0 = some ((c.request method url calls).andThen fun x => done (f x)))
    (first : Draft.FirstDefect calls before call rest e) (later : r.task i n = some u) :
    r.Idle i 0 n ∧ (r.Rests i 0 n ∧ u.value? = none ∨ u = done (f (.error e))) := by
  rcases request_of_first c method url first with ended | ⟨d, sends, spoiled⟩
  · rw [ended] at start
    obtain ⟨rfl, idle⟩ := Run.idle_of_done start (Nat.zero_le n) later
    exact ⟨idle, .inr rfl⟩
  · rw [sends] at start
    exact (send_course start later).of_refused fun k _ _ => Draft.clear_of_spoiled c spoiled (r.state k)

theorem sound_of_begins (start : r.task i 0 = some ((c.request method url calls).andThen fun x => done (f x)))
    (begins : c.Begins r i l) : ∀ call ∈ calls, call.defect? = none := by
  rcases Draft.sound_or_first calls with sound | ⟨before, call, rest, e, first⟩
  · exact sound
  obtain ⟨_, o, k, task⟩ := begins
  rcases request_of_first c method url first with ended | ⟨d, sends, spoiled⟩
  · rw [ended] at start
    cases (Run.idle_of_done start (Nat.zero_le l) task).1
  · rw [sends] at start
    obtain ⟨k, _, _, clears, _⟩ := (send_course start task).begins rfl
    cases clears.cleared.symm.trans (Draft.clear_of_spoiled c spoiled _)

/-- A request without a defect is the send of a draft that no call has spoiled. -/
theorem sends_of_sound (start : r.task i 0 = some ((c.request method url calls).andThen fun x => done (f x)))
    (sound : ∀ call ∈ calls, call.defect? = none) :
    r.task i 0 = some ((c.send (Draft.after { method, url } calls)).andThen fun x => done (f x)) := by
  rw [start, request_of_sound sound]

theorem sent_of_request (start : r.task i 0 = some ((c.request method url calls).andThen fun x => done (f x)))
    (turn : r.turns l = .step i) (other : ¬ c.Begins r i l) : (r.state (l + 1)).sent = (r.state l).sent := by
  rcases Draft.sound_or_first calls with sound | ⟨before, call, rest, e, first⟩
  · exact sent_of_not_begins (sends_of_sound start sound) turn other
  · rcases r.state_succ l with same | ⟨j, t, t', turn', task, step⟩
    · rw [same]
    obtain rfl := Turn.step.inj (turn'.symm.trans turn)
    obtain ⟨idle, _⟩ := defect_turns start first (Run.task_step turn task step).1
    rw [idle l (Nat.zero_le l) (Nat.lt_succ_self l) turn]

section Checks
variable (start : r.task i 0 = some ((c.request method url calls).andThen fun x => done (f x)))
    (sound : ∀ call ∈ calls, call.defect? = none) (first : r.First i 0 k)
include start sound first

theorem request_fails (fails : (Draft.after { method, url } calls).Fails c.settings.security (r.state k).isOpen e)
    (lt : k < n) (later : r.task i n = some u) : r.Idle i 0 n ∧ u = done (f (.error e)) := by
  have refuses : ∀ l, r.First i 0 l → l < n →
      c.clear (Draft.after { method, url } calls) (r.state l) = .error e := by
    intro l first' _
    obtain rfl := first.unique first'
    exact (Draft.clear_eq_error_iff c rfl _).mpr fails
  obtain ⟨idle, ⟨rests, _⟩ | ended⟩ := (send_course (sends_of_sound start sound) later).of_refused refuses
  · exact (rests k first.since lt first.turn).elim
  · exact ⟨idle, ended⟩

theorem request_passes
    (passes : ∀ e, ¬ (Draft.after { method, url } calls).Fails c.settings.security (r.state k).isOpen e)
    (kept : ∀ l < k, r.turns l ≠ .drop i) : ∃ o, r.task i (k + 1) = some ((c.exchange o).andThen fun x => done (f x)) := by
  have sends := sends_of_sound start sound
  rw [send_run] at sends
  have task := Run.task_first (fun _ => rfl) sends first kept
  dsimp only at task
  cases cleared : c.clear (Draft.after { method, url } calls) (r.state k) with
  | error e => exact (passes e ((Draft.clear_eq_error_iff c rfl _).mp cleared)).elim
  | ok o =>
    rw [cleared] at task
    exact ⟨o, task⟩

end Checks

end Client

/-- A request reaches the transport once at most, by one turn of its task; no other turn of the task hands anything
over. It does so only if no call has given a header that is none, its URL can be requested, and the client was open at
its first turn. If a call has given such a header, the first one is what the request ends with, its name before its
value, whatever calls follow; a form that follows reports it. Otherwise the first check that fails at the first turn is
what it ends with, and it goes on to the transport if none fails. None of these errors counts as a failure of the
network. -/
theorem local_errors_stay_local {c : Client} {f : Except ClientError Reply → α} {r : Run Wire α}
    (start : r.task i 0 = some ((c.request method url calls).andThen fun x => done (f x))) :
    (∀ l m, c.Begins r i l → c.Begins r i m → l = m) ∧
    (∀ l, r.turns l = .step i → ¬ c.Begins r i l → (r.state (l + 1)).sent = (r.state l).sent) ∧
    (∀ l, c.Begins r i l → (∀ call ∈ calls, call.defect? = none) ∧
      (∃ uri, Draft.target? c.settings.security url = .ok uri) ∧
      ∃ k, r.First i 0 k ∧ r.First i (k + 1) l ∧ (r.state k).isOpen = true) ∧
    (∀ before call rest e, Draft.FirstDefect calls before call rest e → e.kind? = none ∧
      ((∃ fields, .form fields ∈ rest) → calls.foldlM Draft.take { method, url } = .error e) ∧
      ∀ n u, r.task i n = some u → r.Idle i 0 n ∧ (r.Rests i 0 n ∧ u.value? = none ∨ u = done (f (.error e)))) ∧
    ((∀ call ∈ calls, call.defect? = none) → ∀ k, r.First i 0 k →
      (∀ e, (Draft.after { method, url } calls).Fails c.settings.security (r.state k).isOpen e → e.kind? = none ∧
        ∀ n u, k < n → r.task i n = some u → r.Idle i 0 n ∧ u = done (f (.error e))) ∧
      ((∀ e, ¬ (Draft.after { method, url } calls).Fails c.settings.security (r.state k).isOpen e) →
        (∀ l < k, r.turns l ≠ .drop i) →
          ∃ o, r.task i (k + 1) = some ((c.exchange o).andThen fun x => done (f x)))) := by
  refine ⟨fun l m begins begins' => ?_, fun l turn other => Client.sent_of_request start turn other, fun l begins => ?_,
    fun before call rest e first => ⟨Draft.Call.kind_of_defect first.defect, fun formed => ?_, fun n u later => ?_⟩,
    fun sound k first => ⟨fun e fails => ⟨fails.kind, fun n u lt later => ?_⟩, fun passes kept => ?_⟩⟩
  · have sound := Client.sound_of_begins start begins
    exact Client.begins_once (Client.sends_of_sound start sound) begins begins'
  · have sound := Client.sound_of_begins start begins
    obtain ⟨k, o, clears, next⟩ := Client.clears_of_begins (Client.sends_of_sound start sound) begins
    obtain ⟨located, isOpen⟩ := Draft.passed_of_clear clears.cleared
    exact ⟨sound, located, k, clears.first, next, isOpen⟩
  · rcases Draft.foldlM_of_first (d := { method, url }) rfl first with ⟨_, fails⟩ | ⟨unformed, _⟩
    · exact fails
    · obtain ⟨fields, member⟩ := formed
      exact (unformed fields member).elim
  · exact Client.defect_turns start first later
  · exact Client.request_fails start sound first fails lt later
  · exact Client.request_passes start sound first passes kept

namespace Sample

def calling (calls : List Draft.Call) : Run Wire (Except ClientError Reply) where
  start :=
    { tasks := fun i => if i = 0 then some ((client.request .get "https://e/x" calls).andThen done) else none
      state := { network := fun _ _ => .silent } }
  turns _ := .step 0

end Sample

/-- A name and a value that are none, and the name is reported, by the form that follows; without calls the request
goes on to the transport. -/
theorem local_errors_stay_local_name :
    [Draft.Call.header "A" "1", .header "b d" "\n", .header "c" "\n", .form []].foldlM Draft.take
      { method := .get, url := "https://e/x" } = .error .headerName ∧
    (∀ l, ¬ Sample.client.Begins
      (Sample.calling [.header "A" "1", .header "b d" "\n", .header "c" "\n", .form []]) 0 l) ∧
    ∃ o, (Sample.calling []).task 0 1 = some ((Sample.client.exchange o).andThen done) := by
  have first : Draft.FirstDefect [.header "A" "1", .header "b d" "\n", .header "c" "\n", .form []] [.header "A" "1"]
      (.header "b d" "\n") [.header "c" "\n", .form []] .headerName :=
    ⟨rfl, by decide +kernel, by decide +kernel⟩
  obtain ⟨_, _, only, spoils, _⟩ := local_errors_stay_local (c := Sample.client) (f := id) (i := 0)
    (r := Sample.calling [.header "A" "1", .header "b d" "\n", .header "c" "\n", .form []]) rfl
  obtain ⟨_, _, _, _, checks⟩ :=
    local_errors_stay_local (c := Sample.client) (f := id) (i := 0) (r := Sample.calling []) rfl
  refine ⟨(spoils _ _ _ _ first).2.1 ⟨[], by simp⟩, fun l begins => ?_, ?_⟩
  · have sound := (only l begins).1 (.header "b d" "\n") (by simp)
    cases sound.symm.trans first.defect
  · have turn : (Sample.calling []).First 0 0 0 := ⟨Nat.le_refl 0, fun l _ lt => by omega, rfl⟩
    refine (checks (fun call member => by cases member) 0 turn).2 (fun e fails => ?_) fun l lt => by omega
    have refused : Sample.client.clear { method := .get, url := "https://e/x" } ((Sample.calling []).state 0) = .error e :=
      (Draft.clear_eq_error_iff Sample.client rfl _).mpr fails
    have passes : (Sample.client.clear { method := .get, url := "https://e/x" }
      ((Sample.calling []).state 0)).toBool = true := by decide +kernel
    rw [refused] at passes
    cases passes

end EngineClient
