import EngineClient.Proofs.Reach.Shown
import EngineClient.Proofs.Secrecy.Paired
import EngineClient.Proofs.Text.Form
import Mathlib.Data.List.Forall2

/-!
# What a log shows of headers

Headers are logged one by one, in the order of their map, and each shows its value or a mark in its place. Requests and
responses that differ in marked values only are therefore logged alike, whatever else is under way. Of a body nothing is
logged but its length, and no value has a character that ends a line.
-/

namespace EngineClient
open Text EngineClient.Task

/-! ### Values that are hidden -/

/-- Values of a name that no log tells apart: they are the same, or both are hidden. -/
def HeaderName.Masks (n : HeaderName) (v v' : HeaderValue) : Prop :=
  v' = v ∨ n.carriesCredentials = true ∨ v.sensitive = true ∧ v'.sensitive = true

/-- The same names in the same order, with as many values each, that differ where they are hidden only. -/
def HeaderMap.ButSecrets (m m' : HeaderMap) : Prop :=
  List.Forall₂ (fun g g' => g'.1 = g.1 ∧ List.Forall₂ g.1.Masks g.2 g'.2) m.groups m'.groups

/-- What a log shows of a header. -/
def Header.shown (h : Header) : String :=
  h.1.text ++ ": " ++ if h.1.carriesCredentials || h.2.sensitive then Secret.mark else h.2.text?.getD "<binary>"

namespace HeaderMap
variable {m m' : HeaderMap}

theorem render_eq (m : HeaderMap) : m.render = ", ".intercalate (m.toList.map Header.shown) := rfl

theorem shown_of_masks {n : HeaderName} {v v' : HeaderValue} (masks : n.Masks v v') :
    Header.shown (n, v') = Header.shown (n, v) := by
  unfold Header.shown
  rcases masks with rfl | named | ⟨marked, marked'⟩
  · rfl
  · simp only [named, Bool.true_or, if_true]
  · simp only [marked, marked', Bool.or_true, if_true]

theorem shown_values {n : HeaderName} {vs vs' : List HeaderValue} (masks : List.Forall₂ n.Masks vs vs') :
    (vs'.map fun v => Header.shown (n, v)) = vs.map fun v => Header.shown (n, v) := by
  induction masks with
  | nil => rfl
  | cons first _ ih => rw [List.map_cons, List.map_cons, shown_of_masks first, ih]

theorem render_of_butSecrets (alike : m.ButSecrets m') : m'.render = m.render := by
  have lines : m'.toList.map Header.shown = m.toList.map Header.shown := by
    unfold ButSecrets at alike
    unfold toList
    rw [List.map_flatMap, List.map_flatMap]
    generalize m.groups = gs at alike ⊢
    generalize m'.groups = gs' at alike ⊢
    induction alike with
    | nil => rfl
    | cons first _ ih =>
      obtain ⟨name, values⟩ := first
      rw [List.flatMap_cons, List.flatMap_cons, ih, List.map_map, List.map_map, name]
      exact congrArg (· ++ _) (shown_values values)
  rw [render_eq, render_eq, lines]

end HeaderMap

/-! ### One header after another -/

/-- A byte that is shown as it is: a tab, a space or a visible character of ASCII. -/
def Text.Legible (b : UInt8) : Prop :=
  b.toNat = 0x09 ∨ 0x20 ≤ b.toNat ∧ b.toNat < 0x7F

/-- How a log shows a value. -/
inductive Header.ShownAs (h : Header) : String → Prop
  | hidden (secret : h.1.carriesCredentials = true ∨ h.2.sensitive = true) : ShownAs h "[REDACTED]"
  | plain (named : h.1.carriesCredentials = false) (marked : h.2.sensitive = false)
    (legible : ∀ b ∈ h.2.bytes, Legible b) (same : utf8 x = h.2.bytes) : ShownAs h x
  | binary (named : h.1.carriesCredentials = false) (marked : h.2.sensitive = false)
    (illegible : ∃ b ∈ h.2.bytes, ¬ Legible b) : ShownAs h "<binary>"

theorem isShownByte_iff {b : UInt8} : isShownByte b = true ↔ Legible b := by
  unfold isShownByte Legible
  simp only [Bool.or_eq_true, Bool.and_eq_true, beq_iff_eq, decide_eq_true_eq, UInt8.le_iff_toNat_le,
    UInt8.lt_iff_toNat_lt, ← UInt8.toNat_inj]
  rfl

theorem Text.Legible.ascii {b : UInt8} (legible : Legible b) : b.toNat < 0x80 := by
  unfold Legible at legible
  omega

/-- A legible byte is a character of its own. -/
theorem Text.utf8_legible {bs : Bytes} (legible : ∀ b ∈ bs, Legible b) :
    utf8 (String.ofList (bs.map fun b => Char.ofNat b.toNat)) = bs := by
  unfold utf8
  rw [String.toList_ofList]
  induction bs with
  | nil => rfl
  | cons b bs ih =>
    obtain ⟨first, rest⟩ := List.forall_mem_cons.mp legible
    have one : encode [charOf b] = [b] := encode_charOf first.ascii
    have split : ∀ (c : Char) cs, encode (c :: cs) = encode [c] ++ encode cs := fun c cs => by simp [encode]
    rw [List.map_cons, split, ih rest]
    exact congrArg (· ++ bs) one

theorem Header.shown_as (h : Header) : ∃ x, h.ShownAs x ∧ h.shown = h.1.text ++ ": " ++ x := by
  unfold shown
  cases named : h.1.carriesCredentials with
  | true => exact ⟨_, .hidden (.inl named), rfl⟩
  | false =>
    cases marked : h.2.sensitive with
    | true => exact ⟨_, .hidden (.inr marked), rfl⟩
    | false =>
      by_cases all : h.2.bytes.all isShownByte = true
      · have legible : ∀ b ∈ h.2.bytes, Legible b := fun b member => isShownByte_iff.mp (List.all_eq_true.mp all b member)
        have text : h.2.text? = some (String.ofList (h.2.bytes.map fun b => Char.ofNat b.toNat)) := if_pos all
        rw [text]
        exact ⟨_, .plain named marked legible (utf8_legible legible), rfl⟩
      · have text : h.2.text? = none := if_neg all
        have illegible : ∃ b ∈ h.2.bytes, ¬ Legible b := by
          simpa [List.all_eq_true, isShownByte_iff] using all
        rw [text]
        exact ⟨_, .binary named marked illegible, rfl⟩

theorem Text.intercalate_append_cons (sep x : List Char) (front back : List (List Char)) :
    sep.intercalate (front ++ x :: back) = front.flatMap (· ++ sep) ++ x ++ back.flatMap (sep ++ ·) := by
  induction front with
  | nil =>
    rw [List.nil_append, List.flatMap_nil, List.nil_append]
    induction back generalizing x with
    | nil => simp [List.intercalate]
    | cons y back ih =>
      rw [List.intercalate_cons_cons, ih y, List.flatMap_cons]
      simp only [List.append_assoc]
  | cons y front ih =>
    have next : ∃ z zs, front ++ x :: back = z :: zs := by
      cases front with
      | nil => exact ⟨x, back, rfl⟩
      | cons z front => exact ⟨z, front ++ x :: back, rfl⟩
    obtain ⟨z, zs, same⟩ := next
    rw [List.cons_append, same, List.intercalate_cons_cons, ← same, ih, List.flatMap_cons]
    simp only [List.append_assoc]

/-- What stands on the line before and after one of the headers. -/
theorem HeaderMap.render_split {m : HeaderMap} {front back : List Header} {h : Header}
    (listed : m.toList = front ++ h :: back) :
    m.render = String.join (front.map fun g => g.shown ++ ", ") ++ h.shown ++
      String.join (back.map fun g => ", " ++ g.shown) := by
  apply String.toList_inj.mp
  rw [render_eq, listed, String.toList_intercalate, List.map_map, List.map_append, List.map_cons,
    Text.intercalate_append_cons]
  simp [String.toList_append, String.toList_join, List.flatMap_map]

/-! ### Line breaks -/

/-- Characters that end a line. -/
def Text.endsLine (c : Char) : Bool :=
  [0x0A, 0x0B, 0x0C, 0x0D, 0x85, 0x2028, 0x2029].contains c.toNat

def Text.breaks (s : String) : Nat :=
  s.toList.countP endsLine

/-- Characters outside ASCII and control characters but the tab. -/
def Text.isOdd (c : Char) : Bool :=
  c.toNat != 0x09 && (c.toNat < 0x20 || 0x7F ≤ c.toNat)

theorem Text.isOdd_eq_false_iff {c : Char} : isOdd c = false ↔ c.toNat = 0x09 ∨ 0x20 ≤ c.toNat ∧ c.toNat < 0x7F := by
  unfold isOdd
  simp only [Bool.and_eq_false_iff, bne_eq_false_iff_eq, Bool.or_eq_false_iff, decide_eq_false_iff_not, Nat.not_lt,
    Nat.not_le]

theorem Text.breaks_of_avoids {s : String} (avoids : Avoids isOdd s.toList) : breaks s = 0 := by
  unfold breaks
  rw [List.countP_eq_zero]
  intro c member ends
  have even := isOdd_eq_false_iff.mp (avoids c member)
  simp only [endsLine, List.contains_iff_mem, List.mem_cons, List.not_mem_nil, or_false] at ends
  omega

theorem HeaderName.avoids_text (n : HeaderName) : Avoids isOdd n.text.toList := by
  have tokens := n.wellFormed
  unfold isHeaderName at tokens
  simp only [Bool.and_eq_true, List.all_eq_true] at tokens
  have alphanum : ∀ c : Char, c.isAlphanum = true → isOdd c = false := forall_alphanum (by decide)
  have marks : Avoids isOdd "!#$%&'*+-.^_\x60|~".toList := by decide
  unfold text
  rw [String.toList_ofList]
  intro c member
  rcases Bool.or_eq_true_iff.mp (tokens.2 c member).1 with letter | mark
  · exact alphanum c letter
  · exact marks c (List.contains_iff_mem.mp mark)

theorem Text.avoids_of_legible {s : String} (legible : ∀ b ∈ utf8 s, Legible b) : Avoids isOdd s.toList := by
  intro c member
  obtain ⟨b, inside⟩ : ∃ b, b ∈ String.utf8EncodeChar c :=
    List.exists_mem_of_ne_nil _ (by simp)
  have byte := legible b (List.mem_flatMap.mpr ⟨c, member, inside⟩)
  unfold Legible at byte
  rw [isOdd_eq_false_iff]
  rcases mem_utf8EncodeChar inside with same | beyond <;> omega

theorem Header.avoids_shown (h : Header) : Avoids isOdd h.shown.toList := by
  obtain ⟨x, shown, same⟩ := h.shown_as
  have between : Avoids isOdd ": ".toList := by decide
  rw [same, String.toList_append, String.toList_append]
  refine avoids_append.mpr ⟨avoids_append.mpr ⟨h.1.avoids_text, between⟩, ?_⟩
  cases shown with
  | hidden secret => decide
  | plain _ _ legible written =>
    rw [← written] at legible
    exact avoids_of_legible legible
  | binary _ _ _ => decide

theorem HeaderMap.avoids_render (m : HeaderMap) : Avoids isOdd m.render.toList := by
  rw [render_eq, String.toList_intercalate]
  refine Avoids.intercalate (by decide) fun line member => ?_
  obtain ⟨h, _, rfl⟩ : ∃ h ∈ m.toList, (Header.shown h).toList = line := by simpa using member
  exact Header.avoids_shown h

/-! ### Events -/

/-- The texts of an event: its message, and the names and the values of its fields. -/
def LogEvent.texts (e : LogEvent) : List String :=
  e.message :: e.fields.flatMap fun f => match f.2 with
    | .text s => [f.1, s]
    | .number _ => [f.1]

def LogEvent.breaks (e : LogEvent) : Nat :=
  (e.texts.flatMap String.toList).countP endsLine

/-- An event of an exchange that tells of headers: those of the request, or those of a response to it. -/
inductive LogEvent.Tells (o : Outbound) : HeaderMap → LogEvent → Prop
  | request : Tells o o.headers (Client.requestEvent o)
  | response (status : Status) (m : HeaderMap) : Tells o m (Client.responseEvent o status m)

namespace LogEvent
variable {o : Outbound} {m : HeaderMap} {e : LogEvent}

theorem Tells.headers (tells : Tells o m e) : ("headers", .text m.render) ∈ e.fields := by
  cases tells <;> simp [Client.requestEvent, Client.responseEvent, fields]

theorem breaks_cons (s : String) (ss : List String) :
    ((s :: ss).flatMap String.toList).countP endsLine = Text.breaks s + (ss.flatMap String.toList).countP endsLine := by
  rw [List.flatMap_cons, List.countP_append, Text.breaks]

theorem Tells.breaks (tells : Tells o m e) : e.breaks = Text.breaks o.method.name + Text.breaks o.uri.text := by
  have plain : ∀ s ∈ ["request", "response", "method", "uri", "status", "headers", "body_len"], Text.breaks s = 0 := by
    decide
  have headers := breaks_of_avoids m.avoids_render
  unfold LogEvent.breaks
  cases tells with
  | request =>
    show ((["request", "method", o.method.name, "uri", o.uri.text, "headers", o.headers.render, "body_len"] :
      List String).flatMap String.toList).countP endsLine = _
    simp only [breaks_cons]
    simp [plain, headers]
  | response status m =>
    show ((["response", "method", o.method.name, "uri", o.uri.text, "status", "headers", m.render] :
      List String).flatMap String.toList).countP endsLine = _
    simp only [breaks_cons]
    simp [plain, headers]

end LogEvent

/-! ### Exchanges that differ in secrets -/

/-- Requests with one method, one URI and bodies of one length, whose headers differ where they are hidden only. -/
structure Outbound.ButSecrets (o o' : Outbound) : Prop where
  method : o'.method = o.method
  uri : o'.uri = o.uri
  headers : o.headers.ButSecrets o'.headers
  size : o'.body.length = o.body.length

structure Sent.ButSecrets (x x' : Sent) : Prop where
  tunnel : x'.tunnel = x.tunnel
  request : Option.Rel Outbound.ButSecrets x.request x'.request

/-- The same outcome, or responses with one status after the same time, whose headers differ where they are hidden
only. -/
inductive Outcome.ButSecrets : Outcome → Outcome → Prop
  | same (outcome : Outcome) : ButSecrets outcome outcome
  | answered (delay : Span) (status : r'.status = r.status) (headers : r.headers.ButSecrets r'.headers) :
    ButSecrets (.answered delay r) (.answered delay r')

/-- Wires with the same log, on networks that answer such requests with such outcomes. -/
structure Wire.ButSecrets (w w' : Wire) : Prop where
  network : ∀ {before before' o o'}, List.Forall₂ Sent.ButSecrets before before' → o.ButSecrets o' →
    (w.network before o).ButSecrets (w'.network before' o')
  now : w'.now = w.now
  sent : List.Forall₂ Sent.ButSecrets w.sent w'.sent
  log : w'.log = w.log

theorem Wire.ButSecrets.keeps : Wire.Keeps Wire.ButSecrets Sent.ButSecrets where
  now := fun alike => alike.now
  note := fun alike e => { alike with log := congrArg (· ++ [e]) alike.log }
  clock := fun alike _ => { alike with now := rfl }
  record := fun alike sent => { alike with sent := List.rel_append alike.sent (.cons sent .nil) }

namespace Client
variable (c : Client) {o o' : Outbound} {w w' : Wire}

theorem requestEvent_of_butSecrets (alike : o.ButSecrets o') : requestEvent o' = requestEvent o := by
  unfold requestEvent
  rw [alike.method, alike.uri, HeaderMap.render_of_butSecrets alike.headers, alike.size]

theorem paired_of_butSecrets {outcome outcome' : Outcome} (alike : outcome.ButSecrets outcome') :
    outcome.Paired c (fun _ _ => True) outcome' := by
  cases alike with
  | same => exact .refl c (fun _ => trivial) outcome
  | answered delay status headers => exact .answered delay status (HeaderMap.render_of_butSecrets headers) trivial

theorem pairs_of_butSecrets (alike : o.ButSecrets o') :
    c.Pairs Wire.ButSecrets Sent.ButSecrets (fun _ _ => True) o o' := by
  have tunnel : c.tunnelFor o' = c.tunnelFor o := by
    unfold tunnelFor
    rw [alike.uri]
  exact ⟨requestEvent_of_butSecrets alike, ⟨tunnel, .none⟩, ⟨tunnel, .some alike⟩,
    fun wires => c.paired_of_butSecrets (wires.network wires.sent alike)⟩

/-- Any number of exchanges that take turns. -/
def exchanging (os : Nat → Option Outbound) (w : Wire) (turns : Nat → Turn) : Run Wire (Except ClientError Reply) where
  start := { tasks := fun i => (os i).map c.exchange, state := w }
  turns

theorem exchanging_butSecrets {os os' : Nat → Option Outbound} (requests : ∀ i, Option.Rel Outbound.ButSecrets (os i) (os' i))
    (wires : w.ButSecrets w') (turns : Nat → Turn) (n : Nat) :
    ((c.exchanging os w turns).state n).ButSecrets ((c.exchanging os' w' turns).state n) := by
  have start : (c.exchanging os w turns).start.Alike Wire.ButSecrets (Except.Related fun _ _ => True)
      (c.exchanging os' w' turns).start := by
    refine ⟨wires, fun i => ?_⟩
    have alike := requests i
    unfold exchanging
    dsimp only
    generalize os i = o at alike ⊢
    generalize os' i = o' at alike ⊢
    cases alike with
    | none => exact .inl ⟨rfl, rfl⟩
    | some alike => exact .inr ⟨_, _, rfl, rfl, exchange_pairs Wire.ButSecrets.keeps (c.pairs_of_butSecrets alike)⟩
  exact (start.pool turns n).state

end Client

/-- What the log tells of requests and responses does not depend on hidden values, whatever else is under way, nor does
a failure depend on headers or bodies at all. Each header stands in its place, with a mark or its value, and neither
headers nor a body add a line break. -/
theorem log_hides_secrets (c : Client) :
    (∀ o o', o.ButSecrets o' → Client.requestEvent o' = Client.requestEvent o ∧
      ∀ status m m', m.ButSecrets m' → Client.responseEvent o' status m' = Client.responseEvent o status m) ∧
    (∀ o o' text, o'.method = o.method → o'.uri = o.uri → Client.failureEvent o' text = Client.failureEvent o text) ∧
    (∀ w w' os os' turns, w.ButSecrets w' → (∀ i, Option.Rel Outbound.ButSecrets (os i) (os' i)) →
      ∀ n, ((c.exchanging os' w' turns).state n).log = ((c.exchanging os w turns).state n).log) ∧
    ∀ o m e, LogEvent.Tells o m e →
      (∀ front h back, m.toList = front ++ h :: back → ∃ x, h.ShownAs x ∧
        ("headers", .text (String.join (front.map fun g => g.shown ++ ", ") ++ (h.1.text ++ ": " ++ x) ++
          String.join (back.map fun g => ", " ++ g.shown))) ∈ e.fields) ∧
      e.breaks = breaks o.method.name + breaks o.uri.text := by
  refine ⟨fun o o' alike => ⟨Client.requestEvent_of_butSecrets alike, fun status m m' same => ?_⟩,
    fun o o' text method uri => ?_, fun w w' os os' turns wires requests n => ?_, fun o m e tells => ⟨?_, tells.breaks⟩⟩
  · exact Client.responseEvent_of_same (congrArg Method.name alike.method) (congrArg Uri.text alike.uri) rfl
      (HeaderMap.render_of_butSecrets same)
  · exact Client.failureEvent_of_same (congrArg Method.name method) (congrArg Uri.text uri) text
  · exact (c.exchanging_butSecrets requests wires turns n).log
  · intro front h back listed
    obtain ⟨x, shown, same⟩ := h.shown_as
    refine ⟨x, shown, ?_⟩
    rw [← same, ← HeaderMap.render_split listed]
    exact tells.headers

namespace Sample

def overheard : Client :=
  { settings := { wireLog := true }, defaults := .empty, proxy := none, roots := none }

/-- A cookie twice; a value that is marked, one that is not, and one that is no text; all of them under repeated names. -/
def guarded (secret : HeaderValue) : HeaderMap where
  groups := [(.cookie, [secret, .literal "b=c"]),
    (.accept, [secret.markSensitive, .literal "*/*", ⟨[0x61, 0xFF], false, by decide⟩])]

def posting (secret : HeaderValue) (body : String) : Outbound where
  method := .post
  uri := { scheme := some "https", authority := some "e".toList, path := "/x".toList, query := none }
  headers := guarded secret
  body := utf8 body

/-- The headers of a request come back with its response. -/
def returning : Wire where
  network _ o := .answered .zero { status := ⟨200⟩, headers := o.headers, frames := [.data o.body] }

def posted (secret : HeaderValue) (body : String) : Run Wire (Except ClientError Reply) :=
  overheard.exchanging (fun i => if i = 0 then some (posting secret body) else none) returning fun _ => .step 0

end Sample

/-- The secret and the body differ; both events of the exchange are the same. -/
theorem log_hides_secrets_echoed :
    ((Sample.posted (.literal "hunter2") "a\nb").state 2).log = ((Sample.posted (.literal "") "c\r\n").state 2).log ∧
    ((Sample.posted (.literal "") "c\r\n").state 2).log.length = 2 ∧
    ("headers", .text ("cookie: [REDACTED], cookie: [REDACTED], accept: [REDACTED], accept: *" ++ "/*, accept: <binary>")) ∈
      (Client.requestEvent (Sample.posting (.literal "") "c\r\n")).fields ∧
    (Client.requestEvent (Sample.posting (.literal "") "c\r\n")).breaks = 0 := by
  have masks : Sample.guarded (.literal "") |>.ButSecrets (Sample.guarded (.literal "hunter2")) :=
    .cons ⟨rfl, .cons (.inr (.inl (by decide))) (.cons (.inl rfl) .nil)⟩
      (.cons ⟨rfl, .cons (.inr (.inr ⟨rfl, rfl⟩)) (.cons (.inl rfl) (.cons (.inl rfl) .nil))⟩ .nil)
  have alike : (Sample.posting (.literal "") "c\r\n").ButSecrets (Sample.posting (.literal "hunter2") "a\nb") :=
    ⟨rfl, rfl, masks, by decide +kernel⟩
  have wires : Sample.returning.ButSecrets Sample.returning :=
    ⟨fun _ alike => .answered _ rfl alike.headers, rfl, .nil, rfl⟩
  obtain ⟨_, _, runs, events⟩ := log_hides_secrets Sample.overheard
  obtain ⟨split, breaks⟩ := events _ _ _ (.request (o := Sample.posting (.literal "") "c\r\n"))
  refine ⟨runs _ _ _ _ _ wires (fun i => ?_) 2, by decide +kernel, ?_, ?_⟩
  · split
    · exact .some alike
    · exact .none
  · obtain ⟨x, shown, listed⟩ := split [(.cookie, .literal "")] (.cookie, .literal "b=c")
      [(.accept, (HeaderValue.literal "").markSensitive), (.accept, .literal "*/*"),
        (.accept, ⟨[0x61, 0xFF], false, by decide⟩)] (by decide +kernel)
    cases shown with
    | hidden _ => exact listed
    | plain named _ _ _ => cases named
    | binary named _ _ => cases named
  · rw [breaks]
    decide +kernel

end EngineClient
