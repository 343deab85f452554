import EngineClient.Api.Error
import Mathlib.Data.List.Infix

/-!
# Kinds of failures

The search for a kind goes along an error and what it was raised for. It ends, it passes over no error on the way, and
it finds the outermost one that can be recognized. Errors around that cannot be recognized change nothing.
-/

namespace EngineClient

/-! ### Chains of causes -/

/-- A cause that says nothing of its own about the kind of a failure. -/
inductive Cause.Plain : Cause → Prop
  | described (other : ¬ Failure.dnsMark.toList <+: text.toList) : Plain (.described text)
  | io (notRefused : kind ≠ .connectionRefused) (notLate : kind ≠ .timedOut) : Plain (.io kind)

namespace Failure

/-- The text of a chain names the resolver of host names. -/
def NamesResolver (f : Failure) : Prop :=
  dnsMark.toList <+: (message f).toList

/-- The outermost cause of a chain is recognized. -/
inductive Tells : Failure → FailureKind → Prop
  | encryption : Tells (.encryption text :: rest) .tlsHandshake
  | resolver (other : ∀ text, c ≠ .encryption text) (named : NamesResolver (c :: rest)) : Tells (c :: rest) .dns
  | refused (unnamed : ¬ NamesResolver (.io .connectionRefused :: rest)) :
    Tells (.io .connectionRefused :: rest) .connectRefused
  | late (unnamed : ¬ NamesResolver (.io .timedOut :: rest)) : Tells (.io .timedOut :: rest) .timeout

/-- A cause inside a chain is recognized, and none around it is. -/
def Outermost (f : Failure) (k : FailureKind) : Prop :=
  ∃ inner, inner <:+ f ∧ Tells inner k ∧ ∀ outer, outer <:+ f → inner.length < outer.length → ∀ k', ¬ Tells outer k'

/-- No cause inside a chain is recognized. -/
def Mute (f : Failure) : Prop :=
  ∀ inner, inner <:+ f → ∀ k, ¬ Tells inner k

variable {f : Failure} {k k' : FailureKind}

instance : Decidable (NamesResolver f) :=
  inferInstanceAs (Decidable (_ <+: _))

theorem speaksOfDns_iff : speaksOfDns f = true ↔ NamesResolver f := by
  unfold speaksOfDns NamesResolver
  rw [Option.isSome_iff_exists]
  simp only [Text.stripFront?_eq_some_iff]
  exact exists_congr fun rest => eq_comm

theorem headKind?_eq_some_iff : headKind? f = some k ↔ Tells f k := by
  constructor
  · intro found
    match f with
    | [] => cases found
    | .encryption _ :: _ =>
      cases found
      exact .encryption
    | .described text :: rest =>
      simp only [headKind?] at found
      split at found
      · rename_i named
        cases found
        exact .resolver (by simp) (speaksOfDns_iff.mp named)
      · cases found
    | .io kind :: rest =>
      simp only [headKind?] at found
      split at found
      · rename_i named
        cases found
        exact .resolver (by simp) (speaksOfDns_iff.mp named)
      · rename_i unnamed
        rw [speaksOfDns_iff] at unnamed
        split at found <;> cases found
        · exact .refused unnamed
        · exact .late unnamed
  · intro tells
    cases tells with
    | encryption => rfl
    | @resolver c rest other named =>
      have spoken := speaksOfDns_iff.mpr named
      cases c with
      | encryption text => exact absurd rfl (other text)
      | described text => exact if_pos spoken
      | io kind => exact if_pos spoken
    | refused unnamed => exact if_neg (speaksOfDns_iff.not.mpr unnamed)
    | late unnamed => exact if_neg (speaksOfDns_iff.not.mpr unnamed)

theorem Tells.unique (first : Tells f k) (second : Tells f k') : k = k' :=
  Option.some.inj ((headKind?_eq_some_iff.mpr first).symm.trans (headKind?_eq_some_iff.mpr second))

theorem kind_of_tells (tells : Tells f k) : kind f = k := by
  cases f with
  | nil => cases tells
  | cons c rest => rw [kind, headKind?_eq_some_iff.mpr tells, Option.getD_some]

theorem kind_of_silent (silent : ∀ k, ¬ Tells (c :: f) k) : kind (c :: f) = kind f := by
  have none : headKind? (c :: f) = none := by
    refine Option.eq_none_iff_forall_ne_some.mpr fun k found => ?_
    exact silent k (headKind?_eq_some_iff.mp found)
  rw [kind, none, Option.getD_none]

/-! ### The outermost cause -/

theorem Outermost.of_tells (tells : Tells f k) : Outermost f k :=
  ⟨f, List.suffix_rfl, tells, fun outer within longer => absurd within.length_le (by omega)⟩

theorem Outermost.cons (outermost : Outermost f k) (silent : ∀ k, ¬ Tells (c :: f) k) : Outermost (c :: f) k := by
  obtain ⟨inner, within, tells, around⟩ := outermost
  refine ⟨inner, within.trans (List.suffix_cons c f), tells, fun outer wider longer => ?_⟩
  rcases List.suffix_cons_iff.mp wider with rfl | wider
  · exact silent
  · exact around outer wider longer

theorem Mute.cons (mute : Mute f) (silent : ∀ k, ¬ Tells (c :: f) k) : Mute (c :: f) := by
  intro inner within
  rcases List.suffix_cons_iff.mp within with rfl | within
  · exact silent
  · exact mute inner within

/-- Every chain has a kind that is told by its outermost recognized cause, or has no such cause. -/
theorem kind_told (f : Failure) : Outermost f (kind f) ∨ kind f = .other ∧ Mute f := by
  induction f with
  | nil =>
    refine .inr ⟨rfl, fun inner within k tells => ?_⟩
    rw [List.suffix_nil.mp within] at tells
    cases tells
  | cons c f ih =>
    by_cases told : ∃ k, Tells (c :: f) k
    · obtain ⟨k, tells⟩ := told
      rw [kind_of_tells tells]
      exact .inl (.of_tells tells)
    · have silent := not_exists.mp told
      rw [kind_of_silent silent]
      exact ih.imp (·.cons silent) fun ⟨other, mute⟩ => ⟨other, mute.cons silent⟩

theorem Outermost.unique (first : Outermost f k) (second : Outermost f k') : k = k' := by
  obtain ⟨inner, within, tells, around⟩ := first
  obtain ⟨inner', within', tells', around'⟩ := second
  have same : inner.length = inner'.length := by
    by_contra differ
    rcases Nat.lt_or_gt_of_ne differ with shorter | longer
    · exact around inner' within' shorter k' tells'
    · exact around' inner within longer k tells
  obtain rfl := (List.suffix_of_suffix_length_le within within' same.le).eq_of_length same
  exact tells.unique tells'

theorem Outermost.not_mute (outermost : Outermost f k) : ¬ Mute f := by
  obtain ⟨inner, within, tells, _⟩ := outermost
  exact fun mute => mute inner within k tells

theorem Outermost.known (outermost : Outermost f k) : k ≠ .other := by
  obtain ⟨inner, _, tells, _⟩ := outermost
  cases tells <;> decide

theorem outermost_iff : Outermost f k ↔ kind f = k ∧ k ≠ .other := by
  constructor
  · intro outermost
    rcases kind_told f with told | ⟨_, mute⟩
    · exact ⟨told.unique outermost, outermost.known⟩
    · exact absurd mute outermost.not_mute
  · rintro ⟨rfl, known⟩
    exact (kind_told f).resolve_right fun ⟨other, _⟩ => known other

theorem kind_eq_other_iff : kind f = .other ↔ Mute f := by
  rcases kind_told f with told | ⟨other, mute⟩
  · exact iff_of_false told.known told.not_mute
  · exact iff_of_true other mute

/-! ### Causes around a chain -/

theorem tells_of_namesResolver (named : NamesResolver f) : Tells f .dns := by
  cases f with
  | nil => exact absurd named (by decide)
  | cons c rest =>
    refine .resolver (fun text same => ?_) named
    subst same
    obtain ⟨after, whole⟩ : dnsMark.toList <+: ("unexpected error: " ++ text).toList := named
    have mark : dnsMark.toList.head? = some 'd' := by decide
    have other : "unexpected error: ".toList.head? = some 'u' := by decide
    have first := congrArg List.head? whole
    rw [String.toList_append, List.head?_append, List.head?_append, mark, other] at first
    exact absurd (Option.some.inj first) (by decide)

theorem kind_of_plain (plain : c.Plain) (f : Failure) : kind (c :: f) = kind f := by
  by_cases named : NamesResolver (c :: f)
  · -- Only a failure of input or output can do so, and then it speaks for the chain it is around.
    rw [kind_of_tells (tells_of_namesResolver named)]
    cases plain with
    | described other => exact absurd named other
    | @io kind notRefused notLate =>
      cases f with
      | nil =>
        have unnamed : ∀ k : IoKind, ¬ NamesResolver [.io k] := by
          intro k
          cases k <;> decide
        exact absurd named (unnamed kind)
      | cons d rest => exact (kind_of_tells (tells_of_namesResolver (f := d :: rest) named)).symm
  · refine kind_of_silent fun k tells => ?_
    cases plain with
    | described other =>
      cases tells with
      | resolver _ named' => exact named named'
    | io notRefused notLate =>
      cases tells with
      | resolver _ named' => exact named named'
      | refused _ => exact notRefused rfl
      | late _ => exact notLate rfl

theorem kind_wrapped {wraps : List Cause} (plain : ∀ c ∈ wraps, c.Plain) (f : Failure) : kind (wraps ++ f) = kind f := by
  induction wraps with
  | nil => rfl
  | cons c wraps ih =>
    obtain ⟨first, rest⟩ := List.forall_mem_cons.mp plain
    rw [List.cons_append, kind_of_plain first, ih rest]

end Failure

/-! ### Errors as they are raised -/

/-- An error, and what it was raised for. A failure of input or output may carry an error, and then speaks for it. -/
inductive Raised
  | described (text : String)
  | wrapping (text : String) (source : Raised)
  | io (kind : IoKind)
  | carrying (kind : IoKind) (inner : Raised)
  | encryption (text : String)

namespace Raised

def text : Raised → String
  | described text | wrapping text _ => text
  | io kind => kind.message
  | carrying _ inner => inner.text
  | encryption text => "unexpected error: " ++ text

/-- What an error names as its source. A failure of input or output passes over the error that it carries. -/
def source? : Raised → Option Raised
  | wrapping _ source => some source
  | carrying _ inner => inner.source?
  | described _ | io _ | encryption _ => none

def inner? : Raised → Option Raised
  | carrying _ inner => some inner
  | described _ | wrapping _ _ | io _ | encryption _ => none

/-- Where the search goes on: at what an error carries, else at its source. -/
def next? (e : Raised) : Option Raised :=
  e.inner?.or e.source?

def ioKind? : Raised → Option IoKind
  | io kind | carrying kind _ => some kind
  | described _ | wrapping _ _ | encryption _ => none

def isEncryption : Raised → Bool
  | encryption _ => true
  | described _ | wrapping _ _ | io _ | carrying _ _ => false

/-- The kind that an error gives by itself. -/
def ownKind? (e : Raised) : Option FailureKind :=
  if e.isEncryption then some .tlsHandshake
  else if Failure.dnsMark.toList <+: e.text.toList then some .dns
  else match e.ioKind? with
    | some .connectionRefused => some .connectRefused
    | some .timedOut => some .timeout
    | _ => none

theorem size_next? {e e' : Raised} (next : e.next? = some e') : sizeOf e' < sizeOf e := by
  cases e with
  | wrapping text source =>
    cases next
    simp only [wrapping.sizeOf_spec]
    omega
  | carrying kind inner =>
    cases next
    simp only [carrying.sizeOf_spec]
    omega
  | described _ | io _ | encryption _ => cases next

/-- The kind of the first error with one, from an error on. -/
def kind (e : Raised) : FailureKind :=
  match e.ownKind? with
  | some k => k
  | none =>
    match _next : e.next? with
    | none => .other
    | some e' => e'.kind
termination_by sizeOf e
decreasing_by exact size_next? _next

/-- The chain of causes that an error stands for. -/
def causes : Raised → Failure
  | described text => [.described text]
  | wrapping text source => .described text :: source.causes
  | io kind => [.io kind]
  | carrying kind inner => .io kind :: inner.causes
  | encryption text => [.encryption text]

/-- An error stands inside another one, at any depth. -/
inductive Within : Raised → Raised → Prop
  | self (e : Raised) : Within e e
  | source {source : Raised} (text : String) (within : Within e source) : Within e (wrapping text source)
  | inner {inner : Raised} (kind : IoKind) (within : Within e inner) : Within e (carrying kind inner)

variable {e e' : Raised}

theorem causes_ne_nil (e : Raised) : e.causes ≠ [] := by
  cases e <;> simp [causes]

theorem message_causes (e : Raised) : Failure.message e.causes = e.text := by
  induction e with
  | carrying kind inner ih =>
    have spoken : ∀ f : Failure, f ≠ [] → Failure.message (.io kind :: f) = Failure.message f := by
      intro f some
      cases f with
      | nil => exact absurd rfl some
      | cons c rest => rfl
    exact (spoken _ inner.causes_ne_nil).trans ih
  | described _ | wrapping _ _ _ | io _ | encryption _ => rfl

/-- What is recognized of a chain is what its error gives by itself. -/
theorem headKind?_causes (e : Raised) : Failure.headKind? e.causes = e.ownKind? := by
  have named : Failure.speaksOfDns e.causes = decide (Failure.dnsMark.toList <+: e.text.toList) := by
    rw [← message_causes]
    exact Bool.eq_iff_iff.mpr (Failure.speaksOfDns_iff.trans decide_eq_true_iff.symm)
  have described : ∀ {text rest}, e.causes = .described text :: rest → e.isEncryption = false → e.ioKind? = none →
      Failure.headKind? e.causes = e.ownKind? := by
    intro text rest shape plain noIo
    have head : Failure.headKind? e.causes = if Failure.speaksOfDns e.causes then some .dns else none := by
      rw [shape]
      rfl
    simp only [head, named, ownKind?, plain, noIo, decide_eq_true_eq, Bool.false_eq_true, if_false]
  have io : ∀ {kind rest}, e.causes = .io kind :: rest → e.isEncryption = false → e.ioKind? = some kind →
      Failure.headKind? e.causes = e.ownKind? := by
    intro kind rest shape plain isIo
    have head : Failure.headKind? e.causes = if Failure.speaksOfDns e.causes then some .dns else
        match some kind with
        | some .connectionRefused => some .connectRefused
        | some .timedOut => some .timeout
        | _ => none := by
      rw [shape]
      cases kind <;> rfl
    simp only [head, named, ownKind?, plain, isIo, decide_eq_true_eq, Bool.false_eq_true, if_false]
  cases e with
  | encryption text => rfl
  | described text => exact described rfl rfl rfl
  | wrapping text source => exact described rfl rfl rfl
  | io kind => exact io rfl rfl rfl
  | carrying kind inner => exact io rfl rfl rfl

theorem next_causes (e : Raised) : ∃ c, e.causes = c :: (e.next?.map causes).getD [] := by
  cases e <;> exact ⟨_, rfl⟩

/-- The search finds the kind of the chain. -/
theorem kind_eq (e : Raised) : e.kind = Failure.kind e.causes := by
  have silent : ∀ {e : Raised} {c rest}, e.ownKind? = none → e.causes = c :: rest → ∀ k, ¬ Failure.Tells (c :: rest) k := by
    intro e c rest own shape k tells
    have told := Failure.headKind?_eq_some_iff.mpr tells
    rw [← shape, headKind?_causes, own] at told
    cases told
  induction e using kind.induct with
  | case1 e k own =>
    rw [kind, own]
    exact (Failure.kind_of_tells (Failure.headKind?_eq_some_iff.mp ((headKind?_causes e).trans own))).symm
  | case2 e own last =>
    obtain ⟨c, shape⟩ := next_causes e
    rw [last] at shape
    rw [shape, Failure.kind_of_silent (silent own shape), kind, own]
    dsimp only
    split
    · rfl
    · rename_i next
      cases last.symm.trans next
  | case3 e own e' next ih =>
    obtain ⟨c, shape⟩ := next_causes e
    rw [next] at shape
    rw [shape, Failure.kind_of_silent (silent own shape), kind, own]
    dsimp only
    split
    · rename_i last
      cases last.symm.trans next
    · rename_i again
      obtain rfl := Option.some.inj (next.symm.trans again)
      exact ih

/-- The chain of an error consists of the errors inside it, and none of them is left out. -/
theorem suffix_causes_iff (some : f ≠ []) : f <:+ e.causes ↔ ∃ e' : Raised, e'.Within e ∧ e'.causes = f := by
  have last : ∀ {e : Raised} {c}, e.causes = [c] → (∀ e' : Raised, e'.Within e → e' = e) →
      (f <:+ e.causes ↔ ∃ e' : Raised, e'.Within e ∧ e'.causes = f) := by
    intro e c shape alone
    constructor
    · intro suffix
      rw [shape] at suffix
      rcases List.suffix_cons_iff.mp suffix with rfl | empty
      · exact ⟨e, .self e, shape⟩
      · exact absurd (List.suffix_nil.mp empty) some
    · rintro ⟨e', within, rfl⟩
      rw [alone e' within]
  have more : ∀ {e inner : Raised} {c}, e.causes = c :: inner.causes →
      (∀ e' : Raised, e'.Within e ↔ e' = e ∨ e'.Within inner) →
      (f <:+ inner.causes ↔ ∃ e' : Raised, e'.Within inner ∧ e'.causes = f) →
      (f <:+ e.causes ↔ ∃ e' : Raised, e'.Within e ∧ e'.causes = f) := by
    intro e inner c shape inside ih
    rw [shape, List.suffix_cons_iff, ih, ← shape]
    constructor
    · rintro (rfl | ⟨e', within, rfl⟩)
      · exact ⟨e, .self e, rfl⟩
      · exact ⟨e', (inside e').mpr (.inr within), rfl⟩
    · rintro ⟨e', within, rfl⟩
      rcases (inside e').mp within with rfl | within
      · exact .inl rfl
      · exact .inr ⟨e', within, rfl⟩
  induction e with
  | described text => exact last rfl fun e' within => by cases within; rfl
  | io kind => exact last rfl fun e' within => by cases within; rfl
  | encryption text => exact last rfl fun e' within => by cases within; rfl
  | wrapping text source ih =>
    refine more rfl (fun e' => ⟨fun within => ?_, ?_⟩) ih
    · cases within with
      | self => exact .inl rfl
      | source _ within => exact .inr within
    · rintro (rfl | within)
      · exact .self _
      · exact .source text within
  | carrying kind inner ih =>
    refine more rfl (fun e' => ⟨fun within => ?_, ?_⟩) ih
    · cases within with
      | self => exact .inl rfl
      | inner _ within => exact .inr within
    · rintro (rfl | within)
      · exact .self _
      · exact .inner kind within

end Raised

/-! ### Errors of the transport, sorted -/

namespace Error
variable {e : ClientError}

theorem kind?_ofClient (e : ClientError) : (ofClient e).kind? = e.kind? := by
  cases e <;> rfl

theorem ofClient_eq_closed_iff : ofClient e = .closed ↔ e = .closed := by
  cases e <;> simp [ofClient, ClientError.kind?]

theorem ofClient_eq_request_iff : ofClient e = .request cause ↔ cause = e ∧ e ≠ .closed ∧ e.kind? = none := by
  cases e <;> simp [ofClient, ClientError.kind?, eq_comm]

end Error

/-- The search for a kind goes along all errors that stand inside an error, and ends with the kind of their chain. That is
the kind of the outermost cause that is recognized, and none of the known kinds if none is; causes that say nothing do
not change it from around a chain. Sorting an error of the transport keeps its kind, and an error without one is that of a
closed client or one of the request. -/
theorem failure_kind_outermost :
    (∀ e : Raised, e.kind = Failure.kind e.causes ∧
      ∀ f, f ≠ [] → (f <:+ e.causes ↔ ∃ e' : Raised, e'.Within e ∧ e'.causes = f)) ∧
    (∀ f, (∀ k, Failure.Outermost f k ↔ Failure.kind f = k ∧ k ≠ .other) ∧
      (Failure.kind f = .other ↔ Failure.Mute f)) ∧
    (∀ wraps f, (∀ c ∈ wraps, c.Plain) → Failure.kind (wraps ++ f) = Failure.kind f) ∧
    (∀ e : Raised, ClientError.kind? (.transport e.causes) = some e.kind) ∧
    ∀ e : ClientError, (Error.ofClient e).kind? = e.kind? ∧ (Error.ofClient e = .closed ↔ e = .closed) ∧
      ∀ cause, Error.ofClient e = .request cause ↔ cause = e ∧ e ≠ .closed ∧ e.kind? = none := by
  refine ⟨fun e => ⟨e.kind_eq, fun f some => Raised.suffix_causes_iff some⟩, fun f => ⟨fun k => ?_, ?_⟩,
    fun wraps f plain => Failure.kind_wrapped plain f, fun e => ?_, fun e => ⟨Error.kind?_ofClient e, ?_, fun cause => ?_⟩⟩
  · exact Failure.outermost_iff
  · exact Failure.kind_eq_other_iff
  · rw [ClientError.kind?, Raised.kind_eq]
  · exact Error.ofClient_eq_closed_iff
  · exact Error.ofClient_eq_request_iff

end EngineClient
