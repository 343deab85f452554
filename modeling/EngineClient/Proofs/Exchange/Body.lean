import EngineClient.Transport.Body
import EngineClient.Transport.Compression

/-!
# Bodies up to a limit

How reading a body ends is decided by the lengths of its parts alone. A body that fits is read whole or fails with the
failure that ends it; one that does not is refused at the part that passes the limit, whatever would come after it. How
a body is cut into frames shows in no more than the length that is reported.
-/

namespace EngineClient

def Frame.adds : Frame → Bytes
  | data bytes => bytes
  | trailers _ => []

def bodyOf (frames : List Frame) : Bytes :=
  frames.flatMap Frame.adds

theorem bodyOf_cons (frame : Frame) (frames : List Frame) : bodyOf (frame :: frames) = frame.adds ++ bodyOf frames :=
  rfl

/-- What is held after some frames is what reading them alone gives, and reading goes on from there. -/
theorem readFrames_append (limit : Nat) (fault : Option Failure) (got : Bytes) (before after : List Frame) :
    readFrames limit fault got (before ++ after) =
      readFrames limit none got before >>= fun held => readFrames limit fault held after := by
  induction before generalizing got with
  | nil => rfl
  | cons frame before ih =>
    cases frame with
    | trailers headers => exact ih got
    | data bytes =>
      rw [List.cons_append, readFrames, readFrames]
      split
      · rfl
      · exact ih (got ++ bytes)

section Frames
variable {limit : Nat} (got : Bytes) {frames : List Frame}

theorem readFrames_of_fits (fits : (got ++ bodyOf frames).length ≤ limit) :
    readFrames limit none got frames = .ok (got ++ bodyOf frames) := by
  induction frames generalizing got with
  | nil => simp [readFrames, bodyOf]
  | cons frame frames ih =>
    rw [bodyOf_cons, ← List.append_assoc] at fits ⊢
    cases frame with
    | trailers headers =>
      rw [Frame.adds, List.append_nil] at fits ⊢
      exact ih got fits
    | data bytes =>
      have room : ¬ got.length + bytes.length > limit := by
        simp only [Frame.adds, List.length_append] at fits
        omega
      rw [readFrames, if_neg room]
      exact ih _ fits

theorem readFrames_of_passes (held : got.length ≤ limit) (passes : limit < (got ++ bodyOf frames).length) :
    ∃ before bytes after, frames = before ++ .data bytes :: after ∧ (got ++ bodyOf before).length ≤ limit ∧
      limit < (got ++ bodyOf before).length + bytes.length := by
  induction frames generalizing got with
  | nil => simp [bodyOf] at passes; omega
  | cons frame frames ih =>
    rw [bodyOf_cons, ← List.append_assoc] at passes
    by_cases room : (got ++ frame.adds).length ≤ limit
    · obtain ⟨before, bytes, after, rfl, fits, larger⟩ := ih _ room passes
      refine ⟨frame :: before, bytes, after, rfl, ?_⟩
      rw [bodyOf_cons, ← List.append_assoc]
      exact ⟨fits, larger⟩
    · cases frame with
      | trailers headers => simp [Frame.adds] at room; omega
      | data bytes =>
        refine ⟨[], bytes, frames, rfl, by simpa [bodyOf] using held, ?_⟩
        simp only [Frame.adds, List.length_append, bodyOf, List.flatMap_nil, List.append_nil] at room ⊢
        omega

theorem readFrames_over (fits : (got ++ bodyOf before).length ≤ limit)
    (larger : limit < (got ++ bodyOf before).length + bytes.length) (fault : Option Failure) (after : List Frame) :
    readFrames limit fault got (before ++ .data bytes :: after) =
      .error (.bodyTooLarge limit ((got ++ bodyOf before).length + bytes.length)) := by
  rw [readFrames_append, readFrames_of_fits got fits]
  exact if_pos larger

end Frames

/-! ### How reading ends -/

namespace Reply

/-- How reading a body of limited length ends: with the whole of it, with the failure that comes after the whole of it,
or with the first part that does not fit. -/
inductive Ends (limit : Nat) (reply : Reply) : Except ClientError Bytes → Prop
  | whole (fits : reply.data.length ≤ limit) (sound : reply.fault = none) : Ends limit reply (.ok reply.data)
  | cut (fits : reply.data.length ≤ limit) (broken : reply.fault = some f) : Ends limit reply (.error (.transport f))
  | tooLarge (parts : reply.frames = before ++ .data bytes :: after) (fits : (bodyOf before).length ≤ limit)
      (passes : limit < (bodyOf before).length + bytes.length) :
    Ends limit reply (.error (.bodyTooLarge limit ((bodyOf before).length + bytes.length)))

variable {limit : Nat} {reply : Reply}

theorem read_of_ends (ends : reply.Ends limit r) : reply.read limit = r := by
  have whole : reply.data.length ≤ limit →
      reply.read limit = readFrames limit reply.fault reply.data [] := by
    intro fits
    have split := readFrames_append limit reply.fault [] reply.frames []
    rw [List.append_nil, readFrames_of_fits [] fits] at split
    exact split
  cases ends with
  | whole fits sound => rw [whole fits, sound, readFrames]
  | cut fits broken => rw [whole fits, broken, readFrames]
  | tooLarge parts fits passes =>
    rw [read, parts]
    exact readFrames_over [] fits passes _ _

theorem exists_ends (limit : Nat) (reply : Reply) : ∃ r, reply.Ends limit r := by
  by_cases fits : reply.data.length ≤ limit
  · cases fault : reply.fault with
    | none => exact ⟨_, .whole fits fault⟩
    | some f => exact ⟨_, .cut fits fault⟩
  · obtain ⟨before, bytes, after, parts, room, passes⟩ :=
      readFrames_of_passes [] (Nat.zero_le limit) (Nat.lt_of_not_le fits)
    exact ⟨_, .tooLarge parts room passes⟩

theorem ends_iff : reply.Ends limit r ↔ reply.read limit = r := by
  refine ⟨read_of_ends, fun read => ?_⟩
  obtain ⟨r', ends⟩ := exists_ends limit reply
  rw [← read, read_of_ends ends]
  exact ends

theorem read_eq_ok_iff : reply.read limit = .ok bytes ↔
    reply.fault = none ∧ reply.data.length ≤ limit ∧ bytes = reply.data := by
  rw [← ends_iff]
  constructor
  · rintro ⟨⟩
    exact ⟨‹_›, ‹_›, rfl⟩
  · rintro ⟨sound, fits, rfl⟩
    exact .whole fits sound

theorem read_of_passes (passes : limit < reply.data.length) :
    ∃ actual, reply.read limit = .error (.bodyTooLarge limit actual) := by
  obtain ⟨before, bytes, after, parts, room, larger⟩ := readFrames_of_passes [] (Nat.zero_le limit) passes
  exact ⟨_, read_of_ends (.tooLarge parts room larger)⟩

theorem read_after (parts : reply.frames = before ++ after) (got : readFrames limit none [] before = .ok held) :
    held = bodyOf before ∧ held.length ≤ limit ∧ reply.read limit = readFrames limit reply.fault held after := by
  -- What is held is itself a body that has been read.
  have whole : ({ reply with frames := before, fault := none } : Reply).read limit = .ok held := got
  obtain ⟨_, fits, rfl⟩ := read_eq_ok_iff.mp whole
  refine ⟨rfl, fits, ?_⟩
  rw [read, parts, readFrames_append, got]
  rfl

theorem read_alike {reply' : Reply} (same : reply'.data = reply.data) (sound : reply.fault = none)
    (sound' : reply'.fault = none) : (∃ bytes, reply.read limit = .ok bytes ∧ reply'.read limit = .ok bytes) ∨
      ∃ actual actual', reply.read limit = .error (.bodyTooLarge limit actual) ∧
        reply'.read limit = .error (.bodyTooLarge limit actual') := by
  by_cases fits : reply.data.length ≤ limit
  · have fits' : reply'.data.length ≤ limit := by rwa [same]
    exact .inl ⟨reply.data, read_eq_ok_iff.mpr ⟨sound, fits, rfl⟩, read_eq_ok_iff.mpr ⟨sound', fits', same.symm⟩⟩
  · have passes := Nat.lt_of_not_le fits
    have passes' : limit < reply'.data.length := by rwa [same]
    obtain ⟨actual, larger⟩ := read_of_passes passes
    obtain ⟨actual', larger'⟩ := read_of_passes passes'
    exact .inr ⟨actual, actual', larger, larger'⟩

end Reply

/-! ### Lengths in machine words -/

/-- The longest run of bytes that memory holds in one piece. -/
def Memory.longest : Nat :=
  0x7FFFFFFFFFFFFFFF

/-- Reads frames with lengths in words of 64 bits, whose sums wrap around; none if memory cannot hold what is kept. -/
def readWords (limit : UInt64) (fault : Option Failure) (got : Bytes) : List Frame → Option (Except ClientError Bytes)
  | [] => match fault with
    | none => some (.ok got)
    | some f => some (.error (.transport f))
  | .trailers _ :: r => readWords limit fault got r
  | .data bytes :: r =>
    let total := UInt64.ofNat got.length + UInt64.ofNat bytes.length
    if total > limit then some (.error (.bodyTooLarge limit.toNat total.toNat))
    else if (got ++ bytes).length > Memory.longest then none
    else readWords limit fault (got ++ bytes) r

theorem toNat_add_lengths {got bytes : Bytes} (held : got.length ≤ Memory.longest)
    (piece : bytes.length ≤ Memory.longest) :
    (UInt64.ofNat got.length + UInt64.ofNat bytes.length).toNat = got.length + bytes.length := by
  unfold Memory.longest at held piece
  rw [UInt64.toNat_add, UInt64.toNat_ofNat', UInt64.toNat_ofNat']
  omega

theorem readWords_eq (limit : UInt64) (fault : Option Failure) {got : Bytes} {frames : List Frame}
    (held : got.length ≤ Memory.longest) (pieces : ∀ frame ∈ frames, frame.adds.length ≤ Memory.longest) :
    readWords limit fault got frames = some (readFrames limit.toNat fault got frames) ∨
      readWords limit fault got frames = none ∧ Memory.longest < limit.toNat ∧
        Memory.longest < (got ++ bodyOf frames).length := by
  induction frames generalizing got with
  | nil => exact .inl (by cases fault <;> rfl)
  | cons frame frames ih =>
    obtain ⟨piece, rest⟩ := List.forall_mem_cons.mp pieces
    cases frame with
    | trailers headers => exact ih held rest
    | data bytes =>
      have sum : (UInt64.ofNat got.length + UInt64.ofNat bytes.length).toNat = got.length + bytes.length :=
        toNat_add_lengths held piece
      have passes : UInt64.ofNat got.length + UInt64.ofNat bytes.length > limit ↔
          got.length + bytes.length > limit.toNat := by
        rw [gt_iff_lt, UInt64.lt_iff_toNat_lt, sum]
      rw [bodyOf_cons, ← List.append_assoc]
      by_cases larger : got.length + bytes.length > limit.toNat
      · rw [readWords, readFrames, if_pos (passes.mpr larger), if_pos larger, sum]
        exact .inl rfl
      · rw [readWords, readFrames, if_neg fun wide => larger (passes.mp wide), if_neg larger]
        by_cases full : (got ++ bytes).length > Memory.longest
        · refine .inr ⟨if_pos full, ?_, Nat.lt_of_lt_of_le full (by simp [Frame.adds])⟩
          rw [List.length_append] at full
          omega
        · rw [if_neg full]
          exact ih (Nat.le_of_not_lt full) rest

/-- Reading a body ends in exactly one of three ways, which the lengths of its parts decide: with all of it, if it fits
and nothing breaks it; with the failure that breaks it, if it fits; and otherwise with the first part that does not fit
and the length reached there, so that no later part and no failure is looked at. What is held between two parts, from
which reading goes on, is never longer than the limit. Lengths are words of 64 bits, and their sums never wrap around:
reading with such words ends the same, or memory runs out, which takes a limit and a body that are both longer than it.
Two ways to cut one body into parts end alike, but for the length that is reported. -/
theorem body_limited (limit : Nat) (reply : Reply) :
    (∀ bytes, reply.read limit = .ok bytes ↔ reply.fault = none ∧ reply.data.length ≤ limit ∧ bytes = reply.data) ∧
    (∀ r, reply.read limit = r ↔ reply.Ends limit r) ∧
    (∀ before after held, reply.frames = before ++ after → readFrames limit none [] before = .ok held →
      held = bodyOf before ∧ held.length ≤ limit ∧ reply.read limit = readFrames limit reply.fault held after) ∧
    (∀ word : UInt64, word.toNat = limit → (∀ frame ∈ reply.frames, frame.adds.length ≤ Memory.longest) →
      readWords word reply.fault [] reply.frames = some (reply.read limit) ∨
        readWords word reply.fault [] reply.frames = none ∧ Memory.longest < limit ∧
          Memory.longest < reply.data.length) ∧
    ∀ reply' : Reply, reply'.data = reply.data → reply.fault = none → reply'.fault = none →
      (∃ bytes, reply.read limit = .ok bytes ∧ reply'.read limit = .ok bytes) ∨
      ∃ actual actual', reply.read limit = .error (.bodyTooLarge limit actual) ∧
        reply'.read limit = .error (.bodyTooLarge limit actual') := by
  refine ⟨fun bytes => Reply.read_eq_ok_iff, fun r => Reply.ends_iff.symm, fun before after held parts got => ?_,
    fun word same pieces => ?_, fun reply' same sound sound' => ?_⟩
  · exact Reply.read_after parts got
  · subst same
    exact readWords_eq word reply.fault (Nat.zero_le _) pieces
  · exact Reply.read_alike same sound sound'

namespace Sample

def parts (lengths : List Nat) (fault : Option Failure) : Reply :=
  { status := ⟨200⟩
    headers := .empty
    frames := (lengths.map fun n => Frame.data (List.replicate n 0x61)) ++ [.trailers .empty]
    fault }

end Sample

/-- A body of exactly the limit in two ways, one of which has an empty part, and one that passes the limit before it
breaks. -/
theorem body_limited_exactly :
    (Sample.parts [3, 0, 1] none).read 4 = .ok [0x61, 0x61, 0x61, 0x61] ∧
    readFrames 4 none [] [.data [0x61, 0x61, 0x61], .data []] = .ok [0x61, 0x61, 0x61] ∧
    readWords 4 none [] (Sample.parts [3, 0, 1] none).frames = some (.ok [0x61, 0x61, 0x61, 0x61]) ∧
    (Sample.parts [2, 2] none).read 4 = (Sample.parts [3, 0, 1] none).read 4 ∧
    (Sample.parts [3, 2, 7] (some [.io .timedOut])).read 4 = .error (.bodyTooLarge 4 5) := by
  obtain ⟨whole, _, held, words, alike⟩ := body_limited 4 (Sample.parts [3, 0, 1] none)
  have read := (whole [0x61, 0x61, 0x61, 0x61]).mpr (by decide)
  have kept := held [.data [0x61, 0x61, 0x61], .data []] [.data [0x61], .trailers .empty] [0x61, 0x61, 0x61] rfl rfl
  refine ⟨read, by rw [kept.1]; rfl, ?_, ?_, ?_⟩
  · rcases words 4 rfl (by decide) with same | ⟨_, large, _⟩
    · exact same.trans (congrArg some read)
    · exact absurd large (by decide)
  · rcases alike (Sample.parts [2, 2] none) rfl rfl rfl with ⟨bytes, first, second⟩ | ⟨_, _, larger, _⟩
    · rw [first, second]
    · rw [read] at larger
      cases larger
  · have cut : (Sample.parts [3, 2, 7] (some [.io .timedOut])).frames =
        [.data [0x61, 0x61, 0x61]] ++ .data [0x61, 0x61] :: [.data (List.replicate 7 0x61), .trailers .empty] := rfl
    exact ((body_limited 4 _).2.1 _).mpr (.tooLarge cut (by decide) (by decide))

end EngineClient
