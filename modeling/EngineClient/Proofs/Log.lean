import EngineClient.Proofs.Sending

/-!
# What was logged before

Nothing that a client does depends on its log, to which it only adds events. Exchanges therefore go alike on wires that
differ in what was logged before, and in how events are told that are not of the wire.
-/

namespace EngineClient

/-! ### Wires with another log -/

namespace Wire

/-- A wire on which something else was logged before, and events are told in other words. -/
def retold (f : LogEvent → LogEvent) (past : List LogEvent) (w : Wire) : Wire :=
  { w with log := past ++ w.log.map f }

/-- A wire on which something else was logged before. -/
def behind (past : List LogEvent) (w : Wire) : Wire :=
  { w with log := past ++ w.log }

theorem retold_id (past : List LogEvent) (w : Wire) : w.retold id past = w.behind past := by
  simp [retold, behind]

theorem behind_log (w : Wire) : behind w.log { w with log := [] } = w := by
  simp [behind]

theorem note_retold (f : LogEvent → LogEvent) (past : List LogEvent) (e : LogEvent) (w : Wire) :
    (w.retold f past).note (f e) = (w.note e).retold f past := by
  simp [retold, note]

theorem noteAll_retold (f : LogEvent → LogEvent) (past es : List LogEvent) (w : Wire) :
    (w.retold f past).noteAll (es.map f) = (w.noteAll es).retold f past := by
  simp [retold, noteAll]

end Wire

/-! ### Exchanges -/

namespace Client
variable {f : LogEvent → LogEvent} {past : List LogEvent} {w : Wire} (c : Client)

theorem noteIf_retold (kept : f e = e) : c.noteIf e (w.retold f past) = (c.noteIf e w).retold f past := by
  have noted := Wire.note_retold f past e w
  rw [kept] at noted
  unfold noteIf
  split
  · exact noted
  · rfl

theorem shut_retold (kept : f .clientClosed = .clientClosed) : shut (w.retold f past) = (shut w).retold f past := by
  have noted := Wire.note_retold f past .clientClosed w
  rw [kept] at noted
  have opened : (w.retold f past).isOpen = w.isOpen := rfl
  unfold shut
  rw [opened, noted]
  split <;> rfl

section Exchange
variable (kept : ∀ e, e.isWire = true → f e = e)
include kept

theorem depart_retold (o : Outbound) :
    c.depart o (w.retold f past) = ((c.depart o w).1, (c.depart o w).2.retold f past) := by
  have outcome : (w.retold f past).network (w.retold f past).sent o = w.network w.sent o := rfl
  unfold depart trace
  rw [outcome, noteIf_retold c (kept _ rfl)]
  cases w.network w.sent o with
  | unreachable failure =>
    dsimp only
    rw [noteIf_retold c (kept _ rfl)]
  | refused | broken | silent | answered => rfl

theorem arrive_retold (e : InFlight) :
    c.arrive e (w.retold f past) = ((c.arrive e w).1, (c.arrive e w).2.retold f past) := by
  have later : ∀ t, waitUntil t (w.retold f past) = (waitUntil t w).retold f past := fun _ => rfl
  unfold arrive
  cases e.outcome with
  | unreachable failure | refused failure | broken failure =>
    dsimp only
    rw [noteIf_retold c (kept _ rfl)]
  | silent => rfl
  | answered delay reply =>
    dsimp only
    rw [later, later, noteIf_retold c (kept _ rfl)]
    split <;> rfl

end Exchange

theorem depart_behind (o : Outbound) :
    c.depart o (w.behind past) = ((c.depart o w).1, (c.depart o w).2.behind past) := by
  simpa only [Wire.retold_id] using c.depart_retold (f := id) (fun _ _ => rfl) o

theorem arrive_behind (e : InFlight) :
    c.arrive e (w.behind past) = ((c.arrive e w).1, (c.arrive e w).2.behind past) := by
  simpa only [Wire.retold_id] using c.arrive_retold (f := id) (fun _ _ => rfl) e

end Client
end EngineClient
