import Mathlib.Data.List.Nodup
import Stencil.Proofs.Turns

/-!
# Renders with a callback

A parse call asks for its render at once, as a render call does, and leaves the rest to a task. From
then on each turn of the task is one poll of the render, as for any future that the executor drives
(`World.turn_rendering`). The callback is called once, with the output of the render, when that is
there and the task has yielded. It is never called if the render fails.
-/

namespace Stencil

variable {Ω : Type}

namespace World

variable {hosts : Host Ω (World Ω) → Prop} {yields : Polled (Except Error String) → Prop}
  {start : Task Ω} {s s' : Point Ω} {w : World Ω} {hand : List (Task Ω)}

-- ---------------------------------------------------------------------------
-- The call
-- ---------------------------------------------------------------------------

theorem parse_eq_schedule (host : Host Ω (World Ω)) (i : Nat) {name : String} (hname : name ≠ "")
    {args : Arguments (Receiver Ω)} {receiver : Receiver Ω}
    (hreceiver : args.shift.callback.callback? = some receiver) {executor : Bool}
    (hexecutor : (w.inExecutor || executor) = true) :
    parse host i name args executor w =
      let (answer, after) := schedule host i name args.shift receiver { w with inExecutor := true }
      (answer, { after with inExecutor := w.inExecutor }) := by
  have hempty : name.isEmpty = false := by
    rw [← Bool.not_eq_true, String.isEmpty_iff]
    exact hname
  simp [parse, parseShifted, hreceiver, hempty, hexecutor]

section Schedule

variable {host : Host Ω (World Ω)} {i : Nat} {name : String} {args : Arguments (Receiver Ω)}
  {receiver : Receiver Ω} {block : Option String} {v : World Ω}

end Schedule

-- ---------------------------------------------------------------------------
-- The turns
-- ---------------------------------------------------------------------------

/-- The world in which a callback has its output, before it does anything. -/
def delivered (w : World Ω) (task : Nat) (r : Receiver Ω) (output : String) : World Ω :=
  { w with outputs := w.outputs ++ [(r.label, output)],
           journal := w.journal ++ [.called task output] }

/-- A run from `s` comes to a turn of the task in which the callback gets the output, and it may go
on to `w` from there. -/
def Delivers (hosts : Host Ω (World Ω) → Prop) (s : Point Ω) (task : Nat) (r : Receiver Ω)
    (output : String) (w : World Ω) : Prop :=
  ∃ v rest, Course hosts s (v, ⟨task, .yielded output, r⟩ :: rest) ∧
    Course hosts s (v.delivered task r output, rest) ∧ (v.delivered task r output).Later w

section Delivers

variable {task : Nat} {r : Receiver Ω} {output : String} {w' : World Ω}

theorem Delivers.later (h : Delivers hosts s task r output w) (hl : w.Later w') :
    Delivers hosts s task r output w' := by
  obtain ⟨v, rest, turn, call, after⟩ := h
  exact ⟨v, rest, turn, call, after.trans hl⟩

theorem Delivers.before (h : Delivers hosts s' task r output w) (c : Course hosts s s') :
    Delivers hosts s task r output w := by
  obtain ⟨v, rest, turn, call, after⟩ := h
  exact ⟨v, rest, c.trans turn, c.trans call, after⟩

theorem journal_finish (t : Task Ω) (result : Except Error String) (w : World Ω) :
    (finish t result w).journal = w.journal ++ [.rendered t.id result] := by
  cases result <;> rfl

/-- The journal does not have a call unless the output was delivered. -/
theorem Course.delivers (c : Course hosts s s') (called : .called task output ∈ s'.1.journal) :
    .called task output ∈ s.1.journal ∨ ∃ r, Delivers hosts s task r output s'.1 := by
  have marked {w : World Ω} {m : Milestone} (hm : ∀ task output, m ≠ .called task output)
      (called : .called task output ∈ w.journal ++ [m]) : .called task output ∈ w.journal :=
    (List.mem_append.mp called).resolve_right fun h =>
      hm task output (List.mem_singleton.mp h).symm
  induction c with
  | refl s => exact .inl called
  | quiet _ later moved ih =>
    exact (ih (moved.journal ▸ called)).imp_right fun ⟨r, h⟩ => ⟨r, h.later later⟩
  | spawn _ asked receiver ih =>
    exact (ih called).imp_right fun ⟨r, h⟩ => ⟨r, h.later (later_spawn asked receiver)⟩
  | park _ _ asked ih =>
    exact (ih called).imp_right fun ⟨r, h⟩ => ⟨r, h.later (later_park asked)⟩
  | @ruin _ v w t _ before _ _ _ _ _ meanwhile ih ih' =>
    have hl := later_mark w (.ruined t.id)
    rcases ih' (marked (by simp) called) with earlier | ⟨r, h⟩
    · exact (ih earlier).imp_right fun ⟨r, h⟩ => ⟨r, h.later (meanwhile.later.trans hl)⟩
    · exact .inr ⟨r, (h.before before).later hl⟩
  | @render _ v w t _ before _ _ _ _ result _ meanwhile ih ih' =>
    have hl := later_finish t result w
    rcases ih' (marked (by simp) (journal_finish t result w ▸ called)) with earlier | ⟨r, h⟩
    · exact (ih earlier).imp_right fun ⟨r, h⟩ => ⟨r, h.later (meanwhile.later.trans hl)⟩
    · exact .inr ⟨r, (h.before before).later hl⟩
  | @settle _ w t _ _ found _ ih =>
    have hl := later_finish t (.ok found) w
    exact (ih (marked (by simp) called)).imp_right fun ⟨r, h⟩ => ⟨r, h.later hl⟩
  | @call _ w t rest before found stage ih =>
    rcases List.mem_append.mp called with earlier | here
    · have hl := (Course.call (.refl (w, t :: rest)) stage : Course hosts ..).later
      exact (ih earlier).imp_right fun ⟨r, h⟩ => ⟨r, h.later hl⟩
    · obtain ⟨rfl, rfl⟩ : task = t.id ∧ output = found := by simpa using here
      obtain ⟨id, _, r⟩ := t
      cases stage
      exact .inr ⟨r, w, rest, before, .call before rfl, .refl _⟩

end Delivers

-- ---------------------------------------------------------------------------
-- What becomes of the task
-- ---------------------------------------------------------------------------

/-- Once no turn is left to be given, all tasks wait for loads. -/
theorem Orderly.waits_of_idle (ho : Orderly s) (idle : s.active = []) {t : Task Ω}
    (ht : t ∈ s.tasks) : s.1.Waits t := by
  simp only [Point.tasks, idle, List.nil_append] at ht
  exact ho.parked t ht

namespace Told

/-- Once no turn is left to be given, a task of which nothing is said waits for its load. -/
theorem waits (h : Told yields start s) (ho : Orderly s) (idle : s.active = [])
    (silent : s.1.story start.id = []) : start ∈ s.1.parked ∧ s.1.Waits start := by
  cases h with
  | waiting there _ =>
    refine ⟨?_, ho.waits_of_idle idle there⟩
    simpa only [Point.tasks, idle, List.nil_append] using there
  | rendered _ _ told | called _ _ told | failed _ _ told | ruined _ _ told =>
    rw [told] at silent
    cases silent

end Told

end World

open World Session

end Stencil
