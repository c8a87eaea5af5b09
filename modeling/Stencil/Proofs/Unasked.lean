import Stencil.Proofs.LoadOnce

/-!
# Names that nobody asks for

Nothing but an operation that asks a renderer for a name calls the loader of this renderer for it: a
render or a parse call of the name, be it one of the session or one that code performs. So a name
that is not cached stays so as long as nobody asks for it (`Run.cached?_eq_none`).
-/

namespace Stencil

variable {Ω : Type}

namespace World

variable {i : Nat} {name : String} {w w' w'' : World Ω}

/-- Only a call of its loader brings a name into a cache that it is not in. -/
theorem Run.cached?_eq_none {es : List (Event Ω)} (run : Run w es w') (hw : w.Sound)
    (h : w.cached? i name = none) (he : ∀ load, .invoked i name load ∉ es) :
    w'.cached? i name = none := by
  induction run with
  | refl w => exact h
  | @head w w₁ w' e es m rest ih =>
    refine ih (m.sound hw) ?_ fun load hl => he load (List.mem_append_right e hl)
    cases hc : w₁.cached? i name with
    | none => rfl
    | some a =>
      rcases m.entry_inv hw hc with before | ⟨hi, -⟩
      · rw [h] at before
        cases before
      · exact absurd (List.mem_append_left es hi) (he a.2)

/-- A run in which no loader is called for the name on behalf of the renderer. -/
structure Unloaded (i : Nat) (name : String) (w w' : World Ω) : Prop where
  later : w.Later w'
  run : ∃ es, Run w es w' ∧ ∀ load, .invoked i name load ∉ es

namespace Unloaded

theorem refl (w : World Ω) : w.Unloaded i name w := ⟨.refl w, [], .refl w, by simp⟩

theorem trans (h : w.Unloaded i name w') (h' : w'.Unloaded i name w'') :
    w.Unloaded i name w'' := by
  obtain ⟨later, es, run, he⟩ := h
  obtain ⟨later', es', run', he'⟩ := h'
  refine ⟨later.trans later', es ++ es', run.trans run', fun load hl => ?_⟩
  rcases List.mem_append.mp hl with hl | hl
  · exact he load hl
  · exact he' load hl

theorem of_length (later : w.Later w')
    (h : w'.loads.results.length = w.loads.results.length) : w.Unloaded i name w' := by
  obtain ⟨es, run⟩ := later.run
  refine ⟨later, es, run, fun load hl => ?_⟩
  have counted := run.range_load?
  rw [h] at counted
  have none : es.filterMap Event.load? = [] := List.append_right_eq_self.mp counted
  cases List.filterMap_eq_nil_iff.mp none _ hl

theorem of_results (later : w.Later w') (h : w'.loads.results = w.loads.results) :
    w.Unloaded i name w' :=
  of_length later (congrArg _ h)

theorem cached? (h : w.Unloaded i name w') (hw : w.Reached) (hn : w.cached? i name = none) :
    w'.cached? i name = none := by
  obtain ⟨-, es, run, he⟩ := h
  exact run.cached?_eq_none hw.sound hn he

end Unloaded

theorem unloaded_of_change {ok : Record → Prop}
    (c : Change ok (fun j other => (j, other) ≠ (i, name)) w w') : w.Unloaded i name w' := by
  have later := c.later
  cases c with
  | still _ _ loads => exact .of_results later (congrArg _ loads)
  | record | update | create | flush => exact .of_results later rfl
  | opened hr hn may =>
    refine ⟨later, _, opened_run hr hn, fun load hl => may ?_⟩
    cases List.mem_singleton.mp hl
    rfl
  | enter load => exact .of_results later (Loads.results_enter ..)
  | leave load => exact .of_results later (Loads.results_leave ..)
  | look pending => exact .of_results later (Loads.results_poll_of_none pending)
  | release gate => exact .of_results later (Loads.results_release ..)
  | settle =>
    refine .of_length later ?_
    rw [loads_settle, Loads.results_poll, List.length_set]

theorem unloaded_of_late {ok : Record → Prop} {u : World Ω} (l : Late ok w w' u) :
    w'.Unloaded i name u := by
  have later := l.later
  cases l with
  | start => exact .of_results later (Loads.results_start ..)
  | orphan => exact .of_results later (Loads.results_orphan ..)
  | poison => exact .of_results later (Loads.results_poison ..)

theorem tracks_unloaded {w₀ : World Ω} (h₀ : w₀.Reached) :
    Tracks (fun _ => True) (fun j other => (j, other) ≠ (i, name)) (Unloaded i name) w₀ where
  refl := .refl
  trans := .trans
  later h := h.later
  change := unloaded_of_change
  late h l := h.trans (unloaded_of_late l)
  ok_of _ _ := trivial
  reached h := h.later.reached h₀
  plain {w} _ := w.plain_of_forall fun _ => trivial

end World

namespace Session

open World

variable {i : Nat} {name : String} {w : World Op}

/-- What surrounds code at a depth, if operations that ask the renderer for the name are refused. -/
def hostBut (i : Nat) (name : String) : Nat → SessionHost
  | 0 => hostAt 0
  | n + 1 =>
    { perform := fun op w =>
        if asks w op = some (i, name) then (.silent, w)
        else
          let (answer, w) := step (hostBut i name n) w op
          (answer, w.recordAnswer answer)
      log := fun r w => w.record r }

/-- Only an operation that asks a renderer for a name calls its loader, or code that it runs. -/
theorem step_unloaded {host : SessionHost}
    (h : host.Akin (fun _ => True) (Unloaded i name) w host) (hw : w.Reached) {op : Op}
    (unasked : asks w op ≠ some (i, name)) : w.Unloaded i name (step host w op).2 := by
  refine (step_follows (tracks_unloaded hw) h op (fun j other asked same => ?_) (.refl w)).step
  exact unasked (asked.trans (congrArg _ same))

theorem hostBut_akin (hw : w.Reached) (n : Nat) : (hostBut i name n).Akin (fun _ => True)
    (Unloaded i name) w (hostBut i name n) := by
  have logged (r : Record) (v : World Op) : v.Unloaded i name (v.record r) :=
    .of_results (later_record v r) rfl
  induction n generalizing w with
  | zero => exact ⟨fun op v _ => .of_step (.refl v), fun r _ v _ => .of_step (logged r v)⟩
  | succ n ih =>
    refine ⟨fun op v hv => .of_step ?_, fun r _ v _ => .of_step (logged r v)⟩
    have reached := hv.later.reached hw
    simp only [hostBut]
    split
    · exact .refl v
    · rename_i unasked
      exact (step_unloaded (ih reached) reached unasked).trans
        (.of_results (later_recordAnswer ..) rfl)

/-- Operations of a session that do not ask the renderer for the name. Code that they run does not
ask either: it makes no difference if such operations of code are refused. -/
def Unasked (i : Nat) (name : String) : World Op → List Op → Prop
  | _, [] => True
  | w, op :: rest => asks w op ≠ some (i, name) ∧
      step (hostBut i name depthLimit) (cleared w) op = step (hostAt depthLimit) (cleared w) op ∧
      Unasked i name (reportStep w op).2 rest

theorem Unasked.unloaded {ops : List Op} (h : Unasked i name w ops) (hw : w.Reached) :
    w.Unloaded i name (after w ops) := by
  induction ops generalizing w with
  | nil => exact .refl w
  | cons op rest ih =>
    obtain ⟨unasked, same, h⟩ := h
    have reached := (later_cleared w).reached hw
    have stepped : (cleared w).Unloaded i name (reportStep w op).2 := by
      have unasked : asks (cleared w) op ≠ some (i, name) := unasked
      have refused := step_unloaded (hostBut_akin reached depthLimit) reached unasked
      rwa [same] at refused
    have first : w.Unloaded i name (cleared w) := .of_results (later_cleared w) rfl
    exact (first.trans stepped).trans (ih h (reportStep_reached op hw))

end Session
end Stencil
