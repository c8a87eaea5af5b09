import Stencil.Proofs.Session
import Stencil.Proofs.Settling

/-!
# Loads go on

A load that was handed over goes on by the events of its sides and by looks at it, and by nothing
else. A load that is still reserved stays so until its own loader is through: operations that are
nested in the loader hand over loads of their own only. Which of the loads that are reserved may be
handed over is a parameter here: none of them, as long as the loaders of all are still at work.
-/

namespace Stencil

variable {Ω ω τ : Type} {may : Nat → Prop}

def Worker.isAbsent : Worker ω → Bool
  | .absent => true
  | _ => false

/-- What may become of a load, and whether it may be handed over. Work does not come up in a load
without work, nor does it go. -/
inductive Slot.Onward (may : Prop) : Slot ω τ → Slot ω τ → Prop
  | reserved : Onward may .reserved .reserved
  | handed (h : may) (s : Shared τ) (k : Worker ω) : Onward may .reserved (.started s k)
  | started {s : Shared τ} {k k' : Worker ω} (ms : List (Moment τ))
      (hk : k'.isAbsent = k.isAbsent) : Onward may (.started s k) (.started (s.after ms) k')

/-- Of the loads that are reserved, those by the numbers `may` may be handed over. -/
structure Loads.Onward (may : Nat → Prop) (ls ls' : Loads ω τ) : Prop where
  slot : ∀ {i : Nat} {slot : Slot ω τ}, ls.slots[i]? = some slot →
    ∃ slot', ls'.slots[i]? = some slot' ∧ slot.Onward (may i) slot'

namespace Slot

variable {may : Prop}

theorem Onward.refl (s : Slot ω τ) : s.Onward may s := by
  cases s with
  | reserved => exact .reserved
  | started s k => exact .started [] rfl

theorem Onward.trans {s s' s'' : Slot ω τ} (h : s.Onward may s') (h' : s'.Onward may s'') :
    s.Onward may s'' := by
  cases h with
  | reserved => exact h'
  | handed h s k =>
    cases h'
    exact .handed h ..
  | @started s k k' ms hk =>
    cases h' with
    | @started _ _ k'' ms' hk' =>
      rw [← Shared.after_append]
      exact .started (ms ++ ms') (hk'.trans hk)

theorem onward_receive (s : Slot ω τ) (e : LoadEvent τ) : s.Onward may (s.receive e) := by
  cases s with
  | reserved => exact .reserved
  | started s k => exact .started [.event e] rfl

theorem onward_poll (s : Slot ω τ) : s.Onward may s.poll.2 := by
  cases s with
  | reserved => exact .reserved
  | started s k =>
    cases hk : k.isFree with
    | true =>
      simp only [poll, hk, if_true]
      exact .started [.look] rfl
    | false =>
      simp only [poll, hk, Bool.false_eq_true, if_false]
      exact .started [] rfl

theorem onward_setWorker {s : Slot ω τ} {f : Worker ω → Worker ω}
    (hf : ∀ s' k, s = .started s' k → (f k).isAbsent = k.isAbsent) :
    s.Onward may (s.setWorker f) := by
  cases s with
  | reserved => exact .reserved
  | started s k => exact .started [] (hf s k rfl)

end Slot

namespace Loads

variable {ls ls' ls'' : Loads ω τ}

theorem Onward.refl (ls : Loads ω τ) : ls.Onward may ls :=
  ⟨fun {_ slot} h => ⟨slot, h, .refl slot⟩⟩

theorem Onward.trans (h : ls.Onward may ls') (h' : ls'.Onward may ls'') : ls.Onward may ls'' := by
  refine ⟨fun hs => ?_⟩
  obtain ⟨slot', hs', first⟩ := h.slot hs
  obtain ⟨slot'', hs'', second⟩ := h'.slot hs'
  exact ⟨slot'', hs'', first.trans second⟩

theorem Onward.of_slots (h : ls'.slots = ls.slots) : ls.Onward may ls' :=
  ⟨fun {_ slot} hs => ⟨slot, h ▸ hs, .refl slot⟩⟩

theorem onward_update {i : Nat} {f : Slot ω τ → Slot ω τ}
    (h : ∀ s, ls.slots[i]? = some s → s.Onward (may i) (f s)) :
    ls.Onward may (ls.update i f) := by
  refine ⟨fun {j slot} hs => ?_⟩
  rw [update, List.getElem?_modify, hs]
  by_cases hij : i = j
  · subst hij
    exact ⟨f slot, by simp, h slot hs⟩
  · exact ⟨slot, by simp [hij], .refl slot⟩

theorem onward_reserve (ls : Loads ω τ) : ls.Onward may ls.reserve.2 := by
  refine ⟨fun {i slot} hs => ?_⟩
  have hi : i < ls.slots.length := (List.getElem?_eq_some_iff.mp hs).1
  exact ⟨slot, by rw [reserve, List.getElem?_append_left hi, hs], .refl slot⟩

theorem onward_enter (ls : Loads ω τ) (i : Nat) : ls.Onward may (ls.enter i) :=
  onward_update fun _ _ => Slot.onward_setWorker fun _ k _ => by cases k <;> rfl

theorem onward_leave (ls : Loads ω τ) (i : Nat) (found : Option (LoadResult τ)) :
    ls.Onward may (ls.leave i found) := by
  have left : ls.Onward may (ls.update i (·.setWorker .leave)) :=
    onward_update fun _ _ => Slot.onward_setWorker fun _ k _ => by cases k <;> rfl
  cases found with
  | none => exact left
  | some r => exact left.trans (onward_update fun s _ => s.onward_receive _)

theorem onward_poll (ls : Loads ω τ) (i : Nat) : ls.Onward may (ls.poll i).2 := by
  unfold poll
  split
  · exact .refl ls
  · rename_i slot hs
    refine onward_update fun s h => ?_
    cases hs.symm.trans h
    exact slot.onward_poll

theorem onward_release (ls : Loads ω τ) (gate : String) : ls.Onward may (ls.release gate).2 := by
  have received (opened : List (Waiting τ)) (ls : Loads ω τ) :
      ls.Onward may (opened.foldl (fun ls w => ls.update w.load (·.receive w.event)) ls) := by
    induction opened generalizing ls with
    | nil => exact .refl ls
    | cons w rest ih => exact (onward_update fun s _ => s.onward_receive w.event).trans (ih _)
  have closed : ls.Onward may { ls with waiting := (ls.waiting.partition (·.gate == gate)).2 } :=
    .of_slots rfl
  exact closed.trans (received ..)

theorem onward_schedule (ls : Loads ω τ) (i : Nat) (e : LoadEvent τ) (gate : Option String) :
    ls.Onward may (ls.schedule i e gate) := by
  cases gate with
  | none => exact onward_update fun s _ => s.onward_receive e
  | some gate => exact .of_slots rfl

theorem onward_deliver (ls : Loads ω τ) {i : Nat} (h : may i) (load : Load τ) (work : Option ω) :
    ls.Onward may (ls.deliver i load work) := by
  refine onward_update fun s _ => ?_
  cases s with
  | reserved => exact .handed h ..
  | started s k => exact .refl _

/-- What happens to a load that was not there yet is of no account. -/
theorem Onward.update_fresh (h : ls.Onward may ls') {i : Nat} (fresh : ls.slots.length ≤ i)
    (f : Slot ω τ → Slot ω τ) : ls.Onward may (ls'.update i f) := by
  refine ⟨fun {j slot} hs => ?_⟩
  obtain ⟨slot', hs', onward⟩ := h.slot hs
  have hj : j < ls.slots.length := (List.getElem?_eq_some_iff.mp hs).1
  have hij : i ≠ j := by omega
  exact ⟨slot', by simp [update, hij, hs'], onward⟩

theorem Onward.start {i : Nat} {work : Option ω}
    (delivered : ∀ load, ls.Onward may (ls'.deliver i load work)) (plan : Plan τ) :
    ls.Onward may (ls'.start i work plan) := by
  cases plan with
  | future f => exact (delivered _).trans (onward_schedule ..)
  | callback c => exact (delivered _).trans (onward_schedule ..)
  | dual c f =>
    -- the callback first, then the future if there is one
    cases c <;> cases f <;> simp only [Loads.start]
    · exact (delivered _).trans (onward_schedule ..)
    · exact ((delivered _).trans (onward_schedule ..)).trans (onward_schedule ..)
    · exact (delivered _).trans (onward_schedule ..)
    · exact ((delivered _).trans (onward_schedule ..)).trans (onward_schedule ..)

theorem Onward.poison (h : ls.Onward may ls') {i : Nat} {work : ω}
    (working : ls.worker i = .idle work) : ls.Onward may (ls'.poison i) := by
  refine ⟨fun {j slot} hs => ?_⟩
  obtain ⟨slot', hs', onward⟩ := h.slot hs
  rw [Loads.poison, update, List.getElem?_modify, hs']
  by_cases hij : i = j
  · subst hij
    refine ⟨slot'.setWorker fun _ => .poisoned, by simp, onward.trans (Slot.onward_setWorker ?_)⟩
    rintro s k rfl
    cases onward with
    | handed => simp [Loads.worker, hs, Slot.worker] at working
    | @started s₀ k₀ _ ms hk =>
      rw [hk]
      cases k₀ with
      | absent =>
        obtain ⟨load, result⟩ := s₀
        cases result <;> simp [Loads.worker, hs, Slot.worker] at working
      | idle work => rfl
      | busy work => rfl
      | poisoned => rfl
  · exact ⟨slot', by simp [hij], onward⟩

end Loads

namespace World

/-- A run in which all loads go on, and of those that are reserved some may be handed over. -/
structure Onward (may : Nat → Prop) (w w' : World Ω) : Prop where
  later : w.Later w'
  loads : w.loads.Onward may w'.loads

variable {w w' u u' : World Ω} {ok : Record → Prop}

theorem Onward.refl (w : World Ω) : w.Onward may w := ⟨.refl w, .refl w.loads⟩

theorem Onward.trans (h : w.Onward may w') (h' : w'.Onward may u) : w.Onward may u :=
  ⟨h.later.trans h'.later, h.loads.trans h'.loads⟩

theorem onward_of_change {new : Nat → String → Prop} (c : Change ok new w w') :
    w.loads.Onward may w'.loads := by
  cases c with
  | still _ _ loads => rw [loads]; exact .refl _
  | record => exact .refl _
  | update => exact .refl _
  | create => exact .refl _
  | flush => exact .refl _
  | opened => exact w.loads.onward_reserve
  | enter load => exact w.loads.onward_enter load
  | leave load => exact w.loads.onward_leave load _
  | @look load => exact w.loads.onward_poll load
  | release gate => exact w.loads.onward_release gate
  | @settle p b result =>
    rw [loads_settle]
    exact w.loads.onward_poll b.load

theorem onward_of_late (h : w.loads.Onward may u.loads) (l : Late ok w u u') :
    w.loads.Onward may u'.loads := by
  cases l with
  | start fresh => exact .start (fun _ => h.update_fresh fresh _) _
  | orphan fresh => exact h.update_fresh fresh _
  | poison working => exact h.poison working

theorem tracks_onward {w₀ : World Ω} (h₀ : w₀.Reached) :
    Tracks (fun _ => True) (fun _ _ => True) (Onward may) w₀ where
  refl := .refl
  trans := .trans
  later h := h.later
  change c := ⟨c.later, onward_of_change c⟩
  late h l := ⟨h.later.trans l.later, onward_of_late h.loads l⟩
  ok_of _ _ := trivial
  reached h := h.later.reached h₀
  plain {w} _ := w.plain_of_forall fun _ => trivial

-- ---------------------------------------------------------------------------
-- Calls that are under way
-- ---------------------------------------------------------------------------

abbrev Goes (w w' : World Ω) : Prop := w.Onward (fun _ => True) w'

def handOver (w : World Ω) (l : Nat) (h : Handover Ω) : World Ω :=
  { w with loads := w.loads.start l h.work h.plan }.wake l

def abandon (w : World Ω) (l : Nat) : World Ω := { w with loads := w.loads.orphan l }.wake l

/-- What a call that was under way does when the code that it ran is through, next to what it does
in any case (`Change`). -/
inductive Through (w : World Ω) : World Ω → Prop
  | handOver (l : Nat) (h : Handover Ω) : Through w (w.handOver l h)
  | abandon (l : Nat) : Through w (w.abandon l)
  | poison {l : Nat} {s : Shared (Template Ω)} {k : Worker (Work Ω)}
      (hs : w.loads.slots[l]? = some (.started s k)) (working : k.isAbsent = false) :
      Through w { w with loads := w.loads.poison l }

theorem later_abandon (w : World Ω) (l : Nat) : w.Later (w.abandon l) :=
  (later_loads (Loads.results_orphan ..)).trans (later_wake ..)

theorem Through.goes (t : Through w w') : w.Goes w' := by
  cases t with
  | handOver l h =>
    refine ⟨(later_loads (Loads.results_start ..)).trans (later_wake ..), ?_⟩
    have delivered (load : Load (Template Ω)) :
        w.loads.Onward (fun _ => True) (w.loads.deliver l load h.work) :=
      w.loads.onward_deliver trivial load _
    exact .start delivered h.plan
  | abandon l => exact ⟨later_abandon w l, w.loads.onward_deliver trivial ..⟩
  | poison hs working =>
    refine ⟨later_loads (Loads.results_poison ..), Loads.onward_update fun slot h => ?_⟩
    refine Slot.onward_setWorker ?_
    rintro s' k' rfl
    cases hs.symm.trans h
    exact working.symm

/-- Code of a session, wherever it runs. -/
theorem onward_run {α : Type} (n : Nat) {w : World Op} (hw : w.Reached) (c : Code Op α) :
    w.Onward may (c.run (Session.hostAt n) .none w).2 := by
  have tracks : Tracks (fun _ => True) (fun _ _ => True) (Onward may) w := tracks_onward hw
  have plain : c.Within (fun _ => True) fun _ => True :=
    Code.within_of_forall (fun _ => trivial) (fun _ => trivial) c
  have akin := Session.hostAt_akin_self tracks (fun _ _ => trivial) n
  exact (Code.run_follows tracks akin (Dispatcher.none_akin tracks) plain (tracks.refl w)).1.step

end World
end Stencil
