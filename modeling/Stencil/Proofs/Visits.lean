import Stencil.Proofs.SessionLockstep

/-!
# Visits

A poll of a load has the future do its work and then looks at what is there. For work that is mute
both are one function of the slot of the load (`Slot.visit`), given what the work finds. A visit
that finds something fixes it: the next one sees the same, and nothing is left to do
(`Slot.visit_visit`). Visits of different loads do not notice each other.
-/

namespace Stencil

def Polled.ofOption {α : Type} : Option α → Polled α
  | some a => .ready a
  | none => .pending

variable {ω τ : Type}

theorem Load.receive_ready_of_poll {load : Load τ} {r : LoadResult τ}
    (h : (load.receive (.ready r)).poll = none) : load.receive (.ready r) = load := by
  cases load with
  | future f =>
    cases f with
    | pending => cases h
    | ready r => rfl
  | callback c => cases c <;> rfl
  | dual c f =>
    cases f with
    | pending => cases h
    | ready r => cases h

-- ---------------------------------------------------------------------------
-- One load
-- ---------------------------------------------------------------------------

namespace Slot

def look (s : Slot ω τ) : Polled (LoadResult τ) × Slot ω τ := (.ofOption s.poll.1, s.poll.2)

/-- Sees to the work of a load, and gives whether the load is in order. `finds` tells what work
finds; it is `none` for work that panics. -/
def drive (finds : ω → Option (Option (LoadResult τ))) (s : Slot ω τ) : Bool × Slot ω τ :=
  match s.worker with
  | .idle work =>
    match finds work with
    | none => (false, s.setWorker fun _ => .poisoned)
    | some none => (true, s)
    | some (some result) => (true, s.receive (.ready result))
  | .poisoned => (false, s)
  | .absent | .busy _ => (true, s)

def visit (finds : ω → Option (Option (LoadResult τ))) (s : Slot ω τ) :
    Polled (LoadResult τ) × Slot ω τ :=
  match s.drive finds with
  | (true, s) => s.look
  | (false, s) => (.panicked, s)

variable {finds : ω → Option (Option (LoadResult τ))} {s : Slot ω τ} {r : LoadResult τ}

theorem look_of_result? (h : s.result? = some r) : s.look = (.ready r, s) := by
  cases s with
  | reserved => cases h
  | started shared worker =>
    have hr : shared.result = some r := h
    cases hw : worker.isFree <;> simp [look, poll, hw, Shared.poll, hr, Polled.ofOption]

theorem visit_of_result? (h : s.result? = some r) : s.visit finds = (.ready r, s) := by
  cases s with
  | reserved => cases h
  | started shared worker =>
    obtain ⟨load, result⟩ := shared
    cases (show result = some r from h)
    exact look_of_result? h

/-- What a look or a visit sees, and the slot that it leaves: it finds nothing and changes nothing,
it finds a result and fixes it, or the load is ruined from then on. -/
inductive Seen (s : Slot ω τ) : Polled (LoadResult τ) × Slot ω τ → Prop
  | nothing : Seen s (.pending, s)
  | found {r : LoadResult τ} {s' : Slot ω τ} (h : s'.result? = some r) : Seen s (.ready r, s')
  | ruined {s' : Slot ω τ} (h : s'.worker = .poisoned) : Seen s (.panicked, s')

theorem seen_look (s : Slot ω τ) : s.Seen s.look := by
  cases hp : s.poll.1 with
  | some r =>
    rw [look, hp]
    exact .found (s.result?_poll.trans hp)
  | none =>
    have same : s.poll.2 = s := by
      cases s with
      | reserved => rfl
      | started shared worker =>
        obtain ⟨load, result⟩ := shared
        cases hw : worker.isFree with
        | false => simp [poll, hw]
        | true =>
          cases result with
          | some r => simp [poll, hw, Shared.poll] at hp
          | none =>
            cases hl : load.poll with
            | some r => simp [poll, hw, Shared.poll, hl] at hp
            | none => simp [poll, hw, Shared.poll, hl]
    rw [look, hp, same]
    exact .nothing

theorem look_of_idle (load : Load τ) (work : ω) :
    (Slot.started ⟨load, none⟩ (.idle work)).look.1 = .ofOption load.poll := by
  cases hl : load.poll <;> simp [look, poll, Worker.isFree, Shared.poll, hl]

theorem worker_eq_idle {work : ω} (h : s.worker = .idle work) :
    ∃ load, s = .started ⟨load, none⟩ (.idle work) := by
  cases s with
  | reserved => cases h
  | started shared worker =>
    obtain ⟨load, result⟩ := shared
    cases result with
    | some r => cases h
    | none =>
      obtain rfl : worker = .idle work := h
      exact ⟨load, rfl⟩

/-- Nothing is lost of what work finds: where no look finds it, the load has no future. -/
theorem seen_receive (load : Load τ) (work : ω) (r : LoadResult τ) :
    (Slot.started ⟨load, none⟩ (.idle work)).Seen
      ((Slot.started ⟨load, none⟩ (.idle work)).receive (.ready r)).look := by
  have looked := look_of_idle (load.receive (.ready r)) work
  have seen := (Slot.started ⟨load.receive (.ready r), none⟩ (.idle work)).seen_look
  simp only [receive, Shared.receive]
  generalize Slot.look _ = x at looked seen
  cases seen with
  | found h => exact .found h
  | ruined h => exact .ruined h
  | nothing =>
    have silent : (load.receive (.ready r)).poll = none := by
      cases h : (load.receive (.ready r)).poll with
      | none => rfl
      | some r => simp [h, Polled.ofOption] at looked
    rw [Load.receive_ready_of_poll silent]
    exact .nothing

theorem seen_visit (finds : ω → Option (Option (LoadResult τ))) (s : Slot ω τ) :
    s.Seen (s.visit finds) := by
  cases hw : s.worker with
  | absent => simpa [visit, drive, hw] using s.seen_look
  | busy work => simpa [visit, drive, hw] using s.seen_look
  | poisoned => simpa [visit, drive, hw] using Seen.ruined hw
  | idle work =>
    obtain ⟨load, rfl⟩ := worker_eq_idle hw
    cases hf : finds work with
    | none =>
      simp only [visit, drive, hw, hf]
      exact .ruined rfl
    | some found =>
      simp only [visit, drive, hw, hf]
      cases found with
      | none => exact seen_look _
      | some r => exact seen_receive load work r

theorem visit_of_poisoned (h : s.worker = .poisoned) : s.visit finds = (.panicked, s) := by
  simp [visit, drive, h]

/-- A second visit sees what the first one saw, and leaves all as it is. -/
theorem visit_visit (finds : ω → Option (Option (LoadResult τ))) (s : Slot ω τ) :
    (s.visit finds).2.visit finds = s.visit finds := by
  generalize hv : s.visit finds = v
  have seen := s.seen_visit finds
  rw [hv] at seen
  cases seen with
  | nothing => exact hv
  | found h => exact visit_of_result? h
  | ruined h => exact visit_of_poisoned h

end Slot

-- ---------------------------------------------------------------------------
-- All loads
-- ---------------------------------------------------------------------------

namespace Loads

def visit (finds : ω → Option (Option (LoadResult τ))) (ls : Loads ω τ) (i : Nat) :
    Polled (LoadResult τ) × Loads ω τ :=
  match ls.slots[i]? with
  | none => (.pending, ls)
  | some slot =>
    let (result, slot) := slot.visit finds
    (result, ls.update i fun _ => slot)

variable {finds : ω → Option (Option (LoadResult τ))} (ls : Loads ω τ) (i j : Nat)

theorem visit_snd : (ls.visit finds i).2 = ls.update i fun s => (s.visit finds).2 := by
  unfold visit
  cases hs : ls.slots[i]? with
  | none =>
    have short : ls.slots.length ≤ i := List.getElem?_eq_none_iff.mp hs
    simp [update, List.modify_eq_self short]
  | some slot =>
    simp only [update]
    congr 1
    refine modify_congr fun s h => ?_
    rw [Option.some.inj (hs.symm.trans h)]

theorem visit_fst :
    (ls.visit finds i).1 = ((ls.slots[i]?).map fun s => (s.visit finds).1).getD .pending := by
  unfold visit
  cases ls.slots[i]? <;> rfl

theorem visit_fst_visit : ((ls.visit finds i).2.visit finds j).1 = (ls.visit finds j).1 := by
  simp only [visit_fst, visit_snd, update, List.getElem?_modify]
  split
  · rename_i hij
    subst hij
    cases ls.slots[i]? with
    | none => rfl
    | some s => simp [Slot.visit_visit]
  · cases ls.slots[j]? <;> rfl

theorem visit_comm :
    ((ls.visit finds i).2.visit finds j).2 = ((ls.visit finds j).2.visit finds i).2 := by
  simp only [visit_snd, update]
  congr 1
  apply List.ext_getElem?
  intro k
  simp only [List.getElem?_modify]
  by_cases hi : i = k <;> by_cases hj : j = k <;> simp [hi, hj]

theorem worker_visit_of_ne (h : i ≠ j) : (ls.visit finds i).2.worker j = ls.worker j := by
  simp only [worker, visit_snd, update, List.getElem?_modify, if_neg h]
  cases ls.slots[j]? <;> rfl

theorem update_update (f g : Slot ω τ → Slot ω τ) :
    (ls.update i f).update i g = ls.update i (g ∘ f) := by
  simp only [update, List.modify_modify_eq]

variable {ls i} {s : Slot ω τ} (hs : ls.slots[i]? = some s)

include hs

theorem visit_of_slot :
    ls.visit finds i = ((s.visit finds).1, ls.update i fun _ => (s.visit finds).2) := by
  simp [visit, hs]

theorem update_of_slot (f : Slot ω τ → Slot ω τ) :
    (ls.update i f).slots[i]? = some (f s) := by
  simp [update, hs]

theorem update_const (f : Slot ω τ → Slot ω τ) : ls.update i f = ls.update i fun _ => f s := by
  simp only [update]
  congr 1
  refine modify_congr fun a ha => ?_
  rw [Option.some.inj (ha.symm.trans hs)]

theorem update_slot : (ls.update i fun _ => s) = ls := by
  have same : ls.update i id = ls := by rw [update, List.modify_id]
  exact (update_const hs id).symm.trans same

theorem poll_update (f : Slot ω τ → Slot ω τ) :
    (ls.update i f).poll i = ((f s).poll.1, ls.update i fun _ => (f s).poll.2) := by
  simp only [poll, update_of_slot hs, update_update]
  rfl

end Loads

namespace Slot

variable {good : LoadResult τ → Prop} {fit : ω → Prop} {s : Slot ω τ}
  {finds : ω → Option (Option (LoadResult τ))}
  (hf : ∀ work, fit work → ∀ r, finds work = some (some r) → good r)
  (ho : ∀ r ∈ s.offers, good r) (hw : ∀ work, s.work? = some work → fit work)

include hf ho hw

theorem good_drive : (∀ r ∈ (s.drive finds).2.offers, good r) ∧
    ∀ work, (s.drive finds).2.work? = some work → fit work := by
  cases hk : s.worker with
  | absent => simpa only [drive, hk] using ⟨ho, hw⟩
  | busy work => simpa only [drive, hk] using ⟨ho, hw⟩
  | poisoned => simpa only [drive, hk] using ⟨ho, hw⟩
  | idle work =>
    obtain ⟨load, rfl⟩ := worker_eq_idle hk
    cases hr : finds work with
    | none =>
      simp only [drive, hk, hr]
      exact ⟨ho, nofun⟩
    | some found =>
      simp only [drive, hk, hr]
      cases found with
      | none => exact ⟨ho, hw⟩
      | some result =>
        have found := hf work (hw work rfl) result hr
        exact ⟨fun r hr => (offers_receive hr).elim (ho r) fun h => h ▸ found, hw⟩

theorem good_visit : (∀ r, (s.visit finds).1 = .ready r → good r) ∧
    (∀ r ∈ (s.visit finds).2.offers, good r) ∧
    ∀ work, (s.visit finds).2.work? = some work → fit work := by
  have driven := good_drive hf ho hw
  unfold visit
  generalize s.drive finds = x at driven
  obtain ⟨ok, s'⟩ := x
  obtain ⟨ho', hw'⟩ := driven
  cases ok with
  | false => exact ⟨nofun, ho', hw'⟩
  | true =>
    refine ⟨fun r hr => ho' r (offers_poll (.inr ?_)), fun r hr => ho' r (offers_poll (.inl hr)),
      fun work h => hw' work (by simpa [look] using h)⟩
    simp only [look] at hr
    cases hp : s'.poll.1 with
    | none => simp [hp, Polled.ofOption] at hr
    | some r' => simpa [hp, Polled.ofOption] using hr

end Slot

namespace Loads.All

variable {good : LoadResult τ → Prop} {fit : ω → Prop} {ls : Loads ω τ}
  {finds : ω → Option (Option (LoadResult τ))}

theorem visit (h : ls.All good fit)
    (hf : ∀ work, fit work → ∀ r, finds work = some (some r) → good r) (i : Nat) :
    (∀ r, (ls.visit finds i).1 = .ready r → good r) ∧ (ls.visit finds i).2.All good fit := by
  cases hs : ls.slots[i]? with
  | none =>
    simp only [Loads.visit, hs]
    exact ⟨nofun, h⟩
  | some s =>
    have hm := List.mem_of_getElem? hs
    obtain ⟨seen, offers, works⟩ := Slot.good_visit hf (h.offers s hm) (h.works s hm)
    rw [visit_of_slot hs]
    exact ⟨seen, h.update (fun _ _ => offers) (fun _ _ => works) i⟩

end Loads.All

-- ---------------------------------------------------------------------------
-- Mute work
-- ---------------------------------------------------------------------------

variable {Ω : Type}

def Work.finds (work : Work Ω) : Option (Option (LoadResult (Template Ω))) :=
  (work.run .logging .none []).1

theorem Work.Mute.finds {work : Work Ω} (h : work.Mute) {r : LoadResult (Template Ω)}
    (hr : work.finds = some (some r)) : LoadResult.Mute r :=
  Code.good_of_run h hr r rfl

def Work.tells (work : Work Ω) : List Record := (work.run .logging .none []).2

def Loads.tells (ls : Loads (Work Ω) (Template Ω)) (load : Nat) : List Record :=
  match ls.worker load with
  | .idle work => work.tells
  | _ => []

namespace World

variable {host : Host Ω (World Ω)} {w : World Ω}

def visit (w : World Ω) (load : Nat) : Polled (LoadResult (Template Ω)) × World Ω :=
  let (seen, loads) := w.loads.visit Work.finds load
  (seen, { w with loads := loads }.logged (w.loads.tells load))

section

variable (hl : host.Logs) (hw : w.loads.All LoadResult.Mute Work.Mute)

include hl hw

theorem drive_mute {load : Nat} {s : Slot (Work Ω) (Template Ω)}
    (hs : w.loads.slots[load]? = some s) :
    drive host load w = ((s.drive Work.finds).1,
      { w with loads := w.loads.update load fun _ => (s.drive Work.finds).2 }.logged
        (w.loads.tells load)) := by
  have worker : w.loads.worker load = s.worker := by simp [Loads.worker, hs]
  simp only [drive, Loads.tells, worker, Slot.drive]
  cases hk : s.worker with
  | absent => simp only [Loads.update_slot hs, logged_nil]
  | busy work => simp only [Loads.update_slot hs, logged_nil]
  | poisoned => simp only [Loads.update_slot hs, logged_nil]
  | idle work =>
    obtain ⟨shared, rfl⟩ := Slot.worker_eq_idle hk
    have ran := Code.run_aside hl Dispatcher.aside_none (hw.of_worker (worker.trans hk))
      { w with loads := w.loads.enter load } []
    rw [logged_nil] at ran
    simp only [ran, Work.finds, Work.tells]
    generalize work.run .logging .none [] = x
    obtain ⟨found, rs⟩ := x
    cases found with
    | none =>
      simp only [Loads.poison, Loads.enter, logged, Loads.update_update,
        Loads.update_const hs (_ ∘ _)]
      rfl
    | some came =>
      cases came <;> simp only [Loads.leave, Loads.enter, logged, Loads.update_update,
        Loads.update_const hs (_ ∘ _)] <;> rfl

theorem pollLoad_mute (load : Nat) :
    pollLoad host load w =
      match w.visit load with
      | (.ready result, v) => (.ready result, v.wake load)
      | (seen, v) => (seen, v) := by
  cases hs : w.loads.slots[load]? with
  | none =>
    simp [pollLoad, drive, visit, Loads.tells, Loads.worker, Loads.visit, Loads.poll, hs, logged]
  | some s =>
    simp only [pollLoad, drive_mute hl hw hs, visit, Loads.visit_of_slot hs, Slot.visit]
    generalize s.drive Work.finds = x
    obtain ⟨ok, s'⟩ := x
    cases ok with
    | false => rfl
    | true =>
      simp only [logged, Loads.poll_update hs, Slot.look]
      cases s'.poll.1 <;> rfl

end

end World
end Stencil
