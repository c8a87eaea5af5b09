import Stencil.Loads

/-!
# Results of loads

`results` lists, for each load that was ever asked for, the result that it is fixed to. Nothing that
happens to the sides of a load touches the list: loaders that hand over or give up, gates that open,
and work that is done inside of polls all leave it as it is. Reserving a load adds one place to it,
and a poll that finds a result fixes it (`results_poll`). A result that is there stays: every later
look finds the same (`poll_of_result?`).

What a look would find (`found`) changes for the loads only whose events happen or whose work is
through; looks that are taken change it for none (`found_poll`).
-/

namespace Stencil

theorem map_modify {α β : Type} {g : α → β} {f : α → α} {k : β → β}
    (h : ∀ a, g (f a) = k (g a)) (l : List α) (i : Nat) :
    (l.modify i f).map g = (l.map g).modify i k := by
  apply List.ext_getElem?
  intro j
  simp only [List.getElem?_map, List.getElem?_modify]
  split <;> cases l[j]? <;> simp [h]

theorem modify_congr {α : Type} {f g : α → α} {l : List α} {i : Nat}
    (h : ∀ a, l[i]? = some a → f a = g a) : l.modify i f = l.modify i g := by
  apply List.ext_getElem?
  intro j
  simp only [List.getElem?_modify]
  split
  · rename_i hij
    subst hij
    cases ha : l[i]? with
    | none => rfl
    | some a => simp [h a ha]
  · rfl

theorem forall_mem_modify {α : Type} {p : α → Prop} {l : List α} (h : ∀ a ∈ l, p a) {f : α → α}
    (hf : ∀ a, p a → p (f a)) (i : Nat) : ∀ a ∈ l.modify i f, p a := by
  intro a hm
  obtain ⟨j, hj⟩ := List.getElem?_of_mem hm
  rw [List.getElem?_modify] at hj
  obtain ⟨a', ha', rfl⟩ := Option.map_eq_some_iff.mp hj
  have hp := h a' (List.mem_of_getElem? ha')
  split
  · exact hf a' hp
  · exact hp

variable {ω τ : Type}

namespace Slot

@[simp] theorem result?_receive (s : Slot ω τ) (e : LoadEvent τ) :
    (s.receive e).result? = s.result? := by
  cases s <;> rfl

@[simp] theorem result?_setWorker (s : Slot ω τ) (f : Worker ω → Worker ω) :
    (s.setWorker f).result? = s.result? := by
  cases s <;> rfl

theorem result?_poll (s : Slot ω τ) : s.poll.2.result? = s.poll.1 := by
  cases s with
  | reserved => rfl
  | started shared worker =>
    obtain ⟨load, result⟩ := shared
    cases hw : worker.isFree with
    | false => simp [poll, hw, result?]
    | true =>
      cases result with
      | some r => simp [poll, hw, result?, Shared.poll]
      | none => cases hl : load.poll <;> simp [poll, hw, result?, Shared.poll, hl]

theorem poll_of_result? {s : Slot ω τ} {r : LoadResult τ} (h : s.result? = some r) :
    s.poll.1 = some r := by
  cases s with
  | reserved => simp [result?] at h
  | started shared worker =>
    have hr : shared.result = some r := h
    cases hw : worker.isFree <;> simp [poll, hw, Shared.poll, hr]

theorem poll_poll (s : Slot ω τ) : s.poll.2.poll.1 = s.poll.1 := by
  cases hp : s.poll.1 with
  | some r => exact poll_of_result? (s.result?_poll.trans hp)
  | none =>
    cases s with
    | reserved => rfl
    | started shared worker =>
      obtain ⟨load, result⟩ := shared
      cases hw : worker.isFree with
      | false => simpa [poll, hw] using hp
      | true =>
        cases result with
        | some r => simp [poll, hw, Shared.poll] at hp
        | none =>
          cases hl : load.poll with
          | some r => simp [poll, hw, Shared.poll, hl] at hp
          | none => simp [poll, hw, Shared.poll, hl]

theorem result?_of_poll {s : Slot ω τ} (h : s.poll.1 = none) : s.result? = none := by
  cases hr : s.result? with
  | none => rfl
  | some r => cases h.symm.trans (poll_of_result? hr)

theorem poll_setWorker {s : Slot ω τ} {f : Worker ω → Worker ω}
    (hf : ∀ k, f k = k ∨ (f k).isFree = false) (h : s.poll.1 = none) :
    (s.setWorker f).poll.1 = none := by
  cases s with
  | reserved => rfl
  | started shared worker =>
    rcases hf worker with he | hb
    · simpa [setWorker, he] using h
    · have hr : shared.result = none := result?_of_poll h
      simp [setWorker, poll, hb, hr]

end Slot

namespace Loads

def results (ls : Loads ω τ) : List (Option (LoadResult τ)) := ls.slots.map Slot.result?

theorem length_results (ls : Loads ω τ) : ls.results.length = ls.slots.length := List.length_map _

theorem result?_eq (ls : Loads ω τ) (i : Nat) : ls.result? i = ls.results[i]?.join := by
  simp only [result?, results, List.getElem?_map]
  cases ls.slots[i]? <;> rfl

theorem results_update {f : Slot ω τ → Slot ω τ} (h : ∀ s, (f s).result? = s.result?)
    (ls : Loads ω τ) (i : Nat) : (ls.update i f).results = ls.results := by
  simp only [results, update]
  rw [map_modify (k := id) h, List.modify_id]

-- ---------------------------------------------------------------------------
-- What leaves the results as they are
-- ---------------------------------------------------------------------------

@[simp] theorem results_deliver (ls : Loads ω τ) (i : Nat) (load : Load τ) (work : Option ω) :
    (ls.deliver i load work).results = ls.results :=
  results_update (fun s => by cases s <;> rfl) ls i

@[simp] theorem results_orphan (ls : Loads ω τ) (i : Nat) : (ls.orphan i).results = ls.results :=
  results_deliver ..

@[simp] theorem results_schedule (ls : Loads ω τ) (i : Nat) (e : LoadEvent τ)
    (gate : Option String) : (ls.schedule i e gate).results = ls.results := by
  cases gate with
  | none => exact results_update (fun s => s.result?_receive e) ls i
  | some gate => rfl

@[simp] theorem results_start (ls : Loads ω τ) (i : Nat) (work : Option ω) (plan : Plan τ) :
    (ls.start i work plan).results = ls.results := by
  cases plan with
  | future f => simp [start]
  | callback c => simp [start]
  | dual c f => cases c <;> cases f <;> simp [start]

theorem results_foldl_receive (opened : List (Waiting τ)) (ls : Loads ω τ) :
    (opened.foldl (fun ls w => ls.update w.load (·.receive w.event)) ls).results = ls.results := by
  induction opened generalizing ls with
  | nil => rfl
  | cons w rest ih =>
    rw [List.foldl_cons, ih]
    exact results_update (fun s => s.result?_receive w.event) ls w.load

@[simp] theorem results_release (ls : Loads ω τ) (gate : String) :
    (ls.release gate).2.results = ls.results :=
  results_foldl_receive ..

@[simp] theorem results_enter (ls : Loads ω τ) (i : Nat) : (ls.enter i).results = ls.results :=
  results_update (fun s => s.result?_setWorker _) ls i

@[simp] theorem results_poison (ls : Loads ω τ) (i : Nat) : (ls.poison i).results = ls.results :=
  results_update (fun s => s.result?_setWorker _) ls i

@[simp] theorem results_leave (ls : Loads ω τ) (i : Nat) (found : Option (LoadResult τ)) :
    (ls.leave i found).results = ls.results := by
  have hw := results_update (fun s => s.result?_setWorker Worker.leave) ls i
  cases found with
  | none => exact hw
  | some r => exact (results_update (fun s => s.result?_receive _) _ i).trans hw

-- ---------------------------------------------------------------------------
-- What changes them
-- ---------------------------------------------------------------------------

@[simp] theorem results_reserve (ls : Loads ω τ) : ls.reserve.2.results = ls.results ++ [none] := by
  simp [results, reserve, Slot.result?]

theorem results_poll (ls : Loads ω τ) (i : Nat) :
    (ls.poll i).2.results = ls.results.set i (ls.poll i).1 := by
  cases hs : ls.slots[i]? with
  | none =>
    have hlen : ls.slots.length ≤ i := List.getElem?_eq_none_iff.mp hs
    simp [poll, List.set_eq_of_length_le, length_results, hlen]
  | some slot =>
    apply List.ext_getElem?
    intro j
    simp only [poll, hs, results, update, List.getElem?_map, List.getElem?_modify,
      List.getElem?_set, List.length_map]
    by_cases hij : i = j
    · subst hij
      have hlt : i < ls.slots.length := (List.getElem?_eq_some_iff.mp hs).1
      simp [hlt, Slot.result?_poll]
    · cases ls.slots[j]? <;> simp [hij]

theorem poll_of_result? {ls : Loads ω τ} {i : Nat} {r : LoadResult τ} (h : ls.result? i = some r) :
    (ls.poll i).1 = some r := by
  obtain ⟨slot, hs, hr⟩ := Option.bind_eq_some_iff.mp h
  simp [poll, hs, Slot.poll_of_result? hr]

theorem results_poll_of_none {ls : Loads ω τ} {i : Nat} (h : (ls.poll i).1 = none) :
    (ls.poll i).2.results = ls.results := by
  rw [results_poll, h]
  apply List.ext_getElem?
  intro j
  rw [List.getElem?_set]
  split
  · rename_i hij
    subst hij
    cases hj : ls.results[i]? with
    | none => simp [List.getElem?_eq_none_iff.mp hj]
    | some r =>
      cases r with
      | none => simp [(List.getElem?_eq_some_iff.mp hj).1]
      | some result =>
        rw [poll_of_result? (r := result) (by simp [result?_eq, hj])] at h
        cases h
  · rfl

theorem result?_poll (ls : Loads ω τ) (i j : Nat) :
    (ls.poll i).2.result? j = if i = j then (ls.poll i).1 else ls.result? j := by
  rw [result?_eq, result?_eq, results_poll, List.getElem?_set]
  by_cases hij : i = j
  · subst hij
    by_cases hlt : i < ls.results.length
    · simp [hlt]
    · have hs : ls.slots[i]? = none := by
        rw [List.getElem?_eq_none_iff, ← length_results]
        omega
      simp [hlt, poll, hs]
  · simp [hij]

/-- No work is left of a load that has a result. -/
theorem worker_of_result? {ls : Loads ω τ} {i : Nat} {r : LoadResult τ}
    (h : ls.result? i = some r) : ls.worker i = .absent := by
  obtain ⟨slot, hs, hr⟩ := Option.bind_eq_some_iff.mp h
  cases slot with
  | reserved => cases hr
  | started shared worker =>
    obtain ⟨load, result⟩ := shared
    cases (show result = some r from hr)
    simp [Loads.worker, hs, Slot.worker]

-- ---------------------------------------------------------------------------
-- What a look would find
-- ---------------------------------------------------------------------------

def found (ls : Loads ω τ) (i : Nat) : Option (LoadResult τ) := (ls.poll i).1

theorem found_eq (ls : Loads ω τ) (i : Nat) :
    ls.found i = ls.slots[i]?.bind fun s => s.poll.1 := by
  unfold found poll
  cases ls.slots[i]? <;> rfl

theorem found_update (ls : Loads ω τ) (i j : Nat) (f : Slot ω τ → Slot ω τ) :
    (ls.update i f).found j =
      if i = j then ls.slots[j]?.bind fun s => (f s).poll.1 else ls.found j := by
  simp only [found_eq, update, List.getElem?_modify]
  split <;> cases ls.slots[j]? <;> rfl

theorem found_update_of_ne (ls : Loads ω τ) {i j : Nat} (h : i ≠ j) (f : Slot ω τ → Slot ω τ) :
    (ls.update i f).found j = ls.found j := by
  rw [found_update, if_neg h]

theorem found_update_of_none {ls : Loads ω τ} {j : Nat} {f : Slot ω τ → Slot ω τ}
    (hf : ∀ s, s.poll.1 = none → (f s).poll.1 = none) (i : Nat) (h : ls.found j = none) :
    (ls.update i f).found j = none := by
  rw [found_update]
  split
  · refine Option.bind_eq_none_iff.mpr fun s hs => hf s ?_
    rw [found_eq] at h
    exact Option.bind_eq_none_iff.mp h s hs
  · exact h

theorem found_poll (ls : Loads ω τ) (i j : Nat) : (ls.poll i).2.found j = ls.found j := by
  unfold poll
  cases hs : ls.slots[i]? with
  | none => rfl
  | some slot =>
    simp only [found_update]
    split
    · rename_i hij
      subst hij
      simp [found_eq, hs, Slot.poll_poll]
    · rfl

theorem found_reserve (ls : Loads ω τ) (j : Nat) : ls.reserve.2.found j = ls.found j := by
  simp only [found_eq, reserve, List.getElem?_append]
  split
  · rfl
  · rename_i h
    rw [List.getElem?_eq_none_iff.mpr (Nat.le_of_not_lt h)]
    cases j - ls.slots.length <;> rfl

theorem found_enter {ls : Loads ω τ} {j : Nat} (i : Nat) (h : ls.found j = none) :
    (ls.enter i).found j = none :=
  found_update_of_none (fun _ => Slot.poll_setWorker fun k => by cases k <;> simp [Worker.enter,
    Worker.isFree]) i h

theorem found_poison {ls : Loads ω τ} {j : Nat} (i : Nat) (h : ls.found j = none) :
    (ls.poison i).found j = none :=
  found_update_of_none (fun _ => Slot.poll_setWorker fun _ => .inr rfl) i h

section

variable (ls : Loads ω τ) {i j : Nat}

theorem found_leave_of_ne (h : i ≠ j) (result : Option (LoadResult τ)) :
    (ls.leave i result).found j = ls.found j := by
  cases result with
  | none => exact ls.found_update_of_ne h _
  | some r => exact (found_update_of_ne _ h _).trans (ls.found_update_of_ne h _)

theorem found_schedule_of_ne (h : i ≠ j) (e : LoadEvent τ) (gate : Option String) :
    (ls.schedule i e gate).found j = ls.found j := by
  cases gate with
  | none => exact ls.found_update_of_ne h _
  | some gate => rw [found_eq, found_eq, schedule]

theorem found_deliver_of_ne (h : i ≠ j) (load : Load τ) (work : Option ω) :
    (ls.deliver i load work).found j = ls.found j :=
  ls.found_update_of_ne h _

theorem found_orphan_of_ne (h : i ≠ j) : (ls.orphan i).found j = ls.found j :=
  ls.found_deliver_of_ne h ..

theorem found_start_of_ne (h : i ≠ j) (work : Option ω) (plan : Plan τ) :
    (ls.start i work plan).found j = ls.found j := by
  cases plan with
  | future f => simp [start, found_schedule_of_ne _ h, found_deliver_of_ne _ h]
  | callback c => simp [start, found_schedule_of_ne _ h, found_deliver_of_ne _ h]
  | dual c f =>
    cases c <;> cases f <;> simp [start, found_schedule_of_ne _ h, found_deliver_of_ne _ h]

theorem found_foldl_receive {opened : List (Waiting τ)} (h : ∀ w ∈ opened, w.load ≠ j) :
    (opened.foldl (fun ls w => ls.update w.load (·.receive w.event)) ls).found j =
      ls.found j := by
  induction opened generalizing ls with
  | nil => rfl
  | cons w rest ih =>
    obtain ⟨hw, hr⟩ := List.forall_mem_cons.mp h
    exact (ih _ hr).trans (ls.found_update_of_ne hw _)

theorem found_release {gate : String} (h : j ∉ (ls.release gate).1) :
    (ls.release gate).2.found j = ls.found j := by
  have closed (shut : List (Waiting τ)) : ({ ls with waiting := shut } : Loads ω τ).found j =
      ls.found j := by rw [found_eq, found_eq]
  exact (found_foldl_receive _ fun w hw he => h (List.mem_map.mpr ⟨w, hw, he⟩)).trans (closed _)

end

end Loads
end Stencil
