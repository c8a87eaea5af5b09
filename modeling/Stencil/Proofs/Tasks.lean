import Stencil.Parse
import Stencil.Proofs.Loads
import Stencil.Proofs.Operations

/-!
# The course of tasks

A run that is looked at for its tasks. Between two points of it tasks are begun, wait for loads, get
their output, yield once and call back. A task is out of the world's reach while it takes its turn;
such tasks are in hand, the innermost first, since a turn may be taken inside of another one. No
wake-up is lost: a task that gets no turn waits for a load that is not there (`Orderly.parked`).

The numbers of tasks are never used again, so what the journal says of a number is the story of one
task (`Course.told`): its render ends once at most, and its callback is called once at most, with
what the render yielded.
-/

namespace Stencil

variable {Ω : Type}

def Milestone.task : Milestone → Nat
  | .rendered task _ => task
  | .ruined task => task
  | .called task _ => task

namespace World

abbrev Point (Ω : Type) := World Ω × List (Task Ω)

namespace Point

def active (s : Point Ω) : List (Task Ω) := s.2 ++ (s.1.ready ++ s.1.yielded)

def tasks (s : Point Ω) : List (Task Ω) := s.active ++ s.1.parked

end Point

/-- The task is about a render whose load is not there yet. -/
def Waits (w : World Ω) (t : Task Ω) : Prop :=
  ∃ p load, t.stage = .rendering p ∧ p.load? = some load ∧ w.loads.found load = none

theorem Waits.of_found {w w' : World Ω} {t : Task Ω} (h : w.Waits t)
    (hf : ∀ load, t.load? = some load → w.loads.found load = none → w'.loads.found load = none) :
    w'.Waits t := by
  obtain ⟨p, load, stage, bound, hn⟩ := h
  exact ⟨p, load, stage, bound, hf load (by simpa only [Task.load?, stage] using bound) hn⟩

/-- The tasks stay what they are; they change places only, and some may no longer wait for a
load. No load comes without waking those who wait for it. -/
structure Moved (s s' : Point Ω) : Prop where
  places : ∃ woken, s'.active.Perm (woken ++ s.active) ∧ s.1.parked.Perm (woken ++ s'.1.parked)
  waits : ∀ t ∈ s'.1.parked, s.1.Waits t → s'.1.Waits t
  spawned : s'.1.spawned = s.1.spawned
  journal : s'.1.journal = s.1.journal

/-- A run with all that becomes of tasks in it. The renders of tasks are polled by `hosts`. -/
inductive Course (hosts : Host Ω (World Ω) → Prop) : Point Ω → Point Ω → Prop
  | refl (s : Point Ω) : Course hosts s s
  | quiet {s s' s'' : Point Ω} (before : Course hosts s s') (later : s'.1.Later s''.1)
      (moved : Moved s' s'') : Course hosts s s''
  | spawn {s : Point Ω} {w : World Ω} {hand : List (Task Ω)} (before : Course hosts s (w, hand))
      {stage : Stage} (asked : ∀ p, stage = .rendering p → w.Asked p) (receiver : Receiver Ω) :
      Course hosts s (w.spawn stage receiver, hand)
  | park {s : Point Ω} {w : World Ω} {t : Task Ω} {hand : List (Task Ω)}
      (before : Course hosts s (w, t :: hand)) (waits : w.Waits t)
      (asked : ∀ p, t.stage = .rendering p → w.Asked p) :
      Course hosts s ({ w with parked := w.parked ++ [t] }, hand)
  | ruin {s : Point Ω} {v w : World Ω} {t : Task Ω} {hand : List (Task Ω)}
      (before : Course hosts s (v, t :: hand)) {p : Pending} (stage : t.stage = .rendering p)
      {host : Host Ω (World Ω)} (some : hosts host) (polled : poll host p v = (.panicked, w))
      (meanwhile : Course hosts (v, t :: hand) (w, t :: hand)) :
      Course hosts s (w.mark (.ruined t.id), hand)
  | render {s : Point Ω} {v w : World Ω} {t : Task Ω} {hand : List (Task Ω)}
      (before : Course hosts s (v, t :: hand)) {p : Pending} (stage : t.stage = .rendering p)
      {host : Host Ω (World Ω)} (some : hosts host) {result : Except Error String}
      (polled : poll host p v = (.ready result, w))
      (meanwhile : Course hosts (v, t :: hand) (w, t :: hand)) :
      Course hosts s (finish t result w, hand)
  | settle {s : Point Ω} {w : World Ω} {t : Task Ω} {hand : List (Task Ω)}
      (before : Course hosts s (w, t :: hand)) {output : String}
      (stage : t.stage = .settled output) : Course hosts s (finish t (.ok output) w, hand)
  | call {s : Point Ω} {w : World Ω} {t : Task Ω} {hand : List (Task Ω)}
      (before : Course hosts s (w, t :: hand)) {output : String}
      (stage : t.stage = .yielded output) :
      Course hosts s
        ((w.mark (.called t.id output)).recordOutput t.receiver.label output, hand)

variable {hosts : Host Ω (World Ω) → Prop} {s s' s'' : Point Ω} {w : World Ω}

namespace Course

theorem trans (first : Course hosts s s') (second : Course hosts s' s'') : Course hosts s s'' := by
  induction second with
  | refl s => exact first
  | quiet _ later moved ih => exact .quiet (ih first) later moved
  | spawn _ asked receiver ih => exact .spawn (ih first) asked receiver
  | park _ waits asked ih => exact .park (ih first) waits asked
  | ruin _ stage some polled meanwhile ih _ => exact .ruin (ih first) stage some polled meanwhile
  | render _ stage some polled meanwhile ih _ =>
    exact .render (ih first) stage some polled meanwhile
  | settle _ stage ih => exact .settle (ih first) stage
  | call _ stage ih => exact .call (ih first) stage

theorem later (c : Course hosts s s') : s.1.Later s'.1 := by
  induction c with
  | refl s => exact .refl s.1
  | quiet _ later _ ih => exact ih.trans later
  | spawn _ asked receiver ih => exact ih.trans (later_spawn asked receiver)
  | park _ _ asked ih => exact ih.trans (later_park asked)
  | ruin _ _ _ _ _ ih ih' => exact ih.trans (ih'.trans (later_mark ..))
  | render _ _ _ _ _ ih ih' => exact ih.trans (ih'.trans (later_finish ..))
  | @settle _ w t _ _ output _ ih =>
    have hl := later_finish t (.ok output) w
    exact ih.trans hl
  | call _ _ ih => exact ih.trans ((later_mark ..).trans (later_recordOutput ..))

end Course

-- ---------------------------------------------------------------------------
-- Where the tasks are
-- ---------------------------------------------------------------------------

open scoped List in
theorem Moved.perm (m : Moved s s') : s'.tasks.Perm s.tasks := by
  obtain ⟨woken, ha, hp⟩ := m.places
  calc s'.tasks
    _ ~ (woken ++ s.active) ++ s'.1.parked := ha.append_right _
    _ ~ (s.active ++ woken) ++ s'.1.parked := List.perm_append_comm.append_right _
    _ ~ s.active ++ (woken ++ s'.1.parked) := .of_eq (List.append_assoc ..)
    _ ~ s.tasks := hp.symm.append_left _

theorem perm_spawn (w : World Ω) (hand : List (Task Ω)) (stage : Stage) (r : Receiver Ω) :
    (Point.tasks (w.spawn stage r, hand)).Perm
      (⟨w.spawned, stage, r⟩ :: Point.tasks (w, hand)) := by
  simp only [Point.tasks, Point.active, spawn, List.append_assoc, List.singleton_append]
  rw [← List.append_assoc, ← List.append_assoc hand]
  exact List.perm_middle

theorem perm_park (w : World Ω) (t : Task Ω) (hand : List (Task Ω)) :
    (Point.tasks ({ w with parked := w.parked ++ [t] }, hand)).Perm
      (Point.tasks (w, t :: hand)) := by
  simp only [Point.tasks, Point.active, List.cons_append]
  rw [← List.append_assoc]
  exact List.perm_append_comm

theorem perm_yieldWith (w : World Ω) (t : Task Ω) (hand : List (Task Ω)) (output : String) :
    (Point.tasks (yieldWith t output w, hand)).Perm
      ({ t with stage := .yielded output } :: Point.tasks (w, hand)) := by
  simp only [Point.tasks, Point.active, yieldWith, List.append_assoc, List.singleton_append]
  rw [← List.append_assoc, ← List.append_assoc, ← List.append_assoc hand]
  exact List.perm_middle.trans (.of_eq (by simp))

-- ---------------------------------------------------------------------------
-- Numbers
-- ---------------------------------------------------------------------------

/-- Each task has a number of its own that was given out. The tasks that get no turn wait. -/
structure Orderly (s : Point Ω) : Prop where
  nodup : (s.tasks.map Task.id).Nodup
  issued : ∀ t ∈ s.tasks, t.id < s.1.spawned
  noted : ∀ m ∈ s.1.journal, m.task < s.1.spawned
  parked : ∀ t ∈ s.1.parked, s.1.Waits t

namespace Orderly

theorem empty : Orderly (({}, []) : Point Ω) :=
  ⟨List.nodup_nil, by simp [Point.tasks, Point.active], by simp, by simp⟩

theorem of_perm (h : Orderly s) (hp : (s'.tasks.map Task.id).Perm (s.tasks.map Task.id))
    (hs : s'.1.spawned = s.1.spawned) (hj : s'.1.journal = s.1.journal)
    (hw : ∀ t ∈ s'.1.parked, s'.1.Waits t) : Orderly s' where
  nodup := hp.nodup_iff.mpr h.nodup
  issued t ht := by
    obtain ⟨u, hu, he⟩ := List.mem_map.mp (hp.subset (List.mem_map_of_mem ht))
    rw [hs, ← he]
    exact h.issued u hu
  noted := by
    rw [hj, hs]
    exact h.noted
  parked := hw

theorem moved (h : Orderly s) (m : Moved s s') : Orderly s' := by
  obtain ⟨woken, -, hp⟩ := m.places
  exact h.of_perm (m.perm.map _) m.spawned m.journal fun t ht =>
    m.waits t ht (h.parked t (hp.symm.subset (List.mem_append_right woken ht)))

variable {t : Task Ω} {hand : List (Task Ω)}

theorem mark (h : Orderly (w, t :: hand)) {m : Milestone} (hm : m.task = t.id) :
    Orderly (w.mark m, t :: hand) where
  nodup := h.nodup
  issued := h.issued
  noted := List.forall_mem_append.mpr ⟨h.noted, by
    rw [List.forall_mem_singleton, hm]
    exact h.issued t (List.mem_cons_self ..)⟩
  parked := h.parked

theorem drop (h : Orderly (w, t :: hand)) : Orderly (w, hand) where
  nodup := (List.nodup_cons.mp h.nodup).2
  issued u hu := h.issued u (List.mem_cons_of_mem t hu)
  noted := h.noted
  parked := h.parked

theorem spawn (h : Orderly (w, hand)) (stage : Stage) (r : Receiver Ω) :
    Orderly (w.spawn stage r, hand) where
  nodup := by
    rw [((perm_spawn w hand stage r).map _).nodup_iff, List.map_cons, List.nodup_cons]
    refine ⟨fun hm => ?_, h.nodup⟩
    obtain ⟨u, hu, he⟩ := List.mem_map.mp hm
    exact absurd (h.issued u hu) (by simp [he])
  issued u hu := by
    rcases List.mem_cons.mp ((perm_spawn w hand stage r).subset hu) with rfl | hu
    · exact Nat.lt_succ_self _
    · exact Nat.lt_succ_of_lt (h.issued u hu)
  noted m hm := Nat.lt_succ_of_lt (h.noted m hm)
  parked := h.parked

theorem park (h : Orderly (w, t :: hand)) (ht : w.Waits t) :
    Orderly ({ w with parked := w.parked ++ [t] }, hand) :=
  h.of_perm ((perm_park w t hand).map _) rfl rfl
    (List.forall_mem_append.mpr ⟨h.parked, List.forall_mem_singleton.mpr ht⟩)

theorem finish (h : Orderly (w, t :: hand)) (result : Except Error String) :
    Orderly (World.finish t result w, hand) := by
  have hm := h.mark (m := .rendered t.id result) rfl
  cases result with
  | ok output => exact hm.of_perm ((perm_yieldWith ..).map _) rfl rfl h.parked
  | error e => exact hm.drop.of_perm (.refl _) rfl rfl h.parked

end Orderly

theorem Course.orderly (c : Course hosts s s') (h : Orderly s) : Orderly s' := by
  induction c with
  | refl s => exact h
  | quiet _ _ moved ih => exact (ih h).moved moved
  | spawn _ _ receiver ih => exact (ih h).spawn _ receiver
  | park _ waits _ ih => exact (ih h).park waits
  | ruin _ _ _ _ _ ih ih' => exact ((ih' (ih h)).mark rfl).drop
  | render _ _ _ _ _ ih ih' => exact (ih' (ih h)).finish _
  | settle _ _ ih => exact (ih h).finish _
  | call _ _ ih => exact ((ih h).mark rfl).drop.of_perm (.refl _) rfl rfl (ih h).parked

-- ---------------------------------------------------------------------------
-- The story of one task
-- ---------------------------------------------------------------------------

def story (w : World Ω) (task : Nat) : List Milestone := w.journal.filter (·.task = task)

theorem story_mark_self (w : World Ω) (m : Milestone) :
    (w.mark m).story m.task = w.story m.task ++ [m] := by
  simp [story, mark]

theorem story_mark_of_ne (w : World Ω) {m : Milestone} {task : Nat} (h : m.task ≠ task) :
    (w.mark m).story task = w.story task := by
  simp [story, mark, h]

/-- How the story of a task may read, by what its turns can find. -/
inductive Story (yields : Polled (Except Error String) → Prop) (task : Nat) : List Milestone → Prop
  | waiting : Story yields task []
  | rendered {output : String} (h : yields (.ready (.ok output))) :
      Story yields task [.rendered task (.ok output)]
  | called {output : String} (h : yields (.ready (.ok output))) :
      Story yields task [.rendered task (.ok output), .called task output]
  | failed {e : Error} (h : yields (.ready (.error e))) :
      Story yields task [.rendered task (.error e)]
  | ruined (h : yields .panicked) : Story yields task [.ruined task]

/-- Where a task is and what is said of it, from the stage in which it began. -/
inductive Told (yields : Polled (Except Error String) → Prop) (start : Task Ω) (s : Point Ω) : Prop
  | waiting (there : start ∈ s.tasks) (told : s.1.story start.id = [])
  | rendered {output : String} (h : yields (.ready (.ok output)))
      (there : { start with stage := .yielded output } ∈ s.tasks)
      (told : s.1.story start.id = [.rendered start.id (.ok output)])
  | called {output : String} (h : yields (.ready (.ok output)))
      (gone : start.id ∉ s.tasks.map Task.id)
      (told : s.1.story start.id =
        [.rendered start.id (.ok output), .called start.id output])
  | failed {e : Error} (h : yields (.ready (.error e))) (gone : start.id ∉ s.tasks.map Task.id)
      (told : s.1.story start.id = [.rendered start.id (.error e)])
  | ruined (h : yields .panicked) (gone : start.id ∉ s.tasks.map Task.id)
      (told : s.1.story start.id = [.ruined start.id])

namespace Told

variable {yields : Polled (Except Error String) → Prop} {start t : Task Ω} {hand : List (Task Ω)}

theorem story (h : Told yields start s) : Story yields start.id (s.1.story start.id) := by
  cases h with
  | waiting _ told => exact told ▸ .waiting
  | rendered h _ told => exact told ▸ .rendered h
  | called h _ told => exact told ▸ .called h
  | failed h _ told => exact told ▸ .failed h
  | ruined h _ told => exact told ▸ .ruined h

theorem issued (h : Told yields start s) (ho : Orderly s) : start.id < s.1.spawned := by
  have noted {m : Milestone} {rest : List Milestone} (hs : s.1.story start.id = m :: rest) :
      start.id < s.1.spawned := by
    have hm : m ∈ s.1.story start.id := hs ▸ List.mem_cons_self ..
    obtain ⟨hm, ht⟩ := List.mem_filter.mp hm
    exact of_decide_eq_true ht ▸ ho.noted m hm
  cases h with
  | waiting there _ => exact ho.issued _ there
  | rendered _ _ told | called _ _ told | failed _ _ told | ruined _ _ told => exact noted told

theorem of_tasks (h : Told yields start s)
    (ht : ∀ t, t.id = start.id → (t ∈ s'.tasks ↔ t ∈ s.tasks))
    (hs : s'.1.story start.id = s.1.story start.id) : Told yields start s' := by
  have gone (hg : start.id ∉ s.tasks.map Task.id) : start.id ∉ s'.tasks.map Task.id := by
    intro hm
    obtain ⟨u, hu, he⟩ := List.mem_map.mp hm
    exact hg (List.mem_map.mpr ⟨u, (ht u he).mp hu, he⟩)
  have kept {u : Task Ω} (hu : u ∈ s.tasks) (he : u.id = start.id) : u ∈ s'.tasks :=
    (ht u he).mpr hu
  cases h with
  | waiting there told => exact .waiting (kept there rfl) (hs.trans told)
  | rendered h there told => exact .rendered h (kept there rfl) (hs.trans told)
  | called h hg told => exact .called h (gone hg) (hs.trans told)
  | failed h hg told => exact .failed h (gone hg) (hs.trans told)
  | ruined h hg told => exact .ruined h (gone hg) (hs.trans told)

theorem of_perm (h : Told yields start s) (hp : s'.tasks.Perm s.tasks)
    (hj : s'.1.journal = s.1.journal) : Told yields start s' :=
  h.of_tasks (fun _ _ => hp.mem_iff) (by rw [World.story, hj, World.story])

theorem drop_of_ne (h : Told yields start (w, t :: hand)) (hne : t.id ≠ start.id) :
    Told yields start (w, hand) :=
  h.of_tasks (fun _ hu => ⟨List.mem_cons_of_mem t, fun hm =>
    (List.mem_cons.mp hm).resolve_left fun he => hne (he ▸ hu)⟩) rfl

theorem mark_of_ne (h : Told yields start s) {m : Milestone} (hne : m.task ≠ start.id) :
    Told yields start (s.1.mark m, s.2) :=
  h.of_tasks (fun _ _ => Iff.rfl) (story_mark_of_ne s.1 hne)

theorem finish_of_ne (h : Told yields start (w, t :: hand)) (hne : t.id ≠ start.id)
    (result : Except Error String) : Told yields start (World.finish t result w, hand) := by
  have hm := (h.mark_of_ne (m := .rendered t.id result) hne).drop_of_ne hne
  cases result with
  | ok output =>
    refine hm.of_tasks (fun u hu => (perm_yieldWith ..).mem_iff.trans ?_) rfl
    rw [List.mem_cons, or_iff_right]
    rintro rfl
    exact hne hu
  | error e => exact hm.of_tasks (fun _ _ => Iff.rfl) rfl

/-- The task in hand is the one that the story is about. -/
theorem own (h : Told yields start (w, t :: hand)) (ho : Orderly (w, t :: hand))
    (ht : t.id = start.id) :
    t = start ∧ w.story start.id = [] ∨
      ∃ output, yields (.ready (.ok output)) ∧ t = { start with stage := .yielded output } ∧
        w.story start.id = [.rendered start.id (.ok output)] := by
  have same {u : Task Ω} (hu : u ∈ Point.tasks (w, t :: hand)) (he : u.id = start.id) : t = u := by
    rcases List.mem_cons.mp hu with rfl | hu
    · rfl
    · exact absurd (List.mem_map.mpr ⟨u, hu, he.trans ht.symm⟩) (List.nodup_cons.mp ho.nodup).1
  have absent {P : Prop} (hg : start.id ∉ (Point.tasks (w, t :: hand)).map Task.id) : P :=
    absurd (List.mem_map.mpr ⟨t, List.mem_cons_self .., ht⟩) hg
  cases h with
  | waiting there told => exact .inl ⟨same there rfl, told⟩
  | rendered h there told => exact .inr ⟨_, h, same there rfl, told⟩
  | called _ gone _ | failed _ gone _ | ruined _ gone _ => exact absent gone

theorem finish (h : Told yields start (w, t :: hand)) (ho : Orderly (w, t :: hand))
    (ht : ∀ output, t.stage ≠ .yielded output) {result : Except Error String}
    (hy : t = start → yields (.ready result)) :
    Told yields start (World.finish t result w, hand) := by
  by_cases hid : t.id = start.id
  · rcases h.own ho hid with ⟨rfl, hs⟩ | ⟨output, -, rfl, -⟩
    · have gone := (List.nodup_cons.mp ho.nodup).1
      have told := story_mark_self w (.rendered t.id result)
      rw [show (Milestone.rendered t.id result).task = t.id from rfl, hs] at told
      cases result with
      | ok output =>
        exact .rendered (hy rfl) ((perm_yieldWith ..).symm.subset (List.mem_cons_self ..)) told
      | error e => exact .failed (hy rfl) gone told
    · exact absurd rfl (ht output)
  · exact h.finish_of_ne hid result

theorem ruin (h : Told yields start (w, t :: hand)) (ho : Orderly (w, t :: hand))
    (ht : ∀ output, t.stage ≠ .yielded output) (hy : t = start → yields .panicked) :
    Told yields start (w.mark (.ruined t.id), hand) := by
  by_cases hid : t.id = start.id
  · rcases h.own ho hid with ⟨rfl, hs⟩ | ⟨output, -, rfl, -⟩
    · have told := story_mark_self w (.ruined t.id)
      rw [show (Milestone.ruined t.id).task = t.id from rfl, hs] at told
      exact .ruined (hy rfl) (List.nodup_cons.mp ho.nodup).1 told
    · exact absurd rfl (ht output)
  · exact (h.mark_of_ne (m := .ruined t.id) hid).drop_of_ne hid

theorem call (h : Told yields start (w, t :: hand)) (ho : Orderly (w, t :: hand)) {output : String}
    (ht : t.stage = .yielded output) (hy : ∀ output, start.stage ≠ .yielded output)
    (label : String) :
    Told yields start ((w.mark (.called t.id output)).recordOutput label output, hand) := by
  by_cases hid : t.id = start.id
  · rcases h.own ho hid with ⟨rfl, -⟩ | ⟨output, hyields, rfl, hs⟩
    · exact absurd ht (hy output)
    · cases ht
      have told := story_mark_self w (.called start.id output)
      rw [show (Milestone.called start.id output).task = start.id from rfl, hs] at told
      exact .called hyields (List.nodup_cons.mp ho.nodup).1 told
  · exact ((h.mark_of_ne (m := .called t.id output) hid).drop_of_ne hid).of_perm (.refl _) rfl

end Told

/-- What a turn of a task can find: what a poll of its render does, in a world on the course. -/
def Yields (hosts : Host Ω (World Ω) → Prop) (s : Point Ω) :
    Stage → Polled (Except Error String) → Prop
  | .rendering p, found => ∃ host u, hosts host ∧ Course hosts s u ∧ (poll host p u.1).1 = found
  | .settled output, found => found = .ready (.ok output)
  | .yielded _, _ => False

theorem Stage.ne_yielded_of_rendering {stage : Stage} {p : Pending} (h : stage = .rendering p)
    (output : String) : stage ≠ .yielded output := by
  rw [h]
  exact nofun

/-- A run goes on telling the story of a task. -/
theorem Course.told {start : Task Ω} {first : Point Ω}
    (hy : ∀ output, start.stage ≠ .yielded output)
    (c : Course hosts s s') (hc : Course hosts first s) (ho : Orderly s)
    (h : Told (Yields hosts first start.stage) start s) :
    Told (Yields hosts first start.stage) start s' := by
  induction c with
  | refl s => exact h
  | quiet _ _ moved ih => exact (ih hc ho h).of_perm moved.perm moved.journal
  | @spawn _ w hand before stage _ receiver ih =>
    have told := ih hc ho h
    refine told.of_tasks (fun t ht => (perm_spawn ..).mem_iff.trans ?_) rfl
    rw [List.mem_cons, or_iff_right]
    rintro rfl
    exact absurd (told.issued (before.orderly ho)) (by simp [← ht])
  | park _ _ _ ih => exact (ih hc ho h).of_perm (perm_park ..) rfl
  | ruin before stage some polled meanwhile ih ih' =>
    have hv := before.orderly ho
    have told := ih' (hc.trans before) hv (ih hc ho h)
    refine told.ruin (meanwhile.orderly hv) (Stage.ne_yielded_of_rendering stage) ?_
    rintro rfl
    rw [stage]
    exact ⟨_, _, some, hc.trans before, congrArg (·.1) polled⟩
  | render before stage some polled meanwhile ih ih' =>
    have hv := before.orderly ho
    have told := ih' (hc.trans before) hv (ih hc ho h)
    refine told.finish (meanwhile.orderly hv) (Stage.ne_yielded_of_rendering stage) ?_
    rintro rfl
    rw [stage]
    exact ⟨_, _, some, hc.trans before, congrArg (·.1) polled⟩
  | @settle _ w t hand before output stage ih =>
    refine (ih hc ho h).finish (before.orderly ho) (by simp [stage]) ?_
    rintro rfl
    rw [stage]
    rfl
  | call before stage ih => exact (ih hc ho h).call (before.orderly ho) stage hy _

end World
end Stencil
