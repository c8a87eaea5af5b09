import Stencil.Proofs.Effects

/-!
# Worlds that are ahead

Polls, tasks and new loads do to a load that was asked for before no more than look at it, maybe
earlier than somebody else would have. A world is ahead of another if it went through more of these:
the loads of some set have had the same events in both, but some of them have been looked at, and
what was found is what a look would find in the other world as well. So polls of renders that are
bound to these loads find the same in both worlds.
-/

namespace Stencil

variable {ω τ : Type} {finds : ω → Option (Option (LoadResult τ))}

-- ---------------------------------------------------------------------------
-- One load
-- ---------------------------------------------------------------------------

namespace Slot

/-- The same load, or one that has been visited to its end, with what a visit of the first slot
would see. -/
inductive Ahead (finds : ω → Option (Option (LoadResult τ))) (s : Slot ω τ) : Slot ω τ → Prop
  | same : Ahead finds s s
  | settled {t : Slot ω τ} {r : LoadResult τ} (ht : t.result? = some r)
      (hs : (s.visit finds).1 = .ready r) : Ahead finds s t
  | ruined {t : Slot ω τ} (ht : t.worker = .poisoned) (hs : (s.visit finds).1 = .panicked) :
      Ahead finds s t

variable {s t : Slot ω τ}

theorem Ahead.visit_fst (h : s.Ahead finds t) : (t.visit finds).1 = (s.visit finds).1 := by
  cases h with
  | same => rfl
  | settled ht hs => rw [visit_of_result? ht, hs]
  | ruined ht hs => rw [visit_of_poisoned ht, hs]

theorem Ahead.visit (h : s.Ahead finds t) : s.Ahead finds (t.visit finds).2 := by
  cases h with
  | same =>
    generalize hv : s.visit finds = v
    have seen := s.seen_visit finds
    rw [hv] at seen
    cases seen with
    | nothing => exact .same
    | found h => exact .settled h (congrArg Prod.fst hv)
    | ruined h => exact .ruined h (congrArg Prod.fst hv)
  | settled ht hs =>
    rw [visit_of_result? ht]
    exact .settled ht hs
  | ruined ht hs =>
    rw [visit_of_poisoned ht]
    exact .ruined ht hs

@[simp] theorem worker_receive (s : Slot ω τ) (e : LoadEvent τ) :
    (s.receive e).worker = s.worker := by
  cases s with
  | reserved => rfl
  | started shared worker =>
    obtain ⟨load, result⟩ := shared
    cases result <;> rfl

theorem visit_panicked_iff : (s.visit finds).1 = .panicked ↔ (s.drive finds).1 = false := by
  unfold visit
  generalize s.drive finds = x
  obtain ⟨ok, s'⟩ := x
  cases ok with
  | false => simp
  | true => cases h : s'.poll.1 <;> simp [look, h, Polled.ofOption]

theorem drive_fst_congr (h : t.worker = s.worker) : (t.drive finds).1 = (s.drive finds).1 := by
  simp only [drive, h]
  cases hk : s.worker with
  | absent => rfl
  | busy work => rfl
  | poisoned => rfl
  | idle work =>
    simp only
    cases finds work with
    | none => rfl
    | some found => cases found <;> rfl

section

variable (es : List (LoadEvent τ))

theorem result?_foldl_receive (s : Slot ω τ) : (es.foldl receive s).result? = s.result? := by
  induction es generalizing s with
  | nil => rfl
  | cons e rest ih => exact (ih _).trans (s.result?_receive e)

theorem worker_foldl_receive (s : Slot ω τ) : (es.foldl receive s).worker = s.worker := by
  induction es generalizing s with
  | nil => rfl
  | cons e rest ih => exact (ih _).trans (s.worker_receive e)

/-- The same events happen to both. What a visit sees in the first slot must still be seen after
them. -/
theorem Ahead.receiveAll (h : s.Ahead finds t)
    (firm : ∀ r, (s.visit finds).1 = .ready r → ((es.foldl receive s).visit finds).1 = .ready r) :
    (es.foldl receive s).Ahead finds (es.foldl receive t) := by
  cases h with
  | same => exact .same
  | settled ht hs => exact .settled ((result?_foldl_receive es t).trans ht) (firm _ hs)
  | ruined ht hs =>
    refine .ruined ((worker_foldl_receive es t).trans ht) (visit_panicked_iff.mpr ?_)
    rw [drive_fst_congr (worker_foldl_receive es s)]
    exact visit_panicked_iff.mp hs

end

end Slot

-- ---------------------------------------------------------------------------
-- All loads
-- ---------------------------------------------------------------------------

namespace Loads

def waitingFor (ls : Loads ω τ) (load : Nat) : List (Waiting τ) :=
  ls.waiting.filter (·.load == load)

/-- Of the loads with the numbers `old`, the same events have happened and the same events wait. -/
structure Ahead (finds : ω → Option (Option (LoadResult τ))) (old : Nat → Prop)
    (ls ls' : Loads ω τ) : Prop where
  slot : ∀ l, old l → ∃ s t, ls.slots[l]? = some s ∧ ls'.slots[l]? = some t ∧ s.Ahead finds t
  waiting : ∀ l, old l → ls'.waitingFor l = ls.waitingFor l

variable {old : Nat → Prop} {ls ls' : Loads ω τ}

theorem Ahead.refl (h : ∀ l, old l → l < ls.slots.length) : ls.Ahead finds old ls := by
  refine ⟨fun l hl => ?_, fun _ _ => rfl⟩
  have here := List.getElem?_eq_getElem (h l hl)
  exact ⟨_, _, here, here, .same⟩

theorem Ahead.visit_fst (h : ls.Ahead finds old ls') {l : Nat} (hl : old l) :
    (ls'.visit finds l).1 = (ls.visit finds l).1 := by
  obtain ⟨s, t, hs, ht, ahead⟩ := h.slot l hl
  rw [visit_of_slot hs, visit_of_slot ht]
  exact ahead.visit_fst

theorem Ahead.visit (h : ls.Ahead finds old ls') (i : Nat) :
    ls.Ahead finds old (ls'.visit finds i).2 := by
  refine ⟨fun l hl => ?_, fun l hl => ?_⟩
  · obtain ⟨s, t, hs, ht, ahead⟩ := h.slot l hl
    by_cases hi : i = l
    · subst hi
      exact ⟨s, _, hs, by rw [visit_snd, update_of_slot ht], ahead.visit⟩
    · exact ⟨s, t, hs, by simp [visit_snd, update, hi, ht], ahead⟩
  · rw [← h.waiting l hl, visit_snd]
    rfl

theorem Ahead.fresh (h : ls.Ahead finds old ls') {i : Nat} (hi : ls'.slots.length ≤ i) :
    ¬ old i := by
  intro hold
  obtain ⟨s, t, -, ht, -⟩ := h.slot i hold
  obtain ⟨hlt, -⟩ := List.getElem?_eq_some_iff.mp ht
  omega

section

variable (h : ls.Ahead finds old ls') {i : Nat} (hi : ¬ old i)

include h

theorem Ahead.reserve : ls.Ahead finds old ls'.reserve.2 := by
  refine ⟨fun l hl => ?_, h.waiting⟩
  obtain ⟨s, t, hs, ht, ahead⟩ := h.slot l hl
  obtain ⟨hlt, -⟩ := List.getElem?_eq_some_iff.mp ht
  exact ⟨s, t, hs, by simpa [Loads.reserve, List.getElem?_append_left hlt] using ht, ahead⟩

include hi

theorem Ahead.update (f : Slot ω τ → Slot ω τ) : ls.Ahead finds old (ls'.update i f) := by
  refine ⟨fun l hl => ?_, h.waiting⟩
  obtain ⟨s, t, hs, ht, ahead⟩ := h.slot l hl
  have hne : i ≠ l := fun he => hi (he ▸ hl)
  exact ⟨s, t, hs, by simp [Loads.update, hne, ht], ahead⟩

theorem Ahead.schedule (e : LoadEvent τ) (gate : Option String) :
    ls.Ahead finds old (ls'.schedule i e gate) := by
  cases gate with
  | none => exact h.update hi _
  | some gate =>
    refine ⟨h.slot, fun l hl => ?_⟩
    have hne : i ≠ l := fun he => hi (he ▸ hl)
    rw [← h.waiting l hl]
    simp [Loads.schedule, waitingFor, hne]

theorem Ahead.orphan : ls.Ahead finds old (ls'.orphan i) := h.update hi _

theorem Ahead.start (work : Option ω) (plan : Plan τ) :
    ls.Ahead finds old (ls'.start i work plan) := by
  have delivered (load : Load τ) : ls.Ahead finds old (ls'.deliver i load work) := h.update hi _
  cases plan with
  | future f => exact (delivered _).schedule hi _ _
  | callback c => exact (delivered _).schedule hi _ _
  | dual c f =>
    have called : ls.Ahead finds old ((ls'.deliver i _ work).schedule i _ _) :=
      (delivered (if f.isSome then .dual .held .pending else .callback .held)).schedule hi
        (c.elim .drop (·.outcome.callback)) (c.bind (·.gate))
    cases c <;> cases f <;> first | exact called | exact called.schedule hi _ _

end

-- ---------------------------------------------------------------------------
-- Gates
-- ---------------------------------------------------------------------------

def behind (ls : Loads ω τ) (gate : String) (load : Nat) : List (LoadEvent τ) :=
  ((ls.waitingFor load).filter (·.gate == gate)).map (·.event)

theorem waiting_foldl_receive (ws : List (Waiting τ)) (ls : Loads ω τ) :
    (ws.foldl (fun ls w => ls.update w.load (·.receive w.event)) ls).waiting = ls.waiting := by
  induction ws generalizing ls with
  | nil => rfl
  | cons w rest ih => exact ih _

theorem slots_foldl_receive (ws : List (Waiting τ)) (ls : Loads ω τ) (l : Nat) :
    (ws.foldl (fun ls w => ls.update w.load (·.receive w.event)) ls).slots[l]? =
      ls.slots[l]?.map fun s =>
        ((ws.filter (·.load == l)).map (·.event)).foldl Slot.receive s := by
  induction ws generalizing ls with
  | nil => simp
  | cons w rest ih =>
    rw [List.foldl_cons, ih]
    by_cases hw : w.load = l
    · subst hw
      simp [update, Option.map_map, Function.comp_def]
    · simp [update, hw]

theorem slots_release (ls : Loads ω τ) (gate : String) (l : Nat) :
    (ls.release gate).2.slots[l]? =
      ls.slots[l]?.map fun s => (ls.behind gate l).foldl Slot.receive s := by
  simp only [release, List.partition_eq_filter_filter, slots_foldl_receive, behind, waitingFor,
    List.filter_filter, Bool.and_comm]

theorem waitingFor_release (ls : Loads ω τ) (gate : String) (l : Nat) :
    (ls.release gate).2.waitingFor l = (ls.waitingFor l).filter (! ·.gate == gate) := by
  simp only [release, List.partition_eq_filter_filter, waitingFor, waiting_foldl_receive,
    List.filter_filter, Bool.and_comm, Function.comp_def]

theorem Ahead.release (h : ls.Ahead finds old ls') (gate : String)
    (firm : ∀ l, old l → ∀ r, (ls.visit finds l).1 = .ready r →
      ((ls.release gate).2.visit finds l).1 = .ready r) :
    (ls.release gate).2.Ahead finds old (ls'.release gate).2 := by
  refine ⟨fun l hl => ?_, fun l hl => ?_⟩
  · obtain ⟨s, t, hs, ht, ahead⟩ := h.slot l hl
    have same : ls'.behind gate l = ls.behind gate l := by rw [behind, h.waiting l hl, behind]
    have opened : (ls.release gate).2.slots[l]? =
        some ((ls.behind gate l).foldl Slot.receive s) := by
      rw [slots_release, hs, Option.map_some]
    refine ⟨_, _, opened, by rw [slots_release, ht, same, Option.map_some],
      ahead.receiveAll _ fun r hr => ?_⟩
    have kept := firm l hl r (by rw [visit_of_slot hs, hr])
    rwa [visit_of_slot opened] at kept
  · rw [waitingFor_release, waitingFor_release, h.waiting l hl]

end Loads

-- ---------------------------------------------------------------------------
-- Worlds
-- ---------------------------------------------------------------------------

variable {Ω : Type}

/-- Mute worlds in which callbacks perform no operations, whatever else they differ in. -/
def Likeness.inert : Likeness Ω where
  free := True
  ids _ := True
  op _ _ := False
  told _ _ := True

theorem Receiver.Twin.ops_eq_nil {r : Receiver Ω} (h : r.Twin Likeness.inert.op r) :
    r.ops = [] := by
  obtain ⟨label, ops⟩ := h
  cases ops with
  | nil => rfl
  | cons absurd rest => exact absurd.elim

namespace World

def tables (w : World Ω) : List (HelperTable Ω) := w.renderers.map (·.helpers)

theorem helpers_eq (w : World Ω) (i : Nat) : w.helpers i = (w.tables[i]?).getD .empty := by
  simp [World.helpers, renderer?, tables]

/-- A world that went through more than another: the loads `old` have been looked at, maybe, and
there may be other loads, tasks and cache entries. The renders that it keeps are `renders`. -/
structure Ahead (old : Nat → Prop) (renders : Entries Pending) (c v : World Ω) : Prop where
  handles : v.handles = c.handles
  tables : v.tables = c.tables
  loads : c.loads.Ahead Work.finds old v.loads
  renders : v.renders = renders

variable {old : Nat → Prop} {renders : Entries Pending} {c v v' : World Ω}

namespace Ahead

theorem refl (h : ∀ l, old l → l < v.loads.slots.length) : Ahead old v.renders v v :=
  ⟨rfl, rfl, .refl h, rfl⟩

theorem kept (h : Ahead old renders c v) : Ahead old v.renders c v :=
  ⟨h.handles, h.tables, h.loads, rfl⟩

/-- What else there is in a world may change in any way. -/
theorem of_eq (h : Ahead old renders c v) (v' : World Ω) (handles : v'.handles = v.handles)
    (tables : v'.tables = v.tables) (loads : v'.loads = v.loads)
    (kept : v'.renders = v.renders) : Ahead old renders c v' :=
  ⟨handles.trans h.handles, tables.trans h.tables, loads ▸ h.loads, kept.trans h.renders⟩

theorem tables_modify {f : Renderer Ω → Renderer Ω} (hf : ∀ r, (f r).helpers = r.helpers)
    (w : World Ω) (i : Nat) : (w.update i f).tables = w.tables := by
  simp only [World.tables, World.update]
  rw [map_modify (k := id) hf, List.modify_id]

theorem undergo (h : Ahead old renders c v) (e : Effect Ω) :
    Ahead old renders c (v.undergo e) := by
  cases e with
  | visit load => exact ⟨h.handles, h.tables, h.loads.visit load, h.renders⟩
  | evict i name generation =>
    refine h.of_eq _ rfl ?_ rfl rfl
    exact tables_modify (f := .forget name generation) (fun _ => Renderer.helpers_forget) v i
  | wake load => exact h.of_eq _ rfl rfl rfl rfl
  | note e => exact h.of_eq _ rfl rfl rfl rfl
  | log rs => exact h.of_eq _ rfl rfl rfl rfl

theorem undergoAll (h : Ahead old renders c v) (es : List (Effect Ω)) :
    Ahead old renders c (v.undergoAll es) := by
  induction es generalizing v with
  | nil => exact h
  | cons e rest ih => exact ih (h.undergo e)

theorem wake (h : Ahead old renders c v) (load : Nat) : Ahead old renders c (v.wake load) :=
  h.of_eq _ rfl rfl rfl rfl

end Ahead

-- ---------------------------------------------------------------------------
-- Inert worlds
-- ---------------------------------------------------------------------------

/-- No code in the world performs operations, callbacks of tasks included. -/
structure Inert (w : World Ω) : Prop where
  code : w.Mute
  callbacks : ∀ t, t ∈ w.ready ∨ t ∈ w.yielded ∨ t ∈ w.parked → t.receiver.ops = []

theorem Inert.alike (h : v.Inert) : Alike .inert v v := by
  refine .refl (fun _ => trivial) (fun t ht o ho => ?_) fun _ => h.code
  rw [h.callbacks t ht] at ho
  cases ho

theorem Inert.of_alike (h : Alike .inert v v) : v.Inert := by
  have quiet {ts : List (Task Ω)} (hts : List.Forall₂ (Task.Twin Likeness.inert.op) ts ts)
      {t : Task Ω} (ht : t ∈ ts) : t.receiver.ops = [] := by
    obtain ⟨i, hi, rfl⟩ := List.getElem_of_mem ht
    exact (hts.get hi hi).receiver.ops_eq_nil
  refine ⟨h.mute trivial, ?_⟩
  rintro t (ht | ht | ht)
  · exact quiet h.ready ht
  · exact quiet h.yielded ht
  · exact quiet h.parked ht

namespace Ahead

section

variable {host : Host Ω (World Ω)} (hh : host.Lockstep .inert)

include hh

theorem runLoader (h : Ahead old renders c v) {loader : Loader Ω} (mute : loader.Mute) {load : Nat}
    (fresh : ¬ old load) (name : String) :
    Ahead old renders c (World.runLoader host loader load name v).2 := by
  have counted : Ahead old renders c (v.countCall loader.counter name) := by
    cases loader.counter <;> exact h.of_eq _ rfl rfl rfl rfl
  have ran (before : Nat) := Code.run_aside hh.log Dispatcher.aside_none (mute before name)
    (v.countCall loader.counter name) []
  unfold World.runLoader
  simp only [logged_nil] at ran ⊢
  rw [ran]
  generalize Code.run Host.logging Dispatcher.none _ [] = x
  obtain ⟨handed, rs⟩ := x
  cases handed with
  | none =>
    exact ⟨counted.handles, counted.tables, counted.loads.orphan fresh, counted.renders⟩
  | some h =>
    exact ⟨counted.handles, counted.tables, counted.loads.start fresh _ _, counted.renders⟩

theorem ask (h : Ahead old renders c v) (inert : Alike .inert v v) (i : Nat) (name : String)
    (data : Option Value) (block : Option String) :
    Ahead old renders c (World.ask host i name data block v).2 := by
  cases hr : v.renderer? i with
  | none => simpa [World.ask, hr] using h
  | some r =>
    cases hl : r.loader with
    | none => simpa [ask_of_no_loader hr hl] using h
    | some loader =>
      cases hn : r.cache.entries.get? name with
      | some a =>
        rw [ask_of_hit hr hl hn]
        exact h.of_eq _ rfl rfl rfl rfl
      | none =>
        have mute := (Alike.mute inert trivial).renderers r (List.mem_of_getElem? hr)
        have tables : (v.opened i r name).tables = v.tables := by
          refine tables_modify (f := fun r' => { r' with cache := ?_ }) (fun _ => rfl) v i
        have opened : Ahead old renders c (v.opened i r name) :=
          ⟨h.handles, tables.trans h.tables, h.loads.reserve, h.renders⟩
        rw [ask_of_miss hr hl hn]
        exact opened.runLoader hh (mute.loader _ hl) (h.loads.fresh (Nat.le_refl _)) name

theorem poll (h : Ahead old renders c v) (inert : Alike .inert v v) (p : Pending) :
    Ahead old renders c (World.poll host p v).2 := by
  have mute := Alike.mute inert trivial
  obtain ⟨seen, es, polled⟩ :=
    poll_effects hh.log (fun r hr => (mute.renderers r hr).helpers) mute.loads p
  rw [polled v ⟨fun _ _ => rfl, rfl, mute.loads⟩]
  exact h.undergoAll es

omit hh in
theorem receive (h : Ahead old renders c v) {r : Receiver Ω} (quiet : r.Twin Likeness.inert.op r)
    (output : String) : Ahead old renders c (World.receive host r output v) := by
  rw [World.receive, quiet.ops_eq_nil]
  exact h.of_eq _ rfl rfl rfl rfl

theorem schedule (h : Ahead old renders c v) (inert : Alike .inert v v) (i : Nat) (name : String)
    (args : Arguments (Receiver Ω)) (r : Receiver Ω) :
    Ahead old renders c (World.schedule host i name args r v).2 := by
  unfold World.schedule
  cases selection args.block with
  | none => exact h.of_eq _ rfl rfl rfl rfl
  | some block =>
    have asked := h.ask hh inert i name args.data.data? block
    simp only
    generalize World.ask host i name args.data.data? block v = x at asked
    obtain ⟨p, u⟩ := x
    cases p with
    | none => exact asked
    | some p => exact asked.of_eq _ rfl rfl rfl rfl

theorem parse (h : Ahead old renders c v) (inert : Alike .inert v v) (i : Nat) (name : String)
    {args : Arguments (Receiver Ω)} (quiet : args.Twin Likeness.inert.op args) (executor : Bool) :
    Ahead old renders c (World.parse host i name args executor v).2 := by
  have inside := h.of_eq { v with inExecutor := v.inExecutor || executor } rfl rfl rfl rfl
  have inert' := inert.setInExecutor (v.inExecutor || executor)
  have parsed : Ahead old renders c (parseShifted host i name args.shift
      { v with inExecutor := v.inExecutor || executor }).2 := by
    unfold parseShifted
    cases hr : args.shift.callback.callback? with
    | none => exact inside
    | some r =>
      have quiet : r.Twin Likeness.inert.op r := by
        have shifted := quiet.shift
        generalize args.shift = args at hr shifted
        obtain ⟨-, -, callback⟩ := shifted
        cases callback with
        | absent => cases hr
        | block => cases hr
        | data => cases hr
        | callback h => exact Option.some.inj hr ▸ h
      simp only
      split
      · exact inside.receive quiet ""
      · split
        · exact inside.schedule hh inert' i name _ r
        · exact inside
  exact parsed.of_eq _ rfl rfl rfl rfl

omit hh in
theorem finish (h : Ahead old renders c v) (t : Task Ω) (result : Except Error String) :
    Ahead old renders c (World.finish t result v) := by
  cases result <;> exact h.of_eq _ rfl rfl rfl rfl

theorem turn (h : Ahead old renders c v) (inert : Alike .inert v v) {t : Task Ω}
    (ht : t.Twin Likeness.inert.op t) : Ahead old renders c (World.turn host t v) := by
  unfold World.turn
  cases t.stage with
  | settled output => exact h.finish t _
  | yielded output =>
    have marked := h.of_eq (v.mark (.called t.id output)) rfl rfl rfl rfl
    exact marked.receive ht.receiver output
  | rendering p =>
    have polled := h.poll hh inert p
    simp only
    generalize World.poll host p v = x at polled
    obtain ⟨seen, u⟩ := x
    cases seen with
    | pending => exact polled.of_eq _ rfl rfl rfl rfl
    | panicked => exact polled.of_eq _ rfl rfl rfl rfl
    | ready result => exact polled.finish t result

theorem turns (h : Ahead old renders c v) (inert : Alike .inert v v) (n : Nat) :
    Ahead old renders c (World.turns host n v) := by
  induction n generalizing v with
  | zero => exact h
  | succ n ih =>
    unfold World.turns
    have tasks := Alike.ready inert
    split
    · rename_i t rest hr
      rw [hr] at tasks
      obtain _ | ⟨ht, others⟩ := tasks
      have taken := Alike.setTasks inert others (Alike.yielded inert) (Alike.parked inert)
      have left := h.of_eq { v with ready := rest } rfl rfl rfl rfl
      exact ih (left.turn hh taken ht) (turn_alike hh ht taken)
    · split
      · exact h
      · refine ih (h.of_eq _ rfl rfl rfl rfl) ?_
        exact Alike.setTasks inert (Alike.yielded inert) .nil (Alike.parked inert)

theorem drain (h : Ahead old renders c v) (inert : Alike .inert v v) (n : Nat) :
    Ahead old renders c (World.drain host n v) := by
  have inside := h.of_eq { v with inExecutor := true } rfl rfl rfl rfl
  exact (inside.turns hh (inert.setInExecutor true) n).of_eq _ rfl rfl rfl rfl

end

end Ahead

/-- A render finds the same in two worlds that are ahead of one, if its load is one of those that
went the same way in both. -/
theorem Ahead.poll_fst {host : Host Ω (World Ω)} (hl : host.Logs) {renders' : Entries Pending}
    (h : Ahead old renders c v) (h' : Ahead old renders' c v') (mute : v.Mute) (mute' : v'.Mute)
    {p : Pending} (hp : ∀ b, p.binding = some b → old b.load) :
    (World.poll host p v').1 = (World.poll host p v).1 := by
  obtain ⟨seen, es, polled⟩ :=
    poll_effects hl (fun r hr => (mute.renderers r hr).helpers) mute.loads p
  have here : v.SameSight p v := ⟨fun _ _ => rfl, rfl, mute.loads⟩
  have there : v.SameSight p v' := by
    refine ⟨fun b hb => ?_, ?_, mute'.loads⟩
    · rw [h'.loads.visit_fst (hp b hb), h.loads.visit_fst (hp b hb)]
    · rw [helpers_eq, helpers_eq, h'.tables, h.tables]
  rw [polled v here, polled v' there]

end World
end Stencil
