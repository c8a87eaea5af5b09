import Stencil.Proofs.Session
import Stencil.Proofs.Tasks

/-!
# Operations are courses

Every operation on a world is a course, and leaves the tasks in hand alone, provided that what its
host does for the code inside of it is one. As with runs, an operation asks its host for nothing
except in worlds that a course leads to, so these are the worlds in which code is given control
(`step_eq_of_course`).

Each function has one theorem, ending in `_serves`, by the calls that the function makes.
-/

namespace Stencil

open World

variable {Ω α : Type} {w w' : World Ω} {hand : List (Task Ω)} {host host' : Host Ω (World Ω)}
  {hosts : Host Ω (World Ω) → Prop}

namespace World

/-- A course leads to the world from the one in which there is nothing yet; some tasks are in
hand. -/
abbrev Busy (hosts : Host Ω (World Ω) → Prop) (w : World Ω) (hand : List (Task Ω)) : Prop :=
  Course hosts ({}, []) (w, hand)

theorem Course.reached (hw : Busy hosts w hand) : w.Reached := hw.later

structure Serves (hosts : Host Ω (World Ω) → Prop) (hand : List (Task Ω)) (w : World Ω)
    (x y : α × World Ω) : Prop where
  eq : y = x
  course : Course hosts (w, hand) (x.2, hand)

theorem Serves.of_course {x : α × World Ω} (h : Course hosts (w, hand) (x.2, hand)) :
    Serves hosts hand w x x := ⟨rfl, h⟩

theorem Serves.refl (w : World Ω) (a : α) : Serves hosts hand w (a, w) (a, w) :=
  .of_course (.refl _)

theorem Serves.after {x y : α × World Ω} (first : Course hosts (w, hand) (w', hand))
    (h : Serves hosts hand w' x y) : Serves hosts hand w x y :=
  ⟨h.eq, first.trans h.course⟩

theorem Serves.map {β : Type} {x y : α × World Ω} (h : Serves hosts hand w x y)
    {f : α × World Ω → β × World Ω} (hf : Course hosts (x.2, hand) ((f x).2, hand)) :
    Serves hosts hand w (f x) (f y) :=
  ⟨congrArg f h.eq, h.course.trans hf⟩

-- ---------------------------------------------------------------------------
-- Steps that tasks have no part in
-- ---------------------------------------------------------------------------

/-- All that has to do with tasks, and what looks at the loads would find. -/
def desk (w : World Ω) : (List (Task Ω) × List (Task Ω) × List (Task Ω)) ×
    (Nat × List Milestone) × (Nat → Option (LoadResult (Template Ω))) :=
  ((w.ready, w.yielded, w.parked), (w.spawned, w.journal), w.loads.found)

theorem Course.still (later : w.Later w') (h : w'.desk = w.desk) :
    Course hosts (w, hand) (w', hand) := by
  simp only [desk, Prod.mk.injEq] at h
  obtain ⟨⟨hr, hy, hp⟩, ⟨hs, hj⟩, hf⟩ := h
  refine .quiet (.refl _) later ⟨⟨[], ?_, ?_⟩, fun t _ ht => ?_, hs, hj⟩
  · simp [Point.active, hr, hy]
  · simp [hp]
  · exact ht.of_found fun load _ hn => by rwa [hf]

theorem Course.record (w : World Ω) (r : Record) :
    Course hosts (w, hand) (w.record r, hand) :=
  .still (later_record w r) rfl

theorem Course.loads {loads : Loads (Work Ω) (Template Ω)} (h : loads.results = w.loads.results)
    (hf : ∀ load, w.loads.found load = none → loads.found load = none) :
    Course hosts (w, hand) ({ w with loads := loads }, hand) :=
  .quiet (.refl _) (later_loads h)
    ⟨⟨[], .refl _, .refl _⟩, fun _ _ ht => ht.of_found fun load _ => hf load, rfl, rfl⟩

theorem Course.inExecutor (w : World Ω) (b : Bool) :
    Course hosts (w, hand) ({ w with inExecutor := b }, hand) :=
  .still (later_inExecutor w b) rfl

theorem wake_eq (w : World Ω) (load : Nat) :
    w.wake load = { w with
      parked := w.parked.filter (!·.load? == some load)
      ready := w.ready ++ w.parked.filter (·.load? == some load) } := by
  simp only [wake, List.partition_eq_filter_filter]
  rfl

theorem Course.wake (w : World Ω) (load : Nat) : Course hosts (w, hand) (w.wake load, hand) := by
  refine .quiet (.refl _) (later_wake w load)
    ⟨⟨w.parked.filter (·.load? == some load), ?_, ?_⟩, ?_, ?_, ?_⟩ <;> rw [wake_eq]
  · simpa only [Point.active, List.append_assoc] using
      List.perm_append_comm_assoc (hand ++ w.ready) _ w.yielded
  · exact (List.filter_append_perm _ _).symm
  · exact fun _ _ ht => ht

section

variable (opened : List Nat)

theorem Course.foldl_wake (w : World Ω) :
    Course hosts (w, hand) (opened.foldl World.wake w, hand) := by
  induction opened generalizing w with
  | nil => exact .refl _
  | cons load rest ih => exact (Course.wake w load).trans (ih _)

theorem foldl_wake_loads (w : World Ω) (loads : Loads (Work Ω) (Template Ω)) :
    opened.foldl wake { w with loads := loads } =
      { opened.foldl wake w with loads := loads } := by
  induction opened generalizing w with
  | nil => rfl
  | cons load rest ih => exact ih (w.wake load)

theorem loads_foldl_wake (w : World Ω) : (opened.foldl wake w).loads = w.loads := by
  induction opened generalizing w with
  | nil => rfl
  | cons load rest ih => exact (ih _).trans (by rw [wake_eq])

variable {opened}

/-- None of those who waited for a load is left behind. -/
theorem parked_foldl_wake {t : Task Ω} (ht : t ∈ (opened.foldl wake w).parked) :
    t ∈ w.parked ∧ ∀ load ∈ opened, t.load? ≠ some load := by
  induction opened generalizing w with
  | nil => exact ⟨ht, by simp⟩
  | cons load rest ih =>
    obtain ⟨hp, hr⟩ := ih ht
    rw [wake_eq] at hp
    obtain ⟨hp, hne⟩ := List.mem_filter.mp hp
    exact ⟨hp, List.forall_mem_cons.mpr ⟨by simpa using hne, hr⟩⟩

/-- Some loads may come, as long as those who wait for them are woken. -/
theorem Course.wakeFor {loads : Loads (Work Ω) (Template Ω)}
    (h : loads.results = w.loads.results)
    (hf : ∀ load, load ∉ opened → w.loads.found load = none → loads.found load = none) :
    Course hosts (w, hand) (opened.foldl World.wake { w with loads := loads }, hand) := by
  rw [foldl_wake_loads]
  refine (Course.foldl_wake opened w).trans (.quiet (.refl _) (later_loads ?_)
    ⟨⟨[], .refl _, .refl _⟩, fun t ht hw => hw.of_found fun load hl hn => ?_, rfl, rfl⟩)
  · rw [loads_foldl_wake, h]
  · rw [loads_foldl_wake] at hn
    exact hf load (fun hm => (parked_foldl_wake ht).2 load hm hl) hn

theorem Course.wakeOne {loads : Loads (Work Ω) (Template Ω)} {load : Nat}
    (h : loads.results = w.loads.results)
    (hf : ∀ other, load ≠ other → loads.found other = w.loads.found other) :
    Course hosts (w, hand) ({ w with loads := loads }.wake load, hand) := by
  change Course hosts (w, hand) ([load].foldl World.wake { w with loads := loads }, hand)
  refine .wakeFor h fun other ho hn => (hf other ?_).trans hn
  exact fun he => ho (he ▸ List.mem_singleton_self _)

end

theorem desk_opened (w : World Ω) (i : Nat) (r : Renderer Ω) (name : String) :
    (w.opened i r name).desk = w.desk :=
  congrArg (_, _, ·) (funext w.loads.found_reserve)

theorem desk_look (w : World Ω) (load : Nat) : (w.look load).desk = w.desk :=
  congrArg (_, _, ·) (funext (w.loads.found_poll load))

theorem desk_evictFailed (p : Pending) (b : Binding) (w : World Ω) :
    (evictFailed p b w).desk = w.desk := by
  rcases evictFailed_cases p b w with ⟨h, -⟩ | ⟨r, -, -, -, h⟩
  · rw [h]
  · rw [h]
    rfl

theorem desk_settle (w : World Ω) (p : Pending) (b : Binding)
    (result : LoadResult (Template Ω)) : (w.settle p b result).desk = w.desk := by
  cases result with
  | error e => exact (desk_evictFailed ..).trans (desk_look w b.load)
  | ok t => exact desk_look w b.load

end World

-- ---------------------------------------------------------------------------
-- Code
-- ---------------------------------------------------------------------------

/-- Two hosts that do the same in every world that a course leads to, and go on with the course. The
first one is of those that poll the renders of tasks. -/
structure Host.Tended (hosts : Host Ω (World Ω) → Prop) (host host' : Host Ω (World Ω)) : Prop where
  some : hosts host
  perform : ∀ op {w : World Ω} {hand : List (Task Ω)}, Busy hosts w hand →
    Serves hosts hand w (host.perform op w) (host'.perform op w)
  log : ∀ r {w : World Ω} {hand : List (Task Ω)}, Busy hosts w hand →
    Serves hosts hand w ((), host.log r w) ((), host'.log r w)

structure Dispatcher.Tended (hosts : Host Ω (World Ω) → Prop)
    (d d' : Dispatcher (World Ω)) : Prop where
  names : d'.names = d.names
  dispatch : ∀ this name args {w : World Ω} {hand : List (Task Ω)}, Busy hosts w hand →
    Serves hosts hand w (d.dispatch this name args w) (d'.dispatch this name args w)

theorem Dispatcher.none_tended : (Dispatcher.none : Dispatcher (World Ω)).Tended hosts .none :=
  ⟨rfl, fun _ _ _ w _ _ => .refl w ""⟩

theorem Host.Tended.log_eq (h : Host.Tended hosts host host') (hw : Busy hosts w hand)
    (r : Record) :
    host'.log r w = host.log r w :=
  congrArg (·.2) (h.log r hw).eq

theorem Code.run_serves (h : Host.Tended hosts host host') {d d' : Dispatcher (World Ω)}
    (hd : Dispatcher.Tended hosts d d') (c : Code Ω α) (hw : Busy hosts w hand) :
    Serves hosts hand w (c.run host d w) (c.run host' d' w) := by
  induction c generalizing w with
  | done a => exact .refl w _
  | panic => exact .refl w _
  | log r next ih =>
    have hc := (h.log r hw).course
    simp only [run, h.log_eq hw]
    exact .after hc (ih (hw.trans hc))
  | perform op next ih =>
    obtain ⟨he, hc⟩ := h.perform op hw
    simp only [run, he]
    exact .after hc (ih _ (hw.trans hc))
  | names next ih =>
    simp only [run, hd.names]
    exact ih _ hw
  | dispatch this name args next ih =>
    obtain ⟨he, hc⟩ := hd.dispatch this name args hw
    simp only [run, he]
    exact .after hc (ih _ (hw.trans hc))

theorem HelperTable.call_serves (h : Host.Tended hosts host host') (helper : Helper Ω)
    (this : Value) (args : List Value) (hw : Busy hosts w hand) :
    Serves hosts hand w (call host helper this args w) (call host' helper this args w) := by
  obtain ⟨he, hc⟩ := Code.run_serves h Dispatcher.none_tended (helper this args) hw
  unfold call
  rw [he]
  split <;> (rename_i hr; rw [hr] at hc; exact .of_course hc)

theorem HelperTable.dispatch_serves (h : Host.Tended hosts host host') (t : HelperTable Ω)
    (this : Value) (name : String) (args : List Value) (hw : Busy hosts w hand) :
    Serves hosts hand w (t.dispatch host this name args w) (t.dispatch host' this name args w) := by
  unfold dispatch
  split
  · exact .refl w _
  · rename_i helper _
    obtain ⟨he, hc⟩ := call_serves h helper this args hw
    rw [he]
    split <;> (rename_i hr; rw [hr] at hc)
    · exact .of_course hc
    · rw [h.log_eq (hw.trans hc)]
      exact .of_course (hc.trans (h.log _ (hw.trans hc)).course)
    · rw [h.log_eq (hw.trans hc)]
      exact .of_course (hc.trans (h.log _ (hw.trans hc)).course)

theorem HelperTable.dispatcher_tended (h : Host.Tended hosts host host') (t : HelperTable Ω) :
    Dispatcher.Tended hosts (t.dispatcher host) (t.dispatcher host') :=
  ⟨rfl, fun this name args _ _ hw => t.dispatch_serves h this name args hw⟩

theorem Template.run_serves (h : Host.Tended hosts host host') (helpers : HelperTable Ω)
    (t : Template Ω) (context : Value) (hw : Busy hosts w hand) :
    Serves hosts hand w (t.run host helpers context w) (t.run host' helpers context w) := by
  obtain ⟨he, hc⟩ := Code.run_serves h (helpers.dispatcher_tended h) (t.body context) hw
  unfold run call
  rw [he]
  split <;> (rename_i hr; rw [hr] at hc; exact .of_course hc)

namespace World

-- ---------------------------------------------------------------------------
-- Calls and polls
-- ---------------------------------------------------------------------------

theorem runLoader_serves (h : Host.Tended hosts host host') (loader : Loader Ω) (load : Nat)
    (name : String) (hw : Busy hosts w hand) :
    Serves hosts hand w (runLoader host loader load name w)
      (runLoader host' loader load name w) := by
  have counted : Course hosts (w, hand) (w.countCall loader.counter name, hand) :=
    .still (later_countCall ..) (by cases h : loader.counter <;> rfl)
  obtain ⟨he, hc⟩ := Code.run_serves h Dispatcher.none_tended
    (loader.load ((loader.counter.map (w.callCount · name)).getD 0) name) (hw.trans counted)
  unfold runLoader
  simp only [he]
  split <;> (rename_i hr; rw [hr] at hc; refine .of_course (counted.trans (hc.trans ?_)))
  · exact .wakeOne (Loads.results_start ..) fun _ hne => Loads.found_start_of_ne _ hne ..
  · exact .wakeOne (Loads.results_orphan ..) fun _ hne => Loads.found_orphan_of_ne _ hne

theorem ask_serves (h : Host.Tended hosts host host') (i : Nat) (name : String)
    (data : Option Value) (block : Option String) (hw : Busy hosts w hand) :
    Serves hosts hand w (ask host i name data block w) (ask host' i name data block w) := by
  cases hr : w.renderer? i with
  | none =>
    simp only [ask, hr]
    exact .refl w _
  | some r =>
    cases hl : r.loader with
    | none =>
      simp only [ask_of_no_loader hr hl]
      exact .refl w _
    | some loader =>
      cases hn : r.cache.entries.get? name with
      | some a =>
        obtain ⟨g, l⟩ := a
        simp only [ask_of_hit hr hl hn]
        exact .of_course (.record ..)
      | none =>
        have opened : Course hosts (w, hand) (w.opened i r name, hand) :=
          .still (later_opened hr hn) (desk_opened ..)
        obtain ⟨he, hc⟩ := runLoader_serves h loader w.loads.slots.length name (hw.trans opened)
        simp only [ask_of_miss hr hl hn, he]
        exact .of_course (opened.trans hc)

/-- What a poll does with the work of a load before it looks at the load. Only this load may come,
and nobody has been woken for it yet. -/
inductive Driven (load : Nat) (v : World Ω) : Bool × World Ω → Prop
  | through {loads : Loads (Work Ω) (Template Ω)} (hr : loads.results = v.loads.results)
      (hf : ∀ other, load ≠ other → loads.found other = v.loads.found other) :
      Driven load v (true, { v with loads := loads })
  | panicked : Driven load v (false, v)

theorem drive_serves (h : Host.Tended hosts host host') (load : Nat) (hw : Busy hosts w hand) :
    drive host' load w = drive host load w ∧
      ∃ v, Course hosts (w, hand) (v, hand) ∧ Driven load v (drive host load w) := by
  unfold drive
  split
  · rename_i work _
    have entered : Course hosts (w, hand) ({ w with loads := w.loads.enter load }, hand) :=
      .loads (w.loads.results_enter load) fun _ => Loads.found_enter load
    obtain ⟨he, hc⟩ := Code.run_serves h Dispatcher.none_tended work (hw.trans entered)
    simp only [he]
    refine ⟨trivial, ?_⟩
    split <;> (rename_i hr; rw [hr] at hc)
    · exact ⟨_, entered.trans hc, .through (Loads.results_leave ..) fun _ hne =>
        Loads.found_leave_of_ne _ hne _⟩
    · exact ⟨_, entered.trans (hc.trans (.loads (Loads.results_poison ..) fun _ =>
        Loads.found_poison load)), .panicked⟩
  · exact ⟨rfl, w, .refl _, .panicked⟩
  · have still : Driven load w (true, { w with loads := w.loads }) := .through rfl fun _ _ => rfl
    exact ⟨rfl, w, .refl _, still⟩

theorem pollLoad_serves (h : Host.Tended hosts host host') (load : Nat) (hw : Busy hosts w hand) :
    pollLoad host' load w = pollLoad host load w ∧
      ∃ v, Course hosts (w, hand) (v, hand) ∧ Looked load v (pollLoad host load w) := by
  obtain ⟨he, v, hc, hv⟩ := drive_serves h load hw
  unfold pollLoad
  rw [he]
  refine ⟨rfl, ?_⟩
  cases hd : drive host load w with
  | mk intact after =>
    rw [hd] at hv
    cases hv with
    | panicked => exact ⟨v, hc, .panicked⟩
    | @through loads hr hf =>
      simp only
      split
      · rename_i hn
        have still : Course hosts (v, hand) ({ v with loads := (loads.poll load).2 }, hand) := by
          refine .loads ((Loads.results_poll_of_none hn).trans hr) fun other ho => ?_
          rw [Loads.found_poll]
          by_cases hne : load = other
          · exact hne ▸ hn
          · exact (hf other hne).trans ho
        exact ⟨_, hc.trans still, .pending⟩
      · rename_i result hres
        exact ⟨_, hc.trans (.wakeOne hr hf), .ready hres⟩

theorem runTemplate_serves (h : Host.Tended hosts host host') (p : Pending) (t : Template Ω)
    (hw : Busy hosts w hand) :
    Serves hosts hand w (runTemplate host p t w) (runTemplate host' p t w) := by
  obtain ⟨he, hc⟩ :=
    t.run_serves h (((w.renderer? p.renderer).map (·.helpers)).getD .empty) (.object p.context) hw
  unfold runTemplate
  simp only [he]
  split <;> (rename_i hr; rw [hr] at hc)
  · exact .of_course hc
  · exact .of_course (hc.trans (.record ..))

theorem complete_serves (h : Host.Tended hosts host host') {p : Pending} {b : Binding}
    {result : LoadResult (Template Ω)} (hw : Busy hosts w hand) (hb : p.binding = some b)
    (hp : w.Bound p) (hr : (w.loads.poll b.load).1 = some result) :
    let got := (w.look b.load).note (.received p result)
    Serves hosts hand w (complete host p b result got) (complete host' p b result got) := by
  have m : Move w [.received p result] (w.settle p b result) := .receive hb (hp b hb) hr
  have settled : Course hosts (w, hand) (w.settle p b result, hand) :=
    .still (m.later fun q => (holds_settle w p b result q).mp) (desk_settle ..)
  have hs := hw.trans settled
  refine .after settled ?_
  cases result with
  | error e => exact .refl _ _
  | ok t =>
    cases t with
    | none => exact .of_course (.record ..)
    | some t =>
      unfold complete
      simp only
      split
      · exact runTemplate_serves h p t hs
      · split
        · exact runTemplate_serves h p _ hs
        · exact .of_course (.record ..)

theorem poll_serves (h : Host.Tended hosts host host') {p : Pending} (hw : Busy hosts w hand)
    (hp : w.Asked p) : Serves hosts hand w (poll host p w) (poll host' p w) := by
  cases hb : p.binding with
  | none =>
    simp only [poll_of_no_binding hb]
    exact .refl w _
  | some b =>
    obtain ⟨he, v, hc, hv⟩ := pollLoad_serves h b.load hw
    cases hr : pollLoad host b.load w with
    | mk polled after =>
      rw [hr] at he hv
      cases hv with
      | pending =>
        simp only [poll, hb, hr, he]
        exact .of_course hc
      | panicked =>
        simp only [poll, hb, hr, he]
        exact .of_course hc
      | ready hres =>
        rw [poll_of_ready hb hr, poll_of_ready hb he]
        have bound := (hc.later.asked_of_asked hp).bound
        obtain ⟨he', hc'⟩ := complete_serves h (hw.trans hc) hb bound hres
        rw [he']
        exact .of_course (hc.trans hc')

-- ---------------------------------------------------------------------------
-- Parse calls and tasks
-- ---------------------------------------------------------------------------

theorem performAll_serves (h : Host.Tended hosts host host') (ops : List Ω)
    (hw : Busy hosts w hand) :
    performAll host' ops w = performAll host ops w ∧
      Course hosts (w, hand) (performAll host ops w, hand) := by
  induction ops generalizing w with
  | nil => exact ⟨rfl, .refl _⟩
  | cons op rest ih =>
    obtain ⟨he, hc⟩ := h.perform op hw
    obtain ⟨he', hc'⟩ := ih (hw.trans hc)
    simp only [performAll, List.foldl_cons] at he' hc' ⊢
    rw [he]
    exact ⟨he', hc.trans hc'⟩

theorem receive_serves (h : Host.Tended hosts host host') (r : Receiver Ω) (output : String)
    (hw : Busy hosts w hand) :
    receive host' r output w = receive host r output w ∧
      Course hosts (w, hand) (receive host r output w, hand) := by
  have recorded : Course hosts (w, hand) (w.recordOutput r.label output, hand) :=
    .still (later_recordOutput ..) rfl
  obtain ⟨he, hc⟩ := performAll_serves h r.ops (hw.trans recorded)
  exact ⟨he, recorded.trans hc⟩

theorem asked_of_ask {i : Nat} {name : String} {data : Option Value} {block : Option String}
    {p : Pending} (hlike : host.Like host) (hw : Busy hosts w hand)
    (call : ask host i name data block w = (some p, w')) : w'.Asked p := by
  obtain ⟨-, ha⟩ := ask_leads hlike i name data block hw.reached
  rw [call] at ha
  exact ha p rfl

theorem schedule_serves (h : Host.Tended hosts host host') (hlike : host.Like host) (i : Nat)
    (name : String) (args : Arguments (Receiver Ω)) (r : Receiver Ω) (hw : Busy hosts w hand) :
    Serves hosts hand w (schedule host i name args r w) (schedule host' i name args r w) := by
  unfold schedule
  split
  · exact .of_course (.spawn (.refl _) (fun p hp => by cases hp) r)
  · rename_i block _
    obtain ⟨he, hc⟩ := ask_serves h i name args.data.data? block hw
    rw [he]
    split <;> (rename_i hx; rw [hx] at hc)
    · have asked := asked_of_ask hlike hw hx
      exact .of_course (.spawn hc (fun p hp => by cases hp; exact asked) r)
    · exact .of_course hc

theorem parse_serves (h : Host.Tended hosts host host') (hlike : host.Like host) (i : Nat)
    (name : String) (args : Arguments (Receiver Ω)) (executor : Bool) (hw : Busy hosts w hand) :
    Serves hosts hand w (parse host i name args executor w)
      (parse host' i name args executor w) := by
  have entered : Course hosts (w, hand)
      ({ w with inExecutor := w.inExecutor || executor }, hand) := .inExecutor ..
  refine .after entered ?_
  refine Serves.map (x := parseShifted host i name args.shift _) ?_
    (f := fun x => (x.1, { x.2 with inExecutor := w.inExecutor })) (.inExecutor _ _)
  have hw' := hw.trans entered
  unfold parseShifted
  split
  · exact .refl _ _
  · rename_i r _
    split
    · obtain ⟨he, hc⟩ := receive_serves h r "" hw'
      rw [he]
      exact .of_course hc
    · split
      · exact schedule_serves h hlike i name _ r hw'
      · exact .refl _ _

theorem found_of_pending {load : Nat} (hp : pollLoad host load w = (.pending, w')) :
    w'.loads.found load = none := by
  unfold pollLoad at hp
  split at hp
  · cases hp
  · simp only at hp
    split at hp
    · rename_i hn
      cases hp
      rw [Loads.found_poll]
      exact hn
    · cases hp

/-- A render that is still pending has a load that is not there yet. -/
theorem waits_of_pending {t : Task Ω} {p : Pending} (stage : t.stage = .rendering p)
    (hp : poll host p w = (.pending, w')) : w'.Waits t := by
  cases hb : p.binding with
  | none => simp [poll, hb] at hp
  | some b =>
    refine ⟨p, b.load, stage, Pending.load?_of_binding hb, ?_⟩
    cases hl : pollLoad host b.load w with
    | mk found after =>
      cases found with
      | pending =>
        simp only [poll, hb, hl] at hp
        cases hp
        exact found_of_pending hl
      | panicked => simp [poll, hb, hl] at hp
      | ready result => simp [poll, hb, hl] at hp

theorem turn_serves (h : Host.Tended hosts host host') {t : Task Ω} (hw : Busy hosts w (t :: hand))
    (ht : ∀ p, t.stage = .rendering p → w.Asked p) :
    turn host' t w = turn host t w ∧ Course hosts (w, t :: hand) (turn host t w, hand) := by
  unfold turn
  split
  · rename_i p hp
    obtain ⟨he, hc⟩ := poll_serves h hw (ht p hp)
    rw [he]
    refine ⟨rfl, ?_⟩
    split <;> (rename_i hx; rw [hx] at hc)
    · exact .park hc (waits_of_pending hp hx) fun q hq => hc.later.asked_of_asked (ht q hq)
    · exact .ruin (.refl _) hp h.some hx hc
    · exact .render (.refl _) hp h.some hx hc
  · rename_i output hs
    exact ⟨rfl, .settle (.refl _) hs⟩
  · rename_i output hs
    have called : Course hosts (w, t :: hand)
        ((w.mark (.called t.id output)).recordOutput t.receiver.label output, hand) :=
      .call (.refl _) hs
    obtain ⟨he, hc⟩ := performAll_serves h t.receiver.ops (hw.trans called)
    exact ⟨he, called.trans hc⟩

theorem Course.take {t : Task Ω} {rest : List (Task Ω)} (ht : w.ready = t :: rest) :
    Course hosts (w, hand) ({ w with ready := rest }, t :: hand) := by
  refine .quiet (.refl _) (later_take ht) ⟨⟨[], ?_, .refl _⟩, fun _ _ ht => ht, rfl, rfl⟩
  simpa [Point.active, ht] using List.perm_middle.symm

theorem Course.resume (hr : w.ready = []) :
    Course hosts (w, hand) ({ w with ready := w.yielded, yielded := [] }, hand) := by
  refine .quiet (.refl _) (later_resume w) ⟨⟨[], ?_, .refl _⟩, fun _ _ ht => ht, rfl, rfl⟩
  simp [Point.active, hr]

theorem turns_serves (h : Host.Tended hosts host host') (n : Nat) (hw : Busy hosts w hand) :
    turns host' n w = turns host n w ∧ Course hosts (w, hand) (turns host n w, hand) := by
  induction n generalizing w with
  | zero => exact ⟨rfl, .refl _⟩
  | succ n ih =>
    unfold turns
    split
    · rename_i t rest ht
      have taken : Course hosts (w, hand) ({ w with ready := rest }, t :: hand) := .take ht
      have asked : ∀ p, t.stage = .rendering p → w.Asked p := fun p hp =>
        hw.reached.asked (.inr ⟨t, .inl (ht ▸ List.mem_cons_self ..), hp⟩)
      obtain ⟨he, hc⟩ := turn_serves h (hw.trans taken) fun p hp =>
        taken.later.asked_of_asked (asked p hp)
      obtain ⟨he', hc'⟩ := ih ((hw.trans taken).trans hc)
      rw [he]
      exact ⟨he', taken.trans (hc.trans hc')⟩
    · rename_i hr
      split
      · exact ⟨rfl, .refl _⟩
      · have resumed :
            Course hosts (w, hand) ({ w with ready := w.yielded, yielded := [] }, hand) :=
          .resume hr
        obtain ⟨he, hc⟩ := ih (hw.trans resumed)
        exact ⟨he, resumed.trans hc⟩

theorem drain_serves (h : Host.Tended hosts host host') (n : Nat) (hw : Busy hosts w hand) :
    drain host' n w = drain host n w ∧ Course hosts (w, hand) (drain host n w, hand) := by
  have entered : Course hosts (w, hand) ({ w with inExecutor := true }, hand) := .inExecutor ..
  obtain ⟨he, hc⟩ := turns_serves h n (hw.trans entered)
  unfold drain
  rw [he]
  exact ⟨rfl, entered.trans (hc.trans (.inExecutor _ _))⟩

end World

-- ---------------------------------------------------------------------------
-- Sessions
-- ---------------------------------------------------------------------------

namespace Session

variable {w : World Op} {hand : List (Task Op)} {host host' : SessionHost}
  {hosts : SessionHost → Prop}

theorem desk_registerLoader (w : World Op) (handle : Nat) (id : String)
    (source : LoaderSource Op) : (registerLoader w handle id source).2.desk = w.desk := by
  cases source <;> rfl

theorem desk_flush (w : World Op) (handle : Nat) : (flush w handle).2.desk = w.desk := by
  unfold flush
  split <;> rfl

theorem start_serves (h : Host.Tended hosts host host') (hlike : host.Like host) (handle : Nat)
    (id name : String) (data : Option Value) (block : Option String) (hw : Busy hosts w hand) :
    Serves hosts hand w (start host w handle id name data block)
      (start host' w handle id name data block) := by
  obtain ⟨he, hc⟩ := ask_serves h (resolve w handle) name data block hw
  unfold start
  rw [he]
  split <;> (rename_i hx; rw [hx] at hc)
  · have asked := asked_of_ask hlike hw hx
    exact .of_course (hc.trans (.still (later_keep asked id) rfl))
  · exact .of_course hc

theorem poll_serves (h : Host.Tended hosts host host') (id : String) (hw : Busy hosts w hand) :
    Serves hosts hand w (poll host w id) (poll host' w id) := by
  unfold poll
  split
  · exact .refl w _
  · rename_i p hp
    have erased : Course hosts (w, hand) ({ w with renders := w.renders.erase id }, hand) :=
      .still (later_erase w id) rfl
    have asked := erased.later.asked_of_asked
      (hw.reached.asked (.inl ⟨id, Entries.mem_of_get? hp⟩))
    obtain ⟨he, hc⟩ := World.poll_serves h (hw.trans erased) asked
    rw [he]
    split <;> (rename_i hx; rw [hx] at hc; refine .of_course (erased.trans (hc.trans ?_)))
    · exact .still (later_keep (hc.later.asked_of_asked asked) id) rfl
    · exact .refl _
    · exact .refl _

theorem render_serves (h : Host.Tended hosts host host') (hlike : host.Like host) (handle : Nat)
    (name : String) (data : Option Value) (block : Option String) (hw : Busy hosts w hand) :
    Serves hosts hand w (render host w handle name data block)
      (render host' w handle name data block) := by
  obtain ⟨he, hc⟩ := ask_serves h (resolve w handle) name data block hw
  unfold render
  rw [he]
  split <;> (rename_i hx; simp only [hx] at hc)
  · exact .of_course hc
  · have asked := asked_of_ask hlike hw hx
    obtain ⟨he', hc'⟩ := World.poll_serves h (hw.trans hc) asked
    rw [he']
    split <;> (rename_i hy; rw [hy] at hc'; exact .of_course (hc.trans hc'))

theorem step_serves (h : Host.Tended hosts host host') (hlike : host.Like host) (op : Op)
    (hw : Busy hosts w hand) : Serves hosts hand w (step host w op) (step host' w op) := by
  cases op with
  | create config =>
    simp only [step]
    split
    · exact .of_course (.still ((Move.create w rfl).later fun _ h => h) rfl)
    · exact .refl w _
  | share handle => exact .of_course (.still (Quiet.later ⟨rfl, rfl, rfl⟩ fun _ h => h) rfl)
  | helperNames handle => exact .refl w _
  | hasLoader handle => exact .refl w _
  | flush handle =>
    exact .of_course (.still (flush_follows (tracks_later hw.reached) w handle) (desk_flush ..))
  | isCached handle name => exact .refl w _
  | inspect handle => exact .refl w _
  | registerHelper handle name helper =>
    exact .of_course (.still (later_update (f := fun r => r.registerHelper name helper.helper)
      (fun _ => rfl) (fun _ => rfl) w _) rfl)
  | setGlobal handle key v =>
    exact .of_course (.still (later_update (f := fun r => r.setGlobal key v)
      (fun _ => rfl) (fun _ => rfl) w _) rfl)
  | addGlobals handle data => exact .refl w _
  | callHelper handle name this args =>
    simp only [step]
    split
    · exact .refl w _
    · rename_i r _
      exact (r.helpers.dispatch_serves h this name args hw).map
        (f := fun x => (Answer.output x.1, x.2)) (.refl _)
  | registerLoader handle id loader =>
    exact .of_course (.still (registerLoader_follows (tracks_later hw.reached) w handle id loader)
      (desk_registerLoader ..))
  | addSource id name source env =>
    exact .of_course (.still (Quiet.later ⟨rfl, rfl, rfl⟩ fun _ h => h) rfl)
  | calls id name => exact .refl w _
  | start handle id name data block => exact start_serves h hlike handle id name data block hw
  | poll id => exact poll_serves h id hw
  | drop id => exact .of_course (.still (later_erase w id) rfl)
  | render handle name data block => exact render_serves h hlike handle name data block hw
  | release gate =>
    exact .of_course (.wakeFor (w.loads.results_release gate) fun _ ho =>
      (w.loads.found_release ho).trans)
  | parse handle name args executor => exact parse_serves h hlike _ name args executor hw
  | drain =>
    obtain ⟨he, hc⟩ := drain_serves h turnLimit hw
    simp only [step, he]
    exact .of_course hc

def Depths (host : SessionHost) : Prop := ∃ n, host = hostAt n

/-- A host that does what that of a depth does, in all worlds that a course leads to. -/
theorem hostAt_tended (n : Nat) {host' : SessionHost}
    (hp : ∀ op {w : World Op} {hand : List (Task Op)}, Busy Depths w hand →
      host'.perform op w = (hostAt n).perform op w)
    (hl : ∀ r {w : World Op} {hand : List (Task Op)}, Busy Depths w hand →
      host'.log r w = (hostAt n).log r w) : Host.Tended Depths (hostAt n) host' := by
  induction n generalizing host' with
  | zero =>
    exact ⟨⟨0, rfl⟩, fun op w _ hw => ⟨hp op hw, .refl _⟩,
      fun r w _ hw => ⟨by rw [hl r hw], .record w r⟩⟩
  | succ n ih =>
    have hn := ih (fun _ _ _ _ => rfl) fun _ _ _ _ => rfl
    refine ⟨⟨n + 1, rfl⟩, fun op w _ hw => ⟨hp op hw, ?_⟩,
      fun r w _ hw => ⟨by rw [hl r hw], .record w r⟩⟩
    exact (step_serves hn (hostAt_like_self n) op hw).course.trans
      (.still (later_recordAnswer ..) rfl)

theorem step_eq_of_course (n : Nat)
    (hp : ∀ op {w : World Op} {hand : List (Task Op)}, Busy Depths w hand →
      host.perform op w = (hostAt n).perform op w)
    (hl : ∀ r {w : World Op} {hand : List (Task Op)}, Busy Depths w hand →
      host.log r w = (hostAt n).log r w) (op : Op) (hw : Busy Depths w hand) :
    step host w op = step (hostAt n) w op :=
  (step_serves (hostAt_tended n hp hl) (hostAt_like_self n) op hw).eq

end Session
end Stencil
