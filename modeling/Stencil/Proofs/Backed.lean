import Stencil.Proofs.Panics
import Stencil.Proofs.SessionLockstep
import Stencil.Proofs.Sources

/-!
# Renderers that are backed by a library

A library hands every load over as a future that is ready, so the cache of a renderer whose one
loader is a library holds nothing but such loads (`World.Backed`). That stays so whatever happens in
the world, to other renderers and by code that runs on the way, as long as nobody registers another
loader for the renderer (`step_spares`, `Served.backed`).

Each function that makes calls of code has one theorem here, ending in `_spares`: it keeps the
renderer backed if its host does.
-/

namespace Stencil

variable {Ω α : Type}

-- ---------------------------------------------------------------------------
-- What a library loads
-- ---------------------------------------------------------------------------

namespace Markup.Library

def outcome (l : Library) (name : String) : Outcome (Template Ω) :=
  match l.source? name with
  | none => .nothing
  | some source => l.compiled name source

def found (l : Library) (name : String) : LoadResult (Template Ω) := (l.outcome name).ready.offer

theorem found_of_no_source {l : Library} {name : String} (h : l.source? name = none) :
    (l.found name : LoadResult (Template Ω)) = .ok none := by
  simp [found, outcome, h, Outcome.ready, LoadEvent.offer]

theorem found_of_error {l : Library} {name source : String} {f : Failure}
    (hs : l.source? name = some source) (h : l.settings.compile name source = .error f) :
    (l.found name : LoadResult (Template Ω)) = .error (.failed f.text) := by
  simp [found, outcome, hs, compiled_of_error h, Outcome.ready, LoadEvent.offer]

theorem found_of_ok {l : Library} {name source : String}
    (hs : l.source? name = some source) (h : l.settings.compile name source = .ok ()) :
    (l.found name : LoadResult (Template Ω)) = .ok (some (l.template name source)) := by
  simp [found, outcome, hs, compiled_of_ok h, Outcome.ready, LoadEvent.offer]

def handover (l : Library) (name : String) : Handover Ω := ⟨.future ⟨l.outcome name, none⟩, none⟩

theorem run_loader {host : Host Ω (World Ω)} (hl : host.Logs) (l : Library)
    (d : Dispatcher (World Ω)) (before : Nat) (name : String) (w : World Ω) :
    ∃ rs, (l.loader.load before name).run host d w = (some (l.handover name), w.logged rs) := by
  cases hs : l.source? name with
  | none =>
    refine ⟨[.noSource name], ?_⟩
    simp only [loader, load_of_no_source hs, absent, Code.bind, Code.run, hl _ _, handover, outcome,
      hs]
    rfl
  | some source =>
    refine ⟨[], ?_⟩
    simp only [loader, load_of_source hs, Code.bind, Code.run, handover, outcome, hs, w.logged_nil]

end Markup.Library

namespace World

variable {w w' w'' : World Ω} {i load : Nat} {l : Markup.Library}

theorem ended_handOver (h : w.loads.slots[load]? = some .reserved) (name : String) :
    (w.handOver load (l.handover name)).Ended load (l.found name) := by
  refine ⟨⟨.future (.ready (l.found name)), none⟩, ?_, ⟨rfl, .inl rfl⟩⟩
  have started := Loads.slots_schedule (Loads.slots_deliver h (.future .pending) none)
    (l.outcome name).ready none
  refine started.trans ?_
  unfold Markup.Library.found
  cases l.outcome name <;> rfl

-- ---------------------------------------------------------------------------
-- Backed renderers
-- ---------------------------------------------------------------------------

/-- The one loader that the renderer can have is the library's, and all that it has cached are loads
by the library. -/
structure Relies (w : World Ω) (l : Markup.Library) (r : Renderer Ω) : Prop where
  loader : ∀ loader, r.loader = some loader → loader = l.loader
  cached : ∀ e ∈ r.cache.entries, w.Ended e.2.2 (l.found e.1)

def Backed (i : Nat) (l : Markup.Library) (w : World Ω) : Prop :=
  ∀ r, w.renderer? i = some r → w.Relies l r

structure Spares (i : Nat) (l : Markup.Library) (w w' : World Ω) : Prop where
  loads : w.loads.Onward (fun _ => True) w'.loads
  backed : w.Backed i l → w'.Backed i l

theorem Relies.onward {r : Renderer Ω} {may : Nat → Prop} (h : w.Relies l r)
    (ho : w.loads.Onward may w'.loads) : w'.Relies l r :=
  ⟨h.loader, fun e he => (h.cached e he).onward ho⟩

theorem relies_of_new {r : Renderer Ω} (loader : r.loader = none) (cache : r.cache = {}) :
    w.Relies l r :=
  ⟨by simp [loader], by simp [cache]⟩

namespace Spares

theorem of_loads (h : w.loads.Onward (fun _ => True) w'.loads)
    (renderers : w'.renderers = w.renderers) : w.Spares i l w' := by
  refine ⟨h, fun backed r hr => (backed r ?_).onward h⟩
  simpa only [renderer?, renderers] using hr

theorem of_same (renderers : w'.renderers = w.renderers) (loads : w'.loads = w.loads) :
    w.Spares i l w' :=
  of_loads (.of_slots (congrArg _ loads)) renderers

theorem refl (w : World Ω) : w.Spares i l w := of_same rfl rfl

theorem trans (h : w.Spares i l w') (h' : w'.Spares i l w'') : w.Spares i l w'' :=
  ⟨h.loads.trans h'.loads, fun backed => h'.backed (h.backed backed)⟩

theorem of_update {j : Nat} {f : Renderer Ω → Renderer Ω}
    (hf : ∀ r, j = i → w.renderer? j = some r → w.Relies l r → w.Relies l (f r)) :
    w.Spares i l (w.update j f) := by
  have onward : w.loads.Onward (fun _ => True) (w.update j f).loads := .refl _
  refine ⟨onward, fun backed r' hr' => Relies.onward ?_ onward⟩
  by_cases hji : j = i
  · subst hji
    have modified : (w.update j f).renderer? j = (w.renderer? j).map f :=
      List.getElem?_modify_eq ..
    obtain ⟨r, hr, rfl⟩ := Option.map_eq_some_iff.mp (modified.symm.trans hr')
    exact hf r rfl hr (backed r hr)
  · have same : (w.update j f).renderer? i = w.renderer? i := List.getElem?_modify_ne _ _ hji
    exact backed r' (same ▸ hr')

/-- A renderer may lose entries. -/
theorem of_setCache {j : Nat} {r : Renderer Ω} (hr : w.renderer? j = some r) {cache : Cache Nat}
    (fewer : cache.entries ⊆ r.cache.entries) : w.Spares i l (w.setCache j cache) := by
  refine of_update fun r' _ hr' relies => ?_
  cases hr.symm.trans hr'
  exact ⟨relies.loader, fun e he => relies.cached e (fewer he)⟩

theorem record (w : World Ω) (r : Record) : w.Spares i l (w.record r) := of_same rfl rfl

theorem note (w : World Ω) (e : Event Ω) : w.Spares i l (w.note e) := of_same rfl rfl

theorem mark (w : World Ω) (m : Milestone) : w.Spares i l (w.mark m) := of_same rfl rfl

theorem wake (w : World Ω) (load : Nat) : w.Spares i l (w.wake load) := of_same rfl rfl

theorem inExecutor (w : World Ω) (b : Bool) : w.Spares i l { w with inExecutor := b } :=
  of_same rfl rfl

theorem countCall (w : World Ω) (counter : Option String) (name : String) :
    w.Spares i l (w.countCall counter name) := by
  cases counter <;> exact of_same rfl rfl

theorem addRenderer (w : World Ω) {r : Renderer Ω} (loader : r.loader = none)
    (cache : r.cache = {}) : w.Spares i l (w.addRenderer r) := by
  have onward : w.loads.Onward (fun _ => True) (w.addRenderer r).loads := .refl _
  refine ⟨onward, fun backed r' hr' => Relies.onward ?_ onward⟩
  have added : (w.renderers ++ [r])[i]? = some r' := hr'
  rw [List.getElem?_append] at added
  split at added
  · exact backed r' added
  · cases List.mem_singleton.mp (List.mem_of_getElem? added)
    exact relies_of_new loader cache

end Spares

theorem subset_evict (c : Cache Nat) (name : String) (generation : Nat) :
    (c.evict name generation).2.entries ⊆ c.entries := by
  unfold Cache.evict
  split
  · split
    · exact fun _ => Entries.mem_of_mem_erase
    · exact List.Subset.refl _
  · exact List.Subset.refl _

theorem evictFailed_spares (p : Pending) (b : Binding) (w : World Ω) :
    w.Spares i l (evictFailed p b w) := by
  rcases evictFailed_cases p b w with ⟨h, -⟩ | ⟨r, hr, -, -, h⟩
  · rw [h]
    exact .refl w
  · rw [h]
    exact (Spares.of_setCache hr (subset_evict ..)).trans (.record ..)

end World

-- ---------------------------------------------------------------------------
-- Code
-- ---------------------------------------------------------------------------

open World

variable {i : Nat} {l : Markup.Library} {w : World Ω} {host : Host Ω (World Ω)}

structure Host.Spares (i : Nat) (l : Markup.Library) (host : Host Ω (World Ω)) : Prop where
  perform : ∀ op (w : World Ω), w.Spares i l (host.perform op w).2
  logs : host.Logs

theorem Host.Spares.log (h : host.Spares i l) (r : Record) (w : World Ω) :
    w.Spares i l (host.log r w) := by
  rw [h.logs]
  exact .record w r

section

variable (h : host.Spares i l)

include h

theorem Code.run_spares {d : Dispatcher (World Ω)}
    (hd : ∀ this name args (w : World Ω), w.Spares i l (d.dispatch this name args w).2)
    (c : Code Ω α) (w : World Ω) : w.Spares i l (c.run host d w).2 := by
  induction c generalizing w with
  | done a => exact .refl w
  | panic => exact .refl w
  | log r next ih => exact (h.log r w).trans (ih _)
  | perform op next ih => exact (h.perform op w).trans (ih _ _)
  | names next ih => exact ih _ _
  | dispatch this name args next ih => exact (hd this name args w).trans (ih _ _)

theorem Code.run_none_spares (c : Code Ω α) (w : World Ω) : w.Spares i l (c.run host .none w).2 :=
  c.run_spares h (fun _ _ _ w => .refl w) w

theorem HelperTable.dispatch_spares (t : HelperTable Ω) (this : Value) (name : String)
    (args : List Value) (w : World Ω) : w.Spares i l (t.dispatch host this name args w).2 := by
  unfold dispatch call
  split
  · exact .refl w
  · rename_i helper _
    have ran := Code.run_none_spares h (helper this args) w
    generalize (helper this args).run host .none w = x at ran
    obtain ⟨ended, v⟩ := x
    match ended with
    | some (.ok value) => exact ran
    | some (.error e) => exact ran.trans (h.log ..)
    | none => exact ran.trans (h.log ..)

theorem Template.run_spares (t : Template Ω) (helpers : HelperTable Ω) (context : Value)
    (w : World Ω) : w.Spares i l (t.run host helpers context w).2 := by
  have ran := (t.body context).run_spares h (d := helpers.dispatcher host)
    (helpers.dispatch_spares h) w
  unfold run call
  generalize (t.body context).run host (helpers.dispatcher host) w = x at ran
  obtain ⟨ended, v⟩ := x
  cases ended <;> exact ran

namespace World

-- ---------------------------------------------------------------------------
-- Renders
-- ---------------------------------------------------------------------------

theorem runLoader_spares (loader : Loader Ω) (load : Nat) (name : String) (w : World Ω) :
    w.Spares i l (runLoader host loader load name w).2 := by
  have counted : w.Spares i l (w.countCall loader.counter name) := .countCall ..
  have ran := counted.trans (Code.run_none_spares h
    (loader.load ((loader.counter.map (w.callCount · name)).getD 0) name) _)
  unfold runLoader
  dsimp only
  split <;> (rename_i hx; rw [hx] at ran)
  · exact ran.trans (.of_loads (Through.handOver load _).goes.loads rfl)
  · exact ran.trans (.of_loads (Through.abandon load).goes.loads rfl)

omit h in
theorem runLoader_library (logs : host.Logs) (load : Nat) (name : String) (w : World Ω) :
    ∃ rs, runLoader host l.loader load name w =
      (true, (w.logged rs).handOver load (l.handover name)) := by
  obtain ⟨rs, ran⟩ := l.run_loader logs .none
    ((l.loader.counter.map (w.callCount · name) : Option Nat).getD 0) name w
  refine ⟨rs, ?_⟩
  unfold runLoader
  dsimp only
  split <;> (rename_i hx; cases ran.symm.trans hx)
  rfl

omit h in
theorem cache_opened {r : Renderer Ω} (hr : w.renderer? i = some r) {name : String}
    (hn : r.cache.entries.get? name = none) :
    (w.opened i r name).renderer? i = some { r with
      cache := ⟨r.cache.entries.insert name (r.cache.next, w.loads.slots.length),
        r.cache.next + 1⟩ } := by
  show (w.renderers.modify i _)[i]? = _
  rw [List.getElem?_modify_eq, show w.renderers[i]? = some r from hr]
  exact congrArg (fun c => some { r with cache := c.2 }) (Cache.getOrInsert_of_miss hn _)

omit h in
/-- The library that is asked for a name hands a load over at once. -/
theorem backed_runLoader (logs : host.Logs) (backed : w.Backed i l) {r : Renderer Ω}
    (hr : w.renderer? i = some r) {name : String} (hn : r.cache.entries.get? name = none)
    (onward : w.loads.Onward (fun _ => True)
      (runLoader host l.loader w.loads.slots.length name (w.opened i r name)).2.loads) :
    (runLoader host l.loader w.loads.slots.length name (w.opened i r name)).2.Backed i l := by
  obtain ⟨rs, ran⟩ := runLoader_library (l := l) logs w.loads.slots.length name (w.opened i r name)
  rw [ran] at onward ⊢
  have ended := ended_handOver (w := (w.opened i r name).logged rs) (l := l)
    (w.reserved_opened i r name) name
  intro r' hr'
  cases (cache_opened hr hn).symm.trans (show (w.opened i r name).renderer? i = some r' from hr')
  refine ⟨(backed r hr).loader, fun e he => ?_⟩
  rcases Entries.mem_insert he with rfl | he
  · exact ended
  · exact ((backed r hr).cached e he).onward onward

theorem ask_spares (j : Nat) (name : String) (data : Option Value) (block : Option String)
    (w : World Ω) : w.Spares i l (ask host j name data block w).2 := by
  cases hr : w.renderer? j with
  | none =>
    simp only [ask, hr]
    exact .refl w
  | some r =>
    cases hl : r.loader with
    | none =>
      rw [ask_of_no_loader hr hl]
      exact .refl w
    | some loader =>
      cases hn : r.cache.entries.get? name with
      | some a =>
        rw [ask_of_hit hr hl hn]
        exact .record ..
      | none =>
        rw [ask_of_miss hr hl hn]
        have ran := runLoader_spares h loader w.loads.slots.length name (w.opened j r name)
        have onward := (Loads.onward_reserve w.loads).trans ran.loads
        refine ⟨onward, fun backed => ?_⟩
        by_cases hji : j = i
        · subst hji
          obtain rfl := (backed r hr).loader loader hl
          exact backed_runLoader h.logs backed hr hn onward
        · have reserved : w.Spares i l { w with loads := w.loads.reserve.2 } :=
            .of_loads (Loads.onward_reserve w.loads) rfl
          have entered : w.Spares i l (w.reserve j r name).2 :=
            reserved.trans (.of_update fun _ he => absurd he hji)
          exact (((entered.trans (.note ..)).trans (.record ..)).trans ran).backed backed

-- ---------------------------------------------------------------------------
-- Polls
-- ---------------------------------------------------------------------------

omit h in
theorem slot_of_idle {load : Nat} {work : Work Ω} (working : w.loads.worker load = .idle work) :
    ∃ s, w.loads.slots[load]? = some (.started s (.idle work)) := by
  unfold Loads.worker at working
  cases hs : w.loads.slots[load]? with
  | none => simp [hs] at working
  | some slot =>
    cases slot with
    | reserved => simp [hs, Slot.worker] at working
    | started s k =>
      obtain ⟨_, result⟩ := s
      cases result with
      | some result => simp [hs, Slot.worker] at working
      | none =>
        obtain rfl : k = .idle work := by simpa [hs, Slot.worker] using working
        exact ⟨_, rfl⟩

omit h in
theorem Spares.poison {load : Nat} {work : Work Ω} (working : w.loads.worker load = .idle work)
    {w' : World Ω} (ran : w.Spares i l w') :
    w.Spares i l { w' with loads := w'.loads.poison load } := by
  obtain ⟨s, hs⟩ := slot_of_idle working
  obtain ⟨slot, hs', onward⟩ := ran.loads.slot hs
  cases onward with
  | started ms hk => exact ran.trans (.of_loads (Through.poison hs' hk).goes.loads rfl)

theorem drive_spares (load : Nat) (w : World Ω) : w.Spares i l (drive host load w).2 := by
  unfold drive
  split
  · rename_i work working
    have entered : w.Spares i l { w with loads := w.loads.enter load } :=
      .of_loads (w.loads.onward_enter load) rfl
    have ran := entered.trans (Code.run_none_spares h work _)
    split <;> (rename_i hx; rw [hx] at ran)
    · exact ran.trans (.of_loads (Loads.onward_leave ..) rfl)
    · exact ran.poison working
  · exact .refl w
  · exact .refl w

theorem pollLoad_spares (load : Nat) (w : World Ω) : w.Spares i l (pollLoad host load w).2 := by
  have driven := drive_spares h load w
  unfold pollLoad
  split <;> (rename_i u hx; rw [hx] at driven)
  · exact driven
  · have looked : u.Spares i l { u with loads := (u.loads.poll load).2 } :=
      .of_loads (u.loads.onward_poll load) rfl
    dsimp only
    split
    · exact driven.trans looked
    · exact driven.trans (looked.trans (.of_same rfl rfl))

theorem runTemplate_spares (p : Pending) (t : Template Ω) (w : World Ω) :
    w.Spares i l (runTemplate host p t w).2 := by
  have ran := Template.run_spares h t (((w.renderer? p.renderer).map (·.helpers)).getD .empty)
    (.object p.context) w
  unfold runTemplate
  dsimp only
  split <;> (rename_i hx; rw [hx] at ran)
  · exact ran
  · exact ran.trans (.record ..)

theorem complete_spares (p : Pending) (b : Binding) (result : LoadResult (Template Ω))
    (w : World Ω) : w.Spares i l (complete host p b result w).2 := by
  unfold complete
  split
  · exact evictFailed_spares p b w
  · exact .record ..
  · split
    · exact runTemplate_spares h ..
    · split
      · exact runTemplate_spares h ..
      · exact .record ..

theorem poll_spares (p : Pending) (w : World Ω) : w.Spares i l (poll host p w).2 := by
  unfold poll
  split
  · exact .refl w
  · rename_i b _
    have polled := pollLoad_spares h b.load w
    split <;> (rename_i hx; rw [hx] at polled)
    · exact polled
    · exact polled
    · exact polled.trans ((Spares.note ..).trans (complete_spares h ..))

-- ---------------------------------------------------------------------------
-- Parse calls and tasks
-- ---------------------------------------------------------------------------

theorem receive_spares (r : Receiver Ω) (output : String) (w : World Ω) :
    w.Spares i l (receive host r output w) := by
  have performed (ops : List Ω) (w : World Ω) : w.Spares i l (performAll host ops w) := by
    induction ops generalizing w with
    | nil => exact .refl w
    | cons op rest ih => exact (h.perform op w).trans (ih _)
  have recorded : w.Spares i l (w.recordOutput r.label output) := .of_same rfl rfl
  exact recorded.trans (performed r.ops _)

theorem schedule_spares (j : Nat) (name : String) (args : Arguments (Receiver Ω)) (r : Receiver Ω)
    (w : World Ω) : w.Spares i l (schedule host j name args r w).2 := by
  unfold schedule
  split
  · exact .of_same rfl rfl
  · rename_i block _
    have asked := ask_spares h j name args.data.data? block w
    split <;> (rename_i hx; rw [hx] at asked)
    · exact asked.trans (.of_same rfl rfl)
    · exact asked

theorem parse_spares (j : Nat) (name : String) (args : Arguments (Receiver Ω)) (executor : Bool)
    (w : World Ω) : w.Spares i l (parse host j name args executor w).2 := by
  have shifted (args : Arguments (Receiver Ω)) (w : World Ω) :
      w.Spares i l (parseShifted host j name args w).2 := by
    unfold parseShifted
    split
    · exact .refl w
    · split
      · exact receive_spares h ..
      · split
        · exact schedule_spares h ..
        · exact .refl w
  exact ((Spares.inExecutor ..).trans (shifted args.shift _)).trans (.inExecutor ..)

omit h in
theorem finish_spares (t : Task Ω) (result : Except Error String) (w : World Ω) :
    w.Spares i l (finish t result w) := by
  cases result <;> exact .of_same rfl rfl

theorem turn_spares (t : Task Ω) (w : World Ω) : w.Spares i l (turn host t w) := by
  unfold turn
  split
  · rename_i p _
    have polled := poll_spares h p w
    split <;> (rename_i hx; rw [hx] at polled)
    · exact polled.trans (.of_same rfl rfl)
    · exact polled.trans (.mark ..)
    · exact polled.trans (finish_spares ..)
  · exact finish_spares ..
  · exact (Spares.mark ..).trans (receive_spares h ..)

theorem turns_spares (n : Nat) (w : World Ω) : w.Spares i l (turns host n w) := by
  induction n generalizing w with
  | zero => exact .refl w
  | succ n ih =>
    unfold turns
    split
    · rename_i t rest _
      have left : w.Spares i l { w with ready := rest } := .of_same rfl rfl
      exact left.trans ((turn_spares h t _).trans (ih _))
    · split
      · exact .refl w
      · have shifted : w.Spares i l { w with ready := w.yielded, yielded := [] } :=
          .of_same rfl rfl
        exact shifted.trans (ih _)

theorem drain_spares (n : Nat) (w : World Ω) : w.Spares i l (drain host n w) :=
  ((Spares.inExecutor ..).trans (turns_spares h n _)).trans (.inExecutor ..)

omit h in
theorem release_spares (gate : String) (w : World Ω) : w.Spares i l (w.release gate).2 := by
  have woken (loads : List Nat) (u : World Ω) : u.Spares i l (loads.foldl wake u) := by
    induction loads generalizing u with
    | nil => exact .refl u
    | cons load rest ih => exact (Spares.wake ..).trans (ih _)
  have opened : w.Spares i l { w with loads := (w.loads.release gate).2 } :=
    .of_loads (w.loads.onward_release gate) rfl
  exact opened.trans (woken _ _)

end World
end

-- ---------------------------------------------------------------------------
-- Sessions
-- ---------------------------------------------------------------------------

namespace Session

/-- The library that an operation registers as a loader, if that is what it does. -/
def brought? (w : World Op) (id : String) : LoaderSource Op → Option Markup.Library
  | .script _ => none
  | .library l => some l
  | .kept env => some (w.libraryFor env id)

end Session

open Session

def Op.Loyal (i : Nat) (l : Markup.Library) (w : World Op) : Op → Prop
  | .registerLoader handle id source => resolve w handle = i → brought? w id source = some l
  | _ => True

namespace Session

section

variable {i : Nat} {l : Markup.Library} {host : SessionHost} (h : host.Spares i l)

theorem change_spares {w : World Op} {handle : Nat} {f : Renderer Op → Renderer Op}
    (hf : ∀ r, (f r).loader = r.loader ∧ (f r).cache = r.cache) :
    w.Spares i l (change w handle f).2 := by
  refine .of_update fun r _ _ relies => ⟨?_, ?_⟩
  · rw [(hf r).1]
    exact relies.loader
  · rw [(hf r).2]
    exact relies.cached

theorem registerLoader_spares {w : World Op} {handle : Nat} {id : String}
    {source : LoaderSource Op} (loyal : (Op.registerLoader handle id source).Loyal i l w) :
    w.Spares i l (registerLoader w handle id source).2 := by
  have changed (w : World Op) (loader : Loader Op)
      (hl : resolve w handle = i → loader = l.loader) :
      w.Spares i l (change w handle fun r => r.registerLoader loader).2 := by
    refine .of_update fun r hi _ relies => ⟨?_, relies.cached⟩
    rintro _ ⟨⟩
    exact hl hi
  have kept (libraries : Entries Markup.Library) :
      w.Spares i l { w with libraries := libraries } := .of_same rfl rfl
  cases source with
  | script s => exact changed w _ fun hi => nomatch loyal hi
  | library k => exact (kept _).trans (changed _ _ fun hi => by rw [Option.some.inj (loyal hi)])
  | kept env => exact (kept _).trans (changed _ _ fun hi => by rw [Option.some.inj (loyal hi)])

theorem flush_spares (w : World Op) (handle : Nat) : w.Spares i l (flush w handle).2 := by
  unfold flush
  split
  · exact .refl w
  · refine ((Spares.note ..).trans (.record ..)).trans (Spares.of_update ?_)
    exact fun r _ _ relies => ⟨relies.loader, nofun⟩

include h

theorem start_spares (w : World Op) (handle : Nat) (id name : String) (data : Option Value)
    (block : Option String) : w.Spares i l (start host w handle id name data block).2 := by
  have asked := ask_spares h (resolve w handle) name data block w
  unfold start
  split <;> (rename_i hx; rw [hx] at asked)
  · exact asked.trans (.of_same rfl rfl)
  · exact asked

theorem poll_spares (w : World Op) (id : String) : w.Spares i l (poll host w id).2 := by
  unfold poll
  split
  · exact .refl w
  · rename_i p _
    have taken : w.Spares i l { w with renders := w.renders.erase id } := .of_same rfl rfl
    have polled := taken.trans (World.poll_spares h p _)
    split <;> (rename_i hx; rw [hx] at polled)
    · exact polled.trans (.of_same rfl rfl)
    · exact polled
    · exact polled

theorem render_spares (w : World Op) (handle : Nat) (name : String) (data : Option Value)
    (block : Option String) : w.Spares i l (render host w handle name data block).2 := by
  have asked := ask_spares h (resolve w handle) name data block w
  unfold render
  split <;> (rename_i hx; rw [hx] at asked)
  · exact asked
  · rename_i p u
    have polled := asked.trans (World.poll_spares h p u)
    split <;> (rename_i hy; rw [hy] at polled)
    · exact polled
    · exact polled
    · exact polled

theorem step_spares (w : World Op) {op : Op} (loyal : op.Loyal i l w) :
    w.Spares i l (step host w op).2 := by
  cases op with
  | create config =>
    simp only [step]
    split
    · exact .addRenderer w rfl rfl
    · exact .refl w
  | share handle => exact .of_same rfl rfl
  | helperNames handle => exact .refl w
  | hasLoader handle => exact .refl w
  | flush handle => exact flush_spares w handle
  | isCached handle name => exact .refl w
  | inspect handle => exact .refl w
  | registerHelper handle name helper => exact change_spares fun _ => ⟨rfl, rfl⟩
  | setGlobal handle key v => exact change_spares fun _ => ⟨rfl, rfl⟩
  | addGlobals handle data => exact .refl w
  | callHelper handle name this args =>
    simp only [step]
    split
    · exact .refl w
    · exact HelperTable.dispatch_spares h ..
  | registerLoader handle id source => exact registerLoader_spares loyal
  | addSource id name source env => exact .of_same rfl rfl
  | calls id name => exact .refl w
  | start handle id name data block => exact start_spares h ..
  | poll id => exact poll_spares h ..
  | drop id => exact .of_same rfl rfl
  | render handle name data block => exact render_spares h ..
  | release gate => exact release_spares gate w
  | parse handle name args executor => exact parse_spares h ..
  | drain => exact drain_spares h ..

end

open Classical in
/-- What surrounds code, with all operations refused that would register another loader for the
renderer. -/
noncomputable def loyalAt (i : Nat) (l : Markup.Library) : Nat → SessionHost
  | 0 => hostAt 0
  | n + 1 =>
    { perform := fun op w =>
        if op.Loyal i l w then
          let (answer, w) := step (loyalAt i l n) w op
          (answer, w.recordAnswer answer)
        else (.silent, w)
      log := fun r w => w.record r }

theorem loyalAt_spares (i : Nat) (l : Markup.Library) (n : Nat) : (loyalAt i l n).Spares i l := by
  induction n with
  | zero => exact ⟨fun _ w => .refl w, fun _ _ => rfl⟩
  | succ n ih =>
    refine ⟨fun op w => ?_, fun _ _ => rfl⟩
    simp only [loyalAt]
    split
    · rename_i loyal
      exact (step_spares ih w loyal).trans (.of_same rfl rfl)
    · exact .refl w

/-- The worlds between the operations of a session in which no loader was ever registered for the
renderer but the library, by code inside of the operations neither: nothing was different with all
else refused. -/
inductive Served (i : Nat) (l : Markup.Library) : World Op → Prop
  | start : Served i l {}
  | next {w : World Op} {op : Op} (served : Served i l w) (loyal : op.Loyal i l w)
      (kept : step (loyalAt i l depthLimit) (cleared w) op =
        step (hostAt depthLimit) (cleared w) op) :
      Served i l (reportStep w op).2

theorem Served.backed {i : Nat} {l : Markup.Library} {w : World Op} (h : Served i l w) :
    w.Backed i l := by
  induction h with
  | start => exact nofun
  | @next w op _ loyal kept ih =>
    have same : op.Loyal i l (cleared w) := by cases op <;> exact loyal
    have stepped := step_spares (loyalAt_spares i l depthLimit) _ same
    rw [kept] at stepped
    have began : w.Spares i l (cleared w) := .of_same rfl rfl
    exact (began.trans stepped).backed ih

end Session
end Stencil
