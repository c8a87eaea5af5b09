import Stencil.Proofs.Eviction
import Stencil.Proofs.LoadOnce
import Stencil.Proofs.Onward

/-!
# Loaders that panic

A loader that panics leaves a load behind that was given up: its future is ready, with the failure
that it was abandoned, and nothing that happens can change that. So nobody who is bound to the load
waits for it in vain. The entry in the cache stays as after any other failure.
-/

namespace Stencil

variable {Ω ω τ : Type}

-- ---------------------------------------------------------------------------
-- Futures that are ready
-- ---------------------------------------------------------------------------

structure Shared.Ended (r : LoadResult τ) (s : Shared τ) : Prop where
  load : s.load = .future (.ready r)
  result : s.result = none ∨ s.result = some r

namespace Shared.Ended

variable {r : LoadResult τ} {s : Shared τ}

theorem pass (h : s.Ended r) (m : Moment τ) : (s.pass m).Ended r := by
  obtain ⟨l, result⟩ := s
  obtain ⟨rfl, hr⟩ := h
  cases m with
  | event e => exact ⟨rfl, hr⟩
  | look => rcases hr with rfl | rfl <;> exact ⟨rfl, .inr rfl⟩

theorem after (h : s.Ended r) (ms : List (Moment τ)) : (s.after ms).Ended r := by
  induction ms generalizing s with
  | nil => exact h
  | cons m rest ih => exact ih (h.pass m)

theorem poll (h : s.Ended r) : s.poll.1 = some r := by
  obtain ⟨l, result⟩ := s
  obtain ⟨rfl, hr⟩ := h
  rcases hr with rfl | rfl <;> rfl

end Shared.Ended

namespace World

variable {w w' u : World Ω} {host host' : Host Ω (World Ω)} {p : Pending} {l : Nat}

def Ended (w : World Ω) (l : Nat) (r : LoadResult (Template Ω)) : Prop :=
  ∃ s : Shared (Template Ω), w.loads.slots[l]? = some (.started s .absent) ∧ s.Ended r

theorem Ended.onward {may : Nat → Prop} {r : LoadResult (Template Ω)} (h : w.Ended l r)
    (ho : w.loads.Onward may w'.loads) : w'.Ended l r := by
  obtain ⟨s, hs, ended⟩ := h
  obtain ⟨slot, hs', onward⟩ := ho.slot hs
  cases onward with
  | @started _ _ k ms hk =>
    cases k <;> simp only [Worker.isAbsent, Bool.false_eq_true] at hk
    exact ⟨_, hs', ended.after ms⟩

theorem Ended.pollLoad {r : LoadResult (Template Ω)} (h : w.Ended l r) (host : Host Ω (World Ω)) :
    pollLoad host l w = (.ready r, (w.wake l).look l) := by
  obtain ⟨s, hs, ended⟩ := h
  have found : (w.loads.poll l).1 = some r := by
    simp [Loads.poll, hs, Slot.poll, Worker.isFree, ended.poll]
  have idle : w.loads.worker l = .absent := by
    simp only [Loads.worker, hs, Option.map_some, Option.getD_some, Slot.worker]
    split <;> simp_all
  simp only [World.pollLoad, drive, idle, found]
  rfl

def Abandoned (w : World Ω) (l : Nat) : Prop :=
  ∃ s : Shared (Template Ω), w.loads.slots[l]? = some (.started s .absent) ∧
    s.Ended (.error .abandoned)

theorem Abandoned.onward {may : Nat → Prop} (h : w.Abandoned l)
    (ho : w.loads.Onward may w'.loads) : w'.Abandoned l :=
  Ended.onward h ho

theorem abandoned_abandon (h : u.loads.slots[l]? = some .reserved) :
    (u.abandon l).Abandoned l := by
  refine ⟨⟨.future (.ready (.error .abandoned)), none⟩, ?_, ⟨rfl, .inl rfl⟩⟩
  exact Loads.slots_deliver h (.future (.ready (.error .abandoned))) none

theorem Abandoned.pollLoad (h : w.Abandoned l) (host : Host Ω (World Ω)) :
    pollLoad host l w = (.ready (.error .abandoned), (w.wake l).look l) :=
  Ended.pollLoad h host

/-- A render that is bound to an abandoned load completes in the poll, with that failure. -/
theorem Abandoned.poll (h : w.Abandoned l) {b : Binding} (hb : p.binding = some b)
    (hl : b.load = l) (host : Host Ω (World Ω)) :
    poll host p w = (.ready (.error (.templateLoad p.name .abandoned)),
      evictFailed p b (((w.wake l).look l).note (.received p (.error .abandoned)))) := by
  subst hl
  rw [poll_of_ready hb (h.pollLoad host)]
  rfl

theorem Abandoned.cached?_poll {b : Binding} (h : w.Abandoned b.load)
    (nodup : ∀ c ∈ w.caches, c.1.entries.keys.Nodup) (hb : p.binding = some b)
    (policy : w.policy? p.renderer = some .evictOnError)
    (hc : w.cached? p.renderer p.name = some (b.generation, b.load)) (host : Host Ω (World Ω)) :
    (World.poll host p w).2.cached? p.renderer p.name = none := by
  have looked : ∀ c ∈ (((w.wake b.load).look b.load).note
      (.received p (.error .abandoned))).caches, c.1.entries.keys.Nodup := nodup
  rw [h.poll hb rfl]
  refine (cached?_evictFailed looked p b _ _).trans (if_pos ⟨rfl, rfl, policy, ?_⟩)
  show (w.cached? p.renderer p.name).map (·.1) = some b.generation
  rw [hc]
  rfl

-- ---------------------------------------------------------------------------
-- Whose load it is
-- ---------------------------------------------------------------------------

theorem Run.invoked_of_cached {es : List (Event Ω)} (run : Run w es w') (hw : w.Sound) {i : Nat}
    {name : String} {g : Nat} (h : w'.cached? i name = some (g, l)) :
    w.cached? i name = some (g, l) ∨ .invoked i name l ∈ es := by
  induction run with
  | refl w => exact .inl h
  | head m rest ih =>
    rcases ih (m.sound hw) h with h | h
    · exact (m.entry_inv hw h).imp_right fun h => List.mem_append_left _ h.1
    · exact .inr (List.mem_append_right _ h)

/-- The loader was called for a load on behalf of one renderer, and by one name. -/
theorem Reached.invoked_unique (hw : w.Reached) {i j : Nat} {name other : String}
    (h : .invoked i name l ∈ w.history) (h' : .invoked j other l ∈ w.history) :
    i = j ∧ name = other := by
  have nodup : (w.history.filterMap Event.load?).Nodup := by
    have hr : w.history.filterMap Event.load? = List.range w.loads.results.length :=
      hw.run.range_load?
    rw [hr]
    exact List.nodup_range
  obtain ⟨before, rest, hsplit⟩ := List.append_of_mem h
  have load : l ∉ before.filterMap Event.load? ∧ l ∉ rest.filterMap Event.load? := by
    have loads : w.history.filterMap Event.load? =
        before.filterMap Event.load? ++ l :: rest.filterMap Event.load? := by
      rw [hsplit, List.filterMap_append]
      rfl
    rw [loads, List.nodup_append] at nodup
    obtain ⟨-, hr, hd⟩ := nodup
    exact ⟨fun hb => hd l hb l (List.mem_cons_self ..) rfl, (List.nodup_cons.mp hr).1⟩
  have elsewhere {es : List (Event Ω)} (hes : l ∉ es.filterMap Event.load?) :
      .invoked j other l ∉ es := fun hm => hes (List.mem_filterMap.mpr ⟨_, hm, rfl⟩)
  rw [hsplit, List.mem_append, List.mem_cons] at h'
  rcases h' with h' | h' | h'
  · exact absurd h' (elsewhere load.1)
  · cases h'
    exact ⟨rfl, rfl⟩
  · exact absurd h' (elsewhere load.2)

theorem Asked.invoked (hp : w.Asked p) {b : Binding} (hb : p.binding = some b) :
    .invoked p.renderer p.name b.load ∈ w.history := by
  obtain ⟨v, r, data, block, called, ⟨es, run⟩, fs, run'⟩ := hp
  rw [called.binding, Option.bind_eq_some_iff] at hb
  obtain ⟨_, -, hb⟩ := hb
  obtain ⟨⟨g, l⟩, ha, rfl⟩ := Option.map_eq_some_iff.mp hb
  rcases run.invoked_of_cached sound_empty ha with h | h
  · simp [cached?, caches] at h
  · rw [run'.history, run.history]
    exact List.mem_append_left _ (List.mem_append_right _ h)

theorem renderer?_of_cached? {i : Nat} {name : String} {a : Nat × Nat}
    (h : w.cached? i name = some a) :
    ∃ r, w.renderer? i = some r ∧ r.cache.entries.get? name = some a := by
  obtain ⟨c, hc, ha⟩ := cached?_eq_some_iff.mp h
  obtain ⟨r, hr, rfl⟩ := renderer?_of_caches hc
  exact ⟨r, hr, ha⟩

-- ---------------------------------------------------------------------------
-- The call that panics
-- ---------------------------------------------------------------------------

theorem runLoader_of_panic {loader : Loader Ω} {name : String}
    (h : runLoading host loader name w = (none, u)) :
    runLoader host loader l name w = (false, u.abandon l) := by
  simp only [runLoading, loading] at h
  simp only [runLoader, h]
  rfl

theorem ask_of_panic {i : Nat} {r : Renderer Ω} {loader : Loader Ω} {name : String}
    (hr : w.renderer? i = some r) (hl : r.loader = some loader)
    (hn : r.cache.entries.get? name = none)
    (h : runLoading host loader name (w.opened i r name) = (none, u)) (data : Option Value)
    (block : Option String) :
    ask host i name data block w = (none, u.abandon w.loads.slots.length) := by
  rw [ask_of_miss hr hl hn, runLoader_of_panic h]
  rfl

/-- While its loader runs, a load stays reserved. -/
theorem reserved_opened (w : World Ω) (i : Nat) (r : Renderer Ω) (name : String) :
    (w.opened i r name).loads.slots[w.loads.slots.length]? = some .reserved := by
  show (w.loads.slots ++ [.reserved])[w.loads.slots.length]? = _
  rw [List.getElem?_append_right (Nat.le_refl _), Nat.sub_self]
  rfl

theorem reserved_of_onward {may : Nat → Prop} (h : w.loads.slots[l]? = some .reserved)
    (ho : w.loads.Onward may w'.loads) (hl : ¬ may l) : w'.loads.slots[l]? = some .reserved := by
  obtain ⟨slot, hs, onward⟩ := ho.slot h
  cases onward with
  | reserved => exact hs
  | handed may => exact absurd may hl

end World

-- ---------------------------------------------------------------------------
-- Sessions
-- ---------------------------------------------------------------------------

open World Session

/-- What is left of a load that was abandoned, as seen from a world after that: the load `l` of the
name `name`, in the cache of renderer `i`. -/
structure LeftBehind (i : Nat) (name : String) (l : Nat) (v : World Op) : Prop where
  /-- Whoever is bound to the load is told of it in the first poll. -/
  told : ∀ {p}, v.Asked p → p.load? = some l → p.renderer = i ∧ p.name = name ∧
    ∀ host, (poll host p v).1 = .ready (.error (.templateLoad name .abandoned))
  /-- While the load is cached, no loader is called for the name. -/
  served : ∀ {g}, v.cached? i name = some (g, l) → ∀ host data block,
    (ask host i name data block v).2 = v ∨
      (ask host i name data block v).2 = v.record (.servedFromCache name)
  /-- It stays cached until a flush or, under the evicting policy, until its failure is received. -/
  kept : ∀ {es v' g}, Run v es v' → v.cached? i name = some (g, l) →
    v'.cached? i name = some (g, l) ∨ .flushed i ∈ es ∨
      v.policy? i = some .evictOnError ∧ ∃ p err, .received p (.error err) ∈ es ∧
        p.renderer = i ∧ p.name = name ∧ p.load? = some l
  /-- It is cached no more once its failure was received, under the evicting policy. -/
  delivered : ∀ {p err}, .received p (.error err) ∈ v.history → p.load? = some l →
    v.policy? i = some .evictOnError → ∀ {g}, v.cached? i name ≠ some (g, l)
  evicted : ∀ {p g}, v.Asked p → p.load? = some l → v.policy? i = some .evictOnError →
    v.cached? i name = some (g, l) → ∀ host, (poll host p v).2.cached? i name = none
  flushed : ∀ {handle}, resolve v handle = i → (flush v handle).2.cached? i name = none
  again : v.cached? i name = none → ∀ {r loader}, v.renderer? i = some r →
    r.loader = some loader → ∀ host data block, (ask host i name data block v).2 =
      (runLoader host loader v.loads.slots.length name (v.opened i r name)).2

theorem onward_runLoading {may : Nat → Prop} (n : Nat) {w : World Op} (hw : w.Reached)
    (loader : Loader Op) (name : String) :
    w.Onward may (runLoading (hostAt n) loader name w).2 := by
  have tracks : Tracks (fun _ => True) (fun _ _ => True) (Onward may) w := tracks_onward hw
  have counted := still_countCall tracks w loader.counter name
  exact tracks.trans counted (onward_run n (counted.later.reached hw) (w.loading loader name))

theorem leftBehind {i : Nat} {name : String} {l : Nat} {v : World Op} (hv : v.Reached)
    (abandoned : v.Abandoned l) (invoked : .invoked i name l ∈ v.history) :
    LeftBehind i name l v := by
  have told {p : Pending} (hp : v.Asked p) (hl : p.load? = some l) :
      ∃ b, p.binding = some b ∧ b.load = l ∧ p.renderer = i ∧ p.name = name := by
    obtain ⟨b, hb, rfl⟩ := Option.map_eq_some_iff.mp hl
    exact ⟨b, hb, rfl, hv.invoked_unique (hp.invoked hb) invoked⟩
  refine ⟨?_, ?_, fun run hc => run.kept hv.sound hc, ?_, ?_, ?_, ?_⟩
  · intro p hp hl
    obtain ⟨b, hb, hbl, rfl, rfl⟩ := told hp hl
    exact ⟨rfl, rfl, fun host => by rw [abandoned.poll hb hbl]⟩
  · intro g hc host data block
    obtain ⟨r, hr, -⟩ := renderer?_of_cached? hc
    refine ask_of_cached hr ?_ host data block
    rw [isCached_iff hr, hc]
    rfl
  · intro p err hm hl hp g hc
    obtain ⟨l', hl', hr⟩ := hv.run.received hm
    cases hl.symm.trans hl'
    exact hv.clean hp hc err hr
  · intro p g hp hl hpol hc host
    obtain ⟨b, hb, rfl, rfl, rfl⟩ := told hp hl
    obtain ⟨-, -, hg⟩ := ((hp.bound b hb).load_iff hc).mp rfl
    rw [hg] at hc
    exact abandoned.cached?_poll hv.sound.nodup hb hpol hc host
  · rintro handle rfl
    exact cached?_flush v handle name
  · intro hc r loader hr hl host data block
    exact ask_of_not_cached hr hl hc host data block

/-- A loader that panics ends the call that it was called for, and gives its load up. All else is as
the operations left it that the loader performed before. From there on nobody waits for the load in
vain, in any world that all loads have gone on to: these are the worlds in which the code of later
operations gets control, and those to which calls lead that the panic happened inside of. -/
theorem panic_leaves_no_waiter (n : Nat) {w u : World Op} {i : Nat} {r : Renderer Op}
    {loader : Loader Op} {name : String} (hw : w.Reached) (hr : w.renderer? i = some r)
    (hl : r.loader = some loader) (missed : w.cached? i name = none)
    (panicked : runLoading (hostAt n) loader name (w.opened i r name) = (none, u)) :
    let l := w.loads.slots.length
    let w₁ := u.abandon l
    (∀ data block, ask (hostAt n) i name data block w = (none, w₁)) ∧
      w₁.renderers = u.renderers ∧ (∀ j, j ≠ l → w₁.loads.slots[j]? = u.loads.slots[j]?) ∧
      (∀ t ∈ w₁.parked, t.load? ≠ some l) ∧
      (∀ v, w₁.Goes v → LeftBehind i name l v) ∧
      (∀ v v', w₁.Goes v →
        Change (fun _ => True) (fun _ _ => True) v v' ∨ Through v v' → w₁.Goes v') ∧
      ∀ m host, (∀ op {v}, w₁.Goes v → host.perform op v = (hostAt m).perform op v) →
        (∀ x {v}, w₁.Goes v → host.log x v = (hostAt m).log x v) → ∀ op {v}, w₁.Goes v →
          step host v op = step (hostAt m) v op ∧ w₁.Goes (step (hostAt m) v op).2 := by
  have hn : r.cache.entries.get? name = none := by rw [← cached?_of_renderer? hr, missed]
  have ho := (later_opened hr hn).reached hw
  -- the loader's operations leave its own load reserved
  have ran : (w.opened i r name).Onward (· ≠ w.loads.slots.length) u := by
    simpa only [panicked] using onward_runLoading n ho loader name
  have abandoned := abandoned_abandon
    (reserved_of_onward (w.reserved_opened i r name) ran.loads fun h => h rfl)
  have later := ran.later.trans (later_abandon u w.loads.slots.length)
  have reached := later.reached ho
  refine ⟨ask_of_panic hr hl hn panicked, rfl, ?_, ?_, ?_, ?_, ?_⟩
  · intro j hj
    show (u.loads.slots.modify _ _)[j]? = _
    exact List.getElem?_modify_ne _ _ hj.symm
  · intro t ht
    have shut : t ∈ u.parked ∧ t.load? ≠ some w.loads.slots.length := by
      simpa [abandon, wake, List.partition_eq_filter_filter] using ht
    exact shut.2
  · intro v goes
    refine leftBehind (goes.later.reached reached) (abandoned.onward goes.loads) ?_
    obtain ⟨es, run⟩ := (later.trans goes.later).run
    rw [run.history, (opened_run hr hn).history]
    simp
  · rintro v v' goes (c | t)
    · exact goes.trans ⟨c.later, onward_of_change c⟩
    · exact goes.trans t.goes
  · intro m host hp hx op v goes
    have tracks : Tracks (fun _ => True) (fun _ _ => True) Goes _ := tracks_onward reached
    exact ⟨step_eq_of_follows tracks (fun _ _ => trivial) m hp hx op goes,
      tracks.trans goes (step_follows tracks (hostAt_akin_self tracks (fun _ _ => trivial) m)
        op (fun _ _ _ => trivial) goes).step⟩

def brokenSite : World Op :=
  World.addRenderer {} {
    loader := some (LoaderScript.loader
      { default := [⟨[.start 0 "inner" "page" none none], none⟩] } "pages") }

theorem panic_leaves_no_waiter_page :
    let asked := ask (hostAt 1) 0 "page" none none brokenSite
    asked.1 = none ∧ ∃ p, asked.2.renders.get? "inner" = some p ∧
      ∀ host, (poll host p asked.2).1 = .ready (.error (.templateLoad "page" .abandoned)) := by
  have created : brokenSite.Reached := (Move.create {} rfl).later fun _ h => h
  have missed : brokenSite.cached? 0 "page" = none := rfl
  obtain ⟨called, -, -, -, left, -⟩ := panic_leaves_no_waiter 1 created rfl rfl missed rfl
  have reached : (ask (hostAt 1) 0 "page" none none brokenSite).2.Reached :=
    (ask_leads (hostAt_like_self 1) 0 "page" none none created).1.later.reached created
  refine ⟨congrArg (·.1) (called none none), _, rfl, ?_⟩
  have kept := reached.asked (.inl ⟨"inner", List.mem_cons_self ..⟩)
  exact ((left _ (Onward.refl _)).told kept rfl).2.2

end Stencil
