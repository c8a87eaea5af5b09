import Stencil.Proofs.Session

/-!
# One load for each cached name

A loader is called for a name only while the name is not cached, and the name is cached before the
loader runs. So calls of loaders for one name are apart from each other: in between, the cache was
flushed, or a render took the failed load out of it.
-/

namespace Stencil

variable {Ω : Type}

def Event.load? : Event Ω → Option Nat
  | .invoked _ _ load => some load
  | _ => none

namespace World

variable {w w' : World Ω} {e es : List (Event Ω)}

-- ---------------------------------------------------------------------------
-- Calls of loaders in the history
-- ---------------------------------------------------------------------------

theorem Move.invoked_inv (m : Move w e w') {i : Nat} {name : String} {l : Nat}
    (h : .invoked i name l ∈ e) :
    w.cached? i name = none ∧ ∃ g, w'.cached? i name = some (g, l) := by
  cases m with
  | quiet hq => cases h
  | create hc => cases h
  | flush j => simp at h
  | @invoke j r other hr hn =>
    cases List.mem_singleton.mp h
    refine ⟨by simp [cached?, caches_getElem? hr, hn], r.cache.next, ?_⟩
    simp [cached?_invoked hr hn]
  | receive hb hi hr => simp at h

theorem Move.range_load? (m : Move w e w') :
    List.range w.loads.results.length ++ e.filterMap Event.load? =
      List.range w'.loads.results.length := by
  cases m with
  | quiet hq => simp [hq.results]
  | create hc => exact List.append_nil _
  | flush j => exact List.append_nil _
  | @invoke j r name hr hn =>
    have h : (w.invoked j r name).loads.results.length = w.loads.results.length + 1 := by
      show w.loads.reserve.2.results.length = _
      simp
    rw [h, List.range_succ, Loads.length_results]
    rfl
  | @receive p b result hb hi hr =>
    rw [loads_settle, Loads.results_poll, List.length_set]
    exact List.append_nil _

/-- Each load that there is was started by one call of a loader. -/
theorem Run.range_load? (run : Run w es w') :
    List.range w.loads.results.length ++ es.filterMap Event.load? =
      List.range w'.loads.results.length := by
  induction run with
  | refl w => exact List.append_nil _
  | head m rest ih => rw [List.filterMap_append, ← List.append_assoc, m.range_load?, ih]

theorem Reached.between (hw : w.Reached) {i : Nat} {name : String} {l l' : Nat}
    {before between rest : List (Event Ω)}
    (h : w.history = before ++ .invoked i name l :: (between ++ .invoked i name l' :: rest)) :
    .flushed i ∈ between ∨ w.policy? i = some .evictOnError ∧ ∃ p err,
      .received p (.error err) ∈ between ∧ p.renderer = i ∧ p.name = name ∧ p.load? = some l := by
  have run := hw.run
  rw [h] at run
  obtain ⟨w₁, run₁, run⟩ := run.split
  obtain ⟨w₂, w₃, run₂, first, run⟩ := run.uncons
  obtain ⟨w₄, run₄, run⟩ := run.split
  obtain ⟨w₅, w₆, run₅, second, run₆⟩ := run.uncons
  have hw₃ := first.sound (run₂.sound (run₁.sound sound_empty))
  obtain ⟨-, g, hg⟩ := first.invoked_inv (List.mem_singleton_self _)
  obtain ⟨hnone, -⟩ := second.invoked_inv (List.mem_singleton_self _)
  -- from the first of the two calls on there is an entry, and before the second there is none
  have stretch := run₄.trans run₅
  rw [List.append_nil] at stretch
  rcases stretch.kept hw₃ hg with hk | hf | ⟨hp, hr⟩
  · rw [hnone] at hk
    cases hk
  · exact .inl hf
  · exact .inr ⟨run₆.policy? ((Run.single second).policy? (stretch.policy? hp)), hr⟩

-- ---------------------------------------------------------------------------
-- Calls
-- ---------------------------------------------------------------------------

theorem isCached_iff {i : Nat} {r : Renderer Ω} (hr : w.renderer? i = some r) (name : String) :
    r.isCached name = (w.cached? i name).isSome := by
  rw [cached?_of_renderer? hr]
  rfl

theorem ask_of_cached {i : Nat} {r : Renderer Ω} {name : String} (hr : w.renderer? i = some r)
    (hc : r.isCached name = true) (host : Host Ω (World Ω)) (data : Option Value)
    (block : Option String) :
    (ask host i name data block w).2 = w ∨
      (ask host i name data block w).2 = w.record (.servedFromCache name) := by
  cases hl : r.loader with
  | none => exact .inl (by rw [ask_of_no_loader hr hl])
  | some loader =>
    obtain ⟨a, ha⟩ := Option.isSome_iff_exists.mp hc
    exact .inr (by rw [ask_of_hit hr hl ha])

/-- What the loader will do if it is called now. -/
def loading (w : World Ω) (loader : Loader Ω) (name : String) : Code Ω (Handover Ω) :=
  loader.load ((loader.counter.map (w.callCount · name)).getD 0) name

/-- The run of a loader that is called now. -/
def runLoading (host : Host Ω (World Ω)) (loader : Loader Ω) (name : String) (w : World Ω) :
    Option (Handover Ω) × World Ω :=
  (w.loading loader name).run host .none (w.countCall loader.counter name)

/-- What becomes of a load when its loader is through: it is handed over, or given up. -/
def passOn (load : Nat) : Option (Handover Ω) × World Ω → World Ω
  | (some h, w) => { w with loads := w.loads.start load h.work h.plan }.wake load
  | (none, w) => { w with loads := w.loads.orphan load }.wake load

theorem snd_runLoader (host : Host Ω (World Ω)) (loader : Loader Ω) (load : Nat) (name : String)
    (w : World Ω) :
    (runLoader host loader load name w).2 = passOn load (runLoading host loader name w) := by
  simp only [runLoader, runLoading, loading]
  split <;> (rename_i hx; rw [hx]; rfl)

theorem isCached_opened {i : Nat} {r : Renderer Ω} {name : String} (hr : w.renderer? i = some r)
    (hn : r.cache.entries.get? name = none) :
    ∃ r', (w.opened i r name).renderer? i = some r' ∧ r'.isCached name = true := by
  obtain ⟨cache, hc⟩ := renderer?_opened hr name
  exact ⟨_, hc, by rw [isCached_iff hc, cached?_opened hr hn]; rfl⟩

theorem Reached.count_load? (hw : w.Reached) {l : Nat} (h : l < w.loads.slots.length) :
    (w.history.filterMap Event.load?).count l = 1 := by
  have hr : w.history.filterMap Event.load? = List.range w.loads.results.length :=
    hw.run.range_load?
  rw [hr, Loads.length_results, List.count_range, if_pos h]

theorem slots_lt_of_later (h : w.Later w') :
    w.loads.slots.length ≤ w'.loads.slots.length := by
  obtain ⟨es, run⟩ := h.run
  simpa only [Loads.length_results] using run.length_results

end World

open World Session

theorem Session.registerLoader_frame (w : World Op) (handle : Nat) (id : String)
    (source : LoaderSource Op) :
    let after := (registerLoader w handle id source).2
    after.caches = w.caches ∧ after.loads = w.loads ∧ after.history = w.history := by
  have registered (w : World Op) (loader : Loader Op) :
      (change w handle fun r => r.registerLoader loader).2.caches = w.caches :=
    (caches_update (f := (·.registerLoader loader)) (g := fun c => c) (fun _ => rfl) w _).trans
      (List.modify_id _ _)
  cases source <;> exact ⟨registered _ _, rfl, rfl⟩

/-- At most one load for each cached name. A call for a cached name runs no code. Any other call
runs the code of the loader of that moment, once and before it returns, and this code finds the name
cached. Between two calls of loaders for one name there was a flush, or a render that got the
failure of the former load, under the evicting policy. A new loader leaves what is cached alone. -/
theorem load_once (n : Nat) {w : World Op} (hw : w.Reached) :
    (∀ {i r}, w.renderer? i = some r → ∀ name data block,
      let called := (ask (hostAt n) i name data block w).2
      (r.isCached name = true → ∀ host, (ask host i name data block w).2 = w ∨
        (ask host i name data block w).2 = w.record (.servedFromCache name)) ∧
      (r.isCached name = false → ∀ loader, r.loader = some loader →
        let load := w.loads.slots.length
        let opened := w.opened i r name
        (∃ r', opened.renderer? i = some r' ∧ r'.isCached name = true) ∧
        opened.history = w.history ++ [.invoked i name load] ∧
        called = (runLoader (hostAt n) loader load name opened).2 ∧
        called = passOn load (runLoading (hostAt n) loader name opened) ∧
        (called.history.filterMap Event.load?).count load = 1)) ∧
    (∀ {i name l l' before between rest},
      w.history = before ++ .invoked i name l :: (between ++ .invoked i name l' :: rest) →
      .flushed i ∈ between ∨ w.policy? i = some .evictOnError ∧ ∃ p err,
        .received p (.error err) ∈ between ∧ p.renderer = i ∧ p.name = name ∧ p.load? = some l) ∧
    ∀ handle id source,
      let after := (registerLoader w handle id source).2
      after.caches = w.caches ∧ after.loads = w.loads ∧ after.history = w.history := by
  refine ⟨?_, hw.between, registerLoader_frame w⟩
  intro i r hr name data block
  refine ⟨fun hc host => ask_of_cached hr hc host data block, fun hc loader hl => ?_⟩
  have hn : r.cache.entries.get? name = none :=
    Option.not_isSome_iff_eq_none.mp (Bool.eq_false_iff.mp hc)
  have hcalled : (ask (hostAt n) i name data block w).2 =
      (runLoader (hostAt n) loader w.loads.slots.length name (w.opened i r name)).2 := by
    rw [ask_of_miss hr hl hn]
  have ho := (later_opened hr hn).reached hw
  have hlater := (runLoader_leads (hostAt_like_self n) loader w.loads.slots.length name ho).later
  rw [← hcalled] at hlater
  refine ⟨isCached_opened hr hn, ?_, hcalled, hcalled.trans (snd_runLoader ..),
    (hlater.reached ho).count_load? ?_⟩
  · exact (opened_run hr hn).history
  · refine Nat.lt_of_lt_of_le ?_ (slots_lt_of_later hlater)
    simpa only [Loads.length_results] using
      ((later_opened hr hn).reached hw).sound.issued (cached?_opened hr hn) |>.load_lt

theorem load_once_page :
    let first := (ask (hostAt 0) 0 "page" none none (site (.template titlePage) .retain)).2
    first.history.filterMap Event.load? = [0] ∧
      ∀ host, (ask host 0 "page" none (some "head") first).2 = first ∨
        (ask host 0 "page" none (some "head") first).2 =
          first.record (.servedFromCache "page") := by
  have hs : (site (.template titlePage) .retain).Reached := later_site _ _
  have hl := (ask_leads (hostAt_like_self 0) 0 "page" none none hs).1.later
  exact ⟨rfl, ((load_once 0 (hl.reached hs)).1 rfl "page" none (some "head")).1 rfl⟩

end Stencil
