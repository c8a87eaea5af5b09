import Stencil.Parse
import Stencil.Proofs.Changes

/-!
# Operations follow relations

Every operation on a world stays in a relation that all changes are in (`Tracks`), provided that
what its host does for the code inside of it does so; that it is a run is the case of `Later`. The
same proofs show that an operation asks its host for nothing except in worlds that the relation
leads to: two hosts that agree in these give one and the same outcome. So these are the worlds in
which code is ever given control.

Each function has one theorem, ending in `_follows`, by the calls that the function makes. Those
that end in `_leads` are about runs.
-/

namespace Stencil

open World

variable {Ω α : Type} {ok : Record → Prop} {new : Nat → String → Prop}
  {S : World Ω → World Ω → Prop} {w₀ w w' : World Ω}
  {host host' : Host Ω (World Ω)}

namespace World

/-- The relation leads from the world to the outcome `x`, and `y` is the same outcome. -/
structure Follows (S : World Ω → World Ω → Prop) (w : World Ω) (x y : α × World Ω) : Prop where
  eq : y = x
  step : S w x.2

namespace Follows

theorem of_step {x : α × World Ω} (h : S w x.2) : Follows S w x x := ⟨rfl, h⟩

theorem refl (hS : Tracks ok new S w₀) (w : World Ω) (a : α) : Follows S w (a, w) (a, w) :=
  .of_step (hS.refl w)

theorem after (hS : Tracks ok new S w₀) {x y : α × World Ω} (first : S w w')
    (h : Follows S w' x y) : Follows S w x y :=
  ⟨h.eq, hS.trans first h.step⟩

theorem map {β : Type} (hS : Tracks ok new S w₀) {x y : α × World Ω} (h : Follows S w x y)
    {f : α × World Ω → β × World Ω} (hf : S x.2 (f x).2) : Follows S w (f x) (f y) :=
  ⟨congrArg f h.eq, hS.trans h.step hf⟩

theorem later {x y : α × World Ω} (h : Follows Later w x y) : w.Later x.2 := h.step

end Follows

namespace Tracks

theorem still (hS : Tracks ok new S w₀) (later : w.Later w')
    (renderers : w'.renderers = w.renderers) (loads : w'.loads = w.loads)
    (log : w'.log = w.log) : S w w' :=
  hS.change (.still later renderers loads log)

theorem record (hS : Tracks ok new S w₀) (w : World Ω) {r : Record} (hr : r.ofCache = false) :
    S w (w.record r) :=
  hS.change (.record w (hS.ok_of r hr))

theorem wake (hS : Tracks ok new S w₀) (w : World Ω) (load : Nat) : S w (w.wake load) :=
  hS.still (later_wake w load) rfl rfl rfl

end Tracks

end World

-- ---------------------------------------------------------------------------
-- Code
-- ---------------------------------------------------------------------------

/-- Two hosts that do the same in every world that the relation leads to from `w₀`, and stay in the
relation. -/
structure Host.Akin (ok : Record → Prop) (S : World Ω → World Ω → Prop) (w₀ : World Ω)
    (host host' : Host Ω (World Ω)) : Prop where
  perform : ∀ op {w : World Ω}, S w₀ w → Follows S w (host.perform op w) (host'.perform op w)
  log : ∀ r, ok r → ∀ {w : World Ω}, S w₀ w →
    Follows S w ((), host.log r w) ((), host'.log r w)

/-- Two hosts that do the same in every world that a run leads to, and lead on from there. -/
abbrev Host.Like (host host' : Host Ω (World Ω)) : Prop :=
  Host.Akin (fun _ => True) Later {} host host'

structure Dispatcher.Akin (S : World Ω → World Ω → Prop) (w₀ : World Ω)
    (d d' : Dispatcher (World Ω)) : Prop where
  names : d'.names = d.names
  dispatch : ∀ this name args {w : World Ω}, S w₀ w →
    Follows S w (d.dispatch this name args w) (d'.dispatch this name args w)

theorem Dispatcher.none_akin (hS : Tracks ok new S w₀) :
    (Dispatcher.none : Dispatcher (World Ω)).Akin S w₀ .none :=
  ⟨rfl, fun _ _ _ w _ => .refl hS w ""⟩

theorem Host.Akin.log_eq (h : host.Akin ok S w₀ host') (hw : S w₀ w) {r : Record} (hr : ok r) :
    host'.log r w = host.log r w :=
  congrArg (·.2) (h.log r hr hw).eq

section

variable (hS : Tracks ok new S w₀) (h : host.Akin ok S w₀ host')

include hS h

theorem Code.run_follows {good : α → Prop} {d d' : Dispatcher (World Ω)} (hd : d.Akin S w₀ d')
    {c : Code Ω α} (hc : c.Within ok good) (hw : S w₀ w) :
    Follows S w (c.run host d w) (c.run host' d' w) ∧
      ∀ a, (c.run host d w).1 = some a → good a := by
  induction c generalizing w with
  | done a =>
    refine ⟨.refl hS w _, ?_⟩
    rintro _ ⟨⟩
    exact hc
  | panic => exact ⟨.refl hS w _, nofun⟩
  | log r next ih =>
    have hl := (h.log r hc.1 hw).step
    obtain ⟨hf, hg⟩ := ih hc.2 (hS.trans hw hl)
    simp only [run, h.log_eq hw hc.1]
    exact ⟨.after hS hl hf, hg⟩
  | perform op next ih =>
    obtain ⟨he, hl⟩ := h.perform op hw
    obtain ⟨hf, hg⟩ := ih _ (hc _) (hS.trans hw hl)
    simp only [run, he]
    exact ⟨.after hS hl hf, hg⟩
  | names next ih =>
    simp only [run, hd.names]
    exact ih _ (hc _) hw
  | dispatch this name args next ih =>
    obtain ⟨he, hl⟩ := hd.dispatch this name args hw
    obtain ⟨hf, hg⟩ := ih _ (hc _) (hS.trans hw hl)
    simp only [run, he]
    exact ⟨.after hS hl hf, hg⟩

theorem HelperTable.call_follows {helper : Helper Ω} (hp : Helper.Plain ok helper) (this : Value)
    (args : List Value) (hw : S w₀ w) :
    Follows S w (call host helper this args w) (call host' helper this args w) := by
  obtain ⟨⟨he, hl⟩, -⟩ := Code.run_follows hS h (Dispatcher.none_akin hS) (hp this args) hw
  unfold call
  rw [he]
  split <;> (rename_i hr; rw [hr] at hl; exact .of_step hl)

theorem HelperTable.dispatch_follows {t : HelperTable Ω}
    (ht : ∀ e ∈ t.entries, Helper.Plain ok e.2) (this : Value) (name : String) (args : List Value)
    (hw : S w₀ w) :
    Follows S w (t.dispatch host this name args w) (t.dispatch host' this name args w) := by
  unfold dispatch
  split
  · exact .refl hS w _
  · rename_i helper hh
    have plain : Helper.Plain ok helper := ht _ (Entries.mem_of_get? hh)
    obtain ⟨he, hl⟩ := call_follows hS h plain this args hw
    have logged {r : Record} {v : World Ω} (hv : S w v) (hr : r.ofCache = false) :
        Follows S w ("", host.log r v) ("", host'.log r v) := by
      have hw' := hS.trans hw hv
      rw [h.log_eq hw' (hS.ok_of r hr)]
      exact .of_step (hS.trans hv (h.log r (hS.ok_of r hr) hw').step)
    rw [he]
    split <;> (rename_i hr; rw [hr] at hl)
    · exact .of_step hl
    · exact logged hl rfl
    · exact logged hl rfl

theorem HelperTable.dispatcher_akin {t : HelperTable Ω}
    (ht : ∀ e ∈ t.entries, Helper.Plain ok e.2) :
    (t.dispatcher host).Akin S w₀ (t.dispatcher host') :=
  ⟨rfl, fun this name args _ hw => dispatch_follows hS h ht this name args hw⟩

theorem Template.run_follows {helpers : HelperTable Ω}
    (hh : ∀ e ∈ helpers.entries, Helper.Plain ok e.2) {t : Template Ω} (ht : t.Plain ok)
    (context : Value) (hw : S w₀ w) :
    Follows S w (t.run host helpers context w) (t.run host' helpers context w) := by
  obtain ⟨⟨he, hl⟩, -⟩ :=
    Code.run_follows hS h (HelperTable.dispatcher_akin hS h hh) (ht.body context) hw
  unfold run call
  rw [he]
  split <;> (rename_i hr; rw [hr] at hl; exact .of_step hl)

end

namespace World

-- ---------------------------------------------------------------------------
-- Calls
-- ---------------------------------------------------------------------------

theorem still_countCall (hS : Tracks ok new S w₀) (w : World Ω) (counter : Option String)
    (name : String) : S w (w.countCall counter name) := by
  have hl := later_countCall w counter name
  cases counter <;> exact hS.still hl rfl rfl rfl

theorem runLoader_follows (hS : Tracks ok new S w₀) (h : host.Akin ok S w₀ host')
    {loader : Loader Ω} (hl : loader.Plain ok) {v : World Ω} {load : Nat}
    (fresh : v.loads.slots.length ≤ load)
    (name : String) (first : S v w) (hw : S w₀ w) :
    Follows S v (runLoader host loader load name w) (runLoader host' loader load name w) ∧
      w.Later (runLoader host loader load name w).2 := by
  have counted := still_countCall hS w loader.counter name
  obtain ⟨⟨he, hr⟩, hh⟩ := Code.run_follows hS h (Dispatcher.none_akin hS)
    (hl ((loader.counter.map (w.callCount · name)).getD 0) name) (hS.trans hw counted)
  replace hr := hS.trans counted hr
  have ended {u u' : World Ω} (ran : S w u) (late : Late ok v u u') :
      S v (u'.wake load) ∧ w.Later (u'.wake load) :=
    ⟨hS.trans (hS.late (hS.trans first ran) late) (hS.wake ..),
      (hS.later ran).trans (late.later.trans (later_wake ..))⟩
  unfold runLoader
  simp only [he]
  split <;> (rename_i hx; rw [hx] at hr hh)
  · obtain ⟨step, later⟩ := ended hr (.start fresh (hh _ rfl))
    exact ⟨.of_step step, later⟩
  · obtain ⟨step, later⟩ := ended hr (.orphan fresh)
    exact ⟨.of_step step, later⟩

theorem runLoader_leads (h : host.Like host') (loader : Loader Ω) (load : Nat) (name : String)
    (hw : w.Reached) :
    Follows Later w (runLoader host loader load name w) (runLoader host' loader load name w) := by
  have plain : loader.Plain fun _ => True := loader.plain_of_forall fun _ => trivial
  obtain ⟨⟨he, -⟩, hl⟩ := runLoader_follows tracks_run h plain (Nat.zero_le load) name hw hw
  exact ⟨he, hl⟩

theorem cached?_opened {i : Nat} {r : Renderer Ω} {name : String} (hr : w.renderer? i = some r)
    (hn : r.cache.entries.get? name = none) :
    (w.opened i r name).cached? i name = some (r.cache.next, w.loads.slots.length) := by
  show (w.invoked i r name).cached? i name = _
  simp [cached?_invoked hr hn]

theorem renderer?_opened {i : Nat} {r : Renderer Ω} (hr : w.renderer? i = some r) (name : String) :
    ∃ cache, (w.opened i r name).renderer? i = some { r with cache := cache } := by
  refine ⟨(r.cache.getOrInsert name w.loads.slots.length).2, ?_⟩
  show (w.renderers.modify i _)[i]? = _
  rw [List.getElem?_modify_eq, show w.renderers[i]? = some r from hr]
  rfl

theorem cached?_of_renderer? {i : Nat} {r : Renderer Ω} (hr : w.renderer? i = some r)
    (name : String) : w.cached? i name = r.cache.entries.get? name := by
  simp [cached?, caches_getElem? hr]

theorem bindLoad_of_hit {i : Nat} {r : Renderer Ω} {name : String} {g l : Nat}
    (h : r.cache.entries.get? name = some (g, l)) (host : Host Ω (World Ω)) (loader : Loader Ω)
    (w : World Ω) :
    bindLoad host i r loader name w = (some ⟨g, l⟩, w.record (.servedFromCache name)) := by
  simp [bindLoad, reserve, Cache.getOrInsert_of_hit h]

theorem bindLoad_of_miss {i : Nat} {r : Renderer Ω} {name : String}
    (h : r.cache.entries.get? name = none) (host : Host Ω (World Ω)) (loader : Loader Ω)
    (w : World Ω) :
    bindLoad host i r loader name w =
      let (kept, after) := runLoader host loader w.loads.slots.length name (w.opened i r name)
      (if kept then some ⟨r.cache.next, w.loads.slots.length⟩ else none, after) := by
  simp [bindLoad, reserve, opened, invoked, Loads.reserve, Cache.getOrInsert_of_miss h]

def captured (i : Nat) (r : Renderer Ω) (name : String) (data : Option Value)
    (block : Option String) (binding : Option Binding) : Pending :=
  ⟨i, name, r.addGlobals data, block.filter (· != ""), binding⟩

theorem ask_of_no_loader {i : Nat} {r : Renderer Ω} (hr : w.renderer? i = some r)
    (hl : r.loader = none) (host : Host Ω (World Ω)) (name : String) (data : Option Value)
    (block : Option String) :
    ask host i name data block w = (some (captured i r name data block none), w) := by
  simp [ask, hr, hl, captured]

theorem ask_of_hit {i : Nat} {r : Renderer Ω} {loader : Loader Ω} {name : String} {g l : Nat}
    (hr : w.renderer? i = some r) (hl : r.loader = some loader)
    (hn : r.cache.entries.get? name = some (g, l)) (host : Host Ω (World Ω)) (data : Option Value)
    (block : Option String) :
    ask host i name data block w =
      (some (captured i r name data block (some ⟨g, l⟩)), w.record (.servedFromCache name)) := by
  simp [ask, hr, hl, bindLoad_of_hit hn, captured]

theorem ask_of_miss {i : Nat} {r : Renderer Ω} {loader : Loader Ω} {name : String}
    (hr : w.renderer? i = some r) (hl : r.loader = some loader)
    (hn : r.cache.entries.get? name = none) (host : Host Ω (World Ω)) (data : Option Value)
    (block : Option String) :
    ask host i name data block w =
      let (kept, after) := runLoader host loader w.loads.slots.length name (w.opened i r name)
      (if kept then
          some (captured i r name data block (some ⟨r.cache.next, w.loads.slots.length⟩))
        else none, after) := by
  simp only [ask, hr, hl, bindLoad_of_miss hn]
  cases hk : (runLoader host loader w.loads.slots.length name (w.opened i r name)).1 <;>
    simp [captured]

theorem called_of_no_loader {i : Nat} {r : Renderer Ω} (hr : w.renderer? i = some r)
    (hl : r.loader = none) (name : String) (data : Option Value) (block : Option String) :
    Called w (captured i r name data block none) r data block :=
  ⟨hr, rfl, rfl, by simp [captured, hl]⟩

theorem called_of_hit {i : Nat} {r : Renderer Ω} {loader : Loader Ω} {name : String} {g l : Nat}
    (hr : w.renderer? i = some r) (hl : r.loader = some loader)
    (hn : r.cache.entries.get? name = some (g, l)) (data : Option Value) (block : Option String) :
    Called w (captured i r name data block (some ⟨g, l⟩)) r data block :=
  ⟨hr, rfl, rfl, by simp [captured, hl, cached?_of_renderer? hr, hn]⟩

theorem called_of_miss {i : Nat} {r : Renderer Ω} {loader : Loader Ω} {name : String}
    (hr : w.renderer? i = some r) (hl : r.loader = some loader)
    (hn : r.cache.entries.get? name = none) (data : Option Value) (block : Option String) :
    ∃ cache, Called (w.opened i r name)
      (captured i r name data block (some ⟨r.cache.next, w.loads.slots.length⟩))
      { r with cache := cache } data block := by
  obtain ⟨cache, hc⟩ := renderer?_opened hr name
  exact ⟨cache, hc, rfl, rfl, by simp [captured, hl, cached?_opened hr hn]⟩

theorem ask_follows (hS : Tracks ok new S w₀) (h : host.Akin ok S w₀ host') {i : Nat}
    {name : String} (may : new i name) (data : Option Value) (block : Option String) (hw : S w₀ w) :
    Follows S w (ask host i name data block w) (ask host' i name data block w) ∧
      ∀ p, (ask host i name data block w).1 = some p →
        (ask host i name data block w).2.Asked p := by
  have run := (hS.reached hw).run
  cases hr : w.renderer? i with
  | none =>
    simp only [ask, hr]
    exact ⟨.refl hS w _, fun p hp => by cases hp⟩
  | some r =>
    cases hl : r.loader with
    | none =>
      simp only [ask_of_no_loader hr hl]
      refine ⟨.refl hS w _, ?_⟩
      rintro _ ⟨⟩
      exact ⟨w, r, data, block, called_of_no_loader hr hl .., ⟨_, run⟩, [], .refl w⟩
    | some loader =>
      cases hn : r.cache.entries.get? name with
      | some a =>
        obtain ⟨g, l⟩ := a
        simp only [ask_of_hit hr hl hn]
        refine ⟨.of_step (hS.record w rfl), ?_⟩
        rintro _ ⟨⟩
        exact ⟨w, r, data, block, called_of_hit hr hl hn .., ⟨_, run⟩, (later_record w _).run⟩
      | none =>
        -- the call counts as made once its entry is there, before the loader runs
        have ho : S w (w.opened i r name) := hS.change (.opened hr hn may)
        have hwo := hS.trans hw ho
        have plain := ((hS.plain hw).renderers r (List.mem_of_getElem? hr)).loader loader hl
        obtain ⟨⟨he, step⟩, later⟩ := runLoader_follows hS h plain (Nat.le_refl _) name ho hwo
        simp only [ask_of_miss hr hl hn, he]
        refine ⟨.of_step step, fun p hp => ?_⟩
        obtain ⟨cache, hc⟩ := called_of_miss hr hl hn data block
        split at hp <;> cases hp
        exact ⟨_, _, data, block, hc, ⟨_, (hS.reached hwo).run⟩, later.run⟩

theorem ask_leads (h : host.Like host') (i : Nat) (name : String) (data : Option Value)
    (block : Option String) (hw : w.Reached) :
    Follows Later w (ask host i name data block w) (ask host' i name data block w) ∧
      ∀ p, (ask host i name data block w).1 = some p →
        (ask host i name data block w).2.Asked p :=
  ask_follows tracks_run h trivial data block hw

-- ---------------------------------------------------------------------------
-- Polls
-- ---------------------------------------------------------------------------

theorem drive_follows (hS : Tracks ok new S w₀) (h : host.Akin ok S w₀ host') (load : Nat)
    (hw : S w₀ w) :
    Follows S w (drive host load w) (drive host' load w) := by
  unfold drive
  split
  · rename_i work hwork
    have entered : S w { w with loads := w.loads.enter load } := hS.change (.enter w load)
    obtain ⟨⟨he, hl⟩, found⟩ := Code.run_follows hS h (Dispatcher.none_akin hS)
      ((hS.plain hw).loads.of_worker hwork) (hS.trans hw entered)
    replace hl := hS.trans entered hl
    simp only [he]
    split <;> (rename_i hr; rw [hr] at hl found)
    · exact .of_step (hS.trans hl (hS.change (.leave _ load (found _ rfl))))
    · exact .of_step (hS.late hl (.poison hwork))
  · exact .refl hS w _
  · exact .refl hS w _

/-- A poll of a load leads to a world in which the load has been looked at. There is nothing that
could happen between the look and the answer. -/
inductive Looked (load : Nat) (v : World Ω) :
    Polled (LoadResult (Template Ω)) × World Ω → Prop
  | pending : Looked load v (.pending, v)
  | panicked : Looked load v (.panicked, v)
  | ready {result : LoadResult (Template Ω)} (hr : (v.loads.poll load).1 = some result) :
      Looked load v (.ready result, v.look load)

theorem pollLoad_follows (hS : Tracks ok new S w₀) (h : host.Akin ok S w₀ host') (load : Nat)
    (hw : S w₀ w) :
    pollLoad host' load w = pollLoad host load w ∧
      ∃ v, S w v ∧ Looked load v (pollLoad host load w) := by
  obtain ⟨he, hl⟩ := drive_follows hS h load hw
  unfold pollLoad
  rw [he]
  refine ⟨rfl, ?_⟩
  split
  · rename_i after hd
    exact ⟨after, by rwa [hd] at hl, .panicked⟩
  · rename_i after hd
    rw [hd] at hl
    simp only
    split
    · rename_i hn
      exact ⟨_, hS.trans hl (hS.change (.look hn)), .pending⟩
    · rename_i result hr
      exact ⟨after.wake load, hS.trans hl (hS.wake after load), .ready hr⟩

theorem runTemplate_follows (hS : Tracks ok new S w₀) (h : host.Akin ok S w₀ host') (p : Pending)
    {t : Template Ω} (ht : t.Plain ok) (hw : S w₀ w) :
    Follows S w (runTemplate host p t w) (runTemplate host' p t w) := by
  obtain ⟨he, hl⟩ :=
    Template.run_follows hS h ((hS.plain hw).helpers p.renderer) ht (.object p.context) hw
  unfold runTemplate
  simp only [he]
  split <;> (rename_i hr; rw [hr] at hl)
  · exact .of_step hl
  · exact .of_step (hS.trans hl (hS.record _ rfl))

/-- A failure is dealt with where the result is received; all else comes after it. -/
theorem complete_follows (hS : Tracks ok new S w₀) (h : host.Akin ok S w₀ host') {p : Pending}
    {b : Binding} {result : LoadResult (Template Ω)} (hr : LoadResult.Plain ok result)
    (hw : S w₀ (w.settle p b result)) :
    let got := (w.look b.load).note (.received p result)
    Follows S (w.settle p b result) (complete host p b result got)
      (complete host' p b result got) := by
  cases result with
  | error e => exact .refl hS _ _
  | ok t =>
    cases t with
    | none => exact .of_step (hS.record _ rfl)
    | some t =>
      have ht := hr t rfl
      unfold complete
      simp only
      split
      · exact runTemplate_follows hS h p ht hw
      · split
        · rename_i hb
          exact runTemplate_follows hS h p (ht.of_block? hb) hw
        · exact .of_step (hS.record _ rfl)

theorem poll_of_no_binding {p : Pending} (hb : p.binding = none) (host : Host Ω (World Ω))
    (w : World Ω) : poll host p w = (.ready (.error (.noLoader p.name)), w) := by
  simp [poll, hb]

theorem poll_of_ready {p : Pending} {b : Binding} {result : LoadResult (Template Ω)}
    (hb : p.binding = some b) (hr : pollLoad host b.load w = (.ready result, w')) :
    poll host p w =
      let (output, after) := complete host p b result (w'.note (.received p result))
      (.ready output, after) := by
  simp [poll, hb, hr]

theorem received_follows (hS : Tracks ok new S w₀) (h : host.Akin ok S w₀ host') {p : Pending}
    {b : Binding} {result : LoadResult (Template Ω)} (hw : S w₀ w) (hp : w.Asked p)
    (hb : p.binding = some b) (hr : pollLoad host b.load w = (.ready result, w')) :
    Follows S w (poll host p w) (poll host' p w) ∧
      .received p result ∈ (poll host p w).2.history := by
  obtain ⟨he, v, hv, looked⟩ := pollLoad_follows hS h b.load hw
  rw [hr] at he looked
  rw [poll_of_ready hb hr, poll_of_ready hb he]
  cases looked with
  | ready hres =>
    have bound := ((hS.later hv).asked_of_asked hp).bound b hb
    have settled : S v (v.settle p b result) := hS.change (.settle hb bound hres)
    have plain : LoadResult.Plain ok result := (hS.plain (hS.trans hw hv)).loads.of_poll hres
    obtain ⟨hc, step⟩ :=
      complete_follows hS h plain (hS.trans hw (hS.trans hv settled))
    obtain ⟨es, run⟩ := (hS.later step).run
    refine ⟨⟨by rw [hc], hS.trans hv (hS.trans settled step)⟩, ?_⟩
    simp [run.history, history_settle]

theorem poll_received (h : host.Like host') {p : Pending} {b : Binding}
    {result : LoadResult (Template Ω)} (hw : w.Reached) (hp : w.Asked p)
    (hb : p.binding = some b) (hr : pollLoad host b.load w = (.ready result, w')) :
    Follows Later w (poll host p w) (poll host' p w) ∧
      .received p result ∈ (poll host p w).2.history :=
  received_follows tracks_run h hw hp hb hr

theorem poll_follows (hS : Tracks ok new S w₀) (h : host.Akin ok S w₀ host') {p : Pending}
    (hw : S w₀ w) (hp : w.Asked p) : Follows S w (poll host p w) (poll host' p w) := by
  cases hb : p.binding with
  | none =>
    simp only [poll_of_no_binding hb]
    exact .refl hS w _
  | some b =>
    obtain ⟨he, v, hl, hv⟩ := pollLoad_follows hS h b.load hw
    cases hr : pollLoad host b.load w with
    | mk polled after =>
      rw [hr] at he hv
      cases hv with
      | pending =>
        simp only [poll, hb, hr, he]
        exact .of_step hl
      | panicked =>
        simp only [poll, hb, hr, he]
        exact .of_step hl
      | ready hres => exact (received_follows hS h hw hp hb hr).1

-- ---------------------------------------------------------------------------
-- Parse calls and tasks
-- ---------------------------------------------------------------------------

theorem performAll_follows (hS : Tracks ok new S w₀) (h : host.Akin ok S w₀ host') (ops : List Ω)
    (hw : S w₀ w) :
    performAll host' ops w = performAll host ops w ∧ S w (performAll host ops w) := by
  induction ops generalizing w with
  | nil => exact ⟨rfl, hS.refl w⟩
  | cons op rest ih =>
    obtain ⟨he, hl⟩ := h.perform op hw
    obtain ⟨he', hl'⟩ := ih (hS.trans hw hl)
    simp only [performAll, List.foldl_cons] at he' hl' ⊢
    rw [he]
    exact ⟨he', hS.trans hl hl'⟩

theorem receive_follows (hS : Tracks ok new S w₀) (h : host.Akin ok S w₀ host') (r : Receiver Ω)
    (output : String) (hw : S w₀ w) :
    receive host' r output w = receive host r output w ∧ S w (receive host r output w) := by
  have hl : S w (w.recordOutput r.label output) :=
    hS.still (later_recordOutput w r.label output) rfl rfl rfl
  obtain ⟨he, hl'⟩ := performAll_follows hS h r.ops (hS.trans hw hl)
  exact ⟨he, hS.trans hl hl'⟩

theorem still_spawn (hS : Tracks ok new S w₀) {stage : Stage}
    (hs : ∀ p, stage = .rendering p → w.Asked p) (r : Receiver Ω) : S w (w.spawn stage r) :=
  hS.still (later_spawn hs r) rfl rfl rfl

theorem schedule_follows (hS : Tracks ok new S w₀) (h : host.Akin ok S w₀ host') {i : Nat}
    {name : String} (may : new i name) (args : Arguments (Receiver Ω)) (r : Receiver Ω)
    (hw : S w₀ w) :
    Follows S w (schedule host i name args r w) (schedule host' i name args r w) := by
  unfold schedule
  split
  · exact .of_step (still_spawn hS (fun p hp => by cases hp) r)
  · rename_i block _
    obtain ⟨⟨he, hl⟩, hb⟩ := ask_follows hS h may args.data.data? block hw
    rw [he]
    split <;> (rename_i hx; rw [hx] at hl hb)
    · exact .of_step (hS.trans hl (still_spawn hS (fun p hp => by cases hp; exact hb _ rfl) r))
    · exact .of_step hl

theorem still_inExecutor (hS : Tracks ok new S w₀) (w : World Ω) (b : Bool) :
    S w { w with inExecutor := b } :=
  hS.still (later_inExecutor w b) rfl rfl rfl

theorem parse_follows (hS : Tracks ok new S w₀) (h : host.Akin ok S w₀ host') {i : Nat}
    {name : String} (may : new i name) (args : Arguments (Receiver Ω)) (executor : Bool)
    (hw : S w₀ w) :
    Follows S w (parse host i name args executor w) (parse host' i name args executor w) := by
  have hl := still_inExecutor hS w (w.inExecutor || executor)
  refine .after hS hl ?_
  refine Follows.map (x := parseShifted host i name args.shift _) hS ?_
    (f := fun x => (x.1, { x.2 with inExecutor := w.inExecutor })) (still_inExecutor hS _ _)
  have hw' := hS.trans hw hl
  unfold parseShifted
  split
  · exact .refl hS _ _
  · rename_i r _
    split
    · obtain ⟨he, hl'⟩ := receive_follows hS h r "" hw'
      rw [he]
      exact .of_step hl'
    · split
      · exact schedule_follows hS h may _ r hw'
      · exact .refl hS _ _

theorem later_finish (t : Task Ω) (result : Except Error String) (w : World Ω) :
    w.Later (finish t result w) := by
  have hl := later_mark w (.rendered t.id result)
  cases result with
  | ok output => exact hl.trans (later_yieldWith ..)
  | error e => exact hl.trans (later_record ..)

theorem still_mark (hS : Tracks ok new S w₀) (w : World Ω) (m : Milestone) : S w (w.mark m) :=
  hS.still (later_mark w m) rfl rfl rfl

theorem step_finish (hS : Tracks ok new S w₀) (t : Task Ω) (result : Except Error String)
    (w : World Ω) :
    S w (finish t result w) := by
  have hl := still_mark hS w (.rendered t.id result)
  cases result with
  | ok output => exact hS.trans hl (hS.still (later_yieldWith ..) rfl rfl rfl)
  | error e => exact hS.trans hl (hS.record _ rfl)

theorem turn_follows (hS : Tracks ok new S w₀) (h : host.Akin ok S w₀ host') {t : Task Ω}
    (hw : S w₀ w) (ht : ∀ p, t.stage = .rendering p → w.Asked p) :
    turn host' t w = turn host t w ∧ S w (turn host t w) := by
  unfold turn
  split
  · rename_i p hp
    obtain ⟨he, hl⟩ := poll_follows hS h hw (ht p hp)
    rw [he]
    refine ⟨rfl, ?_⟩
    split <;> (rename_i hx; rw [hx] at hl)
    · have asked q (hq : t.stage = .rendering q) := (hS.later hl).asked_of_asked (ht q hq)
      exact hS.trans hl (hS.still (later_park asked) rfl rfl rfl)
    · exact hS.trans hl (still_mark hS ..)
    · exact hS.trans hl (step_finish hS ..)
  · exact ⟨rfl, step_finish hS ..⟩
  · rename_i output _
    have hl := still_mark hS w (.called t.id output)
    obtain ⟨he, hl'⟩ := receive_follows hS h t.receiver output (hS.trans hw hl)
    exact ⟨he, hS.trans hl hl'⟩

theorem turns_follows (hS : Tracks ok new S w₀) (h : host.Akin ok S w₀ host') (n : Nat)
    (hw : S w₀ w) :
    turns host' n w = turns host n w ∧ S w (turns host n w) := by
  induction n generalizing w with
  | zero => exact ⟨rfl, hS.refl w⟩
  | succ n ih =>
    unfold turns
    split
    · rename_i t rest ht
      have hl : S w { w with ready := rest } := hS.still (later_take ht) rfl rfl rfl
      -- the task is out of reach during its turn, so what it holds is noted here
      have ha : ∀ p, t.stage = .rendering p → w.Asked p := fun p hp =>
        (hS.reached hw).asked (.inr ⟨t, .inl (ht ▸ List.mem_cons_self ..), hp⟩)
      obtain ⟨he, hl'⟩ := turn_follows hS h (hS.trans hw hl) fun p hp =>
        (hS.later hl).asked_of_asked (ha p hp)
      obtain ⟨he', hl''⟩ := ih (hS.trans (hS.trans hw hl) hl')
      rw [he]
      exact ⟨he', hS.trans hl (hS.trans hl' hl'')⟩
    · split
      · exact ⟨rfl, hS.refl w⟩
      · have hl : S w { w with ready := w.yielded, yielded := [] } :=
          hS.still (later_resume w) rfl rfl rfl
        obtain ⟨he, hl'⟩ := ih (hS.trans hw hl)
        exact ⟨he, hS.trans hl hl'⟩

theorem drain_follows (hS : Tracks ok new S w₀) (h : host.Akin ok S w₀ host') (n : Nat)
    (hw : S w₀ w) :
    drain host' n w = drain host n w ∧ S w (drain host n w) := by
  have hl := still_inExecutor hS w true
  obtain ⟨he, hl'⟩ := turns_follows hS h n (hS.trans hw hl)
  unfold drain
  rw [he]
  exact ⟨rfl, hS.trans hl (hS.trans hl' (still_inExecutor hS _ _))⟩

end World
end Stencil
