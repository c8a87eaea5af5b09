import Stencil.Proofs.Reached
import Stencil.Proofs.Visits

/-!
# Effects of polls

A poll in a mute world comes down to a few effects: the load is visited, those who wait for it are
woken, and the render is completed, which notes what it received and either logs or evicts. Each
effect goes by a part of the world of its own, so any two of them can change places; only the order
of what they log, note and wake shows it (`World.undergo_comm`, `World.undergoAll_perm`).
-/

namespace Stencil

-- ---------------------------------------------------------------------------
-- Evictions
-- ---------------------------------------------------------------------------

theorem Entries.erase_comm {α : Type} (es : Entries α) (name other : String) :
    (es.erase name).erase other = (es.erase other).erase name := by
  induction es with
  | nil => rfl
  | cons e rest ih =>
    obtain ⟨key, a⟩ := e
    by_cases hn : key = name <;> by_cases ho : key = other
    · simp [erase, ← hn, ← ho]
    · simp [erase, hn, show ¬ name = other from hn ▸ ho]
    · simp [erase, ho, show ¬ other = name from ho ▸ hn]
    · simp [erase, hn, ho, ih]

namespace Cache

variable {η : Type} {c : Cache η}

def generation? (c : Cache η) (name : String) : Option Nat := (c.entries.get? name).map (·.1)

theorem evict_eq (c : Cache η) (name : String) (generation : Nat) :
    c.evict name generation =
      if c.generation? name = some generation then
        (true, { c with entries := c.entries.erase name })
      else (false, c) := by
  unfold evict generation?
  split
  · rename_i g handle hg
    simp [hg]
  · rename_i hg
    simp [hg]

theorem generation?_evict (h : c.entries.keys.Nodup) (name other : String) (generation : Nat) :
    (c.evict name generation).2.generation? other =
      if name = other ∧ c.generation? name = some generation then none
      else c.generation? other := by
  unfold generation?
  rw [get?_evict h]
  split <;> rfl

theorem generation?_evict_iff (h : c.entries.keys.Nodup) {name other : String}
    {generation g : Nat} (hne : ¬ (name = other ∧ generation = g)) :
    (c.evict name generation).2.generation? other = some g ↔ c.generation? other = some g := by
  rw [generation?_evict h]
  split
  · rename_i hc
    obtain ⟨rfl, hc⟩ := hc
    refine ⟨nofun, fun hg => absurd ?_ hne⟩
    exact ⟨rfl, Option.some.inj (hc.symm.trans hg)⟩
  · rfl

theorem evict_fst_evict (h : c.entries.keys.Nodup) {name other : String}
    {generation g : Nat} (hne : ¬ (name = other ∧ generation = g)) :
    ((c.evict name generation).2.evict other g).1 = (c.evict other g).1 := by
  have same := generation?_evict_iff h hne
  rw [evict_eq _ other, evict_eq c other]
  by_cases hg : c.generation? other = some g
  · rw [if_pos (same.mpr hg), if_pos hg]
  · rw [if_neg (mt same.mp hg), if_neg hg]

theorem evict_comm (h : c.entries.keys.Nodup) (name other : String) (generation g : Nat) :
    ((c.evict name generation).2.evict other g).2 =
      ((c.evict other g).2.evict name generation).2 := by
  by_cases hne : name = other ∧ generation = g
  · obtain ⟨rfl, rfl⟩ := hne
    rfl
  · have same := generation?_evict_iff h hne
    have hne' : ¬ (other = name ∧ g = generation) := fun he => hne ⟨he.1.symm, he.2.symm⟩
    have same' := generation?_evict_iff h hne'
    rw [evict_eq (c.evict name generation).2, evict_eq (c.evict other g).2]
    simp only [same, same']
    rw [evict_eq c name, evict_eq c other]
    by_cases hn : c.generation? name = some generation <;>
      by_cases ho : c.generation? other = some g <;> simp [hn, ho, Entries.erase_comm _ name other]

end Cache

variable {Ω : Type}

namespace Renderer

/-- A renderer drops the entry of a load that failed, if the policy says so and the entry is still
the one of that generation. -/
def forget (name : String) (generation : Nat) (r : Renderer Ω) : Renderer Ω :=
  if r.policy = .evictOnError then { r with cache := (r.cache.evict name generation).2 } else r

def forgets (name : String) (generation : Nat) (r : Renderer Ω) : List Record :=
  if r.policy = .evictOnError ∧ (r.cache.evict name generation).1 then [.evicted name] else []

variable {r : Renderer Ω} {name other : String} {generation g : Nat}

@[simp] theorem helpers_forget : (r.forget name generation).helpers = r.helpers := by
  unfold forget
  split <;> rfl

theorem nodup_keys_forget (h : r.cache.entries.keys.Nodup) :
    (r.forget name generation).cache.entries.keys.Nodup := by
  unfold forget
  split
  · exact Cache.nodup_keys_evict h name generation
  · exact h

theorem forget_comm (h : r.cache.entries.keys.Nodup) (name other : String)
    (generation g : Nat) :
    (r.forget name generation).forget other g = (r.forget other g).forget name generation := by
  by_cases hp : r.policy = .evictOnError
  · simp [forget, hp, Cache.evict_comm h name other]
  · simp [forget, hp]

theorem forgets_forget (h : r.cache.entries.keys.Nodup)
    (hne : ¬ (name = other ∧ generation = g)) :
    (r.forget name generation).forgets other g = r.forgets other g := by
  by_cases hp : r.policy = .evictOnError
  · simp [forget, forgets, hp, Cache.evict_fst_evict h hne]
  · simp [forget, hp]

end Renderer

theorem World.evictFailed_eq (p : Pending) (b : Binding) (w : World Ω) :
    evictFailed p b w =
      { w with renderers := w.renderers.modify p.renderer (.forget p.name b.generation) }.logged
        (((w.renderers[p.renderer]?).map (Renderer.forgets p.name b.generation)).getD []) := by
  unfold evictFailed renderer?
  cases hr : w.renderers[p.renderer]? with
  | none =>
    have short := List.getElem?_eq_none_iff.mp hr
    simp [List.modify_eq_self short, logged]
  | some r =>
    have only {f : Renderer Ω → Renderer Ω} (hf : Renderer.forget p.name b.generation r = f r) :
        w.renderers.modify p.renderer (.forget p.name b.generation) =
          w.renderers.modify p.renderer f :=
      modify_congr fun a ha => by rw [← Option.some.inj (hr.symm.trans ha), hf]
    by_cases hp : r.policy = .evictOnError
    · cases he : (r.cache.evict p.name b.generation).1 with
      | true =>
        have dropped := only (f := fun r' =>
          { r' with cache := (r.cache.evict p.name b.generation).2 })
          (by simp [Renderer.forget, hp])
        simp only [dropped, hp, he, if_true]
        simp [Renderer.forgets, hp, he, logged, record, setCache, update]
      | false =>
        have kept : r.forget p.name b.generation = r := by
          rw [Renderer.forget, if_pos hp, Cache.evict_of_fst_eq_false he]
        simp [only (f := id) kept, Renderer.forgets, hp, he, logged]
    · have kept : r.forget p.name b.generation = r := by simp [Renderer.forget, hp]
      simp [only (f := id) kept, Renderer.forgets, hp, logged]

-- ---------------------------------------------------------------------------
-- Effects
-- ---------------------------------------------------------------------------

inductive Effect (Ω : Type)
  | visit (load : Nat)
  | wake (load : Nat)
  | note (e : Event Ω)
  | log (rs : List Record)
  | evict (renderer : Nat) (name : String) (generation : Nat)

namespace Effect

@[simp] def loads : Effect Ω → Loads (Work Ω) (Template Ω) → Loads (Work Ω) (Template Ω)
  | .visit load, ls => (ls.visit Work.finds load).2
  | _, ls => ls

@[simp] def renderers : Effect Ω → List (Renderer Ω) → List (Renderer Ω)
  | .evict i name generation, rs => rs.modify i (.forget name generation)
  | _, rs => rs

@[simp] def parked : Effect Ω → List (Task Ω) → List (Task Ω)
  | .wake load, ts => ts.filter fun t => ! (t.load? == some load)
  | _, ts => ts

@[simp] def woken : Effect Ω → List (Task Ω) → List (Task Ω)
  | .wake load, ts => ts.filter (·.load? == some load)
  | _, _ => []

@[simp] def records : Effect Ω → Loads (Work Ω) (Template Ω) → List (Renderer Ω) → List Record
  | .visit load, ls, _ => ls.tells load
  | .log records, _, _ => records
  | .evict i name generation, _, rs => ((rs[i]?).map (Renderer.forgets name generation)).getD []
  | _, _, _ => []

@[simp] def events : Effect Ω → List (Event Ω)
  | .note e => [e]
  | _ => []

end Effect

namespace World

def undergo (w : World Ω) (e : Effect Ω) : World Ω :=
  { w with
    loads := e.loads w.loads
    renderers := e.renderers w.renderers
    parked := e.parked w.parked
    ready := w.ready ++ e.woken w.parked
    log := w.log ++ e.records w.loads w.renderers
    history := w.history ++ e.events }

def undergoAll (w : World Ω) (es : List (Effect Ω)) : World Ω := es.foldl undergo w

theorem undergoAll_append (w : World Ω) (es fs : List (Effect Ω)) :
    w.undergoAll (es ++ fs) = (w.undergoAll es).undergoAll fs :=
  List.foldl_append ..

/-- Worlds that are the same but for the order in which tasks get ready, records are logged and
events are remembered. Renderers, with their caches, global data, helpers and loaders, are the
same. -/
inductive Shuffled (w : World Ω) : World Ω → Prop
  | mk {ready : List (Task Ω)} {log : List Record} {history : List (Event Ω)}
      (hr : ready.Perm w.ready) (hl : log.Perm w.log) (hh : history.Perm w.history) :
      Shuffled w { w with ready := ready, log := log, history := history }

def Tidy (w : World Ω) : Prop := ∀ r ∈ w.renderers, r.cache.entries.keys.Nodup

variable {w w' w'' : World Ω}

theorem Shuffled.refl (w : World Ω) : w.Shuffled w := .mk .rfl .rfl .rfl

theorem Shuffled.trans (h : w.Shuffled w') (h' : w'.Shuffled w'') : w.Shuffled w'' := by
  obtain ⟨hr, hl, hh⟩ := h
  obtain ⟨hr', hl', hh'⟩ := h'
  exact .mk (hr'.trans hr) (hl'.trans hl) (hh'.trans hh)

theorem Shuffled.renderers (h : w.Shuffled w') : w'.renderers = w.renderers := by
  obtain ⟨-, -, -⟩ := h
  rfl

theorem Shuffled.undergo (h : w.Shuffled w') (e : Effect Ω) :
    (w.undergo e).Shuffled (w'.undergo e) := by
  obtain ⟨hr, hl, hh⟩ := h
  exact .mk (hr.append_right _) (hl.append_right _) (hh.append_right _)

theorem Shuffled.undergoAll (h : w.Shuffled w') (es : List (Effect Ω)) :
    (w.undergoAll es).Shuffled (w'.undergoAll es) := by
  induction es generalizing w w' with
  | nil => exact h
  | cons e rest ih => exact ih (h.undergo e)

theorem Tidy.undergo (h : w.Tidy) (e : Effect Ω) : (w.undergo e).Tidy := by
  cases e with
  | evict i name generation => exact forall_mem_modify h (fun _ => Renderer.nodup_keys_forget) i
  | visit load => exact h
  | wake load => exact h
  | note e => exact h
  | log rs => exact h

end World

namespace Effect

variable (a b : Effect Ω)

theorem loads_comm (ls : Loads (Work Ω) (Template Ω)) :
    b.loads (a.loads ls) = a.loads (b.loads ls) := by
  cases a <;> cases b <;> try rfl
  exact ls.visit_comm ..

theorem parked_comm (ts : List (Task Ω)) : b.parked (a.parked ts) = a.parked (b.parked ts) := by
  cases a <;> cases b <;> try rfl
  simp only [parked, List.filter_filter, Bool.and_comm]

theorem renderers_comm {rs : List (Renderer Ω)} (h : ∀ r ∈ rs, r.cache.entries.keys.Nodup) :
    b.renderers (a.renderers rs) = a.renderers (b.renderers rs) := by
  cases a <;> cases b <;> try rfl
  rename_i i name generation j other g
  apply List.ext_getElem?
  intro k
  simp only [renderers, List.getElem?_modify]
  by_cases hi : i = k <;> by_cases hj : j = k
  · subst hi hj
    cases hr : rs[j]? with
    | none => rfl
    | some r => simp [Renderer.forget_comm (h r (List.mem_of_getElem? hr)) name other]
  · simp [hi, hj]
  · simp [hi, hj]
  · simp [hi, hj]

theorem woken_perm (ts : List (Task Ω)) :
    (a.woken ts ++ b.woken (a.parked ts)).Perm (b.woken ts ++ a.woken (b.parked ts)) := by
  cases a <;> cases b <;> try exact List.perm_append_comm
  rename_i l m
  by_cases hlm : l = m
  · subst hlm
    exact .rfl
  · have parted {l m : Nat} (hlm : l ≠ m) :
        (ts.filter fun t => ! (t.load? == some l)).filter (·.load? == some m) =
          ts.filter (·.load? == some m) := by
      rw [List.filter_filter]
      refine List.filter_congr fun t _ => ?_
      by_cases ht : t.load? = some m <;> simp [ht, Ne.symm hlm]
    simp only [woken, parked, parted hlm, parted (Ne.symm hlm)]
    exact List.perm_append_comm

theorem records_perm (ls : Loads (Work Ω) (Template Ω)) {rs : List (Renderer Ω)}
    (h : ∀ r ∈ rs, r.cache.entries.keys.Nodup) :
    (a.records ls rs ++ b.records (a.loads ls) (a.renderers rs)).Perm
      (b.records ls rs ++ a.records (b.loads ls) (b.renderers rs)) := by
  cases a <;> cases b <;> try exact List.perm_append_comm
  · rename_i l m
    by_cases hlm : l = m
    · subst hlm
      exact .rfl
    · have apart {l m : Nat} (hlm : l ≠ m) : (ls.visit Work.finds l).2.tells m = ls.tells m := by
        simp only [Loads.tells, ls.worker_visit_of_ne _ _ hlm]
      simp only [records, loads, apart hlm, apart (Ne.symm hlm)]
      exact List.perm_append_comm
  · rename_i i name generation j other g
    by_cases he : i = j ∧ name = other ∧ generation = g
    · obtain ⟨rfl, rfl, rfl⟩ := he
      exact .rfl
    · have apart {i j : Nat} {name other : String} {generation g : Nat}
          (he : ¬ (i = j ∧ name = other ∧ generation = g)) :
          (Effect.evict (Ω := Ω) j other g).records ls (rs.modify i (.forget name generation)) =
            (Effect.evict (Ω := Ω) j other g).records ls rs := by
        simp only [records, List.getElem?_modify]
        cases hr : rs[j]? with
        | none => rfl
        | some r =>
          by_cases hij : i = j
          · have differ : ¬ (name = other ∧ generation = g) := fun h => he ⟨hij, h⟩
            simp [hij, Renderer.forgets_forget (h r (List.mem_of_getElem? hr)) differ]
          · simp [hij]
      simp only [renderers, loads]
      rw [apart he, apart fun h => he ⟨h.1.symm, h.2.1.symm, h.2.2.symm⟩]
      exact List.perm_append_comm

end Effect

namespace World

variable {w : World Ω}

theorem undergo_comm (hw : w.Tidy) (a b : Effect Ω) :
    ((w.undergo a).undergo b).Shuffled ((w.undergo b).undergo a) := by
  simp only [undergo, List.append_assoc]
  rw [a.loads_comm b, a.parked_comm b, a.renderers_comm b hw]
  exact .mk ((b.woken_perm a w.parked).append_left w.ready)
    ((b.records_perm a w.loads hw).append_left w.log) (List.perm_append_comm.append_left w.history)

theorem undergoAll_perm {es fs : List (Effect Ω)} (h : es.Perm fs) (hw : w.Tidy) :
    (w.undergoAll es).Shuffled (w.undergoAll fs) := by
  induction h generalizing w with
  | nil => exact .refl w
  | cons e _ ih => exact ih (hw.undergo e)
  | swap a b rest => exact (undergo_comm hw b a).undergoAll rest
  | trans _ _ ih ih' => exact (ih hw).trans (ih' hw)

-- ---------------------------------------------------------------------------
-- What has these effects
-- ---------------------------------------------------------------------------

theorem undergo_visit (w : World Ω) (load : Nat) :
    w.undergo (.visit load) = (w.visit load).2 := by
  simp [undergo, visit, logged]

theorem undergo_wake (w : World Ω) (load : Nat) : w.undergo (.wake load) = w.wake load := by
  simp [undergo, wake, List.partition_eq_filter_filter, Function.comp_def]

theorem undergo_note (w : World Ω) (e : Event Ω) : w.undergo (.note e) = w.note e := by
  simp [undergo, note]

theorem undergo_log (w : World Ω) (rs : List Record) : w.undergo (.log rs) = w.logged rs := by
  simp [undergo, logged]

theorem undergo_evict (p : Pending) (b : Binding) (w : World Ω) :
    w.undergo (.evict p.renderer p.name b.generation) = evictFailed p b w := by
  simp [evictFailed_eq, undergo, logged]

-- ---------------------------------------------------------------------------
-- Polls
-- ---------------------------------------------------------------------------

variable {host : Host Ω (World Ω)} {v : World Ω} {p : Pending}

/-- All that polls of a render go by is the same in the later world: what there is to be seen of its
load, and the helpers of its renderer. -/
structure SameSight (w : World Ω) (p : Pending) (v : World Ω) : Prop where
  seen : ∀ b, p.binding = some b →
    (v.loads.visit Work.finds b.load).1 = (w.loads.visit Work.finds b.load).1
  helpers : v.helpers p.renderer = w.helpers p.renderer
  mute : v.loads.All LoadResult.Mute Work.Mute

theorem helpers_undergo (w : World Ω) (e : Effect Ω) (i : Nat) :
    (w.undergo e).helpers i = w.helpers i := by
  cases e with
  | evict j name generation =>
    simp only [helpers, renderer?, undergo, Effect.renderers, List.getElem?_modify]
    split
    · cases w.renderers[i]? <;> simp
    · simp
  | visit load => rfl
  | wake load => rfl
  | note e => rfl
  | log rs => rfl

theorem SameSight.undergo (h : w.SameSight p v) (e : Effect Ω) : w.SameSight p (v.undergo e) := by
  refine ⟨fun b hb => ?_, (helpers_undergo v e p.renderer).trans h.helpers, ?_⟩
  · rw [← h.seen b hb]
    cases e with
    | visit l => exact v.loads.visit_fst_visit l b.load
    | _ => rfl
  · cases e with
    | visit l => exact (h.mute.visit (fun _ hw _ => Work.Mute.finds hw) l).2
    | _ => exact h.mute

theorem SameSight.undergoAll (h : w.SameSight p v) (es : List (Effect Ω)) :
    w.SameSight p (v.undergoAll es) := by
  induction es generalizing v with
  | nil => exact h
  | cons e rest ih => exact ih (h.undergo e)

variable (hl : host.Logs)

include hl

theorem complete_effect (p : Pending) (b : Binding) {result : LoadResult (Template Ω)}
    (hr : LoadResult.Mute result) {table : HelperTable Ω} (ht : table.Mute) :
    ∃ out e, ∀ v : World Ω, v.helpers p.renderer = table →
      complete host p b result v = (out, v.undergo e) := by
  match result, hr with
  | .error err, _ =>
    refine ⟨.error (.templateLoad p.name err), .evict p.renderer p.name b.generation,
      fun v _ => ?_⟩
    rw [undergo_evict, complete]
  | .ok t, hr =>
    obtain ⟨out, rs, h⟩ := complete_mute hl p b hr ht
    refine ⟨out, .log rs, fun v hv => ?_⟩
    rw [h v hv, undergo_log]

/-- What a poll finds, and its effects, are given by what there is to be seen. -/
theorem poll_effects (helpers : ∀ r ∈ w.renderers, r.helpers.Mute)
    (loads : w.loads.All LoadResult.Mute Work.Mute) (p : Pending) :
    ∃ seen es, ∀ v, w.SameSight p v → poll host p v = (seen, v.undergoAll es) := by
  cases hb : p.binding with
  | none =>
    refine ⟨.ready (.error (.noLoader p.name)), [], fun v _ => ?_⟩
    simp only [poll, hb, undergoAll, List.foldl_nil]
  | some b =>
    have visited {v : World Ω} (hv : w.SameSight p v) :
        v.visit b.load =
          ((w.loads.visit Work.finds b.load).1, v.undergo (.visit b.load)) :=
      Prod.ext (hv.seen b hb) (v.undergo_visit b.load).symm
    cases hw : (w.loads.visit Work.finds b.load).1 with
    | pending =>
      refine ⟨.pending, [.visit b.load], fun v hv => ?_⟩
      simp only [poll, hb, pollLoad_mute hl hv.mute, visited hv, hw]
      rfl
    | panicked =>
      refine ⟨.panicked, [.visit b.load], fun v hv => ?_⟩
      simp only [poll, hb, pollLoad_mute hl hv.mute, visited hv, hw]
      rfl
    | ready result =>
      have table : (w.helpers p.renderer).Mute := by
        unfold World.helpers renderer?
        cases hr : w.renderers[p.renderer]? with
        | none => exact HelperTable.mute_empty
        | some r => exact helpers r (List.mem_of_getElem? hr)
      have mute := (loads.visit (fun _ h _ => Work.Mute.finds h) b.load).1 result hw
      obtain ⟨out, e, completed⟩ := complete_effect hl p b mute table
      let received : List (Effect Ω) := [.visit b.load, .wake b.load, .note (.received p result)]
      refine ⟨.ready out, received ++ [e], fun v hv => ?_⟩
      have same : (v.undergoAll received).helpers p.renderer = w.helpers p.renderer :=
        (hv.undergoAll received).helpers
      simp only [poll, hb, pollLoad_mute hl hv.mute, visited hv, hw, ← undergo_wake,
        ← undergo_note]
      rw [undergoAll, List.foldl_append]
      exact congrArg (fun x => (Polled.ready x.1, x.2)) (completed _ same)

end World
end Stencil
