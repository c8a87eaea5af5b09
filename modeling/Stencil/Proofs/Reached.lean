import Stencil.Proofs.Invariant

/-!
# Worlds that are reached

`Later w w'` says that a run leads from one world to the other, and that all renders which the later
one keeps were asked for on the way, if they were not kept before. So in a world that is reached
from the start, every render that is kept by its name or by a task still carries what some call took
along, in a world that the run has passed (`Reached.asked`).
-/

namespace Stencil.World

variable {Ω : Type} {w w' : World Ω} {e es : List (Event Ω)} {p : Pending}

def Holds (w : World Ω) (p : Pending) : Prop :=
  (∃ id, (id, p) ∈ w.renders) ∨
    ∃ t, (t ∈ w.ready ∨ t ∈ w.yielded ∨ t ∈ w.parked) ∧ t.stage = .rendering p

/-- What a call takes along from its world: the global data under the data of the call, the block
unless its name is empty, and the entry for the name in the cache, if there is a loader. -/
structure Called (w : World Ω) (p : Pending) (r : Renderer Ω) (data : Option Value)
    (block : Option String) : Prop where
  renderer : w.renderer? p.renderer = some r
  context : p.context = r.addGlobals data
  block : p.block = block.filter (· != "")
  binding : p.binding =
    r.loader.bind fun _ => (w.cached? p.renderer p.name).map fun a => ⟨a.1, a.2⟩

def Asked (w : World Ω) (p : Pending) : Prop :=
  ∃ v r data block, Called v p r data block ∧ (∃ es, Run {} es v) ∧ ∃ es, Run v es w

structure Later (w w' : World Ω) : Prop where
  run : ∃ es, Run w es w'
  asked : ∀ p, w'.Holds p → w.Holds p ∨ w'.Asked p

/-- Whether a run leads to the world, from the one in which there is nothing yet. -/
def Reached (w : World Ω) : Prop := Later {} w

theorem Asked.mono (hp : w.Asked p) (run : Run w es w') : w'.Asked p := by
  obtain ⟨v, r, data, block, hc, hv, fs, run'⟩ := hp
  exact ⟨v, r, data, block, hc, hv, _, run'.trans run⟩

theorem Asked.bound (hp : w.Asked p) : w.Bound p := by
  obtain ⟨v, r, data, block, hc, ⟨es, run⟩, fs, run'⟩ := hp
  have hv := run.sound sound_empty
  refine run'.bound hv fun b hb => ?_
  rw [hc.binding, Option.bind_eq_some_iff] at hb
  -- the binding was an entry when the render was asked for
  obtain ⟨_, -, hb⟩ := hb
  obtain ⟨a, ha, rfl⟩ := Option.map_eq_some_iff.mp hb
  exact hv.issued ha

theorem Later.refl (w : World Ω) : w.Later w := ⟨⟨[], .refl w⟩, fun _ => .inl⟩

theorem Later.trans {w₁ w₂ : World Ω} (first : w.Later w₁) (second : w₁.Later w₂) :
    w.Later w₂ := by
  obtain ⟨es, run₁⟩ := first.run
  obtain ⟨fs, run₂⟩ := second.run
  refine ⟨⟨es ++ fs, run₁.trans run₂⟩, fun p hp => ?_⟩
  rcases second.asked p hp with hp | hp
  · exact (first.asked p hp).imp_right fun hp => hp.mono run₂
  · exact .inr hp

theorem Later.reached (h : w.Later w') (hw : w.Reached) : w'.Reached := Later.trans hw h

theorem Reached.run (hw : w.Reached) : Run {} w.history w := by
  obtain ⟨es, run⟩ := Later.run hw
  have h := run.history
  rw [List.nil_append] at h
  exact h ▸ run

theorem Reached.sound (hw : w.Reached) : w.Sound := hw.run.sound sound_empty

theorem Reached.asked (hw : w.Reached) (hp : w.Holds p) : w.Asked p := by
  rcases Later.asked hw p hp with h | h
  · rcases h with ⟨_, h⟩ | ⟨_, h, _⟩
    · cases h
    · rcases h with h | h | h <;> cases h
  · exact h

theorem Later.asked_of_asked (h : w.Later w') (hp : w.Asked p) : w'.Asked p := by
  obtain ⟨es, run⟩ := h.run
  exact hp.mono run

theorem Move.later (m : Move w e w') (h : ∀ p, w'.Holds p → w.Holds p) : w.Later w' :=
  ⟨⟨_, .single m⟩, fun p hp => .inl (h p hp)⟩

theorem Quiet.later (hq : w.Quiet w') (h : ∀ p, w'.Holds p → w.Holds p) : w.Later w' :=
  (Move.quiet hq).later h

-- ---------------------------------------------------------------------------
-- Quiet changes
-- ---------------------------------------------------------------------------

theorem later_record (w : World Ω) (r : Record) : w.Later (w.record r) :=
  Quiet.later ⟨rfl, rfl, rfl⟩ fun _ h => h

theorem later_recordAnswer (w : World Ω) (a : Answer) : w.Later (w.recordAnswer a) :=
  Quiet.later ⟨rfl, rfl, rfl⟩ fun _ h => h

theorem later_recordOutput (w : World Ω) (label output : String) :
    w.Later (w.recordOutput label output) :=
  Quiet.later ⟨rfl, rfl, rfl⟩ fun _ h => h

theorem later_mark (w : World Ω) (m : Milestone) : w.Later (w.mark m) :=
  Quiet.later ⟨rfl, rfl, rfl⟩ fun _ h => h

theorem later_inExecutor (w : World Ω) (b : Bool) : w.Later { w with inExecutor := b } :=
  Quiet.later ⟨rfl, rfl, rfl⟩ fun _ h => h

theorem later_loads {loads : Loads (Work Ω) (Template Ω)} (h : loads.results = w.loads.results) :
    w.Later { w with loads := loads } :=
  Quiet.later ⟨rfl, h, rfl⟩ fun _ h => h

theorem later_countCall (w : World Ω) (counter : Option String) (name : String) :
    w.Later (w.countCall counter name) := by
  cases counter <;> exact Quiet.later ⟨rfl, rfl, rfl⟩ fun _ h => h

/-- What a renderer holds may change in any way, but for its cache and its policy. -/
theorem later_update {f : Renderer Ω → Renderer Ω} (hc : ∀ r, (f r).cache = r.cache)
    (hp : ∀ r, (f r).policy = r.policy) (w : World Ω) (i : Nat) : w.Later (w.update i f) := by
  refine Quiet.later ⟨?_, rfl, rfl⟩ fun _ h => h
  rw [caches_update (g := id) (fun r => by rw [hc, hp]; rfl), List.modify_id]

-- ---------------------------------------------------------------------------
-- Changes of what is kept
-- ---------------------------------------------------------------------------

theorem later_renders {renders : Entries Pending}
    (h : ∀ e ∈ renders, e ∈ w.renders ∨ w.Asked e.2) : w.Later { w with renders := renders } := by
  have m : Move w [] { w with renders := renders } := .quiet ⟨rfl, rfl, rfl⟩
  refine ⟨⟨_, .single m⟩, ?_⟩
  rintro p (⟨id, hm⟩ | ht)
  · exact (h (id, p) hm).imp (fun hm => .inl ⟨id, hm⟩) fun hp => hp.mono (.single m)
  · exact .inl (.inr ht)

theorem later_keep (hp : w.Asked p) (id : String) :
    w.Later { w with renders := w.renders.insert id p } := by
  refine later_renders fun e hm => ?_
  rcases Entries.mem_insert hm with rfl | h
  · exact .inr hp
  · exact .inl h

theorem later_erase (w : World Ω) (id : String) :
    w.Later { w with renders := w.renders.erase id } :=
  later_renders fun _ hm => .inl (Entries.mem_of_mem_erase hm)

theorem later_tasks {ready yielded parked : List (Task Ω)}
    (h : ∀ t, t ∈ ready ∨ t ∈ yielded ∨ t ∈ parked →
      (t ∈ w.ready ∨ t ∈ w.yielded ∨ t ∈ w.parked) ∨ ∀ p, t.stage = .rendering p → w.Asked p) :
    w.Later { w with ready := ready, yielded := yielded, parked := parked } := by
  have m : Move w [] { w with ready := ready, yielded := yielded, parked := parked } :=
    .quiet ⟨rfl, rfl, rfl⟩
  refine ⟨⟨_, .single m⟩, ?_⟩
  rintro p (hm | ⟨t, ht, hp⟩)
  · exact .inl (.inl hm)
  · exact (h t ht).imp (fun ht => .inr ⟨t, ht, hp⟩) fun ha => (ha p hp).mono (.single m)

theorem later_wake (w : World Ω) (load : Nat) : w.Later (w.wake load) := by
  simp only [wake, List.partition_eq_filter_filter]
  refine later_tasks fun t ht => .inl ?_
  simp only [List.mem_append, List.mem_filter] at ht
  rcases ht with (h | h) | h | h
  · exact .inl h
  · exact .inr (.inr h.1)
  · exact .inr (.inl h)
  · exact .inr (.inr h.1)

theorem later_spawn {stage : Stage} (hs : ∀ p, stage = .rendering p → w.Asked p)
    (r : Receiver Ω) : w.Later (w.spawn stage r) := by
  have counted : w.Later { w with spawned := w.spawned + 1 } :=
    Quiet.later ⟨rfl, rfl, rfl⟩ fun _ h => h
  refine counted.trans (later_tasks fun u hu => ?_)
  rw [List.mem_append, List.mem_singleton] at hu
  rcases hu with (h | rfl) | h
  · exact .inl (.inl h)
  · exact .inr fun p hp => counted.asked_of_asked (hs p hp)
  · exact .inl (.inr h)

theorem later_park {t : Task Ω} (ht : ∀ p, t.stage = .rendering p → w.Asked p) :
    w.Later { w with parked := w.parked ++ [t] } := by
  refine later_tasks fun u hu => ?_
  rw [List.mem_append, List.mem_singleton] at hu
  rcases hu with h | h | h | rfl
  · exact .inl (.inl h)
  · exact .inl (.inr (.inl h))
  · exact .inl (.inr (.inr h))
  · exact .inr ht

theorem later_yieldWith (t : Task Ω) (output : String) (w : World Ω) :
    w.Later { w with yielded := w.yielded ++ [{ t with stage := .yielded output }] } := by
  refine later_tasks fun u hu => ?_
  rw [List.mem_append, List.mem_singleton] at hu
  rcases hu with h | (h | rfl) | h
  · exact .inl (.inl h)
  · exact .inl (.inr (.inl h))
  · exact .inr fun p hp => by cases hp
  · exact .inl (.inr (.inr h))

theorem later_take {t : Task Ω} {rest : List (Task Ω)} (ht : w.ready = t :: rest) :
    w.Later { w with ready := rest } := by
  refine later_tasks fun u hu => .inl ?_
  rcases hu with h | h
  · exact .inl (ht ▸ List.mem_cons_of_mem t h)
  · exact .inr h

theorem later_resume (w : World Ω) : w.Later { w with ready := w.yielded, yielded := [] } := by
  refine later_tasks fun u hu => .inl ?_
  rcases hu with h | h | h
  · exact .inr (.inl h)
  · cases h
  · exact .inr (.inr h)

-- ---------------------------------------------------------------------------
-- What the moves that are not quiet keep
-- ---------------------------------------------------------------------------

theorem holds_evictFailed (p : Pending) (b : Binding) (w : World Ω) (q : Pending) :
    (evictFailed p b w).Holds q ↔ w.Holds q := by
  rcases evictFailed_cases p b w with ⟨h, -⟩ | ⟨r, -, -, -, h⟩
  · rw [h]
  · rw [h]
    exact Iff.rfl

theorem holds_settle (w : World Ω) (p : Pending) (b : Binding) (result : LoadResult (Template Ω))
    (q : Pending) : (w.settle p b result).Holds q ↔ w.Holds q := by
  cases result with
  | error err => exact holds_evictFailed ..
  | ok t => exact Iff.rfl

end Stencil.World
