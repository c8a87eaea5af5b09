import Stencil.Proofs.Loads
import Stencil.Render

/-!
# Moves of a world

What can happen to the caches and to the results of loads, in moves that nothing comes between, and
what each move adds to the history. A `Run` is any chain of moves. It says nothing about who makes
them: code of a loader, of the future of a load, of a helper, of a template or of a callback may
make any move at any moment at which it is given control, so a run goes through the insides of
operations as well as from one operation to the next. That each operation is a run is shown in
`Stencil.Proofs.Operations`.

Helpers, global data, loaders, the sides of loads that are not settled, tasks, the log and all other
things may change in a quiet move in any way whatever.
-/

namespace Stencil.World

variable {Ω : Type}

-- ---------------------------------------------------------------------------
-- What is looked at
-- ---------------------------------------------------------------------------

def caches (w : World Ω) : List (Cache Nat × CachePolicy) :=
  w.renderers.map fun r => (r.cache, r.policy)

def policy? (w : World Ω) (i : Nat) : Option CachePolicy := w.caches[i]?.map (·.2)

def cached? (w : World Ω) (i : Nat) (name : String) : Option (Nat × Nat) :=
  w.caches[i]?.bind (·.1.entries.get? name)

def result? (w : World Ω) (load : Nat) : Option (LoadResult (Template Ω)) := w.loads.result? load

/-- What holds of the binding of a render from the call on: its generation and its load have been
given out, an entry has the one exactly if it has the other and stands under the name of the render
in its cache, and any other entry for that name is newer. -/
structure Issued (w : World Ω) (i : Nat) (name : String) (b : Binding) : Prop where
  generation_lt : ∃ c, w.caches[i]? = some c ∧ b.generation < c.1.next
  load_lt : b.load < w.loads.results.length
  load_iff : ∀ {j other g l}, w.cached? j other = some (g, l) →
    (l = b.load ↔ j = i ∧ other = name ∧ g = b.generation)
  newest : ∀ {g l}, w.cached? i name = some (g, l) → b.generation ≤ g ∧ b.load ≤ l

/-- A render that was not bound, for want of a loader, or whose binding was given out to it. -/
def Bound (w : World Ω) (p : Pending) : Prop :=
  ∀ b, p.binding = some b → w.Issued p.renderer p.name b

-- ---------------------------------------------------------------------------
-- Moves and runs
-- ---------------------------------------------------------------------------

/-- What neither a cache nor the result of a load notices. -/
structure Quiet (w w' : World Ω) : Prop where
  caches : w'.caches = w.caches
  results : w'.loads.results = w.loads.results
  history : w'.history = w.history

def flushed (w : World Ω) (i : Nat) : World Ω := (w.note (.flushed i)).update i Renderer.flush

def invoked (w : World Ω) (i : Nat) (r : Renderer Ω) (name : String) : World Ω :=
  (w.reserve i r name).2.note (.invoked i name w.loads.slots.length)

def look (w : World Ω) (load : Nat) : World Ω := { w with loads := (w.loads.poll load).2 }

def settle (w : World Ω) (p : Pending) (b : Binding) (result : LoadResult (Template Ω)) : World Ω :=
  match result with
  | .error _ => evictFailed p b ((w.look b.load).note (.received p result))
  | .ok _ => (w.look b.load).note (.received p result)

inductive Move : World Ω → List (Event Ω) → World Ω → Prop
  | quiet {w w' : World Ω} (h : w.Quiet w') : Move w [] w'
  | create (w : World Ω) {r : Renderer Ω} (h : r.cache = {}) : Move w [] (w.addRenderer r)
  | flush (w : World Ω) (i : Nat) : Move w [.flushed i] (w.flushed i)
  | invoke {w : World Ω} {i : Nat} {r : Renderer Ω} {name : String} (hr : w.renderer? i = some r)
      (hn : r.cache.entries.get? name = none) :
      Move w [.invoked i name w.loads.slots.length] (w.invoked i r name)
  | receive {w : World Ω} {p : Pending} {b : Binding} {result : LoadResult (Template Ω)}
      (hb : p.binding = some b) (hi : w.Issued p.renderer p.name b)
      (hr : (w.loads.poll b.load).1 = some result) :
      Move w [.received p result] (w.settle p b result)

/-- A chain of moves, with what all of them add to the history. -/
inductive Run : World Ω → List (Event Ω) → World Ω → Prop
  | refl (w : World Ω) : Run w [] w
  | head {w w₁ w' : World Ω} {e es : List (Event Ω)} (m : Move w e w₁) (rest : Run w₁ es w') :
      Run w (e ++ es) w'

theorem Run.single {w w' : World Ω} {e : List (Event Ω)} (m : Move w e w') : Run w e w' := by
  simpa using Run.head m (.refl w')

theorem Run.trans {w w₁ w' : World Ω} {es fs : List (Event Ω)} (first : Run w es w₁)
    (second : Run w₁ fs w') : Run w (es ++ fs) w' := by
  induction first with
  | refl w => exact second
  | head m rest ih =>
    rw [List.append_assoc]
    exact .head m (ih second)

theorem Move.label {w w' : World Ω} {e : List (Event Ω)} (m : Move w e w') :
    e = [] ∨ ∃ x, e = [x] := by
  cases m <;> simp

theorem Move.event_unique {w w' : World Ω} {e : List (Event Ω)} (m : Move w e w') {x y : Event Ω}
    (hx : x ∈ e) (hy : y ∈ e) : x = y := by
  rcases m.label with rfl | ⟨z, rfl⟩
  · cases hx
  · rw [List.mem_singleton.mp hx, List.mem_singleton.mp hy]

theorem Run.split {w w' : World Ω} {es fs : List (Event Ω)} (run : Run w (es ++ fs) w') :
    ∃ w₁, Run w es w₁ ∧ Run w₁ fs w' := by
  generalize hl : es ++ fs = l at run
  -- a move adds one event at most, so none of them straddles the border
  induction run generalizing es with
  | refl w =>
    obtain ⟨rfl, rfl⟩ := List.append_eq_nil_iff.mp hl
    exact ⟨w, .refl w, .refl w⟩
  | @head w w₁ w' e rest m run ih =>
    rcases m.label with rfl | ⟨x, rfl⟩
    · obtain ⟨v, first, second⟩ := ih hl
      exact ⟨v, .head m first, second⟩
    · cases es with
      | nil =>
        -- the first part is at its end: all that is left goes into the second
        refine ⟨w, .refl w, ?_⟩
        rw [List.nil_append] at hl
        exact hl ▸ .head m run
      | cons y es =>
        obtain ⟨rfl, htail⟩ := List.cons_eq_cons.mp hl
        obtain ⟨v, first, second⟩ := ih htail
        exact ⟨v, .head m first, second⟩

theorem Run.uncons {w w' : World Ω} {x : Event Ω} {es : List (Event Ω)} (run : Run w (x :: es) w') :
    ∃ v v', Run w [] v ∧ Move v [x] v' ∧ Run v' es w' := by
  generalize hl : x :: es = l at run
  induction run with
  | refl w => cases hl
  | @head w w₁ w' e rest m run ih =>
    rcases m.label with rfl | ⟨y, rfl⟩
    · -- a quiet move in front of the one that is looked for
      obtain ⟨v, v', first, move, second⟩ := ih hl
      exact ⟨v, v', .head m first, move, second⟩
    · obtain ⟨rfl, rfl⟩ := List.cons_eq_cons.mp hl
      exact ⟨w, w₁, .refl w, m, run⟩

-- ---------------------------------------------------------------------------
-- Entries after operations on caches
-- ---------------------------------------------------------------------------

theorem caches_getElem? {w : World Ω} {i : Nat} {r : Renderer Ω} (h : w.renderer? i = some r) :
    w.caches[i]? = some (r.cache, r.policy) := by
  simp only [renderer?] at h
  simp [caches, h]

theorem renderer?_of_caches {w : World Ω} {i : Nat} {c : Cache Nat × CachePolicy}
    (h : w.caches[i]? = some c) : ∃ r, w.renderer? i = some r ∧ (r.cache, r.policy) = c := by
  rw [caches, List.getElem?_map] at h
  exact Option.map_eq_some_iff.mp h

theorem caches_update {f : Renderer Ω → Renderer Ω}
    {g : Cache Nat × CachePolicy → Cache Nat × CachePolicy}
    (h : ∀ r, ((f r).cache, (f r).policy) = g (r.cache, r.policy)) (w : World Ω) (i : Nat) :
    (w.update i f).caches = w.caches.modify i g :=
  map_modify h w.renderers i

theorem caches_addRenderer (w : World Ω) (r : Renderer Ω) :
    (w.addRenderer r).caches = w.caches ++ [(r.cache, r.policy)] := by
  simp [caches, addRenderer]

theorem caches_setCache (w : World Ω) (i : Nat) (cache : Cache Nat) :
    (w.setCache i cache).caches = w.caches.modify i fun c => (cache, c.2) :=
  caches_update (fun _ => rfl) w i

theorem caches_flushed (w : World Ω) (i : Nat) :
    (w.flushed i).caches = w.caches.modify i fun c => (c.1.clear, c.2) :=
  caches_update (fun _ => rfl) (w.note (.flushed i)) i

theorem caches_invoked (w : World Ω) (i : Nat) (r : Renderer Ω) (name : String) :
    (w.invoked i r name).caches =
      w.caches.modify i fun c => ((r.cache.getOrInsert name w.loads.slots.length).2, c.2) :=
  caches_setCache _ i _

/-- The entry of a failed load is evicted, or nothing happens. -/
theorem evictFailed_cases (p : Pending) (b : Binding) (w : World Ω) :
    (evictFailed p b w = w ∧ ∀ r, w.renderer? p.renderer = some r → r.policy = .evictOnError →
      (r.cache.evict p.name b.generation).1 = false) ∨
    ∃ r, w.renderer? p.renderer = some r ∧ r.policy = .evictOnError ∧
      (r.cache.evict p.name b.generation).1 = true ∧
      evictFailed p b w =
        (w.setCache p.renderer (r.cache.evict p.name b.generation).2).record (.evicted p.name) := by
  cases hr : w.renderer? p.renderer with
  | none => exact .inl ⟨by simp [evictFailed, hr], nofun⟩
  | some r =>
    by_cases hp : r.policy = .evictOnError
    · cases he : (r.cache.evict p.name b.generation).1 with
      | true => exact .inr ⟨r, rfl, hp, he, by simp [evictFailed, hr, hp, he]⟩
      | false =>
        refine .inl ⟨by simp [evictFailed, hr, hp, he], ?_⟩
        rintro _ ⟨⟩ -
        exact he
    · refine .inl ⟨by simp [evictFailed, hr, hp], ?_⟩
      rintro _ ⟨⟩ h
      exact absurd h hp

theorem history_evictFailed (p : Pending) (b : Binding) (w : World Ω) :
    (evictFailed p b w).history = w.history := by
  rcases evictFailed_cases p b w with ⟨h, -⟩ | ⟨r, -, -, -, h⟩
  · rw [h]
  · rw [h]
    rfl

theorem history_settle (w : World Ω) (p : Pending) (b : Binding)
    (result : LoadResult (Template Ω)) :
    (w.settle p b result).history = w.history ++ [.received p result] := by
  cases result with
  | error err => exact history_evictFailed ..
  | ok t => rfl

theorem Run.history {w w' : World Ω} {es : List (Event Ω)} (run : Run w es w') :
    w'.history = w.history ++ es := by
  induction run with
  | refl w => simp
  | @head w w₁ w' e es m rest ih =>
    rw [ih, ← List.append_assoc]
    congr 1
    cases m with
    | quiet hq => rw [hq.history, List.append_nil]
    | create hc => exact (List.append_nil _).symm
    | flush i => rfl
    | invoke hr hn => rfl
    | receive hb hi hr => exact history_settle ..

theorem caches_evictFailed (p : Pending) (b : Binding) (w : World Ω) :
    (evictFailed p b w).caches = w.caches.modify p.renderer fun c =>
      (if c.2 = .evictOnError then (c.1.evict p.name b.generation).2 else c.1, c.2) := by
  rcases evictFailed_cases p b w with ⟨h, kept⟩ | ⟨r, hr, hp, -, h⟩
  · -- where nothing is evicted, the cache is modified to itself
    rw [h]
    refine (List.modify_id _ _).symm.trans (modify_congr ?_)
    rintro ⟨cache, policy⟩ hc
    obtain ⟨r, hr, hrc⟩ := renderer?_of_caches hc
    cases hrc
    split
    · rename_i hp
      simp [Cache.evict_of_fst_eq_false (kept r hr hp)]
    · rfl
  · rw [h]
    refine (caches_setCache w p.renderer _).trans (modify_congr ?_)
    rintro c hc
    cases (caches_getElem? hr).symm.trans hc
    simp [hp]

theorem cached?_of_modify {w w' : World Ω} {i : Nat}
    {f : Cache Nat × CachePolicy → Cache Nat × CachePolicy}
    (h : w'.caches = w.caches.modify i f) (j : Nat) (name : String) :
    w'.cached? j name =
      if i = j then w.caches[i]?.bind fun c => (f c).1.entries.get? name else w.cached? j name := by
  rw [cached?, h, List.getElem?_modify]
  split
  · rename_i hij
    subst hij
    cases w.caches[i]? <;> rfl
  · simp [cached?]

end Stencil.World
