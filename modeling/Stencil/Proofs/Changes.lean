import Stencil.Proofs.Plain
import Stencil.Proofs.Reached

/-!
# What operations change

All that operations do to a world between the calls of code that they make: the constructors of
`Change`, and of `Late` for what comes after code that was run on the way. A relation between worlds
that has these in it, and that goes on from one world to the next (`Tracks`), holds from the start
of an operation to its end if it holds so of what the host does for code
(`Stencil.Proofs.Operations`). `Later` is such a relation.
-/

namespace Stencil

variable {Ω : Type} {ok : Record → Prop} {new : Nat → String → Prop}

namespace World

variable {w w' u u' : World Ω}

/-- The world in which the loader of a call gets control: the name is cached already. -/
def opened (w : World Ω) (i : Nat) (r : Renderer Ω) (name : String) : World Ω :=
  (w.invoked i r name).record (.loading name)

theorem opened_run {i : Nat} {r : Renderer Ω} {name : String} (hr : w.renderer? i = some r)
    (hn : r.cache.entries.get? name = none) :
    Run w [.invoked i name w.loads.slots.length] (w.opened i r name) :=
  .head (.invoke hr hn) (.single (.quiet ⟨rfl, rfl, rfl⟩))

theorem later_opened {i : Nat} {r : Renderer Ω} {name : String} (hr : w.renderer? i = some r)
    (hn : r.cache.entries.get? name = none) : w.Later (w.opened i r name) :=
  ⟨⟨_, opened_run hr hn⟩, fun _ => .inl⟩

-- ---------------------------------------------------------------------------
-- Changes
-- ---------------------------------------------------------------------------

/-- What an operation does between the calls of code that it makes. The code that comes into the
world by it is plain, and the names that it caches are among the `new` ones. -/
inductive Change (ok : Record → Prop) (new : Nat → String → Prop) : World Ω → World Ω → Prop
  /-- Renders that are kept, tasks, and all else that code cannot run. -/
  | still {w w' : World Ω} (later : w.Later w') (renderers : w'.renderers = w.renderers)
      (loads : w'.loads = w.loads) (log : w'.log = w.log) : Change ok new w w'
  | record (w : World Ω) {r : Record} (hr : ok r) : Change ok new w (w.record r)
  | update (w : World Ω) (i : Nat) {f : Renderer Ω → Renderer Ω}
      (cache : ∀ r, (f r).cache = r.cache) (policy : ∀ r, (f r).policy = r.policy)
      (plain : ∀ r, r.Plain ok → (f r).Plain ok) : Change ok new w (w.update i f)
  | create (w : World Ω) {r : Renderer Ω} (cache : r.cache = {}) (plain : r.Plain ok) :
      Change ok new w (w.addRenderer r)
  | flush {w : World Ω} {i : Nat} {r : Renderer Ω} (hr : w.renderer? i = some r) :
      Change ok new w
        (((w.note (.flushed i)).record (.flushing r.cache.size)).update i Renderer.flush)
  | opened {w : World Ω} {i : Nat} {r : Renderer Ω} {name : String} (hr : w.renderer? i = some r)
      (hn : r.cache.entries.get? name = none) (may : new i name) :
      Change ok new w (w.opened i r name)
  | enter (w : World Ω) (load : Nat) : Change ok new w { w with loads := w.loads.enter load }
  | leave (w : World Ω) (load : Nat) {found : Option (LoadResult (Template Ω))}
      (plain : ∀ r, found = some r → LoadResult.Plain ok r) :
      Change ok new w { w with loads := w.loads.leave load found }
  | look {w : World Ω} {load : Nat} (pending : (w.loads.poll load).1 = none) :
      Change ok new w (w.look load)
  | release (w : World Ω) (gate : String) :
      Change ok new w { w with loads := (w.loads.release gate).2 }
  | settle {w : World Ω} {p : Pending} {b : Binding} {result : LoadResult (Template Ω)}
      (hb : p.binding = some b) (hi : w.Issued p.renderer p.name b)
      (hr : (w.loads.poll b.load).1 = some result) : Change ok new w (w.settle p b result)

/-- What an operation does after it has run code, which led from `w` to `u`. A load that is handed
over or given up then was reserved on the way, and work that panicked was there before. -/
inductive Late (ok : Record → Prop) (w u : World Ω) : World Ω → Prop
  | start {load : Nat} {h : Handover Ω} (fresh : w.loads.slots.length ≤ load) (plain : h.Plain ok) :
      Late ok w u { u with loads := u.loads.start load h.work h.plan }
  | orphan {load : Nat} (fresh : w.loads.slots.length ≤ load) :
      Late ok w u { u with loads := u.loads.orphan load }
  | poison {load : Nat} {work : Work Ω} (working : w.loads.worker load = .idle work) :
      Late ok w u { u with loads := u.loads.poison load }

theorem Change.later (c : Change ok new w w') : w.Later w' := by
  cases c with
  | still later => exact later
  | record => exact later_record ..
  | update i cache policy => exact later_update cache policy w i
  | create cache => exact (Move.create w cache).later fun _ h => h
  | @flush i r hr => exact (later_record w _).trans ((Move.flush _ i).later fun _ h => h)
  | opened hr hn _ => exact later_opened hr hn
  | enter load => exact later_loads (Loads.results_enter ..)
  | leave load => exact later_loads (Loads.results_leave ..)
  | look pending => exact later_loads (Loads.results_poll_of_none pending)
  | release gate => exact later_loads (Loads.results_release ..)
  | @settle p b result hb hi hr =>
    exact (Move.receive hb hi hr).later fun q => (holds_settle w p b result q).mp

theorem Late.later (l : Late ok w u u') : u.Later u' := by
  cases l with
  | start => exact later_loads (Loads.results_start ..)
  | orphan => exact later_loads (Loads.results_orphan ..)
  | poison => exact later_loads (Loads.results_poison ..)

-- ---------------------------------------------------------------------------
-- Plain code
-- ---------------------------------------------------------------------------

theorem Plain.modify (h : w.Plain ok) {f : Renderer Ω → Renderer Ω}
    (hf : ∀ r, r.Plain ok → (f r).Plain ok) (i : Nat) :
    ∀ r ∈ w.renderers.modify i f, r.Plain ok :=
  forall_mem_modify h.renderers hf i

theorem Plain.helpers (h : w.Plain ok) (i : Nat) :
    ∀ e ∈ (((w.renderer? i).map (·.helpers)).getD .empty : HelperTable Ω).entries,
      Helper.Plain ok e.2 := by
  cases hr : w.renderer? i with
  | none => simp [HelperTable.empty]
  | some r => exact (h.renderers r (List.mem_of_getElem? hr)).helpers

theorem Plain.setCache (h : w.Plain ok) (i : Nat) (cache : Cache Nat) :
    (w.setCache i cache).Plain ok :=
  ⟨h.modify (f := fun r => { r with cache := cache }) (fun _ hr => ⟨hr.helpers, hr.loader⟩) i,
    h.loads⟩

theorem Plain.evictFailed (h : w.Plain ok) (p : Pending) (b : Binding) :
    (evictFailed p b w).Plain ok := by
  rcases evictFailed_cases p b w with ⟨hw, -⟩ | ⟨r, -, -, -, hw⟩
  · rwa [hw]
  · rw [hw]
    exact ⟨(h.setCache _ _).renderers, h.loads⟩

theorem Change.plain (c : Change ok new w w') (h : w.Plain ok) : w'.Plain ok := by
  cases c with
  | still _ renderers loads => exact ⟨renderers ▸ h.renderers, loads ▸ h.loads⟩
  | record => exact ⟨h.renderers, h.loads⟩
  | update i _ _ plain => exact ⟨h.modify plain i, h.loads⟩
  | create _ plain =>
    exact ⟨List.forall_mem_append.mpr ⟨h.renderers, by simpa using plain⟩, h.loads⟩
  | @flush i r hr =>
    exact ⟨h.modify (f := Renderer.flush) (fun _ hr => ⟨hr.helpers, hr.loader⟩) i, h.loads⟩
  | @opened i r name hr hn _ => exact ⟨(h.setCache i _).renderers, h.loads.reserve⟩
  | enter load => exact ⟨h.renderers, h.loads.enter load⟩
  | leave load plain => exact ⟨h.renderers, h.loads.leave plain load⟩
  | @look load => exact ⟨h.renderers, h.loads.poll load⟩
  | release gate => exact ⟨h.renderers, h.loads.release gate⟩
  | @settle p b result hb hi hr =>
    have looked : ((w.look b.load).note (.received p result)).Plain ok :=
      ⟨h.renderers, h.loads.poll b.load⟩
    cases result with
    | error e => exact looked.evictFailed p b
    | ok t => exact looked

theorem Late.plain (l : Late ok w u u') (h : u.Plain ok) : u'.Plain ok := by
  cases l with
  | start _ plain => exact ⟨h.renderers, h.loads.start plain.plan plain.work _⟩
  | orphan => exact ⟨h.renderers, h.loads.orphan (LoadResult.plain_error _) _⟩
  | poison => exact ⟨h.renderers, h.loads.poison _⟩

-- ---------------------------------------------------------------------------
-- Relations that operations stay in
-- ---------------------------------------------------------------------------

/-- A relation that has all changes in it, and that goes on from one world to the next. All worlds
that it leads to from `w₀` are reached, and all code in them is plain. -/
structure Tracks (ok : Record → Prop) (new : Nat → String → Prop)
    (S : World Ω → World Ω → Prop) (w₀ : World Ω) : Prop where
  refl : ∀ w, S w w
  trans : ∀ {w w₁ w₂}, S w w₁ → S w₁ w₂ → S w w₂
  later : ∀ {w w'}, S w w' → w.Later w'
  change : ∀ {w w'}, Change ok new w w' → S w w'
  late : ∀ {w u u'}, S w u → Late ok w u u' → S w u'
  ok_of : ∀ r : Record, r.ofCache = false → ok r
  reached : ∀ {w}, S w₀ w → w.Reached
  plain : ∀ {w}, S w₀ w → w.Plain ok

theorem tracks_later {w₀ : World Ω} (h₀ : w₀.Reached) :
    Tracks (fun _ => True) (fun _ _ => True) Later w₀ where
  refl := .refl
  trans := .trans
  later h := h
  change := Change.later
  late h l := h.trans l.later
  ok_of _ _ := trivial
  reached h := h.reached h₀
  plain {w} _ := w.plain_of_forall fun _ => trivial

theorem tracks_run : Tracks (fun _ => True) (fun _ _ => True) (Later (Ω := Ω)) {} :=
  tracks_later (.refl {})

end World
end Stencil
