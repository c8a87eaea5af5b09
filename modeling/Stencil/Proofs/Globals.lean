import Stencil.Proofs.Overlay
import Stencil.Session

/-!
# Global data

Global data are entries that are set one by one, and a render sees them with its own data set over
them. So keys stand where they first came, global ones before those of the data, and values are
those that came last (`globals_merge`). What is looked at stays as it is.
-/

namespace Stencil

namespace Renderer

variable {Ω : Type}

def setGlobals (r : Renderer Ω) (sets : Entries Value) : Renderer Ω :=
  sets.foldl (fun r e => r.setGlobal e.1 e.2) r

theorem globals_setGlobals (r : Renderer Ω) (sets : Entries Value) :
    (r.setGlobals sets).globals = r.globals.overlay sets := by
  induction sets generalizing r with
  | nil => rfl
  | cons e rest ih => exact ih (r.setGlobal e.1 e.2)

theorem addGlobals_of_object (r : Renderer Ω) (data : Entries Value) :
    r.addGlobals (some (.object data)) = r.globals.overlay data := rfl

theorem addGlobals_of_other (r : Renderer Ω) {data : Option Value}
    (h : ∀ entries, data ≠ some (.object entries)) : r.addGlobals data = r.globals := by
  unfold addGlobals
  split
  · rename_i entries
    exact absurd rfl (h entries)
  · rfl

end Renderer

namespace Session

variable {host : SessionHost} {w : World Op} {handle : Nat} {r : Renderer Op}

/-- The world after entries were set as global data through a handle, one by one. -/
def setAll (host : SessionHost) (w : World Op) (handle : Nat) (sets : Entries Value) : World Op :=
  sets.foldl (fun w e => (step host w (.setGlobal handle e.1 e.2)).2) w

theorem renderer?_setGlobal (hr : w.renderer? (resolve w handle) = some r) (key : String)
    (v : Value) :
    let w' := (step host w (.setGlobal handle key v)).2
    w'.renderer? (resolve w' handle) = some (r.setGlobal key v) := by
  intro w'
  have same : resolve w' handle = resolve w handle := by
    simp only [w', step, change, World.update, resolve, List.length_modify]
  rw [same]
  unfold World.renderer? at hr
  simp only [w', step, change, World.update, World.renderer?, List.getElem?_modify_eq, hr]
  rfl

theorem renderer?_setAll (hr : w.renderer? (resolve w handle) = some r) (sets : Entries Value) :
    (setAll host w handle sets).renderer? (resolve (setAll host w handle sets) handle) =
      some (r.setGlobals sets) := by
  induction sets generalizing w r with
  | nil => exact hr
  | cons e rest ih => exact ih (renderer?_setGlobal hr e.1 e.2)

theorem step_addGlobals (hr : w.renderer? (resolve w handle) = some r) (data : Option Value) :
    step host w (.addGlobals handle data) = (.context (r.addGlobals data), w) := by
  rw [step, view, hr]
  rfl

/-- What is set as global data, and what data see of it. The global data have their keys in the
order in which these were first set, behind the ones that were there from the start, and hold under
each what was set last. Data that are no object see just that. An object of data stands over it: its
new keys follow in their order, and its values count under all of its keys, as wholes. No key stands
twice, and the global data stay as they are. So to set an object as global data, one entry after the
other, is to have it below the data of each render. -/
theorem globals_merge (hr : w.renderer? (resolve w handle) = some r)
    (first : r.globals.keys.Nodup) (sets : Entries Value) :
    let w' := setAll host w handle sets
    ∃ g : Context,
      g.keys = (r.globals.keys ++ Entries.keys sets).eraseDups ∧ g.keys.Nodup ∧
      (∀ key, g.get? key = (Entries.get? sets.reverse key).or (r.globals.get? key)) ∧
      (∀ data, (∀ entries, data ≠ some (.object entries)) →
        step host w' (.addGlobals handle data) = (.context g, w')) ∧
      (∀ entries : Entries Value, entries.keys.Nodup → ∃ merged : Context,
        step host w' (.addGlobals handle (some (.object entries))) = (.context merged, w') ∧
        merged.keys = g.keys ++ entries.keys.filter (fun key => key ∉ g.keys) ∧
        merged.keys.Nodup ∧ ∀ key, merged.get? key = (entries.get? key).or (g.get? key)) ∧
      ∀ below data : Entries Value, below.keys.Nodup →
        (step host (setAll host w' handle below) (.addGlobals handle (some (.object data)))).1 =
          (step host w' (.addGlobals handle (some (.object (below.overlay data))))).1 := by
  intro w'
  have hr' : w'.renderer? (resolve w' handle) = some (r.setGlobals sets) := renderer?_setAll hr sets
  have globals := r.globals_setGlobals sets
  have distinct : (r.setGlobals sets).globals.keys.Nodup := by
    rw [globals]
    exact Entries.nodup_keys_overlay first sets
  refine ⟨(r.setGlobals sets).globals, ?_, distinct, fun key => ?_, fun data hd => ?_,
    fun entries he => ⟨_, step_addGlobals hr' _, ?_, ?_, fun key => ?_⟩, fun below data hb => ?_⟩
  · rw [globals, Entries.keys_overlay_eq_eraseDups first]
  · rw [globals, Entries.get?_overlay]
  · rw [step_addGlobals hr', Renderer.addGlobals_of_other _ hd]
  · exact Entries.keys_overlay_of_nodup _ he
  · exact Entries.nodup_keys_overlay distinct entries
  · rw [Renderer.addGlobals_of_object, Entries.get?_overlay, Entries.get?_reverse he]
  · rw [step_addGlobals (renderer?_setAll hr' below), step_addGlobals hr',
      Renderer.addGlobals_of_object, Renderer.addGlobals_of_object, Renderer.globals_setGlobals,
      Entries.overlay_overlay _ hb]

-- ---------------------------------------------------------------------------
-- A world to look at
-- ---------------------------------------------------------------------------

def german : Renderer Op :=
  .ofConfig { globals := [("title", .string "old"), ("lang", .string "de")] }

theorem globals_merge_page :
    let w := World.addRenderer {} german
    let w' := setAll (hostAt 1) w 0
      [("nav", .object [("top", .null)]), ("title", .string "new"), ("nav", .bool true)]
    let data : Entries Value := [("page", .null), ("title", .object [])]
    w.renderer? (resolve w 0) = some german ∧ german.globals.keys.Nodup ∧ data.keys.Nodup ∧
      ∃ merged : Context, step (hostAt 1) w' (.addGlobals 0 (some (.object data))) =
          (.context merged, w') ∧
        merged.keys = ["title", "lang", "nav", "page"] ∧ merged.get? "title" = some (.object []) ∧
        merged.get? "nav" = some (.bool true) := by
  intro w w' data
  have there : w.renderer? (resolve w 0) = some german := by rfl
  have first : german.globals.keys.Nodup := by decide
  have distinct : data.keys.Nodup := by decide
  obtain ⟨g, hk, -, hg, -, merge, -⟩ := globals_merge there first
    [("nav", .object [("top", .null)]), ("title", .string "new"), ("nav", .bool true)]
  obtain ⟨merged, hs, hm, -, get⟩ := merge data distinct
  have keys : g.keys = ["title", "lang", "nav"] := hk.trans (by decide)
  refine ⟨there, first, distinct, merged, hs, ?_, get "title", ?_⟩
  · rw [hm, keys]
    decide
  · rw [get "nav", hg "nav"]
    rfl

end Session
end Stencil
