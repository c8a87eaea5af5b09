import Stencil.Proofs.Calls
import Stencil.Proofs.Plain

/-!
# Mute code

Mute code performs no operation, and all code that it hands on is mute in turn. All that is left of
a run of mute code is what it gives and the records that it logs, and neither depends on the world
in which it runs (`Code.run_aside`). A world is mute if all code in it is.
-/

namespace Stencil

variable {Ω α : Type}

def LoadResult.Mute (r : LoadResult (Template Ω)) : Prop := ∀ t, r = .ok (some t) → t.Mute

def Work.Mute (work : Work Ω) : Prop :=
  work.Makes Call.IsMute fun found => ∀ r, found = some r → LoadResult.Mute r

structure Handover.Mute (h : Handover Ω) : Prop where
  plan : ∀ e ∈ h.plan.events, LoadResult.Mute e.offer
  work : ∀ work, h.work = some work → Work.Mute work

def Loader.Mute (l : Loader Ω) : Prop :=
  ∀ before name, (l.load before name).Makes Call.IsMute Handover.Mute

def HelperTable.Mute (t : HelperTable Ω) : Prop := ∀ e ∈ t.entries, Helper.Mute e.2

structure Renderer.Mute (r : Renderer Ω) : Prop where
  helpers : r.helpers.Mute
  loader : ∀ l, r.loader = some l → l.Mute

structure World.Mute (w : World Ω) : Prop where
  renderers : ∀ r ∈ w.renderers, r.Mute
  loads : w.loads.All LoadResult.Mute Work.Mute

theorem LoadResult.mute_error (e : LoadError) :
    LoadResult.Mute (.error e : LoadResult (Template Ω)) := by
  rintro t ⟨⟩

theorem HelperTable.mute_empty : (HelperTable.empty : HelperTable Ω).Mute := by
  simp [HelperTable.Mute, HelperTable.empty]

theorem HelperTable.Mute.register {t : HelperTable Ω} (ht : t.Mute) {helper : Helper Ω}
    (hh : helper.Mute) (name : String) : (t.register name helper).Mute := by
  intro e he
  rcases Entries.mem_insert he with rfl | he
  · exact hh
  · exact ht e he

theorem Helper.mute_escape : Helper.Mute (Helper.escape : Helper Ω) := fun _ _ => trivial

theorem Renderer.mute_ofConfig (c : Config) : (Renderer.ofConfig c : Renderer Ω).Mute := by
  refine ⟨?_, nofun⟩
  unfold Renderer.ofConfig
  simp only
  split
  · exact HelperTable.mute_empty.register Helper.mute_escape Helper.escapeName
  · exact HelperTable.mute_empty

theorem World.mute_empty : ({} : World Ω).Mute := ⟨by simp, ⟨by simp, by simp, by simp⟩⟩

theorem Markup.Library.mute_loader (l : Markup.Library) : (l.loader : Loader Ω).Mute := by
  intro before name
  have allowed : Markup.Allowed (Call.IsMute : Call Ω → Prop) :=
    ⟨trivial, fun _ => trivial, fun _ _ => trivial, fun _ => trivial⟩
  refine (makes_load allowed l name).bind fun outcome h => ⟨fun e he t ht => ?_, nofun⟩
  obtain rfl := List.mem_singleton.mp he
  exact h t (Outcome.eq_template ht)

-- ---------------------------------------------------------------------------
-- Runs
-- ---------------------------------------------------------------------------

namespace World

def logged (w : World Ω) (rs : List Record) : World Ω := { w with log := w.log ++ rs }

theorem logged_nil (w : World Ω) : w.logged [] = w := by simp [logged]

theorem logged_logged (w : World Ω) (rs ss : List Record) :
    (w.logged rs).logged ss = w.logged (rs ++ ss) := by
  simp [logged]

end World

def Host.Logs (host : Host Ω (World Ω)) : Prop := ∀ r w, host.log r w = w.record r

/-- Two dispatchers of which the one does to the log of a world what the other does to a log that
stands on its own, and nothing else. -/
structure Dispatcher.Aside (d : Dispatcher (World Ω)) (d' : Dispatcher (List Record)) : Prop where
  names : d.names = d'.names
  dispatch : ∀ this name args (w : World Ω) rs, d.dispatch this name args (w.logged rs) =
    ((d'.dispatch this name args rs).1, w.logged (d'.dispatch this name args rs).2)

theorem Dispatcher.aside_none : (Dispatcher.none : Dispatcher (World Ω)).Aside .none :=
  ⟨rfl, fun _ _ _ _ _ => rfl⟩

theorem Code.good_of_run {σ : Type} {host : Host Ω σ} {d : Dispatcher σ} {allow : Call Ω → Prop}
    {good : α → Prop} {c : Code Ω α} (hc : c.Makes allow good) {s : σ} {a : α}
    (h : (c.run host d s).1 = some a) : good a := by
  induction c generalizing s with
  | done b =>
    cases h
    exact hc
  | panic => cases h
  | log r next ih => exact ih hc.2 h
  | perform op next ih => exact ih _ (hc.2 _) h
  | names next ih => exact ih _ (hc.2 _) h
  | dispatch this name args next ih => exact ih _ (hc.2 _) h

section

variable {host : Host Ω (World Ω)} (hl : host.Logs)

include hl

/-- What mute code gives, and what it logs, it gives and logs in any world. -/
theorem Code.run_aside {d : Dispatcher (World Ω)} {d' : Dispatcher (List Record)} (hd : d.Aside d')
    {good : α → Prop} {c : Code Ω α} (hc : c.Makes Call.IsMute good) (w : World Ω)
    (rs : List Record) :
    c.run host d (w.logged rs) = ((c.run .logging d' rs).1, w.logged (c.run .logging d' rs).2) := by
  induction c generalizing rs with
  | done a => rfl
  | panic => rfl
  | log r next ih =>
    have logged : host.log r (w.logged rs) = w.logged (rs ++ [r]) := by
      rw [hl]
      exact w.logged_logged rs [r]
    simp only [run, logged]
    exact ih hc.2 _
  | perform op next ih => exact hc.1.elim
  | names next ih =>
    simp only [run, hd.names]
    exact ih _ (hc.2 _) rs
  | dispatch this name args next ih =>
    simp only [run, hd.dispatch]
    exact ih _ (hc.2 _) _

theorem HelperTable.aside_dispatcher {t : HelperTable Ω} (ht : t.Mute) :
    (t.dispatcher host).Aside (t.dispatcher .logging) := by
  refine ⟨rfl, fun this name args w rs => ?_⟩
  simp only [dispatcher, dispatch]
  cases hh : t.get? name with
  | none => rfl
  | some helper =>
    have mute : Helper.Mute helper := ht _ (Entries.mem_of_get? hh)
    simp only [call, Code.run_aside hl Dispatcher.aside_none (mute this args)]
    generalize (helper this args).run .logging .none rs = x
    obtain ⟨a, rs⟩ := x
    match a with
    | some (.ok v) => rfl
    | some (.error e) =>
      simp only [hl _ _]
      exact congrArg _ (w.logged_logged rs [_])
    | none =>
      simp only [hl _ _]
      exact congrArg _ (w.logged_logged rs [_])

theorem Template.run_aside {t : Template Ω} (ht : t.Mute) {helpers : HelperTable Ω}
    (hh : helpers.Mute) (context : Value) (w : World Ω) :
    t.run host helpers context w =
      ((t.run .logging helpers context []).1, w.logged (t.run .logging helpers context []).2) := by
  have ran := Code.run_aside hl (HelperTable.aside_dispatcher hl hh) (ht.body context) w []
  rw [w.logged_nil] at ran
  simp only [run, call, ran]
  generalize (t.body context).run .logging (helpers.dispatcher .logging) [] = x
  obtain ⟨a, rs⟩ := x
  cases a <;> rfl

end

end Stencil
