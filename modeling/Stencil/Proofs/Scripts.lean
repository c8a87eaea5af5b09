import Stencil.Proofs.Calls
import Stencil.Proofs.Plain
import Stencil.Session

/-!
# Scripts and libraries are plain

The code that a session brings into its world. Scripts log nothing. What is loaded from a library
logs that there is no source, or that a source failed, and nothing else. So all of it is plain as
soon as these two records are `ok`.
-/

namespace Stencil

variable {Ω α : Type} {ok : Record → Prop}

-- ---------------------------------------------------------------------------
-- Code whose calls are known
-- ---------------------------------------------------------------------------

def Call.IsPlain (ok : Record → Prop) : Call Ω → Prop
  | .log r => ok r
  | _ => True

theorem Code.within_of_makes {good : α → Prop} {c : Code Ω α}
    (h : c.Makes (Call.IsPlain ok) good) : c.Within ok good := by
  induction c with
  | done a => exact h
  | panic => trivial
  | log r next ih => exact ⟨h.1, ih h.2⟩
  | perform op next ih => exact fun a => ih a (h.2 a)
  | names next ih => exact fun names => ih names (h.2 names)
  | dispatch this name args next ih => exact fun text => ih text (h.2 text)

theorem Template.plain_of_makes {t : Template Ω} (h : t.Makes (Call.IsPlain ok)) : t.Plain ok := by
  induction h with
  | mk hbody _ ih => exact .mk (fun context => Code.within_of_makes (hbody context)) ih

theorem Script.allowed_isPlain : Script.Allowed (Call.IsPlain ok : Call Ω → Prop) :=
  ⟨trivial, fun _ => trivial, fun _ => trivial⟩

theorem Script.plain_helper (e : Script Ω) : Helper.Plain ok e.helper :=
  fun this args => Code.within_of_makes (makes_eval allowed_isPlain ⟨this, args, none⟩ e)

theorem Draft.plain_template (d : Draft Ω) : d.template.Plain ok :=
  Template.plain_of_makes (d.makes_template Script.allowed_isPlain)

-- ---------------------------------------------------------------------------
-- What operations register
-- ---------------------------------------------------------------------------

theorem Renderer.Plain.registerHelper {r : Renderer Ω} (h : r.Plain ok) {helper : Helper Ω}
    (hh : Helper.Plain ok helper) (name : String) : (r.registerHelper name helper).Plain ok := by
  refine ⟨fun e he => ?_, h.loader⟩
  rcases Entries.mem_insert he with rfl | he
  · exact hh
  · exact h.helpers e he

theorem Helper.plain_escape : Helper.Plain ok (Helper.escape : Helper Ω) := fun _ _ => trivial

theorem HelperSource.plain_helper (h : HelperSource Ω) : Helper.Plain ok h.helper := by
  cases h with
  | escape => exact Helper.plain_escape
  | script e => exact e.plain_helper

theorem Renderer.plain_ofConfig (c : Config) : (Renderer.ofConfig c : Renderer Ω).Plain ok := by
  have empty : ({} : Renderer Ω).Plain ok := ⟨by simp, nofun⟩
  refine ⟨?_, nofun⟩
  unfold Renderer.ofConfig
  simp only
  split
  · exact (empty.registerHelper Helper.plain_escape Helper.escapeName).helpers
  · exact empty.helpers

theorem Draft.plain_ready (o : Outcome (Draft Ω)) :
    LoadResult.Plain ok (o.map Draft.template).ready.offer := by
  intro t ht
  cases o <;> cases ht
  exact plain_template _

theorem Draft.plain_callback (o : Outcome (Draft Ω)) :
    LoadResult.Plain ok (o.map Draft.template).callback.offer := by
  intro t ht
  cases o <;> cases ht
  exact plain_template _

theorem Draft.plain_plan (plan : Plan (Draft Ω)) :
    ∀ e ∈ (plan.map Draft.template).events, LoadResult.Plain ok e.offer := by
  intro e he
  cases plan with
  | future f =>
    obtain rfl := List.mem_singleton.mp he
    exact plain_ready f.outcome
  | callback c =>
    obtain rfl := List.mem_singleton.mp he
    exact plain_callback c.outcome
  | dual c f =>
    rcases List.mem_cons.mp he with rfl | he
    · cases c with
      | none => exact LoadResult.plain_error _
      | some c => exact plain_callback c.outcome
    · cases f with
      | none => cases he
      | some f =>
        obtain rfl := List.mem_singleton.mp he
        exact plain_ready f.outcome

theorem Attempt.within_code (a : Attempt Ω) : a.code.Within ok (Handover.Plain ok) := by
  refine Code.within_performAll ?_ a.ops
  split
  · exact ⟨Draft.plain_plan _, nofun⟩
  · trivial

theorem LoaderScript.plain_loader (s : LoaderScript Ω) (counter : String) :
    (s.loader counter).Plain ok :=
  fun _ _ => Attempt.within_code _

theorem Markup.Library.plain_loader (hok : ∀ r : Record, r.ofCache = false → ok r)
    (l : Markup.Library) : (l.loader : Loader Ω).Plain ok := by
  intro before name
  have allowed : Markup.Allowed (Call.IsPlain ok : Call Ω → Prop) :=
    ⟨trivial, fun _ => trivial, fun _ _ => hok _ rfl, fun _ => hok _ rfl⟩
  have loaded := Code.within_of_makes (makes_load allowed l name)
  refine Code.Within.bind loaded fun outcome h => ⟨fun e he t ht => ?_, nofun⟩
  obtain rfl := List.mem_singleton.mp he
  exact Template.plain_of_makes (h t (Outcome.eq_template ht))

end Stencil
