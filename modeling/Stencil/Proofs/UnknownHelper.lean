import Mathlib
import Stencil.Proofs.Markup.CarefulRender
import Stencil.Proofs.Renders

/-!
# Calls of helpers that nobody registered

A template that calls a helper which is not in the table fails there, and with it all of the output
is lost; a helper that fails prints nothing, and the rest goes on. Until such a call is reached the
two cannot be told apart. This is so with every engine to which unknown functions are failures.
-/

namespace Stencil

variable {Ω α β σ : Type} {host : Host Ω σ} {helpers : HelperTable Ω} {h : String}

-- ---------------------------------------------------------------------------
-- Tables
-- ---------------------------------------------------------------------------

namespace HelperTable

theorem get?_register_of_ne (helpers : HelperTable Ω) (helper : Helper Ω) {name : String}
    (hn : name ≠ h) : (helpers.register h helper).get? name = helpers.get? name :=
  (Entries.get?_insert ..).trans (if_neg hn.symm)

theorem notMem_names (hh : helpers.contains h = false) : h ∉ helpers.names := fun mem => by
  have known : helpers.contains h = true := (Entries.get?_isSome_iff ..).mpr mem
  simp [hh] at known

theorem names_register (hh : helpers.contains h = false) (helper : Helper Ω) :
    (helpers.register h helper).names = helpers.names ++ [h] :=
  (Entries.keys_insert ..).trans (if_neg (notMem_names hh))

theorem dispatch_register_of_ne (helpers : HelperTable Ω) (helper : Helper Ω) {name : String}
    (hn : name ≠ h) (this : Value) (args : List Value) (s : σ) :
    (helpers.register h helper).dispatch host this name args s =
      helpers.dispatch host this name args s := by
  simp only [dispatch, get?_register_of_ne helpers helper hn]

end HelperTable

/-- A helper that never gives a value which counts as true. -/
def Helper.Fails (host : Host Ω σ) (helper : Helper Ω) : Prop :=
  ∀ this args s v, (HelperTable.call host helper this args s).1 = .value v → v.isTruthy = false

theorem Helper.Fails.dispatch {helper : Helper Ω} (hf : helper.Fails host)
    (helpers : HelperTable Ω) (h : String) (this : Value) (args : List Value) (s : σ) :
    ((helpers.register h helper).dispatch host this h args s).1 = "" := by
  have hget : (helpers.register h helper).get? h = some helper :=
    (Entries.get?_insert ..).trans (if_pos rfl)
  simp only [HelperTable.dispatch, hget]
  split
  · rename_i v _ hv
    simp [hf this args s v (congrArg (·.1) hv)]
  · rfl
  · rfl

-- ---------------------------------------------------------------------------
-- Runs with a function and without it
-- ---------------------------------------------------------------------------

namespace Markup.Rendering.Until

variable {ε : Type} {c c' : Rendering (Except ε α)} {d d' : Dispatcher σ} {context : Value}

/-- Until it is called, it makes no difference whether a function is registered. -/
theorem run_eq (hc : c.Until (· = h) Eq c')
    (same : ∀ name, name ≠ h → d'.dispatch context name = d.dispatch context name) {s : σ}
    (unmet : ∀ call ∈ c'.calls d' context s, call.helper ≠ h) :
    c.run d context s = c'.run d' context s := by
  induction hc generalizing s with
  | failed f => rfl
  | done h => exact h ▸ rfl
  | call known _ ih =>
    obtain ⟨-, unmet⟩ := List.forall_mem_cons.mp unmet
    simp only [run, ← same _ known]
    exact ih _ unmet
  | called f args next hn => exact absurd hn (List.forall_mem_cons.mp unmet).1

theorem run_failed (hc : c.Until (· = h) Eq c')
    (same : ∀ name, name ≠ h → d'.dispatch context name = d.dispatch context name) {s : σ}
    (met : ∃ call ∈ c'.calls d' context s, call.helper = h) :
    ∃ f s', c.run d context s = (.error f, s') := by
  induction hc generalizing s with
  | failed f => exact ⟨f, s, rfl⟩
  | done h => exact absurd met (by simp [calls])
  | call known _ ih =>
    simp only [calls, List.exists_mem_cons_iff] at met
    simp only [run, ← same _ known]
    exact ih _ (met.resolve_left known)
  | called f args next hn => exact ⟨f, s, rfl⟩

end Markup.Rendering.Until

open Markup

-- ---------------------------------------------------------------------------
-- Unknown helpers and failing ones
-- ---------------------------------------------------------------------------

/-- A render that never comes upon an unknown helper goes as if there was one that always fails.
Otherwise it prints nothing at all and logs the failure, where the calls of a failing helper alone
would print nothing. So the two print the same text only in these cases: the helper is not called,
or nothing is printed even if it is known. -/
theorem unknown_helper_ends_output (host : Host Ω σ) {l : Library} {own : String → Prop}
    {onlyCall : Entries String → String → Prop} (engine : l.settings.FailsUnknown own onlyCall)
    {h name : String} (hown : ¬ own h) (only : onlyCall l.sources h) {helpers : HelperTable Ω}
    (hh : helpers.contains h = false) {helper : Helper Ω} (hf : helper.Fails host)
    {tmpl part : Template Ω} (hload : l.load name = .done (.template tmpl)) {block : Option String}
    (hpart : tmpl.part block = some part) (context : Value) (unbound : context.field? h = none)
    (s : σ) :
    let extended := helpers.register h helper
    let met := ∃ call ∈ (part.body context).dispatched host (extended.dispatcher host) s,
      call.helper = h
    let plain := part.run host helpers context s
    let failing := part.run host extended context s
    (¬ met → plain = failing) ∧
    (met → plain.1 = some "" ∧ ∃ f s', plain.2 = host.log (.engineFailed name f) s') ∧
    (plain.1 = failing.1 ↔ ¬ met ∨ failing.1 = some "") ∧
    ∀ this args s, (extended.dispatch host this h args s).1 = "" := by
  intro extended met plain failing
  obtain ⟨source, -, -, rfl⟩ := Library.template_of_load hload
  have hb := Library.body_of_part hpart
  have goes : (l.rendering helpers.names name block context).Until (· = h) Eq
      (l.rendering extended.names name block context) := by
    rw [show extended.names = _ from HelperTable.names_register hh helper]
    exact engine.renderPart ⟨l.sources, helpers.names, name, context⟩ hown only unbound
      (HelperTable.notMem_names hh) block
  have others (other : String) (hn : other ≠ h) :
      (extended.dispatcher host).dispatch context other =
        (helpers.dispatcher host).dispatch context other := by
    funext args s
    exact helpers.dispatch_register_of_ne helper hn context args s
  have same (unmet : ¬ met) : plain = failing := by
    have ran := goes.run_eq others (s := s) fun call hc he => unmet
      ⟨call, by rwa [Library.dispatched_of_body hb], he⟩
    simp only [plain, failing, Library.run_of_body hb, ran]
  have lost (hmet : met) :
      plain.1 = some "" ∧ ∃ f s', plain.2 = host.log (.engineFailed name f) s' := by
    simp only [met, Library.dispatched_of_body hb] at hmet
    obtain ⟨f, s', ran⟩ := goes.run_failed others hmet
    simp only [plain, Library.run_of_body hb, ran]
    exact ⟨trivial, f, s', rfl⟩
  refine ⟨same, lost, ⟨fun heq => ?_, ?_⟩, hf.dispatch helpers h⟩
  · by_cases hmet : met
    · exact .inr (heq.symm.trans (lost hmet).1)
    · exact .inl hmet
  · rintro (unmet | hnone)
    · rw [same unmet]
    · by_cases hmet : met
      · rw [(lost hmet).1, hnone]
      · rw [same hmet]

-- ---------------------------------------------------------------------------
-- A page to look at
-- ---------------------------------------------------------------------------

def callingSource : String := "a\x7b\x7b nope(1) \x7d\x7db"

def callingPage (name : String) : Library :=
  { settings := ({} : Settings), sources := [(name, callingSource)] }

def callingSyntax : Syntax :=
  ⟨[.text "a", .emit (.call (.var "nope") [(none, .lit (.int 1))]), .text "b"], []⟩

def callingTemplate : Template Unit := (callingPage "t").template "t" callingSource

def refusal : Helper Unit := fun _ _ => .done (.error (.message "no"))

set_option maxRecDepth 100000 in
theorem read_callingSource : Syntax.read {} callingSource = .ok callingSyntax := by
  have tokens : Token.ofSource {} callingSource =
      [.text ['a'], .openVariable, .name "nope", .sign .openParen, .int 1, .sign .closeParen,
        .closeVariable, .text ['b']] := by decide +kernel
  unfold Syntax.read
  rw [tokens]
  cbv

theorem onlyCall_callingPage : ({} : Settings).OnlyCall (· = "nope") (callingPage "t").sources := by
  intro name source t hs ht
  have hs : source = callingSource := by
    obtain ⟨-, rfl⟩ := Prod.mk.inj (List.mem_singleton.mp (Entries.mem_of_get? hs))
    rfl
  rw [hs] at ht
  cases read_callingSource.symm.trans ht
  have none : callingSyntax.mentions = [] := by decide
  simp [Spared, none]

theorem source_callingPage (name : String) :
    (callingPage name).source? name = some callingSource :=
  if_pos rfl

theorem compile_callingPage (name : String) :
    (callingPage name).settings.compile name callingSource = .ok () := by
  rw [show (callingPage name).settings = Settings.environment {} from rfl,
    Settings.compile_eq_ok_iff]
  exact ⟨_, read_callingSource⟩

theorem load_callingPage (name : String) : (callingPage name).load name =
    (Code.done (.template ((callingPage name).template name callingSource)) :
      Code Unit (Outcome (Template Unit))) := by
  rw [Library.load_of_source (source_callingPage name),
    Library.compiled_of_ok (compile_callingPage name)]

theorem rendering_callingPage (name : String) (functions : List String) (context : Value) :
    let setup : Setup := ⟨⟨(callingPage name).sources, functions, name, context⟩, {}⟩
    (callingPage name).rendering functions name none context =
      Engine.printedBy (Engine.render (Engine.levels setup) callingSyntax.body setup
        (Engine.start setup callingSyntax)) := by
  intro setup
  have read : Engine.whole setup = Engine.render (Engine.levels setup) callingSyntax.body setup
      (Engine.start setup callingSyntax) :=
    Engine.whole_of_read setup (source_callingPage name) read_callingSource
  rw [← read]
  exact Library.rendering_environment {} [(name, callingSource)] functions name context

theorem body_callingTemplate : callingTemplate.body = (callingPage "t").bodyOf "t" none :=
  Library.body_template ..

theorem unknown_helper_ends_output_page :
    (callingTemplate.run Host.logging .empty .null []).1 = some "" := by
  have fails : refusal.Fails Host.logging := fun _ _ _ _ h => by cases h
  have unknown : (HelperTable.empty : HelperTable Unit).contains "nope" = false := rfl
  have whole : callingTemplate.part none = some callingTemplate := rfl
  obtain ⟨-, lost, -⟩ := unknown_helper_ends_output Host.logging
    (Settings.failsUnknown {}) (by decide) onlyCall_callingPage unknown fails (load_callingPage "t")
    whole .null rfl []
  refine (lost ?_).1
  rw [Library.dispatched_of_body body_callingTemplate, rendering_callingPage]
  decide +kernel

/-- A call of an unknown helper takes all output with it; one of a helper that fails does not. -/
theorem unknown_helper_not_silent :
    (callingTemplate.run Host.logging .empty .null []).1 = some "" ∧
      (callingTemplate.run Host.logging (HelperTable.empty.register "nope" refusal) .null []).1 =
        some "ab" := by
  rw [Library.run_of_body body_callingTemplate, Library.run_of_body body_callingTemplate,
    rendering_callingPage, rendering_callingPage]
  decide +kernel

end Stencil
