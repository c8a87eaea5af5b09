import Stencil.Proofs.Snapshot
import Stencil.Proofs.Sources

/-!
# Renders of loaded templates

Running a template that was loaded from a library is running a render of the engine in which the
dispatcher answers all calls (`Rendering.run`). What the engine renders is up to the engine; how a
render ends decides what is printed and what is logged (`run_of_body`).
-/

namespace Stencil

variable {Ω α β σ : Type}

-- ---------------------------------------------------------------------------
-- The calls that code makes
-- ---------------------------------------------------------------------------

structure Dispatch where
  receiver : Value
  helper : String
  args : List Value

def Code.dispatched (host : Host Ω σ) (d : Dispatcher σ) : Code Ω α → σ → List Dispatch
  | .done _, _ => []
  | .panic, _ => []
  | .log r next, s => next.dispatched host d (host.log r s)
  | .perform op next, s =>
    let (answer, s) := host.perform op s
    (next answer).dispatched host d s
  | .names next, s => (next d.names).dispatched host d s
  | .dispatch this name args next, s =>
    let (text, s) := d.dispatch this name args s
    ⟨this, name, args⟩ :: (next text).dispatched host d s

namespace Markup

-- ---------------------------------------------------------------------------
-- Runs of renders
-- ---------------------------------------------------------------------------

def sent (args : List (Option Value)) : List Value := args.map (·.getD .null)

namespace Rendering

/-- Runs a render, with the context as the receiver of all calls. -/
def run (d : Dispatcher σ) (context : Value) : Rendering α → σ → α × σ
  | .done a, s => (a, s)
  | .call name args next, s =>
    let (text, s) := d.dispatch context name (sent args) s
    (next text).run d context s

def calls (d : Dispatcher σ) (context : Value) : Rendering α → σ → List Dispatch
  | .done _, _ => []
  | .call name args next, s =>
    let (text, s) := d.dispatch context name (sent args) s
    ⟨context, name, sent args⟩ :: (next text).calls d context s

variable {d : Dispatcher σ} {context : Value}

theorem run_bind (c : Rendering α) (f : α → Rendering β) (s : σ) :
    (c.bind f).run d context s =
      (f (c.run d context s).1).run d context (c.run d context s).2 := by
  induction c generalizing s with
  | done a => rfl
  | call name args next ih => exact ih ..

/-- As code, a render never panics. -/
theorem run_code (host : Host Ω σ) (c : Rendering α) (s : σ) :
    (c.code context : Code Ω α).run host d s =
      (some (c.run d context s).1, (c.run d context s).2) := by
  induction c generalizing s with
  | done a => rfl
  | call name args next ih => exact ih ..

theorem dispatched_code (host : Host Ω σ) (c : Rendering α) {f : α → Code Ω β}
    (hf : ∀ a s, (f a).dispatched host d s = []) (s : σ) :
    ((c.code context).bind f).dispatched host d s = c.calls d context s := by
  induction c generalizing s with
  | done a => exact hf a s
  | call name args next ih => exact congrArg (_ :: ·) (ih ..)

theorem receiver_of_calls (c : Rendering α) (s : σ) :
    ∀ call ∈ c.calls d context s, call.receiver = context := by
  induction c generalizing s with
  | done a => exact nofun
  | call name args next ih => exact List.forall_mem_cons.mpr ⟨rfl, ih _ _⟩

/-- Whatever calls of helpers leave alone, a render leaves alone. -/
theorem run_snd {τ : Type} (seen : σ → τ)
    (kept : ∀ name args s, seen (d.dispatch context name args s).2 = seen s) (c : Rendering α)
    (s : σ) : seen (c.run d context s).2 = seen s := by
  induction c generalizing s with
  | done a => rfl
  | call name args next ih => exact (ih ..).trans (kept ..)

end Rendering

-- ---------------------------------------------------------------------------
-- Results of renders
-- ---------------------------------------------------------------------------

namespace Rendering

variable {ε δ : Type}

/-- Whatever its calls return, a render gives only failures and what is `good`. -/
def Gives (good : α → Prop) : Rendering (Except ε α) → Prop
  | .done (.error _) => True
  | .done (.ok a) => good a
  | .call _ _ next => ∀ s, (next s).Gives good

variable {good : α → Prop} {good' : β → Prop} {c : Rendering (Except ε α)}

theorem Gives.bind {g : Except ε α → Rendering (Except δ β)} (hc : c.Gives good)
    (hf : ∀ f, (g (.error f)).Gives good') (hg : ∀ a, good a → (g (.ok a)).Gives good') :
    (c.bind g).Gives good' := by
  induction c with
  | done r =>
    cases r with
    | error f => exact hf f
    | ok a => exact hg a hc
  | call name args next ih => exact fun s => ih s (hc s)

theorem Gives.mono {good' : α → Prop} (hc : c.Gives good) (h : ∀ a, good a → good' a) :
    c.Gives good' := by
  induction c with
  | done r =>
    cases r with
    | error f => trivial
    | ok a => exact h a hc
  | call name args next ih => exact fun s => ih s (hc s)

theorem Gives.bind_congr (hc : c.Gives good) {g g' : Except ε α → Rendering β}
    (hf : ∀ f, g (.error f) = g' (.error f)) (hg : ∀ a, good a → g (.ok a) = g' (.ok a)) :
    c.bind g = c.bind g' := by
  induction c with
  | done r =>
    cases r with
    | error f => exact hf f
    | ok a => exact hg a hc
  | call name args next ih =>
    simp only [Rendering.bind]
    exact congrArg _ (funext fun s => ih s (hc s))

theorem Gives.run (hc : c.Gives good) {d : Dispatcher σ} {context : Value} {s s' : σ} {a : α}
    (hr : c.run d context s = (.ok a, s')) : good a := by
  induction c generalizing s with
  | done r =>
    cases hr
    exact hc
  | call name args next ih => exact ih _ (hc _) hr

end Rendering

-- ---------------------------------------------------------------------------
-- The parts of a template
-- ---------------------------------------------------------------------------

namespace Library

def rendering (l : Library) (functions : List String) (name : String) (block : Option String)
    (context : Value) : Rendering (Except Failure String) :=
  l.settings.renderPart ⟨l.sources, functions, name, context⟩ block

theorem rendering_environment (settings : Settings) (sources : Entries String)
    (functions : List String) (name : String) (context : Value) :
    rendering { settings := settings, sources } functions name none context =
      Engine.printedBy (Engine.whole ⟨⟨sources, functions, name, context⟩, settings⟩) :=
  rfl

theorem template_of_load {l : Library} {name : String} {tmpl : Template Ω}
    (hload : l.load name = .done (.template tmpl)) :
    ∃ source, l.source? name = some source ∧ l.settings.compile name source = .ok () ∧
      tmpl = l.template name source := by
  cases hs : l.source? name with
  | none =>
    rw [load_of_no_source hs] at hload
    cases hload
  | some source =>
    rw [load_of_source hs] at hload
    cases hc : l.settings.compile name source with
    | error f =>
      rw [compiled_of_error hc] at hload
      cases hload
    | ok _ =>
      rw [compiled_of_ok hc] at hload
      cases hload
      exact ⟨source, rfl, hc, rfl⟩

variable (l : Library) (name source : String)

/-- A loaded template has the blocks that its source shows, and each is rendered as the block of
this name. -/
theorem block?_template (b : String) : (l.template name source : Template Ω).block? b =
    if b ∈ Declared.blockNames source then some (.ofBody (l.bodyOf name (some b))) else none := by
  have added (names : List String) (whole : Template Ω) :
      (names.foldl (fun whole block =>
        whole.withBlock block (.ofBody (l.bodyOf name (some block)))) whole).block? b =
        if b ∈ names then some (.ofBody (l.bodyOf name (some b))) else whole.block? b := by
    induction names generalizing whole with
    | nil => simp
    | cons other rest ih =>
      have one (body : Template Ω) : (whole.withBlock other body).block? b =
          if other = b then some body else whole.block? b := Entries.get?_insert ..
      rw [List.foldl_cons, ih, one]
      by_cases hb : other = b
      · simp [hb]
      · simp [hb, Ne.symm hb]
  rw [template, added]
  rfl

theorem body_of_exposed {block : Option String}
    (exposed : ∀ b ∈ block, b ∈ Declared.blockNames source) :
    ∃ part : Template Ω, (l.template name source).part block = some part ∧
      part.body = l.bodyOf name block := by
  cases block with
  | none => exact ⟨_, rfl, body_template l name source⟩
  | some b =>
    exact ⟨.ofBody (l.bodyOf name (some b)),
      (block?_template l name source b).trans (if_pos (exposed b rfl)), rfl⟩

variable {l name source}

/-- Each part of a loaded template renders the template, or a block of it. -/
theorem body_of_part {block : Option String} {part : Template Ω}
    (hpart : (l.template name source).part block = some part) :
    part.body = l.bodyOf name block := by
  cases block with
  | none =>
    cases hpart
    exact body_template l name source
  | some b =>
    have found := (block?_template l name source b).symm.trans hpart
    split at found
    · cases found
      rfl
    · cases found

variable {block : Option String} {part : Template Ω} (hb : part.body = l.bodyOf name block)
  (host : Host Ω σ) (context : Value) (s : σ)

include hb

theorem call_of_body (helpers : HelperTable Ω) :
    part.call host helpers context s = Code.run host (helpers.dispatcher host)
      (((l.rendering helpers.names name block context).code context).bind fun
        | .ok text => .done (.string text)
        | .error f => .log (.engineFailed name f) (.done .null)) s := by
  rw [Template.call, hb]
  rfl

theorem run_of_body (helpers : HelperTable Ω) :
    part.run host helpers context s =
      match (l.rendering helpers.names name block context).run (helpers.dispatcher host) context s
        with
      | (.ok text, s) => (some text, s)
      | (.error f, s) => (some "", host.log (.engineFailed name f) s) := by
  rw [Template.run, call_of_body hb, Code.run_bind, Rendering.run_code]
  generalize Rendering.run _ context (l.rendering helpers.names name block context) s = ended
  obtain ⟨r, s⟩ := ended
  cases r <;> rfl

theorem dispatched_of_body (d : Dispatcher σ) :
    (part.body context).dispatched host d s =
      (l.rendering d.names name block context).calls d context s := by
  rw [hb]
  refine Rendering.dispatched_code host _ (fun r s => ?_) s
  cases r <;> rfl

end Library
end Markup
end Stencil
