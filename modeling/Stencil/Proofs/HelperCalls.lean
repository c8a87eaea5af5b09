import Stencil.Proofs.Markup.Steady
import Stencil.Proofs.UnknownHelper

/-!
# Calls of helpers in a template

Where a template calls a helper that nothing in scope hides, the value of the call is what the
dispatcher prints. The receiver is the context of the whole render, wherever the call stands, as all
functions of a render are registered with it; each argument is sent as the data that it stands for.
The text is escaped when it is printed, as the template wants it there, and only then. How
expressions are evaluated else is up to the engine (`Evaluator`).
-/

namespace Stencil

variable {Ω α β σ : Type}

namespace Markup

-- ---------------------------------------------------------------------------
-- What is left of a render
-- ---------------------------------------------------------------------------

/-- What is left of a render, and the state, once some of its calls have been answered. -/
inductive Rendering.Comes (d : Dispatcher σ) (context : Value) :
    Rendering α → σ → Rendering α → σ → Prop
  | here (c s) : Comes d context c s c s
  | call {name args next s c' s'}
      (rest : Comes d context (next (d.dispatch context name (sent args) s).1)
        (d.dispatch context name (sent args) s).2 c' s') :
      Comes d context (.call name args next) s c' s'

namespace Rendering.Comes

variable {d : Dispatcher σ} {context : Value} {c c' c'' : Rendering α} {s s' s'' : σ}

theorem trans (h : c.Comes d context s c' s') (h' : c'.Comes d context s' c'' s'') :
    c.Comes d context s c'' s'' := by
  induction h with
  | here => exact h'
  | call _ ih => exact .call (ih h')

/-- A render ends as what is left of it does. -/
theorem run_eq (h : c.Comes d context s c' s') : c.run d context s = c'.run d context s' := by
  induction h with
  | here => rfl
  | call _ ih => exact ih

theorem calls_subset (h : c.Comes d context s c' s') :
    c'.calls d context s' ⊆ c.calls d context s := by
  induction h with
  | here => exact List.Subset.refl _
  | call _ ih => exact List.subset_cons_of_subset _ ih

theorem bind (d : Dispatcher σ) (context : Value) (c : Rendering β) (f : β → Rendering α) (s : σ) :
    (c.bind f).Comes d context s (f (c.run d context s).1) (c.run d context s).2 := by
  induction c generalizing s with
  | done b => exact .here _ _
  | call name args next ih => exact .call (ih ..)

end Rendering.Comes

-- ---------------------------------------------------------------------------
-- Engines that call functions
-- ---------------------------------------------------------------------------

/-- Expressions of an engine, and how they are evaluated and printed at the points of a render. A
point has all that matters there: the variables in scope, the way of escaping, how deep it is. -/
structure Evaluator where
  Point : Type
  Expr : Type
  Args : Type
  Datum : Type
  Error : Type
  call : String → Args → Expr
  values : Point → Args → Rendering (Except Error (List Datum × Point))
  eval : Point → Expr → Rendering (Except Error (Datum × Point))
  /-- Evaluates an expression, and prints its value. -/
  emit : Point → Expr → Rendering (Except Error (String × Point))
  print : Point → Datum → Except Error String
  text : String → Datum
  /-- The data that a value stands for, if it stands for any. -/
  json : Datum → Option Value
  bound : Point → String → Prop
  reserved : String → Prop
  /-- How output is escaped for the name of a template, if it is. -/
  autoescape : String → Option (String → String)
  /-- At the point output is printed as it is for the name of a template. -/
  within : Point → String → Prop

/-- How an engine calls functions that are registered: if nothing hides the name, the arguments are
evaluated, the function is called with them, and the text that it returns is the value. Such a text
is printed as the name of the template wants it. -/
structure Evaluator.CallsFunctions (E : Evaluator) (functions : List String) : Prop where
  eval_call : ∀ {p f} {args : E.Args}, f ∈ functions → ¬ E.reserved f → ¬ E.bound p f →
    E.eval p (E.call f args) = (E.values p args).bind fun
      | .ok (ds, p) => .call f (ds.map E.json) fun s => .done (.ok (E.text s, p))
      | .error e => .done (.error e)
  emit_call : ∀ {p f} {args : E.Args}, ¬ E.reserved f →
    E.emit p (E.call f args) = (E.eval p (E.call f args)).bind fun
      | .ok (d, p) => .done ((E.print p d).map (·, p))
      | .error e => .done (.error e)
  values_within : ∀ {p template} (args : E.Args), E.within p template →
    (E.values p args).Gives fun r => E.within r.2 template
  print_text : ∀ {p template} (s : String), E.within p template →
    E.print p (E.text s) = .ok ((E.autoescape template).elim s (· s))

variable {host : Host Ω σ} {helpers : HelperTable Ω} {E : Evaluator} {context : Value} {h : String}

theorem mem_names (hh : helpers.contains h = true) : h ∈ helpers.names :=
  (Entries.get?_isSome_iff ..).mp hh

namespace Evaluator.CallsFunctions

variable (engine : E.CallsFunctions helpers.names) (hh : helpers.contains h = true)
  (free : ¬ E.reserved h) {c : Rendering α} {s s₁ s₂ : σ} {p p' : E.Point} {args : E.Args}
  {ds : List E.Datum} (unbound : ¬ E.bound p h)
  (hargs : (E.values p args).run (helpers.dispatcher host) context s₁ = (.ok (ds, p'), s₂))

include engine hh free unbound hargs

/-- Where a call is evaluated, its arguments are first, and then the function is called. -/
theorem comes_to_call {k : Except E.Error (E.Datum × E.Point) → Rendering α}
    (here : c.Comes (helpers.dispatcher host) context s ((E.eval p (E.call h args)).bind k) s₁) :
    c.Comes (helpers.dispatcher host) context s
      (.call h (ds.map E.json) fun s => k (.ok (E.text s, p'))) s₂ := by
  refine here.trans ?_
  have called := Rendering.Comes.bind (helpers.dispatcher host) context
    (E.values p args) (fun r => Rendering.bind (match r with
      | .ok (ds, p) => .call h (ds.map E.json) fun s => .done (.ok (E.text s, p))
      | .error e => .done (.error e)) k) s₁
  rw [hargs] at called
  rw [engine.eval_call (mem_names hh) free unbound, Rendering.bind_assoc]
  exact called

theorem comes_to_value {k : Except E.Error (E.Datum × E.Point) → Rendering α}
    (here : c.Comes (helpers.dispatcher host) context s ((E.eval p (E.call h args)).bind k) s₁) :
    let printed := helpers.dispatch host context h (sent (ds.map E.json)) s₂
    ⟨context, h, sent (ds.map E.json)⟩ ∈ c.calls (helpers.dispatcher host) context s ∧
      c.Comes (helpers.dispatcher host) context s (k (.ok (E.text printed.1, p'))) printed.2 := by
  intro printed
  have called := engine.comes_to_call hh free unbound hargs here
  exact ⟨called.calls_subset (List.mem_cons_self ..), called.trans (.call (.here _ _))⟩

theorem comes_to_text {k : Except E.Error (String × E.Point) → Rendering α} {template : String}
    (inside : E.within p template)
    (here : c.Comes (helpers.dispatcher host) context s ((E.emit p (E.call h args)).bind k) s₁) :
    let printed := helpers.dispatch host context h (sent (ds.map E.json)) s₂
    c.Comes (helpers.dispatcher host) context s
      (k (.ok ((E.autoescape template).elim printed.1 (· printed.1), p'))) printed.2 := by
  intro printed
  rw [engine.emit_call free, Rendering.bind_assoc] at here
  have value := (engine.comes_to_value hh free unbound hargs here).2
  have still : E.within p' template := (engine.values_within args inside).run hargs
  simp only [engine.print_text _ still] at value
  exact value

end Evaluator.CallsFunctions
end Markup

open Markup

/-- Helpers in a template that was loaded. All that are called while a part of it is rendered are
called on the context. Wherever the render comes to a call of a helper that no variable hides, and
the arguments have values, the dispatcher is asked for the context and the data that the arguments
stand for, and the render goes on with what it printed as the value of the call. Where the call is
printed, this text is printed, as it is or escaped once, as the name of the template wants it. -/
theorem helper_call_dispatches (host : Host Ω σ) {l : Library} {name : String}
    {tmpl part : Template Ω} (hload : l.load name = .done (.template tmpl)) {block : Option String}
    (hpart : tmpl.part block = some part) (context : Value) {helpers : HelperTable Ω}
    {E : Evaluator} (engine : E.CallsFunctions helpers.names) {h : String}
    (hh : helpers.contains h = true) (free : ¬ E.reserved h) (s : σ) :
    let d := helpers.dispatcher host
    let rendering := l.rendering helpers.names name block context
    (∀ call ∈ (part.body context).dispatched host d s, call.receiver = context) ∧
    (part.run host helpers context s = match rendering.run d context s with
      | (.ok text, s) => (some text, s)
      | (.error f, s) => (some "", host.log (.engineFailed name f) s)) ∧
    ∀ p args s₁ ds p' s₂, ¬ E.bound p h →
      (E.values p args).run d context s₁ = (.ok (ds, p'), s₂) →
      let args' := sent (ds.map E.json)
      let printed := helpers.dispatch host context h args' s₂
      (∀ k, rendering.Comes d context s ((E.eval p (E.call h args)).bind k) s₁ →
        ⟨context, h, args'⟩ ∈ (part.body context).dispatched host d s ∧
        rendering.Comes d context s (k (.ok (E.text printed.1, p'))) printed.2) ∧
      ∀ k template, E.within p template →
        rendering.Comes d context s ((E.emit p (E.call h args)).bind k) s₁ →
        rendering.Comes d context s
          (k (.ok ((E.autoescape template).elim printed.1 (· printed.1), p'))) printed.2 := by
  intro d rendering
  obtain ⟨source, -, -, rfl⟩ := Library.template_of_load hload
  have hb := Library.body_of_part hpart
  have calls : (part.body context).dispatched host d s = rendering.calls d context s :=
    Library.dispatched_of_body hb ..
  rw [calls]
  refine ⟨Rendering.receiver_of_calls rendering s, Library.run_of_body hb .., ?_⟩
  intro p args s₁ ds p' s₂ unbound hargs
  exact ⟨fun k => engine.comes_to_value hh free unbound hargs,
    fun k template => engine.comes_to_text hh free unbound hargs⟩

-- ---------------------------------------------------------------------------
-- The engine that is written out
-- ---------------------------------------------------------------------------

namespace Markup

def Escaping.encode? : Escaping → Option (String → String)
  | .none => Option.none
  | .html => some escapeHtml
  | .json => some fun s => Json.write (.string s)

def Setup.print (setup : Setup) (m : Machine) (d : Datum) : Except Fault String := do
  let initial := Engine.escapingFor setup.settings setup.name
  Rules.present ⟨setup.settings.strict, m.escaping, initial⟩ d
  let text ← d.escaped m.escaping
  return if m.silent then "" else text

/-- Expressions at a level of a render, evaluated in a machine. -/
def Setup.evaluator (setup : Setup) (n : Nat) : Evaluator where
  Point := Machine
  Expr := Expr
  Args := List (Option String × Expr)
  Datum := Datum
  Error := Fault
  call f args := .call (.var f) args
  values m args := (Engine.arguments <$> Engine.evalParts (Engine.render n) args) setup m
  eval m e := Engine.eval (Engine.render n) e setup m
  emit m e := Engine.exec (Engine.render n) (.emit e) setup m
  print := setup.print
  text := .text
  json := Datum.toValue?
  bound m f := (m.frames.findSome? (Frame.get? · f)).isSome
  reserved f := f = "super" ∨ f = "loop"
  autoescape name := (Engine.escapingFor setup.settings name).encode?
  within m name := m.silent = false ∧ m.escaping = Engine.escapingFor setup.settings name

theorem Datum.escaped_text (mode : Escaping) (s : String) :
    (text s).escaped mode = .ok (mode.encode?.elim s (· s)) := by
  cases mode <;> rfl

theorem Rules.present_text (r : Rules) (s : String) : r.present (.text s) = .ok () := by
  simp [present, Datum.text, Datum.isMissing]

namespace Engine

variable {setup : Setup} {m : Machine} {f : String}

theorem eval_callName (again : List Statement → Engine String)
    (args : List (Option String × Expr)) (hf : ¬ (f = "super" ∨ f = "loop")) :
    eval again (.call (.var f) args) =
      (arguments <$> evalParts again args) >>= fun args => lookup f >>= fun
        | some d => callDatum d args
        | none => fail .unknownFunction := by
  rw [bind_map_left]
  unfold eval
  split
  · rename_i heq
    exact absurd (.inl (Expr.var.inj heq)) hf
  · rename_i heq
    exact absurd (.inr (Expr.var.inj heq)) hf
  · rename_i heq
    cases heq
    rfl
  · contradiction
  · contradiction
  · rename_i hv _ _
    exact absurd rfl (hv f)

theorem exec_emitCall (again : List Statement → Engine String)
    (args : List (Option String × Expr)) (hf : f ≠ "super") :
    exec again (.emit (.call (.var f) args)) = eval again (.call (.var f) args) >>= output := by
  unfold exec
  split
  · rename_i heq
    exact absurd (Expr.var.inj (Expr.call.inj heq).1) hf
  · rename_i heq
    cases (Expr.call.inj heq).1
  · rfl

/-- A name that nothing in scope has is that of a function, if one is registered. -/
theorem lookup_registered (hf : f ∈ setup.functions)
    (unbound : m.frames.findSome? (Frame.get? · f) = none) :
    lookup f setup m = .done (.ok (some (.function (.helper f)), m)) := by
  have known : setup.functions.contains f = true := by simpa using hf
  have registered : isRegistered f setup m = .done (.ok (setup.functions.contains f, m)) := rfl
  unfold lookup
  rw [run_get, unbound]
  simp only [run_bind, registered, known]
  rfl

variable (n : Nat) (args : List (Option String × Expr))

theorem intact_arguments (setup : Setup) (m : Machine) :
    Ends m.Intact setup m (arguments <$> evalParts (render n) args) := by
  rw [← bind_pure_comp]
  exact (intact_evalParts (steady_render n) args setup m).bind fun _ _ => ends_pure

/-- Arguments leave the scopes alone, so that a name means the same behind them. -/
theorem eval_registered (hf : f ∈ setup.functions) (free : ¬ (f = "super" ∨ f = "loop"))
    (unbound : m.frames.findSome? (Frame.get? · f) = none) :
    eval (render n) (.call (.var f) args) setup m =
      Rendering.bind ((arguments <$> evalParts (render n) args) setup m) fun
        | Except.ok (ds, m) =>
          .call f (ds.map Datum.toValue?) fun s => .done (.ok (.text s, m))
        | Except.error e => .done (.error e) := by
  rw [eval_callName (render n) args free, run_bind]
  refine (intact_arguments n args setup m).bind_congr (fun _ => rfl) fun (ds, m') intact => ?_
  have unbound' : m'.frames.findSome? (Frame.get? · f) = none := intact.frames ▸ unbound
  simp only [run_bind, lookup_registered hf unbound']
  rfl

theorem output_run (d : Datum) (setup : Setup) (m : Machine) :
    output d setup m = .done ((setup.print m d).map (·, m)) := by
  have known : rules setup m = .done (.ok (⟨setup.settings.strict, m.escaping,
      escapingFor setup.settings setup.name⟩, m)) := rfl
  have lifted {α : Type} (r : Except Fault α) (m : Machine) :
      (lift r : Engine α) setup m = .done (r.map (·, m)) := by
    cases r <;> rfl
  unfold output
  simp only [run_bind, known, lifted, Rendering.bind, Setup.print]
  cases Rules.present _ d with
  | error f => rfl
  | ok _ => cases d.escaped m.escaping <;> rfl

end Engine

theorem Setup.callsFunctions (setup : Setup) (n : Nat) :
    (setup.evaluator n).CallsFunctions setup.functions where
  eval_call {m f args} hf free unbound := by
    refine (Engine.eval_registered n args hf free (Option.not_isSome_iff_eq_none.mp unbound)).trans
      (congrArg (Rendering.bind _) (funext fun r => ?_))
    cases r <;> rfl
  emit_call {m f args} free := by
    have emitted := Engine.exec_emitCall (Engine.render n) args fun h => free (.inl h)
    refine (congrFun (congrFun emitted setup) m).trans <| (Engine.run_bind ..).trans <|
      congrArg (Rendering.bind _) (funext fun r => ?_)
    cases r with
    | error e => rfl
    | ok r => exact Engine.output_run r.1 setup r.2
  values_within {m template} args within :=
    (Engine.intact_arguments n args setup m).mono fun r intact =>
      ⟨intact.silent.trans within.1, intact.escaping.trans within.2⟩
  print_text {m template} s within := by
    simp only [evaluator, Setup.print, Rules.present_text, Datum.escaped_text, within.1, within.2]
    rfl

namespace Engine

variable {γ : Type} {r : Rendering γ} {setup : Setup} {m : Machine}

/-- From the machine on, a part of a render begins with `r`. -/
def Begins (r : Rendering γ) (setup : Setup) (m : Machine) (c : Engine α) : Prop :=
  ∃ k, c setup m = r.bind k

theorem Begins.bind {c : Engine α} (hc : Begins r setup m c) (g : α → Engine β) :
    Begins r setup m (c >>= g) := by
  obtain ⟨k, hk⟩ := hc
  exact ⟨_, by rw [run_bind, hk, Rendering.bind_assoc]⟩

theorem begins_get {g : Machine → Engine β} (h : Begins r setup m (g m)) :
    Begins r setup m (get >>= g) :=
  h

theorem begins_set {m' : Machine} {g : PUnit → Engine β} (h : Begins r setup m' (g ⟨⟩)) :
    Begins r setup m (set m' >>= g) :=
  h

theorem begins_text {again : List Statement → Engine String} {s : String}
    {g : String → Engine β} (h : Begins r setup m (g (if m.silent then "" else s))) :
    Begins r setup m (exec again (.text s) >>= g) := by
  unfold exec
  exact h

theorem begins_execAll (again : List Statement → Engine String) (first : Statement)
    (rest : List Statement) :
    Begins (exec again first setup m) setup m (execAll again (first :: rest)) := by
  unfold execAll
  exact Begins.bind ⟨.done, (Rendering.bind_done _).symm⟩ _

theorem begins_render (setup : Setup) (n : Nat) (s : String) (next : Statement)
    (rest : List Statement) (m : Machine) :
    let m' := { m with parent := none }
    Begins (exec (render n) next setup m') setup m (render (n + 1) (.text s :: next :: rest)) := by
  have body (m : Machine) : Begins (exec (render n) next setup m) setup m
      (execAll (render n) (.text s :: next :: rest)) := by
    unfold execAll
    exact begins_text ((begins_execAll _ next rest).bind _)
  unfold render
  exact begins_get (begins_set ((body _).bind _))

end Engine
end Markup

def markup : Helper Unit := fun this _ => .done (.ok (.string ("<" ++ this.text ++ ">")))

section

variable (name : String) (functions : List String) (context : Value)

def callingSetup : Setup := ⟨⟨(callingPage name).sources, functions, name, context⟩, {}⟩

def callingMachine : Machine := Engine.start (callingSetup name functions context) callingSyntax

theorem rendering_emit_callingPage : ∃ n k,
    (callingPage name).rendering functions name none context =
      (((callingSetup name functions context).evaluator n).emit
        (callingMachine name functions context)
        (.call (.var "nope") [(none, .lit (.int 1))])).bind k := by
  let setup := callingSetup name functions context
  have levels : Engine.levels setup = Engine.levels setup - 1 + 1 := rfl
  obtain ⟨k, hk⟩ := Engine.begins_render setup (Engine.levels setup - 1) "a"
    (.emit (.call (.var "nope") [(none, .lit (.int 1))])) [.text "b"]
    (callingMachine name functions context)
  refine ⟨Engine.levels setup - 1, fun r => Engine.printedBy (k r), ?_⟩
  rw [rendering_callingPage]
  refine Eq.trans ?_ ((congrArg Engine.printedBy hk).trans (Rendering.bind_assoc ..))
  rw [← levels]
  rfl

variable {name functions context}

theorem within_callingMachine (n : Nat) :
    ((callingSetup name functions context).evaluator n).within
      (callingMachine name functions context) name :=
  ⟨rfl, rfl⟩

end

theorem helper_call_dispatches_page :
    let helpers := HelperTable.empty.register "nope" markup
    let E (n : Nat) := (callingSetup "t.html" helpers.names (.string "b")).evaluator n
    let m := callingMachine "t.html" helpers.names (.string "b")
    let rendering := (callingPage "t.html").rendering helpers.names "t.html" none (.string "b")
    ∃ n k, rendering = ((E n).emit m ((E n).call "nope" [(none, .lit (.int 1))])).bind k ∧
      rendering.Comes (helpers.dispatcher Host.logging) (.string "b") []
        (k (.ok ("&lt;b&gt;", m))) [] := by
  intro helpers E m rendering
  obtain ⟨n, k, here⟩ := rendering_emit_callingPage "t.html" helpers.names (.string "b")
  refine ⟨n, k, here, ?_⟩
  have engine : (E n).CallsFunctions helpers.names := Setup.callsFunctions (callingSetup ..) n
  have whole : ((callingPage "t.html").template "t.html" callingSource : Template Unit).part none =
      some _ := rfl
  have known : helpers.contains "nope" = true := rfl
  have free : ¬ (E n).reserved "nope" := by simp [E, Setup.evaluator]
  obtain ⟨-, -, called⟩ := helper_call_dispatches Host.logging (load_callingPage "t.html") whole
    (.string "b") engine known free []
  have printed (args : List Value) :
      helpers.dispatch Host.logging (.string "b") "nope" args [] = ("<b>", []) := by
    rfl
  have escaped : ((E n).autoescape "t.html").elim "<b>" (· "<b>") = "&lt;b&gt;" := by
    show (Engine.escapingFor {} "t.html").encode?.elim "<b>" (· "<b>") = _
    decide +kernel
  have unbound : ¬ (E n).bound m "nope" := by
    show ¬ (List.findSome? _ _).isSome = true
    decide
  have text := (called m [(none, .lit (.int 1))] [] [Datum.int 1] m [] unbound rfl).2 k "t.html"
    (within_callingMachine n) (here ▸ .here _ _)
  rw [printed, escaped] at text
  exact text

end Stencil
