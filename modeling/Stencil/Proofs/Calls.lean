import Stencil.Markup.Loader
import Stencil.Script

/-!
# The calls that code makes

What code may ask for while it runs, whatever it is told: `Code.Makes` holds of code all of whose
calls are allowed. Three cases have names. Code that is mute performs no operation. Code that is
discreet does not look at which helpers there are; it calls them and nothing else. Code that is
sturdy does not panic.

Scripts ask for helpers through the dispatcher alone, so the templates that are written as scripts
are discreet (`Draft.discreet`).
-/

namespace Stencil

variable {Ω α β σ : Type}

inductive Call (Ω : Type)
  | panic
  | log (r : Record)
  | perform (op : Ω)
  | names
  | dispatch (name : String)

namespace Call

def IsMute : Call Ω → Prop
  | .perform _ => False
  | _ => True

def IsDiscreet : Call Ω → Prop
  | .names => False
  | _ => True

def IsSturdy : Call Ω → Prop
  | .panic => False
  | _ => True

end Call

-- ---------------------------------------------------------------------------
-- Code
-- ---------------------------------------------------------------------------

/-- All calls that the code may make are allowed, and what it gives is `good`. -/
def Code.Makes (allow : Call Ω → Prop) (good : α → Prop) : Code Ω α → Prop
  | .done a => good a
  | .panic => allow .panic
  | .log r next => allow (.log r) ∧ next.Makes allow good
  | .perform op next => allow (.perform op) ∧ ∀ a, (next a).Makes allow good
  | .names next => allow .names ∧ ∀ names, (next names).Makes allow good
  | .dispatch _ name _ next => allow (.dispatch name) ∧ ∀ text, (next text).Makes allow good

namespace Code

variable {allow : Call Ω → Prop} {good : α → Prop} {good' : β → Prop}

theorem Makes.bind {c : Code Ω α} (hc : c.Makes allow good) {f : α → Code Ω β}
    (hf : ∀ a, good a → (f a).Makes allow good') : (c.bind f).Makes allow good' := by
  induction c with
  | done a => exact hf a hc
  | panic => exact hc
  | log r next ih => exact ⟨hc.1, ih hc.2⟩
  | perform op next ih => exact ⟨hc.1, fun a => ih a (hc.2 a)⟩
  | names next ih => exact ⟨hc.1, fun names => ih names (hc.2 names)⟩
  | dispatch this name args next ih => exact ⟨hc.1, fun text => ih text (hc.2 text)⟩

theorem makes_performAll {next : Code Ω α} (h : next.Makes allow good) {ops : List Ω}
    (ho : ∀ op ∈ ops, allow (.perform op)) : (performAll ops next).Makes allow good := by
  induction ops with
  | nil => exact h
  | cons op rest ih =>
    obtain ⟨hop, hrest⟩ := List.forall_mem_cons.mp ho
    exact ⟨hop, fun _ => ih hrest⟩

theorem makes_walkEntries {each : Visit → Code Ω String}
    (h : ∀ visit, (each visit).Makes allow fun _ => True) (total index : Nat) (out : String)
    (entries : Entries Value) :
    (Value.walkEntries each total index out entries).Makes allow fun _ => True := by
  induction entries generalizing index out with
  | nil => trivial
  | cons e rest ih => exact (h _).bind fun _ _ => ih _ _

theorem makes_walk (v : Value) {each : Visit → Code Ω String}
    (h : ∀ visit, (each visit).Makes allow fun _ => True) :
    (v.walk each).Makes allow fun _ => True := by
  rw [Value.walk_eq_walkEntries]
  exact makes_walkEntries h ..

end Code

-- ---------------------------------------------------------------------------
-- Helpers and templates
-- ---------------------------------------------------------------------------

variable {allow : Call Ω → Prop}

def Helper.Makes (allow : Call Ω → Prop) (helper : Helper Ω) : Prop :=
  ∀ this args, (helper this args).Makes allow fun _ => True

inductive Template.Makes (allow : Call Ω → Prop) : Template Ω → Prop
  | mk {body : Value → Code Ω Value} {blocks : List (String × Template Ω)}
      (hbody : ∀ context, (body context).Makes allow fun _ => True)
      (hblocks : ∀ e ∈ blocks, Makes allow e.2) : Makes allow (.mk body blocks)

namespace Template.Makes

theorem body {t : Template Ω} (h : t.Makes allow) (context : Value) :
    (t.body context).Makes allow fun _ => True := by
  obtain ⟨hbody, -⟩ := h
  exact hbody context

theorem of_block? {t block : Template Ω} (h : t.Makes allow) {name : String}
    (hb : t.block? name = some block) : block.Makes allow := by
  obtain ⟨-, hblocks⟩ := h
  exact hblocks _ (Entries.mem_of_get? hb)

theorem ofBody {body : Value → Code Ω Value}
    (h : ∀ context, (body context).Makes allow fun _ => True) :
    (Template.ofBody body).Makes allow :=
  .mk h (by simp)

theorem withBlock {t block : Template Ω} (h : t.Makes allow) (hb : block.Makes allow)
    (name : String) : (t.withBlock name block).Makes allow := by
  obtain ⟨hbody, hblocks⟩ := h
  refine .mk hbody fun e he => ?_
  rcases Entries.mem_insert he with rfl | he
  · exact hb
  · exact hblocks e he

end Template.Makes

abbrev Helper.Mute (helper : Helper Ω) : Prop := helper.Makes Call.IsMute

abbrev Template.Mute (t : Template Ω) : Prop := t.Makes Call.IsMute

/-- It touches the helper table through the dispatcher only. -/
abbrev Template.Discreet (t : Template Ω) : Prop := t.Makes Call.IsDiscreet

/-- Its own code does not panic, whatever it is told. -/
abbrev Template.Sturdy (t : Template Ω) : Prop := t.Makes Call.IsSturdy

-- ---------------------------------------------------------------------------
-- Scripts
-- ---------------------------------------------------------------------------

namespace Script

def Eval.Makes (allow : Call Ω → Prop) (c : Eval Ω α) : Prop := c.run.Makes allow fun _ => True

theorem makes_pure (a : α) : Eval.Makes allow (pure a : Eval Ω α) := trivial

theorem makes_throw (e : HelperError) : Eval.Makes allow (throw e : Eval Ω α) := trivial

theorem Eval.Makes.bind {c : Eval Ω α} (hc : Eval.Makes allow c) {f : α → Eval Ω β}
    (hf : ∀ a, Eval.Makes allow (f a)) : Eval.Makes allow (c >>= f) := by
  refine Code.Makes.bind hc fun result _ => ?_
  cases result with
  | ok a => exact hf a
  | error e => trivial

theorem makes_total {c : Code Ω Value} (hc : c.Makes allow fun _ => True) :
    Eval.Makes allow (total c) :=
  hc.bind fun _ _ => trivial

/-- Whether all that scripts do is allowed: they panic, perform operations and have the dispatcher
run helpers. -/
structure Allowed (allow : Call Ω → Prop) : Prop where
  panic : allow .panic
  perform : ∀ op, allow (.perform op)
  dispatch : ∀ name, allow (.dispatch name)

theorem makes_orPanic (h : Allowed allow) {c : Eval Ω Value} (hc : Eval.Makes allow c) :
    (orPanic c).Makes allow fun _ => True := by
  refine Code.Makes.bind hc fun result _ => ?_
  cases result with
  | ok v => trivial
  | error e => exact h.panic

theorem makes_performAll (h : Allowed allow) (ops : List Ω) :
    Eval.Makes allow (performAll ops) := by
  have done : (Code.done (.ok ()) : Code Ω (Except HelperError Unit)).Makes allow fun _ => True :=
    trivial
  exact Code.makes_performAll done fun op _ => h.perform op

mutual

theorem makes_eval (h : Allowed allow) (scope : Scope) :
    (e : Script Ω) → Eval.Makes allow (eval scope e)
  | .lit _ => makes_pure _
  | .context _ => makes_pure _
  | .visit _ => makes_pure _
  | .arguments => makes_pure _
  | .argument position => by
    unfold eval
    split
    · exact makes_pure _
    · exact makes_throw _
  | .concat parts => (makes_evalAll h scope parts).bind fun _ => makes_pure _
  | .list items => (makes_evalAll h scope items).bind fun _ => makes_pure _
  | .guard e => (makes_eval h scope e).bind fun _ => makes_pure _
  | .walk collection each => by
    unfold eval
    refine (makes_eval h scope collection).bind fun v => makes_total ?_
    refine (Code.makes_walk v fun stop => ?_).bind fun _ _ => trivial
    exact (makes_orPanic h (makes_eval h _ each)).bind fun _ _ => trivial
  | .help name args this => by
    unfold eval
    refine (makes_evalAll h scope args).bind fun _ => ?_
    exact (makes_evalOr h scope _ this).bind fun _ => ⟨h.dispatch name, fun _ => trivial⟩
  | .choose condition yes no => by
    unfold eval
    refine (makes_eval h scope condition).bind fun v => ?_
    split
    · exact makes_eval h scope yes
    · exact makes_eval h scope no
  | .write e => (makes_eval h scope e).bind fun _ => makes_pure _
  | .run body under => by
    unfold eval
    refine (makes_evalOr h scope _ under).bind fun data => makes_total ?_
    exact (makes_orPanic h (makes_eval h _ body)).bind fun _ _ => trivial
  | .panic => h.panic
  | .fail _ => makes_throw _
  | .parse text => by
    unfold eval
    split
    · exact makes_pure _
    · exact makes_throw _
  | .wrapped _ => makes_throw _
  | .perform ops next => (makes_performAll h ops).bind fun _ => makes_eval h scope next

theorem makes_evalAll (h : Allowed allow) (scope : Scope) :
    (es : List (Script Ω)) → Eval.Makes allow (evalAll scope es)
  | [] => makes_pure _
  | e :: rest => by
    unfold evalAll
    refine (makes_eval h scope e).bind fun v => ?_
    exact (makes_evalAll h scope rest).bind fun _ => makes_pure _

theorem makes_evalOr (h : Allowed allow) (scope : Scope) (default : Value) :
    (e : Option (Script Ω)) → Eval.Makes allow (evalOr scope default e)
  | none => makes_pure _
  | some e => makes_eval h scope e

end

end Script

namespace Draft

mutual

theorem makes_template (h : Script.Allowed allow) : (d : Draft Ω) → d.template.Makes allow
  | .mk body blocks => by
    unfold Draft.template
    refine makes_attach h (.ofBody fun context => ?_) blocks
    exact Script.makes_orPanic h (Script.makes_eval h _ body)

theorem makes_attach (h : Script.Allowed allow) {t : Template Ω} (ht : t.Makes allow) :
    (blocks : List (String × Draft Ω)) → (Draft.attach t blocks).Makes allow
  | [] => ht
  | (name, block) :: rest => by
    unfold Draft.attach
    exact makes_attach h (ht.withBlock (makes_template h block) name) rest

end

/-- Templates that are written as scripts are discreet, whatever their size and their blocks. -/
theorem discreet (d : Draft Ω) : d.template.Discreet :=
  makes_template ⟨trivial, fun _ => trivial, fun _ => trivial⟩ d

end Draft

-- ---------------------------------------------------------------------------
-- Libraries
-- ---------------------------------------------------------------------------

namespace Markup

/-- Whether all that a library and its templates do is allowed: templates look at the names of the
helpers, call them, and log why they fail; what is not in the library is logged, too. -/
structure Allowed (allow : Call Ω → Prop) : Prop where
  names : allow .names
  dispatch : ∀ name, allow (.dispatch name)
  failed : ∀ name f, allow (.log (.engineFailed name f))
  missing : ∀ name, allow (.log (.noSource name))

/-- Whatever the engine does, its renders do nothing but call helpers. -/
theorem Rendering.makes_code (ha : Allowed allow) (context : Value) (c : Rendering α) :
    (c.code context).Makes allow fun _ => True := by
  induction c with
  | done a => trivial
  | call name args next ih => exact ⟨ha.dispatch name, ih⟩

namespace Library

theorem makes_bodyOf (ha : Allowed allow) (l : Library) (name : String) (block : Option String)
    (context : Value) :
    (l.bodyOf name block context : Code Ω Value).Makes allow fun _ => True := by
  refine ⟨ha.names, fun functions => (Rendering.makes_code ha context _).bind fun result _ => ?_⟩
  cases result with
  | ok text => trivial
  | error f => exact ⟨ha.failed _ _, trivial⟩

theorem makes_template (ha : Allowed allow) (l : Library) (name source : String) :
    (l.template name source : Template Ω).Makes allow := by
  have extended (blocks : List String) {whole : Template Ω} (h : whole.Makes allow) :
      (blocks.foldl (fun whole block =>
        whole.withBlock block (.ofBody (l.bodyOf name (some block)))) whole).Makes allow := by
    induction blocks generalizing whole with
    | nil => exact h
    | cons block rest ih =>
      exact ih (h.withBlock (.ofBody (makes_bodyOf ha l name (some block))) block)
  exact extended _ (.ofBody (makes_bodyOf ha l name none))

theorem makes_load (ha : Allowed allow) (l : Library) (name : String) :
    (l.load name : Code Ω (Outcome (Template Ω))).Makes allow fun outcome =>
      ∀ t, outcome = .template t → t.Makes allow := by
  unfold load
  cases l.source? name with
  | none => exact ⟨ha.missing name, nofun⟩
  | some source =>
    dsimp only
    cases l.settings.compile name source with
    | error f => exact nofun
    | ok _ =>
      rintro t ⟨⟩
      exact makes_template ha l name source

end Library
end Markup

end Stencil
