import Stencil.Markup.Eval

/-!
Rendering. Statements print text and change the names in scope. Bodies of other templates and of
blocks are rendered at a level below, of which there are finitely many: scopes may be nested only so
deep, and no template extends itself.
-/

namespace Stencil.Markup.Engine

def refine (again : List Statement → Engine String) :
    List FilterCall → Datum → Engine Datum
  | [], d => pure d
  | (name, args) :: rest, d => do
    let args := arguments (← evalParts again args)
    refine again rest (← lift (Filter.apply (← rules) name d args))

/-- How many values a loop goes over, where that is known: the characters of a text are not
counted. -/
def lengthOf? (d : Datum) (all : List Datum) : Option Nat :=
  match d with
  | .string _ _ => none
  | _ => some all.length

def loopState (length : Option Nat) (i : Nat) (before : Datum) (after : Option Datum) : Datum :=
  let int (n : Nat) : Datum := .int n
  let known (f : Nat → Nat) : Datum := (length.map fun n => int (f n)).getD .missing
  .map (some ("<loop " ++ toString i ++ "/" ++ (length.map toString).getD "?" ++ ">"))
    [(.text "index0", int i), (.text "index", int (i + 1)), (.text "length", known id),
      (.text "revindex", known (· - i)), (.text "revindex0", known (· - i - 1)),
      (.text "first", .bool (i == 0)), (.text "last", .bool after.isNone), (.text "depth", int 1),
      (.text "depth0", int 0), (.text "previtem", before),
      (.text "nextitem", after.getD .missing)]

def beginRound (loop : Option Datum) : Engine Unit := modify fun m =>
  match m.frames with
  | f :: rest => { m with frames := { f with locals := [], loop := loop } :: rest }
  | [] => m

def rounds (length : Option Nat) (target : Target) (body : Engine String) :
    Nat → Datum → List Datum → Engine String
  | _, _, [] => pure ""
  | i, before, d :: rest => do
    beginRound (some (loopState length i before rest.head?))
    assign target d
    let text ← body
    return text ++ (← rounds length target body (i + 1) d rest)

def selected (target : Target) (condition : Engine Datum) : List Datum → Engine (List Datum)
  | [] => pure []
  | d :: rest => do
    beginRound none
    assign target d
    let keep ← lift ((← rules).truth (← condition))
    let kept ← selected target condition rest
    return if keep then d :: kept else kept

def escapingOf (initial : Escaping) (d : Datum) : Engine Escaping :=
  match d with
  | .string _ "html" => pure .html
  | .string _ "json" => pure .json
  | .string _ "none" => pure .none
  | .string _ _ => fail .invalidOperation
  | d =>
    if d.equals (.bool true) then pure (if initial = .none then .html else initial)
    else pure .none

def template (name : String) : Engine Syntax := do
  let setup ← read
  match setup.sources.get? name with
  | some source => lift (Syntax.read setup.settings source)
  | none => fail .templateNotFound

def stackBlocks (blocks : List (String × List Statement)) : Entries BlockStack :=
  .ofList (blocks.map fun (name, body) => (name, ⟨[body], 0⟩))

def layered (blocks : Entries BlockStack) (upper : List (String × List Statement)) :
    Entries BlockStack :=
  upper.foldl (fun bs (name, body) =>
    match bs.get? name with
    | some b => bs.insert name { b with bodies := b.bodies ++ [body] }
    | none => bs.insert name ⟨[body], 0⟩) blocks

/-- From here on output is dropped, and the template that is named follows this one. -/
def extend (d : Datum) : Engine Unit := do
  if (← get).parent.isSome then fail .invalidOperation
  match d.string? with
  | none => fail .invalidOperation
  | some name => do
    if (← get).extended.contains name then fail .invalidOperation
    let t ← template name
    modify fun m => { m with
      extended := name :: m.extended
      blocks := layered m.blocks t.blocks
      parent := some t
      silent := true }

def firstTemplate : List Datum → Engine (Option (String × Syntax))
  | [] => pure none
  | d :: rest => do
    match d.string? with
    | none => fail .invalidOperation
    | some name =>
      if (← read).sources.contains name then return some (name, ← template name)
      else firstTemplate rest

/-- Renders another template in place, in the same scope but with blocks of its own. A failure in
there counts as one of the include. -/
def renderInclude (again : List Statement → Engine String) (d : Datum) (ignoreMissing : Bool) :
    Engine String := do
  let names := match d with
    | .list _ names => names
    | .map _ entries => entries.map Prod.fst
    | .function _ => []
    | d => [d]
  match ← firstTemplate names with
  | none => if names.isEmpty || ignoreMissing then return "" else fail .templateNotFound
  | some (name, t) => do
    let m ← get
    if depthLimit < depth m + includeCost then fail .invalidOperation
    set { m with
      included := m.included + includeCost
      escaping := escapingFor (← read).settings name
      blocks := stackBlocks t.blocks }
    let text ← tryCatch (again t.body) fun _ => fail .badInclude
    modify fun after => { after with
      included := m.included
      escaping := m.escaping
      blocks := m.blocks
      extended := m.extended }
    return text

def inNewScope (c : Engine String) : Engine String := do
  push {}
  let text ← c
  pop
  return text

def assignAllOf (again : List Statement → Engine String) :
    List (Target × Expr) → Engine Unit
  | [] => pure ()
  | (t, e) :: rest => do
    assign t (← eval again e)
    assignAllOf again rest

section

variable (again : List Statement → Engine String)

mutual

def exec : Statement → Engine String
  | .text s => printed s
  | .emit e =>
    match e with
    | .call (.var "super") [] => do printed (← renderSuper again)
    | .call (.attr (.var "self") name) _ => blockInPlace again name
    | e => do output (← eval again e)
  | .choose condition yes no => do
    if ← lift ((← rules).truth (← eval again condition)) then execAll yes else execAll no
  | .loop target items condition body otherwise => do
    let d ← eval again items
    let all ← lift ((← rules).items d)
    let (kept, length) ← match condition with
      | none => pure (all, lengthOf? d all)
      | some e => do
        push {}
        let kept ← selected target (eval again e) all
        pop
        pure (kept, some kept.length)
    if kept.isEmpty then execAll otherwise
    else inNewScope (rounds length target (execAll body) 0 .missing kept)
  | .set target e => do
    assign target (← eval again e)
    return ""
  | .capture target filters body => do
    let d ← capturing (execAll body)
    assign target (← refine again filters d)
    return ""
  | .scope assignments body => inNewScope do
    assignAllOf again assignments
    execAll body
  | .filtered filters body => do
    let d ← capturing (execAll body)
    output (← refine again filters d)
  | .escaping mode body => do
    let old := (← get).escaping
    let initial := (← rules).initial
    let mode ← escapingOf initial (← eval again mode)
    modify fun m => { m with escaping := mode }
    let text ← execAll body
    modify fun m => { m with escaping := old }
    return text
  | .block name _ => blockInPlace again name
  | .extend e => do
    extend (← eval again e)
    return ""
  | .inclusion e ignoreMissing => do renderInclude again (← eval again e) ignoreMissing
  | .perform call => do
    let _ ← eval again call
    return ""

def execAll : List Statement → Engine String
  | [] => pure ""
  | s :: rest => do
    let text ← exec s
    return text ++ (← execAll rest)

end

end

/-- Renders a body, and then the template that it extends, if it does. There are `n` levels for what
is rendered inside. -/
def render : Nat → List Statement → Engine String
  | 0, _ => fail .invalidOperation
  | n + 1, body => do
    let outer ← get
    set { outer with parent := none }
    let text ← execAll (render n) body
    match (← get).parent with
    | none => do
      modify fun m => { m with parent := outer.parent }
      return text
    | some t => do
      modify fun m => { m with parent := none, silent := outer.silent }
      let rest ← render n t.body
      modify fun m => { m with parent := outer.parent, silent := outer.silent }
      return text ++ rest

/-- Levels enough for every render: each scope and include takes some of the depth, and each
template is extended once on the way to any body, also the one that the render began with. -/
def levels (setup : Setup) : Nat := depthLimit + setup.sources.length + 2

def start (setup : Setup) (t : Syntax) : Machine where
  frames := [{ context := .ofValue setup.context }]
  blocks := stackBlocks t.blocks
  escaping := escapingFor setup.settings setup.name

def whole (setup : Setup) : Rendering (Except Fault (String × Machine)) :=
  match setup.sources.get? setup.name with
  | none => .done (.error .templateNotFound)
  | some source =>
    match Syntax.read setup.settings source with
    | .error f => .done (.error f)
    | .ok t => render (levels setup) t.body setup (start setup t)

theorem whole_of_read (setup : Setup) {source : String} {t : Syntax}
    (hs : setup.sources.get? setup.name = some source)
    (ht : Syntax.read setup.settings source = .ok t) :
    whole setup = render (levels setup) t.body setup (start setup t) := by
  simp only [whole, hs, ht]

def printedBy (c : Rendering (Except Fault (String × Machine))) :
    Rendering (Except Failure String) :=
  c.bind fun
    | .ok (text, _) => .done (.ok text)
    | .error f => .done (.error f.failure)

/-- What a template leaves when it was rendered: its blocks are rendered in the machine that is
there then. -/
def captured (setup : Setup) (text : String) (m : Machine) : Captured where
  text := text
  blocks := m.blocks.keys
  renderBlock name := printedBy (renderBlock (render (levels setup)) name setup m)

end Engine

/-- The engine that is written out here, as an environment. -/
def Settings.environment (settings : Settings) : Environment where
  compile _ source :=
    match Syntax.read settings source with
    | .ok _ => .ok ()
    | .error f => .error f.failure
  render scene := Engine.printedBy (Engine.whole ⟨scene, settings⟩)
  capture scene := (Engine.whole ⟨scene, settings⟩).bind fun
    | .ok (text, m) => .done (.ok (Engine.captured ⟨scene, settings⟩ text m))
    | .error f => .done (.error f.failure)

theorem Settings.compile_eq_ok_iff {settings : Settings} {name source : String} :
    settings.environment.compile name source = .ok () ↔
      ∃ t, Syntax.read settings source = .ok t := by
  simp only [environment]
  cases Syntax.read settings source <;> simp

instance : Coe Settings Environment := ⟨Settings.environment⟩

end Stencil.Markup
