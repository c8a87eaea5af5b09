import Stencil.Markup.Parser

/-!
# Names that sources mention

The names that expressions, statements and sources use as values. What a call calls by a name is not
among them, nor is what is only assigned to, nor the names of attributes, filters, tests and blocks.
-/

namespace Stencil.Markup

mutual

def Expr.mentions : Expr → List String
  | .lit _ => []
  | .var name => [name]
  | .list items => mentionsAll items
  | .map entries => mentionsEntries entries
  | .attr e _ => e.mentions
  | .item e key => e.mentions ++ key.mentions
  | .slice e start stop step =>
    e.mentions ++ mentionsOption start ++ mentionsOption stop ++ mentionsOption step
  | .unary _ e => e.mentions
  | .binary _ left right => left.mentions ++ right.mentions
  | .compare first rest => first.mentions ++ mentionsChain rest
  | .and left right => left.mentions ++ right.mentions
  | .or left right => left.mentions ++ right.mentions
  | .choose condition yes no => condition.mentions ++ yes.mentions ++ mentionsOption no
  | .filter _ e args => e.mentions ++ mentionsArguments args
  | .test _ e args => e.mentions ++ mentionsArguments args
  | .call (.var _) args => mentionsArguments args
  | .call f args => f.mentions ++ mentionsArguments args

def mentionsAll : List Expr → List String
  | [] => []
  | e :: rest => e.mentions ++ mentionsAll rest

def mentionsEntries : List (Expr × Expr) → List String
  | [] => []
  | (key, e) :: rest => key.mentions ++ e.mentions ++ mentionsEntries rest

def mentionsOption : Option Expr → List String
  | none => []
  | some e => e.mentions

def mentionsChain : List (Comparison × Expr) → List String
  | [] => []
  | (_, e) :: rest => e.mentions ++ mentionsChain rest

def mentionsArguments : List (Option String × Expr) → List String
  | [] => []
  | (_, e) :: rest => e.mentions ++ mentionsArguments rest

end

mutual

/-- An attribute that is assigned to is one of a value. -/
def Target.mentions : Target → List String
  | .name _ => []
  | .list items => mentionsTargets items
  | .attr name _ => [name]

def mentionsTargets : List Target → List String
  | [] => []
  | t :: rest => t.mentions ++ mentionsTargets rest

end

def mentionsFilters : List FilterCall → List String
  | [] => []
  | (_, args) :: rest => mentionsArguments args ++ mentionsFilters rest

def mentionsAssignments : List (Target × Expr) → List String
  | [] => []
  | (t, e) :: rest => t.mentions ++ e.mentions ++ mentionsAssignments rest

mutual

def Statement.mentions : Statement → List String
  | .text _ => []
  | .emit e => e.mentions
  | .choose condition yes no => condition.mentions ++ mentionsBody yes ++ mentionsBody no
  | .loop target items condition body otherwise =>
    target.mentions ++ items.mentions ++ mentionsOption condition ++ mentionsBody body ++
      mentionsBody otherwise
  | .set target e => target.mentions ++ e.mentions
  | .capture target filters body =>
    target.mentions ++ mentionsFilters filters ++ mentionsBody body
  | .scope assignments body => mentionsAssignments assignments ++ mentionsBody body
  | .filtered filters body => mentionsFilters filters ++ mentionsBody body
  | .escaping mode body => mode.mentions ++ mentionsBody body
  | .block _ body => mentionsBody body
  | .extend name => name.mentions
  | .inclusion name _ => name.mentions
  | .perform call => call.mentions

def mentionsBody : List Statement → List String
  | [] => []
  | s :: rest => s.mentions ++ mentionsBody rest

end

def Syntax.mentions (t : Syntax) : List String :=
  mentionsBody t.body ++ t.blocks.flatMap fun b => mentionsBody b.2

def Spared (hidden : String → Prop) (names : List String) : Prop := ∀ name ∈ names, ¬ hidden name

theorem spared_append {hidden : String → Prop} {names others : List String} :
    Spared hidden (names ++ others) ↔ Spared hidden names ∧ Spared hidden others :=
  List.forall_mem_append

/-- No source that can be read mentions a hidden name, other than to call it. -/
def Settings.OnlyCall (settings : Settings) (hidden : String → Prop) (sources : Entries String) :
    Prop :=
  ∀ name source t, sources.get? name = some source → Syntax.read settings source = .ok t →
    Spared hidden t.mentions

end Stencil.Markup
