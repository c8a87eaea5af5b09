/-!
Expressions and statements of templates.
-/

namespace Stencil.Markup

inductive Literal
  | none
  | bool (b : Bool)
  | int (i : Int)
  /-- The decimal `digits · 10 ^ power`. -/
  | float (digits : Nat) (power : Int)
  | string (s : String)
deriving DecidableEq, Repr

inductive Unary
  | not
  | negate
deriving DecidableEq, Repr

inductive Binary
  | add | subtract | multiply | divide | floorDivide | remainder | power | concat
deriving DecidableEq, Repr

inductive Comparison
  | equal | notEqual | less | lessEqual | greater | greaterEqual | contained | notContained
deriving DecidableEq, Repr

inductive Expr
  | lit (l : Literal)
  | var (name : String)
  | list (items : List Expr)
  | map (entries : List (Expr × Expr))
  | attr (e : Expr) (name : String)
  | item (e key : Expr)
  | slice (e : Expr) (start stop step : Option Expr)
  | unary (op : Unary) (e : Expr)
  | binary (op : Binary) (left right : Expr)
  /-- Each value is compared with the one behind it. -/
  | compare (first : Expr) (rest : List (Comparison × Expr))
  | and (left right : Expr)
  | or (left right : Expr)
  | choose (condition yes : Expr) (no : Option Expr)
  /-- Arguments that have a name come behind the others. -/
  | filter (name : String) (e : Expr) (args : List (Option String × Expr))
  | test (name : String) (e : Expr) (args : List (Option String × Expr))
  | call (f : Expr) (args : List (Option String × Expr))
deriving Repr, Inhabited

inductive Target
  | name (s : String)
  | list (items : List Target)
  /-- An attribute of what is found along a path of attributes. Nothing can be assigned to it. -/
  | attr (name : String) (path : List String)
deriving Repr, Inhabited

abbrev FilterCall := String × List (Option String × Expr)

inductive Statement
  | text (s : String)
  | emit (e : Expr)
  | choose (condition : Expr) (yes no : List Statement)
  | loop (target : Target) (items : Expr) (condition : Option Expr)
      (body otherwise : List Statement)
  | set (target : Target) (e : Expr)
  | capture (target : Target) (filters : List FilterCall) (body : List Statement)
  | scope (assignments : List (Target × Expr)) (body : List Statement)
  | filtered (filters : List FilterCall) (body : List Statement)
  | escaping (mode : Expr) (body : List Statement)
  | block (name : String) (body : List Statement)
  | extend (name : Expr)
  | inclusion (name : Expr) (ignoreMissing : Bool)
  | perform (call : Expr)
deriving Repr, Inhabited

/-- A source that was read: its statements, and its blocks wherever they stand in it. -/
structure Syntax where
  body : List Statement
  blocks : List (String × List Statement)
deriving Repr, Inhabited

mutual

def Statement.blocks : Statement → List (String × List Statement)
  | .choose _ yes no => allBlocks yes ++ allBlocks no
  | .loop _ _ _ body otherwise => allBlocks body ++ allBlocks otherwise
  | .capture _ _ body => allBlocks body
  | .scope _ body => allBlocks body
  | .filtered _ body => allBlocks body
  | .escaping _ body => allBlocks body
  | .block name body => (name, body) :: allBlocks body
  | _ => []

def allBlocks : List Statement → List (String × List Statement)
  | [] => []
  | s :: rest => s.blocks ++ allBlocks rest

end

def Syntax.ofBody (body : List Statement) : Syntax := ⟨body, allBlocks body⟩

end Stencil.Markup
