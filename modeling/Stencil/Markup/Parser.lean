import Stencil.Markup.Syntax
import Stencil.Markup.Token

/-!
Reading tokens as statements. Expressions bind, from loosest to tightest: `if`, `or`, `and`, `not`,
comparisons, sums, `~`, products, powers, the minus sign, and what follows a value: attributes,
subscripts, calls, filters and tests. Nesting is limited.
-/

namespace Stencil.Markup

structure Progress where
  tokens : List Token
  blocks : List String := []

abbrev Parser := StateT Progress (Except Fault)

namespace Parser

def bad {α : Type} : Parser α := throw .badSyntax

def peek? : Parser (Option Token) := do
  match (← get).tokens with
  | [] => return none
  | .broken fault :: _ => throw fault
  | t :: _ => return some t

def advance : Parser Unit := modify fun p => { p with tokens := p.tokens.drop 1 }

def next : Parser Token := do
  match ← peek? with
  | some t => do advance; return t
  | none => bad

def accept (t : Token) : Parser Bool := do
  if (← peek?) == some t then
    advance
    return true
  else return false

def expect (t : Token) : Parser Unit := do
  unless ← accept t do bad

def name : Parser String := do
  match ← next with
  | .name s => return s
  | _ => bad

def keyword (s : String) : Token := .name s

def remaining : Parser Nat := do return (← get).tokens.length

def chain (operator : Token → Option Binary) (operand : Parser Expr) : Nat → Expr → Parser Expr
  | 0, left => return left
  | n + 1, left => do
    match (← peek?).bind operator with
    | some op => do
      advance
      let right ← operand
      chain operator operand n (.binary op left right)
    | none => return left

def level (operator : Token → Option Binary) (operand : Parser Expr) : Parser Expr := do
  chain operator operand (← remaining) (← operand)

def power? : Token → Option Binary
  | .sign .power => some .power
  | _ => none

def product? : Token → Option Binary
  | .sign .times => some .multiply
  | .sign .divide => some .divide
  | .sign .floorDivide => some .floorDivide
  | .sign .percent => some .remainder
  | _ => none

def concat? : Token → Option Binary
  | .sign .tilde => some .concat
  | _ => none

def sum? : Token → Option Binary
  | .sign .plus => some .add
  | .sign .minus => some .subtract
  | _ => none

def comparison? : Token → Option Comparison
  | .sign .equal => some .equal
  | .sign .notEqual => some .notEqual
  | .sign .less => some .less
  | .sign .lessEqual => some .lessEqual
  | .sign .greater => some .greater
  | .sign .greaterEqual => some .greaterEqual
  | .name "in" => some .contained
  | .name "not" => some .notContained
  | _ => none

def comparisons (operand : Parser Expr) : Nat → Parser (List (Comparison × Expr))
  | 0 => return []
  | n + 1 => do
    match (← peek?).bind comparison? with
    | none => return []
    | some c => do
      advance
      if c = .notContained then expect (keyword "in")
      let e ← operand
      return (c, e) :: (← comparisons operand n)

def comparison (operand : Parser Expr) : Parser Expr := do
  let first ← operand
  let rest ← comparisons operand (← remaining)
  return if rest.isEmpty then first else .compare first rest

def negation (operand : Parser Expr) : Nat → Parser Expr
  | 0 => comparison operand
  | n + 1 => do
    if ← accept (keyword "not") then return .unary .not (← negation operand n)
    else comparison operand

def conjunctions (operand : Parser Expr) : Nat → Expr → Parser Expr
  | 0, left => return left
  | n + 1, left => do
    if ← accept (keyword "and") then conjunctions operand n (.and left (← operand)) else return left

def conjunction (operand : Parser Expr) : Parser Expr := do
  let operand := do negation operand (← remaining)
  conjunctions operand (← remaining) (← operand)

def disjunctions (operand : Parser Expr) : Nat → Expr → Parser Expr
  | 0, left => return left
  | n + 1, left => do
    if ← accept (keyword "or") then disjunctions operand n (.or left (← operand)) else return left

def disjunction (operand : Parser Expr) : Parser Expr := do
  disjunctions (conjunction operand) (← remaining) (← conjunction operand)

def conditionals (operand : Parser Expr) : Nat → Expr → Parser Expr
  | 0, yes => return yes
  | n + 1, yes => do
    if ← accept (keyword "if") then
      let condition ← disjunction operand
      if ← accept (keyword "else") then
        let no ← conditionals operand n (← disjunction operand)
        conditionals operand n (.choose condition yes (some no))
      else conditionals operand n (.choose condition yes none)
    else return yes

def conditional (operand : Parser Expr) : Parser Expr := do
  conditionals operand (← remaining) (← disjunction operand)

def arithmetic (operand : Parser Expr) : Parser Expr :=
  level sum? (level concat? (level product? (level power? operand)))

def separated {α : Type} (close : Sign) (element : Parser α) : Nat → Bool → Parser (List α)
  | 0, _ => bad
  | n + 1, first => do
    if ← accept (.sign close) then return []
    if !first then
      expect (.sign .comma)
      if ← accept (.sign close) then return []
    let a ← element
    return a :: (← separated close element n false)

def entry (expr : Parser Expr) : Parser (Expr × Expr) := do
  let key ← expr
  expect (.sign .colon)
  return (key, ← expr)

/-- The arguments of a call behind the opening parenthesis. Once one has a name, all have. -/
def arguments (expr simple : Parser Expr) : Nat → Bool → Bool → Parser (List (Option String × Expr))
  | 0, _, _ => bad
  | n + 1, first, named => do
    if ← accept (.sign .closeParen) then return []
    if !first then
      expect (.sign .comma)
      if ← accept (.sign .closeParen) then return []
    match ← expr with
    | .var name => do
      if ← accept (.sign .assign) then
        let v ← simple
        return (some name, v) :: (← arguments expr simple n false true)
      else if named then bad
      else return (none, .var name) :: (← arguments expr simple n false false)
    | e => do
      if named then bad
      return (none, e) :: (← arguments expr simple n false false)

def subscript (expr : Parser Expr) (e : Expr) : Parser Expr := do
  let isEnd (t : Option Token) : Bool :=
    t == some (.sign .closeBracket) || t == some (.sign .colon)
  if (← peek?) == some (.sign .closeBracket) then bad
  let start ← if (← peek?) == some (.sign .colon) then pure none else some <$> expr
  if ← accept (.sign .colon) then
    let stop ← if isEnd (← peek?) then pure none else some <$> expr
    let step ← if ← accept (.sign .colon) then
        if isEnd (← peek?) then pure none else some <$> expr
      else pure none
    expect (.sign .closeBracket)
    return .slice e start stop step
  else
    expect (.sign .closeBracket)
    match start with
    | some key => return .item e key
    | none => bad

def attributeOf (e : Expr) : Parser Expr := do
  match ← next with
  | .name s => return .attr e s
  | .int n => return .item e (.lit (.int n))
  | _ => bad

def suffixes (expr simple : Parser Expr) : Nat → Expr → Parser Expr
  | 0, e => return e
  | n + 1, e => do
    match ← peek? with
    | some (.sign .dot) => do
      advance
      suffixes expr simple n (← attributeOf e)
    | some (.sign .openBracket) => do
      advance
      suffixes expr simple n (← subscript expr e)
    | some (.sign .openParen) => do
      advance
      let args ← arguments expr simple (← remaining) true false
      suffixes expr simple n (.call e args)
    | _ => return e

def optionalArguments (expr simple : Parser Expr) : Parser (List (Option String × Expr)) := do
  if ← accept (.sign .openParen) then arguments expr simple (← remaining) true false
  else return []

/-- Whether a token begins the only argument of a test that has no parentheses. -/
def beginsArgument : Token → Bool
  | .name s => !(["and", "or", "else", "is", "if", "not", "in"].contains s)
  | .string _ | .int _ | .float _ _ => true
  | .sign s => s == .plus || s == .minus || s == .openBracket || s == .openBrace
  | _ => false

def refinements (expr simple bare : Parser Expr) : Nat → Expr → Parser Expr
  | 0, e => return e
  | n + 1, e => do
    match ← peek? with
    | some (.sign .pipe) => do
      advance
      let f ← name
      refinements expr simple bare n (.filter f e (← optionalArguments expr simple))
    | some (.name "is") => do
      advance
      let negated ← accept (keyword "not")
      let t ← name
      let args ← if (← peek?).any beginsArgument then pure [(none, ← bare)]
        else optionalArguments expr simple
      let test := Expr.test t e args
      refinements expr simple bare n (if negated then .unary .not test else test)
    | _ => return e

def tuple (expr : Parser Expr) (first : Expr) : Parser Expr := do
  let rest ← separated .closeParen expr (← remaining) false
  return .list (first :: rest)

/-- The texts that stand next to each other behind a quoted text belong to it. -/
def quotedTexts : Nat → String → Parser String
  | 0, s => return s
  | n + 1, s => do
    match ← peek? with
    | some (.string t) => do
      advance
      quotedTexts n (s ++ t)
    | _ => return s

def primary (expr : Parser Expr) : Parser Expr := do
  match ← next with
  | .name "true" | .name "True" => return .lit (.bool true)
  | .name "false" | .name "False" => return .lit (.bool false)
  | .name "none" | .name "None" => return .lit .none
  | .name s => return .var s
  | .string s => return .lit (.string (← quotedTexts (← remaining) s))
  | .int n => return .lit (.int n)
  | .float digits power => return .lit (.float digits power)
  | .sign .openParen => do
    if ← accept (.sign .closeParen) then return .list []
    let e ← expr
    if (← peek?) == some (.sign .comma) then tuple expr e
    else do
      expect (.sign .closeParen)
      return e
  | .sign .openBracket => return .list (← separated .closeBracket expr (← remaining) true)
  | .sign .openBrace => return .map (← separated .closeBrace (entry expr) (← remaining) true)
  | _ => bad

def negative (value : Parser Expr) : Nat → Parser Expr
  | 0 => bad
  | n + 1 => do
    if ← accept (.sign .minus) then return .unary .negate (← negative value n) else value

/-- The tightest level. Inside brackets `inner` reads operands, inside subscripts and arguments
`outer` does, and `self` behind the name of an argument. -/
def operand (self outer inner : Parser Expr) : Parser Expr := do
  let simple := disjunction (arithmetic self)
  let whole := conditional (arithmetic outer)
  let bare := do
    suffixes whole simple (← remaining) (← negative (primary (conditional (arithmetic inner)))
      ((← remaining) + 1))
  let e ← bare
  refinements whole simple bare (← remaining) e

/-- Operands at a depth of nesting that is still allowed, of which each value takes a level and each
expression another one. The first number bounds the nesting by the tokens that are left. -/
def operandAt : Nat → Nat → Parser Expr
  | 0, _ => bad
  | _, 0 => bad
  | n + 1, depth + 1 => fun p =>
    operand (operandAt n (depth + 1)) (operandAt n depth) (operandAt n (depth - 1)) p

def simpleExpr (depth : Nat) : Parser Expr := do
  disjunction (arithmetic (operandAt ((← remaining) + 1) depth))

def expr (depth : Nat) : Parser Expr := do
  conditional (arithmetic (operandAt ((← remaining) + 1) (depth - 1)))

def exprs (depth : Nat) : Nat → Parser (List Expr)
  | 0 => bad
  | n + 1 => do
    if !(← accept (.sign .comma)) then return []
    if (← peek?) == some .closeBlock then return []
    let e ← expr depth
    return e :: (← exprs depth n)

def exprOrList (depth : Nat) : Parser Expr := do
  let first ← expr depth
  if (← peek?) == some (.sign .comma) then
    return .list (first :: (← exprs depth (← remaining)))
  else return first

def reserved : List String := ["true", "True", "false", "False", "none", "None", "loop", "self"]

def assignedName : Parser String := do
  let s ← name
  if reserved.contains s then bad else return s

def endsTarget : Option Token → Bool
  | some (.sign .closeParen) | some .closeVariable | some .closeBlock | some (.name "in") => true
  | _ => false

def attributePath : Nat → Parser (List String)
  | 0 => return []
  | n + 1 => do
    if ← accept (.sign .dot) then
      let s ← name
      return s :: (← attributePath n)
    else return []

def assignedPlace (attributes : Bool) : Parser Target := do
  let root ← assignedName
  let path ← if attributes then attributePath (← remaining) else pure []
  match path.getLast? with
  | some _ => return .attr root path.dropLast
  | none => return .name root

mutual

def target : Nat → Parser Target
  | 0 => bad
  | n + 1 => do
    let (items, separated) ← targetItems n
    match items, separated with
    | [t], false => return t
    | ts, _ => return .list ts

def targetItems : Nat → Parser (List Target × Bool)
  | 0 => bad
  | n + 1 => do
    if endsTarget (← peek?) then return ([], false)
    let t ← targetItem n false
    if ← accept (.sign .comma) then
      let (rest, _) ← targetItems n
      return (t :: rest, true)
    else return ([t], false)

def targetItem : Nat → Bool → Parser Target
  | 0, _ => bad
  | n + 1, attributes => do
    if ← accept (.sign .openParen) then
      let t ← target n
      expect (.sign .closeParen)
      return t
    else assignedPlace attributes

end

def simpleTarget : Parser Target := do targetItem (2 * (← remaining) + 2) false

/-- What is assigned to by name: places between commas. The second part says whether parentheses
stand around all of it. -/
def setTarget : Parser (Target × Bool) := do
  let parenthesized := (← peek?) == some (.sign .openParen)
  let n := 2 * (← remaining) + 2
  let first ← targetItem n true
  if ← accept (.sign .comma) then
    let (rest, _) ← targetItems n
    return (.list (first :: rest), false)
  else return (first, parenthesized)

def filterChain (depth : Nat) : Nat → Parser (List FilterCall)
  | 0 => bad
  | n + 1 => do
    let f ← name
    let args ← optionalArguments (expr depth) (simpleExpr depth)
    if ← accept (.sign .pipe) then return (f, args) :: (← filterChain depth n)
    else return [(f, args)]

def assignments (depth : Nat) : Nat → Bool → Parser (List (Target × Expr))
  | 0, _ => bad
  | n + 1, first => do
    if (← peek?) == some .closeBlock then return []
    if !first then expect (.sign .comma)
    let t ← simpleTarget
    expect (.sign .assign)
    let e ← expr depth
    return (t, e) :: (← assignments depth n false)

/-- The statements up to a tag that opens with one of the words given, and that word. At the end of
the source there is none. `one` reads the rest of a tag. -/
def statements (depth : Nat) (one : Parser Statement) (words : List String) :
    Nat → Parser (List Statement × Option String)
  | 0 => return ([], none)
  | n + 1 => do
    match ← peek? with
    | none => return ([], none)
    | some (.text cs) => do
      advance
      let (rest, word) ← statements depth one words n
      return (.text (String.ofList cs) :: rest, word)
    | some .openVariable => do
      advance
      let e ← expr depth
      expect .closeVariable
      let (rest, word) ← statements depth one words n
      return (.emit e :: rest, word)
    | some .openBlock => do
      advance
      match ← peek? with
      | none => bad
      | some t =>
        let word := match t with
          | .name s => if words.contains s then some s else none
          | _ => none
        if word.isSome then
          advance
          return ([], word)
        else
          let s ← one
          expect .closeBlock
          let (rest, word) ← statements depth one words n
          return (s :: rest, word)
    | some _ => bad

def body (depth : Nat) (one : Parser Statement) (word : String) : Parser (List Statement) := do
  let (ss, _) ← statements depth one [word] (← remaining)
  return ss

def branches (depth : Nat) (one : Parser Statement) : Nat → Parser Statement
  | 0 => bad
  | n + 1 => do
    let condition ← simpleExpr depth
    expect .closeBlock
    let (yes, word) ← statements depth one ["endif", "else", "elif"] (← remaining)
    match word with
    | some "else" => do
      expect .closeBlock
      return .choose condition yes (← body depth one "endif")
    | some "elif" => return .choose condition yes [← branches depth one n]
    | _ => return .choose condition yes []

def loop (depth : Nat) (one : Parser Statement) : Parser Statement := do
  let t ← target (2 * (← remaining) + 2)
  expect (keyword "in")
  let items ← simpleExpr depth
  let condition ← if ← accept (keyword "if") then some <$> expr depth else pure none
  expect .closeBlock
  let (ss, word) ← statements depth one ["endfor", "else"] (← remaining)
  if word == some "else" then
    expect .closeBlock
    return .loop t items condition ss (← body depth one "endfor")
  else return .loop t items condition ss []

def assignment (depth : Nat) (one : Parser Statement) : Parser Statement := do
  let (t, parenthesized) ← setTarget
  let after ← peek?
  if !parenthesized && (after == some .closeBlock || after == some (.sign .pipe)) then
    let filters ← if ← accept (.sign .pipe) then filterChain depth ((← remaining) + 1) else pure []
    expect .closeBlock
    return .capture t filters (← body depth one "endset")
  else
    expect (.sign .assign)
    return .set t (← exprOrList depth)

/-- A block. Its name is given once in a source, and may be repeated at its end. -/
def block (depth : Nat) (one : Parser Statement) : Parser Statement := do
  let s ← name
  if (← get).blocks.contains s then bad
  modify fun p => { p with blocks := s :: p.blocks }
  expect .closeBlock
  let ss ← body depth one "endblock"
  match ← peek? with
  | some (.name trailing) => do
    if trailing != s then bad
    advance
  | _ => pure ()
  return .block s ss

def contextRemark : Parser Unit := do
  if (← accept (keyword "with")) then expect (keyword "context")
  else if (← accept (keyword "without")) then expect (keyword "context")

def inclusion (depth : Nat) : Parser Statement := do
  let e ← expr depth
  contextRemark
  if ← accept (keyword "ignore") then
    expect (keyword "missing")
    contextRemark
    return .inclusion e true
  else return .inclusion e false

def isCall : Expr → Bool
  | .call _ _ => true
  | _ => false

def statement : Nat → Parser Statement
  | 0 => bad
  | n + 1 => do
    let one := statement n
    match ← name with
    | "if" => do branches n one (← remaining)
    | "for" => loop n one
    | "set" => assignment n one
    | "with" => do
      let pairs ← assignments n ((← remaining) + 1) true
      expect .closeBlock
      return .scope pairs (← body n one "endwith")
    | "filter" => do
      let filters ← filterChain n ((← remaining) + 1)
      expect .closeBlock
      return .filtered filters (← body n one "endfilter")
    | "autoescape" => do
      let mode ← expr n
      expect .closeBlock
      return .escaping mode (← body n one "endautoescape")
    | "block" => block n one
    | "extends" => return .extend (← expr n)
    | "include" => inclusion n
    | "do" => do
      let e ← expr n
      if isCall e then return .perform e else bad
    | _ => bad

def depthLimit : Nat := 150

def template : Parser (List Statement) := do
  let (ss, _) ← statements depthLimit (statement depthLimit) [] ((← remaining) + 1)
  return ss

end Parser

def Syntax.read (settings : Settings) (source : String) : Except Fault Syntax := do
  let (body, _) ← Parser.template.run { tokens := Token.ofSource settings source }
  return .ofBody body

end Stencil.Markup
