import Stencil.Value

/-!
YAML nodes, and the reading of a scalar as a value.
-/

namespace Stencil.Yaml

inductive Style
  | plain
  | literal
  | quoted
deriving DecidableEq, Repr

inductive Node
  | scalar (tag : Option String) (style : Style) (text : String)
  | sequence (tag : Option String) (items : List Node)
  | mapping (tag : Option String) (entries : List (Node × Node))
  /-- Stands for a node by the number of its anchor. -/
  | alias (number : Nat)
deriving Repr, Inhabited

def Node.empty : Node := .scalar none .plain ""

def Node.withTag (tag : Option String) : Node → Node
  | .scalar none style text => .scalar tag style text
  | .sequence none items => .sequence tag items
  | .mapping none entries => .mapping tag entries
  | node => node

structure Document where
  root : Node
  anchored : List (Nat × Node) := []

/-- The node itself, or what it stands for. Of anchors with one number the last counts. -/
def Document.resolve (d : Document) : Node → Option Node
  | .alias number => d.anchored.reverse.lookup number
  | node => some node

mutual

/-- The number of events that a node takes to be told: collections have a start and an end. -/
def Node.events : Node → Nat
  | .scalar _ _ _ => 1
  | .alias _ => 1
  | .sequence _ items => itemEvents items + 2
  | .mapping _ entries => entryEvents entries + 2

def itemEvents : List Node → Nat
  | [] => 0
  | node :: rest => node.events + itemEvents rest

def entryEvents : List (Node × Node) → Nat
  | [] => 0
  | (key, node) :: rest => key.events + node.events + entryEvents rest

end

inductive Refusal
  | malformed
  | mistyped
deriving DecidableEq, Repr

def coreTag (name : String) : String := "tag:yaml.org,2002:" ++ name

def isNull (s : String) : Bool := ["", "~", "null", "Null", "NULL"].contains s

def bool? (s : String) : Option Bool :=
  if ["true", "True", "TRUE"].contains s then some true
  else if ["false", "False", "FALSE"].contains s then some false
  else none

def digitIn? (radix : Nat) (c : Char) : Option Nat :=
  let n :=
    if c.isDigit then c.toNat - '0'.toNat
    else if 'a' ≤ c && c ≤ 'z' then c.toNat - 'a'.toNat + 10
    else if 'A' ≤ c && c ≤ 'Z' then c.toNat - 'A'.toNat + 10
    else radix
  if n < radix then some n else none

def natIn? (radix : Nat) : List Char → Option Nat
  | [] => none
  | cs => cs.foldlM (fun n c => (digitIn? radix c).map (n * radix + ·)) 0

/-- Digits behind a leading zero: a text, not a number. -/
def isPadded (cs : List Char) : Bool :=
  match cs with
  | '0' :: rest => !rest.isEmpty && rest.all Char.isDigit
  | _ => false

def magnitude? : List Char → Option Nat
  | '0' :: 'x' :: rest => natIn? 16 rest
  | '0' :: 'o' :: rest => natIn? 8 rest
  | '0' :: 'b' :: rest => natIn? 2 rest
  | cs => if isPadded cs then none else natIn? 10 cs

def int? : List Char → Option Int
  | '+' :: rest => (magnitude? rest).map Int.ofNat
  | '-' :: rest => (magnitude? rest).map fun n => -(n : Int)
  | cs => (magnitude? cs).map Int.ofNat

def decimal? (cs : List Char) : Option (Nat × Int) := do
  let whole := cs.takeWhile Char.isDigit
  let rest := cs.dropWhile Char.isDigit
  let (fraction, rest) := match rest with
    | '.' :: rest => (rest.takeWhile Char.isDigit, rest.dropWhile Char.isDigit)
    | rest => ([], rest)
  let digits ← natIn? 10 (whole ++ fraction)
  let power : Int := -(fraction.length : Int)
  match rest with
  | [] => some (digits, power)
  | 'e' :: rest | 'E' :: rest =>
    let exponent ← match rest with
      | '-' :: ds => (natIn? 10 ds).map fun n => -(n : Int)
      | '+' :: ds => (natIn? 10 ds).map Int.ofNat
      | ds => (natIn? 10 ds).map Int.ofNat
    some (digits, power + exponent)
  | _ => none

def float? (cs : List Char) : Option (Option Binary64) :=
  let finite (negative : Bool) (cs : List Char) : Option (Option Binary64) := do
    let (digits, power) ← decimal? cs
    (Binary64.ofDecimal negative digits power).map some
  let special (s : String) : Bool := [".inf", ".Inf", ".INF"].contains s
  match cs with
  | '+' :: rest => if special (String.ofList rest) then some none else finite false rest
  | '-' :: rest => if special (String.ofList rest) then some none else finite true rest
  | cs =>
    if special (String.ofList cs) || [".nan", ".NaN", ".NAN"].contains (String.ofList cs) then
      some none
    else finite false cs

/-- The value of a plain scalar. A whole number has to fit 64 bits; data knows no infinity, so null
stands for it. -/
def plainValue (s : String) : Except Refusal Value :=
  if isNull s then .ok .null
  else match bool? s with
    | some b => .ok (.bool b)
    | none =>
      let cs := s.toList
      match int? cs with
      | some i =>
        if fitsSigned 64 i || fitsUnsigned 64 i then .ok (.number (.int i))
        else if fitsSigned 128 i || fitsUnsigned 128 i then .error .mistyped
        else .ok (largeValue cs s)
      | none => .ok (largeValue cs s)
where
  /-- A float, or else the text itself. -/
  largeValue (cs : List Char) (s : String) : Value :=
    if isPadded (match cs with | '+' :: rest | '-' :: rest => rest | cs => cs) then .string s
    else match float? cs with
      | some (some x) => .number (.float x)
      | some none => .null
      | none => .string s

def isOwnTag (tag : String) : Bool := tag.startsWith "!"

/-- The value of a scalar. A core tag decides how the text is read; a tag of the document's own has
no value. -/
def scalarValue (tag : Option String) (style : Style) (s : String) : Except Refusal Value :=
  match tag with
  | none => if style = .plain then plainValue s else .ok (.string s)
  | some tag =>
    if isOwnTag tag then .error .mistyped
    else if tag == coreTag "bool" then
      match bool? s with
      | some b => .ok (.bool b)
      | none => .error .mistyped
    else if tag == coreTag "int" then
      match plainValue s with
      | .ok (.number (.int i)) => .ok (.number (.int i))
      | _ => .error .mistyped
    else if tag == coreTag "float" then
      match float? s.toList with
      | some (some x) => .ok (.number (.float x))
      | some none => .ok .null
      | none => .error .mistyped
    else if tag == coreTag "null" then
      if s != "" && isNull s then .ok .null else .error .mistyped
    else .ok (.string s)

end Stencil.Yaml
