import Stencil.Markup.Fault
import Stencil.Text.Blank
import Stencil.Word

/-!
The tokens of a template source: text as it stands, and what stands inside tags. A minus sign at the
edge of a tag takes away the blanks of the text beside it. Comments leave nothing, and a raw section
leaves its text.
-/

namespace Stencil.Markup

/-- Unless `autoescape` is given for all names, a name tells whether output is escaped. -/
structure Settings where
  autoescape : Option Bool := none
  strict : Bool := false
  trimBlocks : Bool := false
deriving DecidableEq, Repr

inductive Sign
  | plus | minus | times | divide | floorDivide | percent | power | tilde
  | dot | comma | colon | pipe | assign
  | equal | notEqual | less | lessEqual | greater | greaterEqual
  | openParen | closeParen | openBracket | closeBracket | openBrace | closeBrace
deriving DecidableEq, Repr

def Sign.depth : Sign → Int
  | .openParen | .openBracket | .openBrace => 1
  | .closeParen | .closeBracket | .closeBrace => -1
  | _ => 0

inductive Token
  | text (s : List Char)
  | openVariable
  | closeVariable
  | openBlock
  | closeBlock
  | name (s : String)
  | string (s : String)
  | int (n : Nat)
  | float (digits : Nat) (power : Int)
  | sign (s : Sign)
  /-- From here on the source cannot be read. -/
  | broken (fault : Fault)
deriving DecidableEq, Repr

/-- What the edge of a tag asks for: nothing, that blanks go, or that they stay. -/
inductive Edge
  | plain
  | strip
  | keep
deriving DecidableEq, Repr

namespace Edge

def ofChar? (c : Option Char) : Edge :=
  match c with
  | some '-' => .strip
  | some '+' => .keep
  | _ => .plain

def width : Edge → Nat
  | .plain => 0
  | _ => 1

end Edge

namespace Token

def isTagBlank (c : Char) : Bool :=
  c == ' ' || c == '\t' || c == '\n' || c == '\r' || c == Char.ofNat 12

def isNameStart (c : Char) : Bool := c.isAlpha || c == '_'

def isNamePart (c : Char) : Bool := c.isAlphanum || c == '_'

def after? (mark cs : List Char) : Option (List Char) :=
  if mark.isPrefixOf cs then some (cs.drop mark.length) else none

def splitText : List Char → List Char × List Char
  | [] => ([], [])
  | '{' :: c :: rest =>
    if c == '{' || c == '%' || c == '#' then ([], '{' :: c :: rest)
    else
      let (lead, rest) := splitText (c :: rest)
      ('{' :: lead, rest)
  | c :: rest =>
    let (lead, rest) := splitText rest
    (c :: lead, rest)

def splitAt? (mark : List Char) : List Char → Option (List Char × List Char)
  | [] => none
  | c :: rest =>
    if mark.isPrefixOf (c :: rest) then some ([], (c :: rest).drop mark.length)
    else (splitAt? mark rest).map fun (before, after) => (c :: before, after)

def bareTag? (keyword : String) (cs : List Char) : Option (Edge × List Char) := do
  let cs := cs.dropWhile isTagBlank
  let cs ← after? keyword.toList cs
  let cs := cs.dropWhile isTagBlank
  let edge := Edge.ofChar? cs.head?
  let cs ← after? ['%', '\x7d'] (cs.drop edge.width)
  some (edge, cs)

def dropBreak (cs : List Char) : List Char :=
  let cs := match cs with
    | '\r' :: rest => rest
    | cs => cs
  match cs with
  | '\n' :: rest => rest
  | cs => cs

def afterEdge (trimBlocks : Bool) (edge : Edge) (cs : List Char) : List Char :=
  match edge with
  | .plain => if trimBlocks then dropBreak cs else cs
  | .strip => Text.trimStart cs
  | .keep => cs

def beforeEdge (edge : Edge) (cs : List Char) : List Char :=
  if edge = .strip then Text.trimEnd cs else cs

def textTokens (cs : List Char) : List Token := if cs.isEmpty then [] else [.text cs]

/-- The text of a raw section up to the tag that ends it, what the edges of that tag ask for, and
the rest; `n` bounds the number of tags that are passed over. -/
def rawBody : Nat → List Char → Option (List Char × Edge × Edge × List Char)
  | 0, _ => none
  | n + 1, cs => do
    let (before, after) ← splitAt? ['{', '%'] cs
    let first := Edge.ofChar? after.head?
    match bareTag? "endraw" (after.drop first.width) with
    | some (last, rest) => some (before, first, last, rest)
    | none =>
      let (body, first, last, rest) ← rawBody n after
      some (before ++ ['{', '%'] ++ body, first, last, rest)

def sign2? : Char → Char → Option Sign
  | '/', '/' => some .floorDivide
  | '*', '*' => some .power
  | '=', '=' => some .equal
  | '!', '=' => some .notEqual
  | '>', '=' => some .greaterEqual
  | '<', '=' => some .lessEqual
  | _, _ => none

def sign1? : Char → Option Sign
  | '+' => some .plus
  | '-' => some .minus
  | '*' => some .times
  | '/' => some .divide
  | '%' => some .percent
  | '~' => some .tilde
  | '.' => some .dot
  | ',' => some .comma
  | ':' => some .colon
  | '|' => some .pipe
  | '=' => some .assign
  | '<' => some .less
  | '>' => some .greater
  | '(' => some .openParen
  | ')' => some .closeParen
  | '[' => some .openBracket
  | ']' => some .closeBracket
  | '\x7b' => some .openBrace
  | '\x7d' => some .closeBrace
  | _ => none

def quoted (delimiter : Char) : List Char → Option (List Char × List Char)
  | [] => none
  | '\\' :: c :: rest => (quoted delimiter rest).map fun (s, rest) => ('\\' :: c :: s, rest)
  | c :: rest =>
    if c = '\\' then none
    else if c = delimiter then some ([], rest)
    else (quoted delimiter rest).map fun (s, rest) => (c :: s, rest)

def hexDigit? (c : Char) : Option Nat :=
  if c.isDigit then some (c.toNat - '0'.toNat)
  else if 'a' ≤ c && c ≤ 'f' then some (c.toNat - 'a'.toNat + 10)
  else if 'A' ≤ c && c ≤ 'F' then some (c.toNat - 'A'.toNat + 10)
  else none

def natIn? (radix : Nat) : List Char → Option Nat
  | [] => none
  | cs => cs.foldlM (fun n c => do
      let d ← hexDigit? c
      if d < radix then some (n * radix + d) else none) 0

def hexNumber? (cs : List Char) : Option Nat :=
  match cs with
  | '+' :: c :: rest => natIn? 16 (c :: rest)
  | cs => natIn? 16 cs

def simpleEscape? : Char → Option Char
  | '"' => some '"'
  | '\\' => some '\\'
  | '/' => some '/'
  | '\'' => some '\''
  | 'b' => some (Char.ofNat 8)
  | 'f' => some (Char.ofNat 12)
  | 'n' => some '\n'
  | 'r' => some '\r'
  | 't' => some '\t'
  | _ => none

def isHigh (n : Nat) : Bool := 0xD800 ≤ n && n ≤ 0xDBFF

def isLow (n : Nat) : Bool := 0xDC00 ≤ n && n ≤ 0xDFFF

/-- What a character or an escape stands for: a character, or a number of 16 bits, which may be one
half of a character. -/
inductive Unit16
  | char (c : Char)
  | code (n : Nat)
deriving DecidableEq, Repr

def units : List Char → Option (List Unit16)
  | '\\' :: 'u' :: a :: b :: c :: d :: rest => do
    return .code (← hexNumber? [a, b, c, d]) :: (← units rest)
  | '\\' :: 'u' :: _ => none
  | '\\' :: 'x' :: a :: b :: rest => do
    return .char (Char.ofNat (← hexNumber? [a, b])) :: (← units rest)
  | '\\' :: 'x' :: _ => none
  | '\\' :: c :: rest => do
    match simpleEscape? c with
    | some d => return .char d :: (← units rest)
    | none => return .char '\\' :: .char c :: (← units rest)
  | ['\\'] => none
  | c :: rest => do return .char c :: (← units rest)
  | [] => some []

def paired : List Unit16 → Option (List Char)
  | [] => some []
  | .char c :: rest => do return c :: (← paired rest)
  | .code high :: .code low :: rest =>
    if isHigh high && isLow low then do
      return Char.ofNat ((high - 0xD800) * 0x400 + (low - 0xDC00) + 0x10000) :: (← paired rest)
    else if isHigh high || isLow high then none
    else do return Char.ofNat high :: (← paired (.code low :: rest))
  | .code n :: rest =>
    if isHigh n || isLow n then none else do return Char.ofNat n :: (← paired rest)

def unescape (cs : List Char) : Option (List Char) := (units cs).bind paired

inductive Part
  | radix
  | whole
  | fraction
  | exponent
  | signed
deriving DecidableEq

def Part.next? (radix : Nat) (p : Part) (c : Char) : Option Part :=
  if c == '_' then some p
  else match p with
    | .radix => if c.isDigit || (radix = 16 && (hexDigit? c).isSome) then some .radix else none
    | .whole =>
      if c.isDigit then some .whole
      else if c == '.' then some .fraction
      else if c == 'e' || c == 'E' then some .exponent
      else none
    | .fraction =>
      if c.isDigit then some .fraction
      else if c == 'e' || c == 'E' then some .exponent
      else none
    | .exponent => if c.isDigit || c == '+' || c == '-' then some .signed else none
    | .signed => if c.isDigit then some .signed else none

/-- The characters of a number, the part in which it ends, and the rest. A point before a name is
not part of the number. -/
def numberText (radix : Nat) : Part → List Char → List Char × Part × List Char
  | p, [] => ([], p, [])
  | p, c :: rest =>
    match (if c == '.' && rest.head?.any isNameStart then none else p.next? radix c) with
    | none => ([], p, c :: rest)
    | some p =>
      let (digits, last, rest) := numberText radix p rest
      (c :: digits, last, rest)

def floatToken? (cs : List Char) : Option Token := do
  let whole := cs.takeWhile Char.isDigit
  let rest := cs.dropWhile Char.isDigit
  let (fraction, rest) := match rest with
    | '.' :: rest => (rest.takeWhile Char.isDigit, rest.dropWhile Char.isDigit)
    | rest => ([], rest)
  let digits ← natIn? 10 (whole ++ fraction)
  let power : Int := -(fraction.length : Int)
  match rest with
  | [] => some (.float digits power)
  | _ :: '-' :: ds => do some (.float digits (power - (← natIn? 10 ds)))
  | _ :: '+' :: ds => do some (.float digits (power + (← natIn? 10 ds)))
  | _ :: ds => do some (.float digits (power + (← natIn? 10 ds)))

def number (cs : List Char) : Token × List Char :=
  let radix := match cs with
    | '0' :: c :: _ =>
      if c == 'b' || c == 'B' then 2
      else if c == 'o' || c == 'O' then 8
      else if c == 'x' || c == 'X' then 16
      else 10
    | _ => 10
  let (written, last, rest) :=
    if radix = 10 then numberText radix .whole cs else numberText radix .radix (cs.drop 2)
  let digits := written.filter (· != '_')
  let token :=
    if written.getLast? == some '_' then none
    else if last = .whole || last = .radix then
      (natIn? radix digits).bind fun n => if n < twoTo 128 then some (.int n) else none
    else floatToken? digits
  (token.getD (.broken .badSyntax), rest)

def lexeme : List Char → Token × List Char
  | [] => (.broken .badSyntax, [])
  | c :: rest =>
    match rest.head?.bind (sign2? c) with
    | some s => (.sign s, rest.drop 1)
    | none =>
      match sign1? c with
      | some s => (.sign s, rest)
      | none =>
        if c == '"' || c == '\'' then
          match quoted c rest with
          | none => (.broken .badSyntax, [])
          | some (body, rest) =>
            match unescape body with
            | some s => (.string (String.ofList s), rest)
            | none => (.broken .badEscape, [])
        else if c.isDigit then number (c :: rest)
        else if isNameStart c then
          (.name (String.ofList ((c :: rest).takeWhile isNamePart)),
            (c :: rest).dropWhile isNamePart)
        else (.broken .badSyntax, [])

/-- What ends a tag, when no bracket is open: an optional mark and the closing signs. -/
def tagEnd? (close : List Char) (cs : List Char) : Option (Edge × List Char) :=
  let edge := Edge.ofChar? cs.head?
  match after? close (cs.drop edge.width) with
  | some rest => some (edge, rest)
  | none => none

/-- The tokens of a tag, what its end asks for, and the rest behind it. Without an end the tokens
stop where the source does. `n` bounds the number of tokens. -/
def tag (close : List Char) : Nat → Int → List Char → List Token × Option (Edge × List Char)
  | 0, _, _ => ([.broken .badSyntax], none)
  | n + 1, depth, cs =>
    let cs := cs.dropWhile isTagBlank
    match (if depth = 0 then tagEnd? close cs else none) with
    | some found => ([], some found)
    | none =>
      if cs.isEmpty then ([], none)
      else
        let (token, rest) := lexeme cs
        match token with
        | .broken fault => ([.broken fault], none)
        | token =>
          let change := match token with
            | .sign s => s.depth
            | _ => 0
          let (tokens, found) := tag close n (depth + change) rest
          (token :: tokens, found)

/-- The edge of a comment's end: the mark before the closing signs. The mark of its start is not
taken for it. -/
def commentEdge (body : List Char) : Edge := Edge.ofChar? body.getLast?

def source (trimBlocks : Bool) : Nat → List Char → List Token
  | 0, _ => []
  | n + 1, cs =>
    let (lead, rest) := splitText cs
    match rest with
    | '{' :: kind :: inside =>
      let first := Edge.ofChar? inside.head?
      let lead := textTokens (beforeEdge first lead)
      let inside' := inside.drop first.width
      if kind == '#' then
        match splitAt? ['#', '\x7d'] inside' with
        | none => lead ++ [.broken .badSyntax]
        | some (body, rest) =>
          lead ++ source trimBlocks n (afterEdge trimBlocks (commentEdge body) rest)
      else if kind == '{' then
        let (tokens, found) := tag ['\x7d', '\x7d'] (inside'.length + 1) 0 inside'
        lead ++ .openVariable :: tokens ++ match found with
          | none => []
          | some (edge, rest) => .closeVariable :: source trimBlocks n (afterEdge false edge rest)
      else
        match bareTag? "raw" inside' with
        | some (opened, body) =>
          match rawBody (body.length + 1) body with
          | none => lead ++ [.broken .badSyntax]
          | some (body, first, last, rest) =>
            lead ++ .text (beforeEdge first (afterEdge trimBlocks opened body)) ::
              source trimBlocks n (afterEdge trimBlocks last rest)
        | none =>
          let (tokens, found) := tag ['%', '\x7d'] (inside'.length + 1) 0 inside'
          lead ++ .openBlock :: tokens ++ match found with
            | none => []
            | some (edge, rest) =>
              .closeBlock :: source trimBlocks n (afterEdge trimBlocks edge rest)
    | _ => textTokens lead

def withoutLastBreak (cs : List Char) : List Char :=
  let cs := if cs.getLast? == some '\n' then cs.dropLast else cs
  if cs.getLast? == some '\r' then cs.dropLast else cs

def ofSource (settings : Settings) (written : String) : List Token :=
  let cs := withoutLastBreak written.toList
  source settings.trimBlocks (cs.length + 1) cs

end Token
end Stencil.Markup
