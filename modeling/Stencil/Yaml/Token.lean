import Stencil.Yaml.Scalar

/-!
The tokens of a YAML text. Block collections have no brackets of their own: columns tell where they
begin and end, and a key without a mark is known only by the colon behind it, so that the tokens
that open its mapping are put in before it.
-/

namespace Stencil.Yaml

inductive Token
  | version (major minor : Nat)
  | handle (name expansion : String)
  | documentStart
  | documentEnd
  | blockSequence
  | blockMapping
  | blockEnd
  | openBracket
  | closeBracket
  | openBrace
  | closeBrace
  | comma
  | dash
  | key
  | value
  | alias (name : String)
  | anchor (name : String)
  /-- A tag as a handle and what follows it. Without a handle it is written in full. -/
  | tag (handle : Option String) (suffix : String)
  | scalar (style : Style) (text : String)
deriving DecidableEq, Repr

/-- A token that is a key if a colon follows on its line, at most 1024 bytes further on. A key that
stands where one is due is required. -/
structure PossibleKey where
  required : Bool
  /-- The number of tokens before it. -/
  number : Nat
  offset : Nat
  line : Nat
  column : Nat

/-- How far a text has been taken apart. The tokens stand in reverse order. For each bracket that is
open, and for all outside of brackets, there may be a token that can still turn out to be a key. -/
structure Scan where
  here : Cursor
  tokens : List Token := []
  count : Nat := 0
  keys : List (Option PossibleKey) := [none]
  /-- The column of the innermost block collection, or -1. -/
  indent : Int := -1
  /-- The columns of the block collections around it. -/
  outer : List Int := []
  /-- Whether a key without a mark, or a block collection, may begin here. -/
  keyAllowed : Bool := true

abbrev Scanner := StateT Scan (Except Refusal)

namespace Scanner

def malformed {α : Type} : Scanner α := throw .malformed

def inFlow : Scanner Bool := do return (← get).keys.length != 1

def emit (t : Token) : Scanner Unit := modify fun s =>
  { s with tokens := t :: s.tokens, count := s.count + 1 }

def insertAt (number : Nat) (t : Token) : Scanner Unit := modify fun s =>
  { s with tokens := s.tokens.insertIdx (s.count - number) t, count := s.count + 1 }

def allowKey (b : Bool) : Scanner Unit := modify fun s => { s with keyAllowed := b }

def move (f : Cursor → Cursor) : Scanner Unit := modify fun s => { s with here := f s.here }

def read {α : Type} (f : Cursor → Attempt (α × Cursor)) : Scanner α := do
  let (a, here) ← f (← get).here
  modify fun s => { s with here := here }
  return a

def peek? : Scanner (Option Char) := do return (← get).here.peek?

def takeWhile (p : Char → Bool) : Scanner (List Char) := read fun c => .ok (c.take p)

/-- Opens a block collection, if this column is further in than the present one. Its token goes
behind the first `number` ones. -/
def openBlock (column number : Nat) (t : Token) : Scanner Unit := do
  let s ← get
  if !(← inFlow) && s.indent < column then
    set { s with indent := column, outer := s.indent :: s.outer }
    insertAt number t

def closeBlocks (column : Int) : Nat → Scanner Unit
  | 0 => pure ()
  | n + 1 => do
    let s ← get
    if !(← inFlow) && column < s.indent then
      set { s with indent := s.outer.headD (-1), outer := s.outer.drop 1 }
      emit .blockEnd
      closeBlocks column n

def closeTo (column : Int) : Scanner Unit := do closeBlocks column ((← get).outer.length + 1)

def dropKey : Scanner Unit := do
  let s ← get
  if (s.keys.head?.join).any PossibleKey.required then malformed
  set { s with keys := none :: s.keys.drop 1 }

def saveKey : Scanner Unit := do
  let s ← get
  if s.keyAllowed then
    dropKey
    let required := !(← inFlow) && s.indent == s.here.column
    let key : PossibleKey := ⟨required, s.count, s.here.offset, s.here.line, s.here.column⟩
    modify fun s => { s with keys := some key :: s.keys.drop 1 }

def dropOldKeys : Scanner Unit := do
  let s ← get
  let isOld (k : PossibleKey) : Bool := k.line < s.here.line || k.offset + 1024 < s.here.offset
  if s.keys.any fun k => k.any fun k => isOld k && k.required then malformed
  set { s with keys := s.keys.map (Option.filter fun k => !isOld k) }

/-- Skips blanks, comments and line breaks. Outside of brackets a tab may stand only where no key
could. -/
def skipToToken : Nat → Scanner Unit
  | 0 => pure ()
  | n + 1 => do
    let s ← get
    let flow ← inFlow
    let tabs := flow || !s.keyAllowed
    let c := s.here
    let c := if c.column == 0 && c.peek?.any isByteOrderMark then c.skip 1 else c
    let c := (c.skipWhile fun d => d == ' ' || (tabs && d == '\t')).skipComment
    match c.takeBreak? with
    | some (_, next) => do
      set { s with here := next, keyAllowed := s.keyAllowed || !flow }
      skipToToken n
    | none => set { s with here := c }

def isTagChar (c : Char) : Bool :=
  isNameChar c || [';', '/', '?', ':', '@', '&', '=', '+', '$', '.', '%', '!', '~', '*', '\'', '(',
    ')'].contains c

def isFullTagChar (c : Char) : Bool := isTagChar c || c == ',' || c == '[' || c == ']'

def tagBytes : List Char → Option (List UInt8)
  | [] => some []
  | '%' :: a :: b :: rest => do
    let byte := (← digitIn? 16 a) * 16 + (← digitIn? 16 b)
    return UInt8.ofNat byte :: (← tagBytes rest)
  | '%' :: _ => none
  | c :: rest => do return (String.singleton c).toUTF8.toList ++ (← tagBytes rest)

def tagText (cs : List Char) : Scanner String :=
  match (tagBytes cs).bind fun bytes => String.fromUTF8? ⟨bytes.toArray⟩ with
  | some s => pure s
  | none => malformed

def tagPart (p : Char → Bool) : Scanner String := do
  let cs ← takeWhile p
  if cs.isEmpty then malformed
  tagText cs

def anchorName : Scanner String := do
  let name ← takeWhile isNameChar
  let after ← peek?
  let ends := ['?', ':', ',', ']', '\x7d', '%', '@', Char.ofNat 96]
  if name.isEmpty || !(isWordEnd after || after.any ends.contains) then malformed
  return String.ofList name

def tag : Scanner Token := do
  let found ← if (← peek?) == some '<' then do
      move (·.skip 1)
      let suffix ← tagPart isFullTagChar
      if (← peek?) != some '>' then malformed
      move (·.skip 1)
      pure (Token.tag none suffix)
    else do
      let word ← takeWhile isNameChar
      if (← peek?) == some '!' then
        move (·.skip 1)
        pure (Token.tag (some ("!" ++ String.ofList word ++ "!")) (← tagPart isTagChar))
      else
        let suffix ← tagText (word ++ (← takeWhile isTagChar))
        pure (if suffix == "" then Token.tag none "!" else Token.tag (some "!") suffix)
  let after ← peek?
  if isWordEnd after || ((← inFlow) && after == some ',') then return found else malformed

def versionNumber : Scanner Nat := do
  let digits ← takeWhile Char.isDigit
  if 9 < digits.length then malformed
  match natIn? 10 digits with
  | some n => return n
  | none => malformed

def directive : Scanner Token := do
  let name ← takeWhile isNameChar
  if !isWordEnd (← peek?) then malformed
  move (·.skipWhile isBlank)
  let found ← match String.ofList name with
    | "YAML" => do
      let major ← versionNumber
      if (← peek?) != some '.' then malformed
      move (·.skip 1)
      pure (Token.version major (← versionNumber))
    | "TAG" => do
      if (← peek?) != some '!' then malformed
      move (·.skip 1)
      let word ← takeWhile isNameChar
      let closed := (← peek?) == some '!'
      if closed then move (·.skip 1) else if !word.isEmpty then malformed
      if !(← peek?).any isBlank then malformed
      move (·.skipWhile isBlank)
      let expansion ← tagPart isFullTagChar
      if !isWordEnd (← peek?) then malformed
      pure (Token.handle ("!" ++ String.ofList word ++ if closed then "!" else "") expansion)
    | _ => malformed
  read fun c => do return ((), (← c.endLine).skipBreak)
  return found

def leaveDocument : Scanner Unit := do
  closeTo (-1)
  dropKey
  allowKey false

def mayBeKey (f : Scanner Token) : Scanner Unit := do
  saveKey
  allowKey false
  emit (← f)

def opening (t : Token) : Scanner Unit := do
  saveKey
  modify fun s => { s with keys := none :: s.keys, keyAllowed := true, here := s.here.skip 1 }
  emit t

def closing (t : Token) : Scanner Unit := do
  dropKey
  if ← inFlow then modify fun s => { s with keys := s.keys.drop 1 }
  modify fun s => { s with keyAllowed := false, here := s.here.skip 1 }
  emit t

def mark (t : Token) (keyAllowed : Bool) : Scanner Unit := do
  dropKey
  modify fun s => { s with keyAllowed := keyAllowed, here := s.here.skip 1 }
  emit t

def blockMark (t collection : Token) (keyAllowed : Bool) : Scanner Unit := do
  let s ← get
  if !(← inFlow) then
    if !s.keyAllowed then malformed
    openBlock s.here.column s.count collection
  mark t keyAllowed

/-- The colon behind a key. If there is no possible key, the key has a mark or is empty. -/
def valueMark : Scanner Unit := do
  let s ← get
  match s.keys.head?.join with
  | none => blockMark .value .blockMapping (!(← inFlow))
  | some key => do
    insertAt key.number .key
    openBlock key.column key.number .blockMapping
    modify fun s => { s with
      keys := none :: s.keys.drop 1
      keyAllowed := false
      here := s.here.skip 1 }
    emit .value

def quoted (f : Nat → Cursor → Attempt (List Char × Cursor)) : Scanner Token := do
  let text ← read fun c => f (c.rest.length + 1) (c.skip 1)
  return .scalar .quoted (String.ofList text)

def plainScalar : Scanner Token := do
  let flow ← inFlow
  let indent := ((← get).indent + 1).toNat
  let (text, broken) ← read fun c => do
    let (text, broken, c) ← c.plain flow indent (c.rest.length + 1)
    return ((text, broken), c)
  if broken then allowKey true
  return .scalar .plain (String.ofList text)

def blockScalar (fold : Bool) : Scanner Unit := do
  dropKey
  allowKey true
  let indent := (← get).indent
  let text ← read fun c => (c.skip 1).block fold indent
  emit (.scalar (if fold then .quoted else .literal) (String.ofList text))

def startsPlain (flow : Bool) (c : Char) (after : Option Char) : Bool :=
  let marks := ['-', '?', ':', ',', '[', ']', '\x7b', '\x7d', '#', '&', '*', '!', '|', '>', '\'',
    '"', '%', '@', Char.ofNat 96]
  if c == '-' then !after.any isBlank
  else if c == '?' || c == ':' then !flow && !isWordEnd after
  else !(isBlank c || isBreak c || marks.contains c)

def tokenAt (c : Char) : Scanner Unit := do
  let here := (← get).here
  let flow ← inFlow
  let after := here.peekAt? 1
  let behind (f : Scanner Token) : Scanner Token := do
    move (·.skip 1)
    f
  if here.column == 0 && c == '%' then do leaveDocument; emit (← behind directive)
  else if here.atMarker then
    leaveDocument
    move (·.skip 3)
    emit (if c == '-' then .documentStart else .documentEnd)
  else if c == '[' then opening .openBracket
  else if c == '\x7b' then opening .openBrace
  else if c == ']' then closing .closeBracket
  else if c == '\x7d' then closing .closeBrace
  else if c == ',' then mark .comma true
  else if c == '-' && isWordEnd after then blockMark .dash .blockSequence true
  else if c == '?' && (flow || isWordEnd after) then blockMark .key .blockMapping (!flow)
  else if c == ':' && (flow || isWordEnd after) then valueMark
  else if c == '*' then mayBeKey (behind do return .alias (← anchorName))
  else if c == '&' then mayBeKey (behind do return .anchor (← anchorName))
  else if c == '!' then mayBeKey (behind tag)
  else if !flow && (c == '|' || c == '>') then blockScalar (c == '>')
  else if c == '\'' then mayBeKey (quoted fun n c => c.singleQuoted n)
  else if c == '"' then mayBeKey (quoted fun n c => c.doubleQuoted n)
  else if startsPlain flow c after then mayBeKey plainScalar
  else malformed

def scan : Nat → Scanner Unit
  | 0 => malformed
  | n + 1 => do
    skipToToken ((← get).here.rest.length + 1)
    dropOldKeys
    closeTo (← get).here.column
    match ← peek? with
    | some c => do
      tokenAt c
      scan n
    | none => leaveDocument

end Scanner

def isPrintable (c : Char) : Bool :=
  let n := c.toNat
  n == 9 || n == 10 || n == 13 || (0x20 ≤ n && n ≤ 0x7E) || n == 0x85 || (0xA0 ≤ n && n ≤ 0xFFFD) ||
    0x10000 ≤ n

def Token.ofText (text : String) : Except Refusal (List Token) := do
  let cs := text.toList
  if !cs.all isPrintable then throw .malformed
  let ((), s) ← (Scanner.scan (cs.length + 1)).run { here := { rest := cs } }
  return s.tokens.reverse

end Stencil.Yaml
