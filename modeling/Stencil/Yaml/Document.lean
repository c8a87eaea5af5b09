import Stencil.Yaml.Token

/-!
Tokens as the nodes of a document. A place where a node could stand and nothing is written holds an
empty scalar.

Every function that reads nodes is given a number of steps, which the number of tokens bounds.
-/

namespace Stencil.Yaml

structure Progress where
  tokens : List Token
  numbers : Entries Nat := []
  /-- The anchors by number, with their nodes as far as these are complete. -/
  anchored : List (Nat × Node) := []
  handles : List (String × String) := []

abbrev Reader := StateT Progress (Except Refusal)

namespace Reader

def malformed {α : Type} : Reader α := throw .malformed

def peek? : Reader (Option Token) := do return (← get).tokens.head?

def advance : Reader Unit := modify fun p => { p with tokens := p.tokens.drop 1 }

def accept (t : Token) : Reader Bool := do
  if (← peek?) == some t then
    advance
    return true
  else return false

def atAny (ts : List Token) : Reader Bool := do return (← peek?).any ts.contains

/-- An anchor gets its number where it is put. Gives the place of its node among the anchored
ones. -/
def putAnchor (name : String) : Reader Nat := do
  let p ← get
  let number := p.numbers.length
  set { p with
    numbers := p.numbers.insert name number
    anchored := p.anchored ++ [(number, Node.empty)] }
  return p.anchored.length

def fillAnchor (place : Option Nat) (node : Node) : Reader Unit := modify fun p =>
  match place with
  | some i => { p with anchored := p.anchored.modify i fun (number, _) => (number, node) }
  | none => p

def anchor? : Reader (Option String) := do
  match ← peek? with
  | some (.anchor name) => do
    advance
    return some name
  | _ => return none

def tag? : Reader (Option String) := do
  match ← peek? with
  | some (.tag none suffix) => do
    advance
    return some suffix
  | some (.tag (some handle) suffix) => do
    advance
    match (← get).handles.lookup handle with
    | some expansion => return some (expansion ++ suffix)
    | none => malformed
  | _ => return none

def properties : Reader (Option String × Option String) := do
  match ← anchor? with
  | some name => return (some name, ← tag?)
  | none =>
    match ← tag? with
    | some tag => return (← anchor?, some tag)
    | none => return (none, none)

def blockStops : List Token := [.key, .value, .blockEnd]

def ends (flow : Token) : List Token := [.comma, flow]

mutual

/-- A node. Outside of brackets it may be a block collection, and behind a key also a sequence
without a column of its own. -/
def node (block inline : Bool) : Nat → Reader Node
  | 0 => malformed
  | n + 1 => do
    match ← peek? with
    | some (.alias name) => do
      advance
      match (← get).numbers.get? name with
      | some number => return .alias number
      | none => malformed
    | _ => do
      let (name, tag) ← properties
      let place ← name.mapM putAnchor
      let found ← content block inline (place.isSome || tag.isSome) n
      let found := found.withTag tag
      fillAnchor place found
      return found

/-- A node behind its properties. Nothing may be written there only if there are some. -/
def content (block inline given : Bool) : Nat → Reader Node
  | 0 => malformed
  | n + 1 => do
    let next ← peek?
    if inline && next == some .dash then return .sequence none (← inlineItems n)
    match next, block with
    | some (.scalar style text), _ => do
      advance
      return .scalar none style text
    | some .openBracket, _ => do
      advance
      return .sequence none (← flowItems n true)
    | some .openBrace, _ => do
      advance
      return .mapping none (← flowEntries n true)
    | some .blockSequence, true => do
      advance
      return .sequence none (← blockItems n)
    | some .blockMapping, true => do
      advance
      return .mapping none (← blockEntries n)
    | _, _ => if given then return .empty else malformed

def nodeUnless (stops : List Token) (block inline : Bool) : Nat → Reader Node
  | 0 => malformed
  | n + 1 => do if ← atAny stops then return .empty else node block inline n

def blockItems : Nat → Reader (List Node)
  | 0 => malformed
  | n + 1 => do
    if ← accept .blockEnd then return []
    if !(← accept .dash) then malformed
    let item ← nodeUnless [.dash, .blockEnd] true false n
    return item :: (← blockItems n)

def inlineItems : Nat → Reader (List Node)
  | 0 => malformed
  | n + 1 => do
    if !(← accept .dash) then return []
    let item ← nodeUnless (.dash :: blockStops) true false n
    return item :: (← inlineItems n)

def blockEntries : Nat → Reader (List (Node × Node))
  | 0 => malformed
  | n + 1 => do
    if ← accept .blockEnd then return []
    if !(← accept .key) then malformed
    let key ← nodeUnless blockStops true true n
    let v ← if ← accept .value then nodeUnless blockStops true true n else pure .empty
    return (key, v) :: (← blockEntries n)

def flowValue (close : Token) : Nat → Reader Node
  | 0 => malformed
  | n + 1 => do
    if ← accept .value then nodeUnless (ends close) false false n else return .empty

/-- The items up to the closing bracket. A key among them makes a mapping with one entry; a mark of
a key that stands alone takes the token behind it with it. -/
def flowItems : Nat → Bool → Reader (List Node)
  | 0, _ => malformed
  | n + 1, first => do
    if ← accept .closeBracket then return []
    if !first then
      if !(← accept .comma) then malformed
      if ← accept .closeBracket then return []
    if ← accept .key then
      let key ← if ← atAny [.value, .comma, .closeBracket] then do advance; pure Node.empty
        else node false false n
      let v ← flowValue .closeBracket n
      return .mapping none [(key, v)] :: (← flowItems n false)
    else
      let item ← node false false n
      return item :: (← flowItems n false)

def flowEntries : Nat → Bool → Reader (List (Node × Node))
  | 0, _ => malformed
  | n + 1, first => do
    if ← accept .closeBrace then return []
    if !first then
      if !(← accept .comma) then malformed
      if ← accept .closeBrace then return []
    if ← accept .key then
      let key ← nodeUnless [.value, .comma, .closeBrace] false false n
      let v ← flowValue .closeBrace n
      return (key, v) :: (← flowEntries n false)
    else
      let key ← node false false n
      return (key, .empty) :: (← flowEntries n false)

end

def commonHandles : List (String × String) := [("!", "!"), ("!!", coreTag "")]

/-- The lines before a document: at most one version, which has to be known, and handles, each set
up once. -/
def directives : Nat → Bool → Reader Unit
  | 0, _ => malformed
  | n + 1, versioned => do
    match ← peek? with
    | some (.version major minor) => do
      if versioned || major != 1 || !(minor == 1 || minor == 2) then malformed
      advance
      directives n true
    | some (.handle name expansion) => do
      if ((← get).handles.lookup name).isSome then malformed
      modify fun p => { p with handles := p.handles ++ [(name, expansion)] }
      advance
      directives n versioned
    | _ => modify fun p => { p with handles := p.handles ++ commonHandles }

def document : Reader (Option Document) := do
  let tokens := (← get).tokens
  if tokens.isEmpty then return none
  let size := 4 * tokens.length + 4
  directives size false
  let directed := (← get).tokens.length != tokens.length
  let marked ← accept .documentStart
  if directed && !marked then malformed
  let bare := marked && ((← get).tokens.isEmpty || (← atAny [.documentStart, .documentEnd]))
  let root ← if bare then pure Node.empty else node true false size
  if !(← get).tokens.all (· == .documentEnd) then malformed
  return some ⟨root, (← get).anchored⟩

end Reader

def document (text : String) : Except Refusal (Option Document) := do
  Reader.document.run' { tokens := ← Token.ofText text }

end Stencil.Yaml
