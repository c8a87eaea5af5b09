import Stencil.Json.Number

/-!
Reading JSON text. A value is read by recursion on the nesting that is still allowed; a key that
repeats keeps its first place and takes its last value.
-/

namespace Stencil.Json

def utf8Size : List Char → Nat
  | [] => 0
  | c :: rest => c.utf8Size + utf8Size rest

namespace Reader

def isBlank (c : Char) : Bool := c == ' ' || c == '\n' || c == '\t' || c == '\r'

def peek? : Reader (Option Char) := fun s =>
  let s := s.dropWhile isBlank
  .ok (s.head?, s)

def keyword : List Char → Reader Unit
  | [] => pure ()
  | c :: rest => do
    match ← next? with
    | none => fail .endInValue
    | some d => if c = d then do advance; keyword rest else failAtNext .expectedIdent

def hexValue? (c : Char) : Option Nat :=
  if c.isDigit then some (c.toNat - '0'.toNat)
  else if 'a' ≤ c && c ≤ 'f' then some (c.toNat - 'a'.toNat + 10)
  else if 'A' ≤ c && c ≤ 'F' then some (c.toNat - 'A'.toNat + 10)
  else none

/-- Four hexadecimal digits. Four bytes are read even when they are no digits. -/
def hexWord : Reader Nat := fun s =>
  match s with
  | a :: b :: c :: d :: rest =>
    match hexValue? a, hexValue? b, hexValue? c, hexValue? d with
    | some a, some b, some c, some d => .ok (((a * 16 + b) * 16 + c) * 16 + d, rest)
    | _, _, _, _ => .error ⟨.invalidEscape, s, 4⟩
  | short =>
    let bytes := utf8Size short
    if bytes < 4 then .error ⟨.endInString, [], 0⟩ else .error ⟨.invalidEscape, s, 4⟩

def expectInPair (c : Char) : Reader Unit := do
  match ← next? with
  | none => fail .endInString
  | some d => if c = d then advance else failAtNext .endOfHexEscape

/-- The character behind a `u` escape. A character past the basic plane is a pair of escapes. -/
def unicodeEscape : Reader Char := do
  let high ← hexWord
  if 0xDC00 ≤ high && high ≤ 0xDFFF then fail .loneSurrogate
  else if 0xD800 ≤ high && high ≤ 0xDBFF then
    expectInPair '\\'
    expectInPair 'u'
    let low ← hexWord
    if 0xDC00 ≤ low && low ≤ 0xDFFF then
      pure (Char.ofNat ((high - 0xD800) * 0x400 + (low - 0xDC00) + 0x10000))
    else fail .loneSurrogate
  else pure (Char.ofNat high)

def simpleEscape? : Char → Option Char
  | '"' => some '"'
  | '\\' => some '\\'
  | '/' => some '/'
  | 'b' => some (Char.ofNat 8)
  | 'f' => some (Char.ofNat 12)
  | 'n' => some '\n'
  | 'r' => some '\r'
  | 't' => some '\t'
  | _ => none

def escaped : Reader Char := do
  match ← next? with
  | none => fail .endInString
  | some 'u' => do advance; unicodeEscape
  | some c =>
    match simpleEscape? c with
    | some d => do advance; pure d
    | none => failAtNext .invalidEscape

def stringBody : Nat → List Char → Reader String
  | 0, _ => fail .endInString
  | n + 1, acc => do
    match ← next? with
    | none => fail .endInString
    | some '"' => do advance; pure (String.ofList acc.reverse)
    | some '\\' => do
      advance
      let c ← escaped
      stringBody n (c :: acc)
    | some c =>
      if c.toNat < 32 then failAtNext .controlCharacter
      else do advance; stringBody n (c :: acc)

def string : Reader String := do stringBody ((← get).length + 1) []

def colon : Reader Unit := do
  match ← peek? with
  | some ':' => advance
  | some _ => failAtNext .expectedColon
  | none => failAtNext .endInObject

def hasElement (first : Bool) : Reader Bool := do
  match ← peek? with
  | none => failAtNext .endInList
  | some ']' => pure false
  | some c =>
    if first then pure true
    else if c == ',' then
      advance
      match ← peek? with
      | some ']' => failAtNext .trailingComma
      | some _ => pure true
      | none => failAtNext .endInValue
    else failAtNext .expectedListCommaOrEnd

def hasKey (first : Bool) : Reader Bool := do
  match ← peek? with
  | none => failAtNext .endInObject
  | some '\x7d' => pure false
  | some c =>
    if first then if c == '"' then pure true else failAtNext .keyMustBeString
    else if c == ',' then
      advance
      match ← peek? with
      | some '"' => pure true
      | some '\x7d' => failAtNext .trailingComma
      | some _ => failAtNext .keyMustBeString
      | none => failAtNext .endInValue
    else failAtNext .expectedObjectCommaOrEnd

def key : Reader String := do
  advance
  string

def elements {α : Type} (item : Reader α) : Nat → Bool → Reader (List α)
  | 0, _ => pure []
  | n + 1, first => do
    if ← hasElement first then
      let a ← item
      return a :: (← elements item n false)
    else
      advance
      return []

def entries {α : Type} (item : Reader α) : Nat → Bool → Entries α → Reader (Entries α)
  | 0, _, acc => pure acc
  | n + 1, first, acc => do
    if ← hasKey first then
      let k ← key
      colon
      let a ← item
      entries item n false (acc.insert k a)
    else
      advance
      return acc

def number : Reader Number := do
  if (← next?) == some '-' then
    advance
    Literal.read true
  else Literal.read false

/-- A value; `item` reads the values inside it, `none` when no deeper nesting is allowed. -/
def valueWith (item : Option (Reader Value)) : Reader Value := do
  match ← peek? with
  | none => failAtNext .endInValue
  | some 'n' => do advance; keyword ['u', 'l', 'l']; pure .null
  | some 't' => do advance; keyword ['r', 'u', 'e']; pure (.bool true)
  | some 'f' => do advance; keyword ['a', 'l', 's', 'e']; pure (.bool false)
  | some '"' => do advance; return .string (← string)
  | some '[' =>
    match item with
    | none => failAtNext .recursionLimit
    | some item => do advance; return .array (← elements item (← get).length.succ true)
  | some '\x7b' =>
    match item with
    | none => failAtNext .recursionLimit
    | some item => do advance; return .object (← entries item (← get).length.succ true [])
  | some c => if c == '-' || c.isDigit then return .number (← number) else failAtNext .expectedValue

def value : Nat → Reader Value
  | 0 => valueWith none
  | depth + 1 => valueWith (some (value depth))

def depthLimit : Nat := 127

def endOfText : Reader Unit := do
  match ← peek? with
  | none => pure ()
  | some _ => failAtNext .trailingCharacters

end Reader

structure Place where
  line : Nat
  column : Nat

/-- The place `bytes` further on. A character may be entered halfway. -/
def Place.forward : Place → List Char → Nat → Place
  | p, [], _ => p
  | p, c :: rest, bytes =>
    if bytes < c.utf8Size then ⟨p.line, p.column + bytes⟩
    else if c = '\n' then forward ⟨p.line + 1, 0⟩ rest (bytes - 1)
    else forward ⟨p.line, p.column + c.utf8Size⟩ rest (bytes - c.utf8Size)

def Failure.locate (text : List Char) (f : Failure) : Error :=
  let p := Place.forward ⟨1, 0⟩ text (utf8Size text - utf8Size f.rest + f.ahead)
  ⟨f.cause, p.line, p.column⟩

def readWith {α : Type} (reader : Reader α) (text : String) : Except Error α :=
  match (do let a ← reader; Reader.endOfText; pure a : Reader α) text.toList with
  | .ok (a, _) => .ok a
  | .error f => .error (f.locate text.toList)

def read (text : String) : Except Error Value := readWith (Reader.value Reader.depthLimit) text

end Stencil.Json
