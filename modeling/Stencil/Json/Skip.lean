import Stencil.Json.Reader

/-!
Passing over a JSON value that nobody asked for. The value has to be well formed, but numbers may
be of any size, surrogates may stand alone, and nesting has no limit.
-/

namespace Stencil.Json.Reader

inductive Enclosure
  | list
  | object
deriving DecidableEq, Repr

def Enclosure.close : Enclosure → Char
  | .list => ']'
  | .object => '\x7d'

def Enclosure.expected : Enclosure → Cause
  | .list => .expectedListCommaOrEnd
  | .object => .expectedObjectCommaOrEnd

def Enclosure.ended : Enclosure → Cause
  | .list => .endInList
  | .object => .endInObject

def skipDigits : Reader Unit := do
  let _ ← takeDigits

def skipPower : Reader Unit := do
  match ← next? with
  | some c => if c.isDigit then skipDigits else failAtNext .invalidNumber
  | none => fail .invalidNumber

def skipExponent : Reader Unit := do
  advance
  let sign ← next?
  if sign == some '+' || sign == some '-' then advance
  skipPower

def skipFraction : Reader Unit := do
  advance
  let digits ← takeDigits
  if digits.isEmpty then failAtNext .invalidNumber
  else if Literal.isExponentMark (← next?) then skipExponent

def skipBehindWhole (c : Char) : Reader Unit := do
  let after ← next?
  if c == '0' && after.any Char.isDigit then failAtNext .invalidNumber
  else if after == some '.' then skipFraction
  else if Literal.isExponentMark after then skipExponent

def skipNumber : Reader Unit := do
  match ← next? with
  | none => fail .invalidNumber
  | some c =>
    if !c.isDigit then failAtNext .invalidNumber
    else
      if c == '0' then advance else skipDigits
      skipBehindWhole c

def skipEscape : Reader Unit := do
  match ← next? with
  | none => fail .endInString
  | some 'u' => do
    advance
    let _ ← hexWord
  | some c => if (simpleEscape? c).isSome then advance else failAtNext .invalidEscape

def skipStringBody : Nat → Reader Unit
  | 0 => fail .endInString
  | n + 1 => do
    match ← next? with
    | none => fail .endInString
    | some '"' => advance
    | some '\\' => do
      advance
      skipEscape
      skipStringBody n
    | some c =>
      if c.toNat < 32 then fail .controlCharacter
      else do advance; skipStringBody n

def skipString : Reader Unit := do skipStringBody ((← get).length + 1)

def skipKey : Reader Unit := do
  match ← peek? with
  | some '"' => do advance; skipString; colon
  | some _ => failAtNext .keyMustBeString
  | none => failAtNext .endInObject

/-- A value that holds no other one is passed over whole; of an array or object the opening
bracket is. -/
def skipStart : Reader (Option Enclosure) := do
  match ← peek? with
  | none => failAtNext .endInValue
  | some 'n' => do advance; keyword ['u', 'l', 'l']; pure none
  | some 't' => do advance; keyword ['r', 'u', 'e']; pure none
  | some 'f' => do advance; keyword ['a', 'l', 's', 'e']; pure none
  | some '"' => do advance; skipString; pure none
  | some '-' => do advance; skipNumber; pure none
  | some '[' => do advance; pure (some .list)
  | some '\x7b' => do advance; pure (some .object)
  | some c => if c.isDigit then do skipNumber; pure none else failAtNext .expectedValue

/-- Closes enclosures while they end, and stops in front of the next value. A comma is due unless
the innermost enclosure was just opened. Gives the enclosures that are left. -/
def skipEnds : Nat → Bool → List Enclosure → Reader (List Enclosure)
  | 0, _, open' => pure open'
  | _ + 1, _, [] => pure []
  | n + 1, comma, e :: rest => do
    match ← peek? with
    | none => failAtNext e.ended
    | some c =>
      if comma && c == ',' then do advance; pure (e :: rest)
      else if c == e.close then do advance; skipEnds n true rest
      else if comma then failAtNext e.expected
      else pure (e :: rest)

def skipWithin : Nat → List Enclosure → Reader Unit
  | 0, _ => pure ()
  | n + 1, enclosing => do
    let opened ← skipStart
    let all := opened.toList ++ enclosing
    match ← skipEnds (n + 1) opened.isNone all with
    | [] => pure ()
    | .list :: rest => skipWithin n (.list :: rest)
    | .object :: rest => do
      skipKey
      skipWithin n (.object :: rest)

def skipValue : Reader Unit := do skipWithin ((← get).length + 1) []

end Stencil.Json.Reader
