import Stencil.Config
import Stencil.Json.Skip

/-!
Settings in JSON: an object with the three fields in any order, other keys passed over, or an array
with the fields in their fixed order. Fields that are not given take their defaults; a field given
twice is refused.
-/

namespace Stencil.Config

open Json Json.Reader

def refuse {α : Type} (expected : String) : Reader α := do
  let found : Found ← match ← peek? with
    | some 'n' => do advance; keyword ['u', 'l', 'l']; pure .null
    | some 't' => do advance; keyword ['r', 'u', 'e']; pure (.bool true)
    | some 'f' => do advance; keyword ['a', 'l', 's', 'e']; pure (.bool false)
    | some '"' => do advance; pure (.string (← string))
    | some '[' => pure .sequence
    | some '\x7b' => pure .map
    | some c =>
      if c == '-' || c.isDigit then
        match ← number with
        | .int i => pure (.int i)
        | .float x => pure (.float x)
      else failAtNext .expectedValue
    | none => failAtNext .expectedValue
  fail (.invalidType found expected)

def readBool : Reader Bool := do
  match ← peek? with
  | none => failAtNext .endInValue
  | some 't' => do advance; keyword ['r', 'u', 'e']; pure true
  | some 'f' => do advance; keyword ['a', 'l', 's', 'e']; pure false
  | some _ => refuse "a boolean"

def readUnit : Reader Unit := do
  match ← peek? with
  | none => failAtNext .endInValue
  | some 'n' => do advance; keyword ['u', 'l', 'l']
  | some _ => refuse "unit"

def readPolicyName : Reader CachePolicy := do
  advance
  let name ← string
  match policies.lookup name with
  | some policy => pure policy
  | none => fail (.unknownVariant name (policies.map Prod.fst))

/-- A policy by its name, or as an object with the name over null. -/
def readPolicy : Reader CachePolicy := do
  match ← peek? with
  | none => failAtNext .endInValue
  | some '"' => readPolicyName
  | some '\x7b' => do
    advance
    let policy ← match ← peek? with
      | some '"' => readPolicyName
      | some '\x7d' => failAtNext .expectedValue
      | some _ => failAtNext .keyMustBeString
      | none => failAtNext .endInObject
    colon
    readUnit
    match ← peek? with
    | some '\x7d' => do advance; pure policy
    | some _ => fail .expectedValue
    | none => fail .endInObject
  | some _ => failAtNext .expectedValue

def readGlobals : Reader Context := do
  match ← peek? with
  | none => failAtNext .endInValue
  | some '\x7b' => do
    advance
    entries (value (depthLimit - 2)) ((← get).length + 1) true []
  | some _ => refuse "a map"

/-- Refuses a field that was given before. The place is behind the blanks after the key, and behind
a closing brace if one stands there. -/
def duplicate {α : Type} (name : String) : Reader α := do
  if (← peek?) == some '\x7d' then advance
  fail (.duplicateField name)

def readField (given : Given) : String → Reader Given
  | "escape_helper" => do
    if given.escapeHelper.isSome then duplicate "escape_helper"
    colon
    return { given with escapeHelper := some (← readBool) }
  | "cache_policy" => do
    if given.cachePolicy.isSome then duplicate "cache_policy"
    colon
    return { given with cachePolicy := some (← readPolicy) }
  | "globals" => do
    if given.globals.isSome then duplicate "globals"
    colon
    return { given with globals := some (← readGlobals) }
  | _ => do
    colon
    skipValue
    return given

def readFields : Nat → Bool → Given → Reader Given
  | 0, _, given => pure given
  | n + 1, first, given => do
    if ← hasKey first then
      readFields n false (← readField given (← key))
    else
      advance
      return given

def endOfArray : Reader Unit := do
  match ← peek? with
  | some ']' => advance
  | some ',' => do
    advance
    match ← peek? with
    | some ']' => failAtNext .trailingComma
    | _ => failAtNext .trailingCharacters
  | some _ => failAtNext .trailingCharacters
  | none => failAtNext .endInList

def readPositional : Reader Given := do
  unless ← hasElement true do return {}
  let given : Given := { escapeHelper := some (← readBool) }
  unless ← hasElement false do return given
  let given := { given with cachePolicy := some (← readPolicy) }
  unless ← hasElement false do return given
  return { given with globals := some (← readGlobals) }

def reader : Reader Config := do
  match ← peek? with
  | none => failAtNext .endInValue
  | some '[' => do
    advance
    let given ← readPositional
    endOfArray
    return given.complete
  | some '\x7b' => do
    advance
    return (← readFields ((← get).length + 1) true {}).complete
  | some _ => refuse "struct Config"

def ofJson (text : String) : Except Json.Error Config := readWith reader text

end Stencil.Config
