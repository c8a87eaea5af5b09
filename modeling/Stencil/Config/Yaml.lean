import Stencil.Config
import Stencil.Yaml.Data
import Stencil.Yaml.Document

/-!
Settings in YAML: a mapping with the three fields in any order. A text without a document, and
nothing written where a mapping could stand, hold nothing. Other keys are passed over.
-/

namespace Stencil.Config

open Yaml Yaml.Reading

def refused {α : Type} : Reading α := throw .mistyped

def mappingEntries (node : Node) : Reading (List (Node × Node)) := do
  match ← resolve node with
  | .mapping _ entries => pure entries
  | .scalar _ .plain "" => pure []
  | _ => refused

def truth (node : Node) : Reading Bool := do
  match ← resolve node with
  | .scalar tag style text =>
    if style = .plain || (style = .literal && tag == some (coreTag "bool")) then
      match bool? text with
      | some b => pure b
      | none => refused
    else refused
  | _ => refused

/-- A policy by its name as a scalar, or as a tag over nothing. -/
def policy (node : Node) : Reading CachePolicy := do
  let named (name : String) : Reading CachePolicy :=
    match policies.lookup name with
    | some p => pure p
    | none => refused
  match ← resolve node with
  | .scalar (some tag) style text =>
    if isOwnTag tag then
      if style = .plain && isNull text then named (tag.drop 1).toString else refused
    else named text
  | .scalar none _ text => named text
  | _ => refused

/-- Two levels of nesting are used up by the settings and the globals themselves. -/
def globalsDepth : Nat := 126

def globalData (node : Node) : Reading Context := do
  valueEntries globalsDepth (← mappingEntries node) []

def field (given : Given) (name : String) (node : Node) : Reading Given := do
  match name with
  | "escape_helper" => do
    if given.escapeHelper.isSome then refused
    return { given with escapeHelper := some (← truth node) }
  | "cache_policy" => do
    if given.cachePolicy.isSome then refused
    return { given with cachePolicy := some (← policy node) }
  | "globals" => do
    if given.globals.isSome then refused
    return { given with globals := some (← globalData node) }
  | _ => return given

def fields (entries : List (Node × Node)) : Reading Given :=
  entries.foldlM (fun given (name, node) => do field given (← key name) node) {}

def ofDocument (d : Document) : Except Refusal Config := do
  let (given, _) ← ((do fields (← mappingEntries d.root) : Reading Given).run d).run 0
  return given.complete

def ofYaml (text : String) : Except Refusal Config := do
  match ← Yaml.document text with
  | none => return {}
  | some d => ofDocument d

end Stencil.Config
