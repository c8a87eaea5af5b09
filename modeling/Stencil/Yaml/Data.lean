import Stencil.Yaml.Node

/-!
A document as data. Aliases are followed, but only so often, and collections may be nested only so
deep.
-/

namespace Stencil.Yaml

abbrev Reading := ReaderT Document (StateT Nat (Except Refusal))

namespace Reading

/-- Aliases may be followed a hundred times for each event of the document. -/
def resolve (node : Node) : Reading Node := do
  let d ← read
  match node with
  | .alias _ => do
    let followed ← get
    if 100 * d.root.events ≤ followed then throw .mistyped
    set (followed + 1)
    match d.resolve node with
    | some node => pure node
    | none => throw .mistyped
  | node => pure node

def key (node : Node) : Reading String := do
  match ← resolve node with
  | .scalar _ _ text => pure text
  | _ => throw .mistyped

mutual

def value (depth : Nat) (node : Node) : Reading Value := do
  match ← resolve node with
  | .scalar tag style text =>
    match scalarValue tag style text with
    | .ok v => pure v
    | .error e => throw e
  | .sequence tag items =>
    match depth with
    | 0 => throw .mistyped
    | depth + 1 => do
      if tag.any isOwnTag then throw .mistyped
      return .array (← values depth items)
  | .mapping tag entries =>
    match depth with
    | 0 => throw .mistyped
    | depth + 1 => do
      if tag.any isOwnTag then throw .mistyped
      return .object (← valueEntries depth entries [])
  | .alias _ => throw .mistyped
termination_by (depth, 0, 0)

def values (depth : Nat) (nodes : List Node) : Reading (List Value) := do
  match nodes with
  | [] => pure []
  | node :: rest => do
    let v ← value depth node
    return v :: (← values depth rest)
termination_by (depth, 1, nodes.length)

def valueEntries (depth : Nat) (nodes : List (Node × Node)) (acc : Entries Value) :
    Reading (Entries Value) := do
  match nodes with
  | [] => pure acc
  | (name, node) :: rest => do
    let k ← key name
    let v ← value depth node
    valueEntries depth rest (acc.insert k v)
termination_by (depth, 1, nodes.length)

end

end Reading
end Stencil.Yaml
