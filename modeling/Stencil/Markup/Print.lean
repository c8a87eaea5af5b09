import Stencil.Markup.Datum
import Stencil.Markup.Fault
import Stencil.Text.Inspect

/-!
How values are printed, and how printed text is escaped. What a template prints is escaped according
to the ending of its name.
-/

namespace Stencil.Markup

inductive Escaping
  | none
  | html
  | json
deriving DecidableEq, Repr

namespace Escaping

/-- The last part of a name, behind its last point; a final `.j2` does not count. -/
def ending (name : String) : String :=
  let cs := name.toList.reverse
  let mark := ".j2".toList.reverse
  let cs := if mark.isPrefixOf cs then cs.drop mark.length else cs
  String.ofList (cs.takeWhile (· != '.')).reverse

def ofName (name : String) : Escaping :=
  let e := ending name
  if ["html", "htm", "xml"].contains e then .html
  else if ["json", "json5", "js", "yaml", "yml"].contains e then .json
  else .none

end Escaping

def htmlEntities : List (Char × String) :=
  [('<', "&lt;"), ('>', "&gt;"), ('&', "&amp;"), ('"', "&quot;"), ('\'', "&#x27;"), ('/', "&#x2f;")]

def escapeHtml (s : String) : String :=
  String.ofList (s.toList.flatMap fun c => match htmlEntities.lookup c with
    | some e => e.toList
    | none => [c])

namespace Datum

def floatText (layout : Decimal.Layout) : Extended → String
  | .finite x => layout.write x
  | .infinite negative => if negative then "-inf" else "inf"
  | .notANumber => "NaN"

mutual

def inspect : Datum → String
  | .undefined _ => "undefined"
  | .none => "None"
  | .bool b => if b then "True" else "False"
  | .int i => toString i
  | .float x => floatText .inspected x
  | .string _ s => Text.inspect s
  | .list _ items => "[" ++ ", ".intercalate (inspectAll items) ++ "]"
  | .map (some label) _ => label
  | .map .none entries => "\x7b" ++ ", ".intercalate (inspectEntries entries) ++ "\x7d"
  | .function _ => "function"

def inspectAll : List Datum → List String
  | [] => []
  | d :: rest => inspect d :: inspectAll rest

def inspectEntries : List (Datum × Datum) → List String
  | [] => []
  | (k, d) :: rest => (inspect k ++ ": " ++ inspect d) :: inspectEntries rest

end

def print : Datum → String
  | .undefined _ => ""
  | .float x => floatText .plain x
  | .string _ s => s
  | d => inspect d

mutual

def json? : Datum → Option String
  | .int i => some (toString i)
  | .list _ items => (jsonAll? items).map fun ts => "[" ++ ",".intercalate ts ++ "]"
  | .map _ entries => (jsonEntries? entries).map fun ts => "\x7b" ++ ",".intercalate ts ++ "\x7d"
  | d => d.toValue?.map Json.write

def jsonAll? : List Datum → Option (List String)
  | [] => some []
  | d :: rest => do
    let t ← json? d
    return t :: (← jsonAll? rest)

def jsonEntries? : List (Datum × Datum) → Option (List String)
  | [] => some []
  | (k, d) :: rest => do
    let key ← keyText? k
    let t ← json? d
    return (Json.quote key ++ ":" ++ t) :: (← jsonEntries? rest)

end

def isPlain : Datum → Bool
  | .undefined _ | .none | .bool _ | .int _ | .float _ => true
  | _ => false

def escaped (mode : Escaping) (d : Datum) : Except Fault String :=
  match d, mode with
  | .string true s, _ => .ok s
  | d, .none => .ok d.print
  | d, .html => .ok (if d.isPlain then d.print else escapeHtml d.print)
  | d, .json =>
    match d.json? with
    | some s => .ok s
    | Option.none => .error .badSerialization

end Datum
end Stencil.Markup
