import Stencil.Json.Writer
import Stencil.Text.Inspect

/-!
A value written so that its kind shows.
-/

namespace Stencil.Value

mutual

def inspect : Value → String
  | .null => "Null"
  | .bool b => if b then "Bool(true)" else "Bool(false)"
  | .number n => "Number(" ++ n.text ++ ")"
  | .string s => "String(" ++ Text.inspect s ++ ")"
  | .array items => "Array [" ++ ", ".intercalate (inspectAll items) ++ "]"
  | .object entries => "Object \x7b" ++ ", ".intercalate (inspectEntries entries) ++ "\x7d"

def inspectAll : List Value → List String
  | [] => []
  | v :: rest => inspect v :: inspectAll rest

def inspectEntries : List (String × Value) → List String
  | [] => []
  | (key, v) :: rest => (Text.inspect key ++ ": " ++ inspect v) :: inspectEntries rest

end

def inspectContext (context : Context) : String :=
  "\x7b" ++ ", ".intercalate (inspectEntries context) ++ "\x7d"

end Stencil.Value
