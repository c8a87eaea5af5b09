import Stencil.Decimal.Layout
import Stencil.Value

/-!
Compact JSON text: no blanks, keys in their order, characters escaped only where a string needs it.
-/

namespace Stencil

def Number.text : Number → String
  | .int i => toString i
  | .float x => Decimal.Layout.data.write x

namespace Json

def hexDigit (n : Nat) : Char := (Nat.digitChar (n % 16))

/-- Quotes, backslashes and the characters below the blank are escaped, by a letter where JSON has
one; all others stand for themselves. -/
def escape (c : Char) : List Char :=
  match c with
  | '"' => ['\\', '"']
  | '\\' => ['\\', '\\']
  | '\n' => ['\\', 'n']
  | '\r' => ['\\', 'r']
  | '\t' => ['\\', 't']
  | c =>
    if c = Char.ofNat 8 then ['\\', 'b']
    else if c = Char.ofNat 12 then ['\\', 'f']
    else if c.toNat < 32 then ['\\', 'u', '0', '0', hexDigit (c.toNat / 16), hexDigit c.toNat]
    else [c]

def quote (s : String) : String := String.ofList ('"' :: s.toList.flatMap escape ++ ['"'])

mutual

def write : Value → String
  | .null => "null"
  | .bool b => if b then "true" else "false"
  | .number n => n.text
  | .string s => quote s
  | .array items => "[" ++ ",".intercalate (writeAll items) ++ "]"
  | .object entries => "\x7b" ++ ",".intercalate (writeEntries entries) ++ "\x7d"

def writeAll : List Value → List String
  | [] => []
  | v :: rest => write v :: writeAll rest

def writeEntries : List (String × Value) → List String
  | [] => []
  | (key, v) :: rest => (quote key ++ ":" ++ write v) :: writeEntries rest

end

end Json
end Stencil
