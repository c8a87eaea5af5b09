import Stencil.Text.Hidden

/-!
Text as a quoted literal that shows what cannot be seen.
-/

namespace Stencil.Text

def hex (n : Nat) : List Char := Nat.toDigits 16 n

def inspectChar (c : Char) : List Char :=
  match c with
  | '"' => ['\\', '"']
  | '\\' => ['\\', '\\']
  | '\n' => ['\\', 'n']
  | '\r' => ['\\', 'r']
  | '\t' => ['\\', 't']
  | c =>
    if c.toNat = 0 then ['\\', '0']
    else if c.toNat < 32 || c.toNat = 127 || (128 ≤ c.toNat && isHidden c) then
      ['\\', 'u', '\x7b'] ++ hex c.toNat ++ ['\x7d']
    else [c]

def inspect (s : String) : String := String.ofList ('"' :: s.toList.flatMap inspectChar ++ ['"'])

def inspectAll (names : List String) : String := "[" ++ ", ".intercalate (names.map inspect) ++ "]"

end Stencil.Text
