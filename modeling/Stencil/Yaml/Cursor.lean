import Stencil.Yaml.Node

/-!
A place in a YAML text, and how it moves on. Line breaks come in several forms, of which most are
read as one and the same.
-/

namespace Stencil.Yaml

/-- What is left of a text. The offset counts the bytes before, the column the characters before on
the line. -/
structure Cursor where
  rest : List Char
  offset : Nat := 0
  line : Nat := 0
  column : Nat := 0

abbrev Attempt := Except Refusal

def malformed {α : Type} : Attempt α := .error .malformed

def isBlank (c : Char) : Bool := c == ' ' || c == '\t'

def isSeparator (c : Char) : Bool := c.toNat == 0x2028 || c.toNat == 0x2029

def isBreak (c : Char) : Bool := c == '\n' || c == '\r' || c.toNat == 0x85 || isSeparator c

def isLineEnd (c : Option Char) : Bool := c.all isBreak

def isWordEnd (c : Option Char) : Bool := c.all fun c => isBlank c || isBreak c

def isNameChar (c : Char) : Bool := c.isAlphanum || c == '-' || c == '_'

def isFlowMark (c : Char) : Bool := c == ',' || c == '[' || c == ']' || c == '\x7b' || c == '\x7d'

def isByteOrderMark (c : Char) : Bool := c.toNat == 0xFEFF

namespace Cursor

def peek? (c : Cursor) : Option Char := c.rest.head?

def peekAt? (c : Cursor) (i : Nat) : Option Char := c.rest[i]?

def pass : Nat → Cursor → Cursor
  | 0, c => c
  | n + 1, c =>
    match c.rest with
    | [] => c
    | d :: rest => pass n { c with rest := rest, offset := c.offset + d.utf8Size }

def skip (n : Nat) (c : Cursor) : Cursor := { c.pass n with column := c.column + n }

def take (p : Char → Bool) (c : Cursor) : List Char × Cursor :=
  let taken := c.rest.takeWhile p
  (taken, c.skip taken.length)

def skipWhile (p : Char → Bool) (c : Cursor) : Cursor := (c.take p).2

def takeBreak? (c : Cursor) : Option (Char × Cursor) :=
  let next (b : Char) (n : Nat) : Char × Cursor :=
    (b, { c.pass n with line := c.line + 1, column := 0 })
  match c.rest with
  | '\r' :: '\n' :: _ => some (next '\n' 2)
  | b :: _ => if isBreak b then some (next (if isSeparator b then b else '\n') 1) else none
  | [] => none

def skipBreak (c : Cursor) : Cursor := (c.takeBreak?.map Prod.snd).getD c

def skipComment (c : Cursor) : Cursor :=
  if c.peek? == some '#' then c.skipWhile (!isBreak ·) else c

/-- The rest of a line on which nothing but a comment may follow, without its break. -/
def endLine (c : Cursor) : Attempt Cursor :=
  let c := (c.skipWhile isBlank).skipComment
  if isLineEnd c.peek? then .ok c else malformed

def atMarks (mark : Char) (c : Cursor) : Bool :=
  c.column == 0 && c.rest.take 3 == [mark, mark, mark] && isWordEnd (c.peekAt? 3)

def atMarker (c : Cursor) : Bool := c.atMarks '-' || c.atMarks '.'

def number (radix : Nat) : Nat → Nat → Cursor → Attempt (Nat × Cursor)
  | 0, acc, c => .ok (acc, c)
  | n + 1, acc, c =>
    match c.peek?.bind (digitIn? radix) with
    | some d => number radix n (acc * radix + d) (c.skip 1)
    | none => malformed

end Cursor
end Stencil.Yaml
