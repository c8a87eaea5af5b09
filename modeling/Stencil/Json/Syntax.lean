import Stencil.Json.Reader

/-!
JSON texts as they are built: a tree down to the characters of its strings and numerals, the tokens
that the tree is written with, and the layouts of these, which put blanks in front of any token.
What a tree stands for is said here apart from how texts are read.
-/

namespace Stencil.Json

open Reader Literal

-- ---------------------------------------------------------------------------
-- Strings
-- ---------------------------------------------------------------------------

structure HexDigit where
  char : Char
  value : Nat
  reads : hexValue? char = some value

inductive Piece
  | plain (c : Char) (h : c ≠ '"' ∧ c ≠ '\\' ∧ 32 ≤ c.toNat)
  | short (c d : Char) (h : simpleEscape? c = some d)
  | code (a b c d : HexDigit)

namespace Piece

def text : Piece → List Char
  | plain c _ => [c]
  | short c _ _ => ['\\', c]
  | code a b c d => ['\\', 'u', a.char, b.char, c.char, d.char]

def word (a b c d : HexDigit) : Nat := ((a.value * 16 + b.value) * 16 + c.value) * 16 + d.value

def IsHigh (w : Nat) : Prop := 0xD800 ≤ w ∧ w ≤ 0xDBFF

def IsLow (w : Nat) : Prop := 0xDC00 ≤ w ∧ w ≤ 0xDFFF

instance (w : Nat) : Decidable (IsHigh w) := inferInstanceAs (Decidable (_ ∧ _))

instance (w : Nat) : Decidable (IsLow w) := inferInstanceAs (Decidable (_ ∧ _))

/-- The characters that are written. A surrogate has to stand in a pair. -/
def decode? : List Piece → Option (List Char)
  | [] => some []
  | plain c _ :: rest => (decode? rest).map (c :: ·)
  | short _ d _ :: rest => (decode? rest).map (d :: ·)
  | code a b c d :: rest =>
    let high := word a b c d
    if IsLow high then none
    else if IsHigh high then
      match rest with
      | code a b c d :: rest =>
        let low := word a b c d
        if IsLow low then
          (decode? rest).map
            (Char.ofNat ((high - 0xD800) * 0x400 + (low - 0xDC00) + 0x10000) :: ·)
        else none
      | _ => none
    else (decode? rest).map (Char.ofNat high :: ·)

end Piece

abbrev Quoted := List Piece

namespace Quoted

def body (s : Quoted) : List Char := s.flatMap Piece.text

def token (s : Quoted) : List Char := '"' :: (s.body ++ ['"'])

def string? (s : Quoted) : Option String := (Piece.decode? s).map String.ofList

end Quoted

-- ---------------------------------------------------------------------------
-- Numerals
-- ---------------------------------------------------------------------------

structure Digits where
  chars : List Char
  filled : chars ≠ []
  digits : ∀ c ∈ chars, c.isDigit = true

structure Exponent where
  mark : Char
  sign : Option Char
  digits : Digits
  marks : mark = 'e' ∨ mark = 'E'
  signs : ∀ c ∈ sign, c = '+' ∨ c = '-'

/-- A whole part of more than one digit does not start with a zero. -/
structure Numeral where
  negative : Bool
  whole : Digits
  fraction : Option Digits
  exponent : Option Exponent
  leading : whole.chars.head? = some '0' → whole.chars = ['0']

def Exponent.text (e : Exponent) : List Char := e.mark :: (e.sign.toList ++ e.digits.chars)

def Exponent.number? (negative : Bool) (word : Nat) (power : Int) (e : Exponent) :
    Option Number :=
  let (exponent, tooLarge, _) := gatherExponent 0 e.digits.chars []
  if tooLarge then
    if word ≠ 0 ∧ e.sign ≠ some '-' then none else some (.float (.zero negative))
  else float? negative word (if e.sign = some '-' then power - exponent else power + exponent)

namespace Numeral

def fractionText (n : Numeral) : List Char := n.fraction.elim [] fun f => '.' :: f.chars

def exponentText (n : Numeral) : List Char := n.exponent.elim [] Exponent.text

def unsigned (n : Numeral) : List Char := n.whole.chars ++ (n.fractionText ++ n.exponentText)

def token (n : Numeral) : List Char := if n.negative then '-' :: n.unsigned else n.unsigned

def number? (n : Numeral) : Option Number :=
  let (word, left) := gather 0 n.whole.chars
  match n.fraction, n.exponent with
  | none, none =>
    if left = 0 then some (Literal.whole n.negative word) else float? n.negative word left
  | none, some e => e.number? n.negative word left
  | some f, exponent =>
    let (word, dropped) := gather word f.chars
    let power := (left : Int) - ((f.chars.length - dropped : Nat) : Int)
    match exponent with
    | none => float? n.negative word power
    | some e => e.number? n.negative word power

end Numeral

-- ---------------------------------------------------------------------------
-- Trees and their tokens
-- ---------------------------------------------------------------------------

inductive Tree
  | null
  | bool (b : Bool)
  | number (n : Numeral)
  | string (s : Quoted)
  | array (items : List Tree)
  | object (members : List (Quoted × Tree))

abbrev Token := List Char

namespace Tree

def comma (first : Bool) : List Token := if first then [] else [[',']]

mutual

def tokens : Tree → List Token
  | .null => ["null".toList]
  | .bool b => [if b then "true".toList else "false".toList]
  | .number n => [n.token]
  | .string s => [s.token]
  | .array items => ['['] :: itemTokens true items
  | .object members => ['\x7b'] :: memberTokens true members

def itemTokens : Bool → List Tree → List Token
  | _, [] => [[']']]
  | first, t :: rest => comma first ++ (tokens t ++ itemTokens false rest)

def memberTokens : Bool → List (Quoted × Tree) → List Token
  | _, [] => [['\x7d']]
  | first, (k, t) :: rest =>
    comma first ++ (k.token :: [':'] :: (tokens t ++ memberTokens false rest))

end

mutual

/-- The value that is written, if its strings and numbers are values and it is no deeper than
allowed. -/
def value? : Nat → Tree → Option Value
  | _, .null => some .null
  | _, .bool b => some (.bool b)
  | _, .number n => n.number?.map .number
  | _, .string s => s.string?.map .string
  | 0, .array _ => none
  | depth + 1, .array items => (values? depth items).map .array
  | 0, .object _ => none
  | depth + 1, .object members => (entries? depth members).map fun es => .object (Entries.ofList es)

def values? : Nat → List Tree → Option (List Value)
  | _, [] => some []
  | depth, t :: rest => (value? depth t).bind fun v => (values? depth rest).map (v :: ·)

/-- All entries in the order of the text, also those of keys that come again. -/
def entries? : Nat → List (Quoted × Tree) → Option (List (String × Value))
  | _, [] => some []
  | depth, (k, t) :: rest =>
    k.string?.bind fun name => (value? depth t).bind fun v =>
      (entries? depth rest).map ((name, v) :: ·)

end

end Tree

/-- The text is the tokens with blanks in front of any of them, and `rest` behind them. -/
inductive Laid : List Token → List Char → List Char → Prop
  | nil (rest : List Char) : Laid [] rest rest
  | cons {ts : List Token} {text rest : List Char} (blanks : List Char) (t : Token)
    (blank : ∀ c ∈ blanks, isBlank c = true) (h : Laid ts text rest) :
    Laid (t :: ts) (blanks ++ (t ++ text)) rest

/-- The text is written for the tree, with blanks between tokens and at both ends. -/
def Tree.Writes (t : Tree) (text : String) : Prop :=
  ∃ blanks, Laid t.tokens text.toList blanks ∧ ∀ c ∈ blanks, isBlank c = true

end Stencil.Json
