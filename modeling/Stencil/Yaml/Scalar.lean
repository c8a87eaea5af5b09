import Stencil.Yaml.Cursor

/-!
The texts of scalars. Inside plain and quoted ones a line break with the blanks around it is folded:
a single break is read as a space, and of several the first is dropped. Block scalars keep their
lines, or fold those that do not begin with a blank.
-/

namespace Stencil.Yaml

namespace Cursor

/-- The breaks of empty lines, and the place behind the blanks that lead the next one. A tab may not
lead a line before the column `least`. -/
def emptyLines (least : Nat) : Nat → Cursor → Attempt (List Char × Cursor)
  | 0, c => .ok ([], c)
  | n + 1, c =>
    match c.takeBreak? with
    | some (b, next) => do
      let (breaks, next) ← emptyLines least n next
      return (b :: breaks, next)
    | none =>
      if c.peek? == some ' ' || (c.peek? == some '\t' && least ≤ c.column) then
        emptyLines least n (c.skip 1)
      else if c.peek? == some '\t' then malformed
      else .ok ([], c)

def folded (first : Char) (more : List Char) : List Char :=
  if first != '\n' then first :: more else if more.isEmpty then [' '] else more

def joint (least : Nat) (c : Cursor) : Attempt (List Char × Bool × Cursor) := do
  let (blanks, after) := c.take isBlank
  match after.takeBreak? with
  | none => return (blanks, false, after)
  | some (first, next) =>
    let (more, next) ← next.emptyLines least (next.rest.length + 1)
    return (folded first more, true, next)

def endsPlain (flow : Bool) (c : Char) (after : Option Char) : Bool :=
  isBlank c || isBreak c || (c == ':' && isWordEnd after) || (flow && isFlowMark c)

def plainWord (flow : Bool) : Nat → Cursor → Attempt (List Char × Cursor)
  | 0, c => .ok ([], c)
  | n + 1, c =>
    match c.rest with
    | [] => .ok ([], c)
    | d :: rest =>
      if flow && d == ':' && rest.head?.any (fun e => isFlowMark e || e == '?') then malformed
      else if endsPlain flow d rest.head? then .ok ([], c)
      else do
        let (word, next) ← plainWord flow n (c.skip 1)
        return (d :: word, next)

/-- A plain scalar whose lines stand at the column `indent` at least, unless it is inside brackets.
Also tells whether line breaks follow it, which are passed over. -/
def plain (flow : Bool) (indent : Nat) : Nat → Cursor → Attempt (List Char × Bool × Cursor)
  | 0, c => .ok ([], false, c)
  | n + 1, c => do
    if c.atMarker || c.peek? == some '#' then return ([], false, c)
    let (word, c) ← c.plainWord flow (c.rest.length + 1)
    if word.isEmpty || !c.peek?.any (fun d => isBlank d || isBreak d) then return (word, false, c)
    let (between, broken, next) ← c.joint indent
    if !flow && next.column < indent then return (word, broken, next)
    let (more, brokenAfter, last) ← next.plain flow indent n
    if more.isEmpty then return (word, broken, last)
    else return (word ++ between ++ more, brokenAfter, last)

def singleQuoted : Nat → Cursor → Attempt (List Char × Cursor)
  | 0, _ => malformed
  | n + 1, c => do
    if c.atMarker then malformed
    match c.rest with
    | [] => malformed
    | '\'' :: '\'' :: _ =>
      let (text, last) ← singleQuoted n (c.skip 2)
      return ('\'' :: text, last)
    | '\'' :: _ => return ([], c.skip 1)
    | d :: _ =>
      if isBlank d || isBreak d then
        let (between, _, next) ← c.joint 0
        let (text, last) ← singleQuoted n next
        return (between ++ text, last)
      else
        let (text, last) ← singleQuoted n (c.skip 1)
        return (d :: text, last)

def numbered (digits : Nat) (c : Cursor) : Attempt (Char × Cursor) := do
  let (n, c) ← c.number 16 digits 0
  if (0xD800 ≤ n && n ≤ 0xDFFF) || 0x10FFFF < n then malformed
  else return (Char.ofNat n, c)

def escaped? : Char → Option Char
  | '0' => some (Char.ofNat 0)
  | 'a' => some (Char.ofNat 7)
  | 'b' => some (Char.ofNat 8)
  | 't' | '\t' => some '\t'
  | 'n' => some '\n'
  | 'v' => some (Char.ofNat 11)
  | 'f' => some (Char.ofNat 12)
  | 'r' => some '\r'
  | 'e' => some (Char.ofNat 27)
  | ' ' => some ' '
  | '"' => some '"'
  | '/' => some '/'
  | '\\' => some '\\'
  | 'N' => some (Char.ofNat 0x85)
  | '_' => some (Char.ofNat 0xA0)
  | 'L' => some (Char.ofNat 0x2028)
  | 'P' => some (Char.ofNat 0x2029)
  | _ => none

def escape (c : Cursor) : Attempt (Char × Cursor) :=
  match c.peek? with
  | some 'x' => (c.skip 1).numbered 2
  | some 'u' => (c.skip 1).numbered 4
  | some 'U' => (c.skip 1).numbered 8
  | letter =>
    match letter.bind escaped? with
    | some d => .ok (d, c.skip 1)
    | none => malformed

/-- An escaped line break is dropped together with the blanks that lead the next line. -/
def doubleQuoted : Nat → Cursor → Attempt (List Char × Cursor)
  | 0, _ => malformed
  | n + 1, c => do
    if c.atMarker then malformed
    match c.rest with
    | [] => malformed
    | '"' :: _ => return ([], c.skip 1)
    | '\\' :: _ =>
      match (c.skip 1).takeBreak? with
      | some (_, next) =>
        let (breaks, next) ← next.emptyLines 0 (next.rest.length + 1)
        let (text, last) ← doubleQuoted n next
        return (breaks ++ text, last)
      | none =>
        let (d, next) ← (c.skip 1).escape
        let (text, last) ← doubleQuoted n next
        return (d :: text, last)
    | d :: _ =>
      if isBlank d || isBreak d then
        let (between, _, next) ← c.joint 0
        let (text, last) ← doubleQuoted n next
        return (between ++ text, last)
      else
        let (text, last) ← doubleQuoted n (c.skip 1)
        return (d :: text, last)

end Cursor

inductive Chomp
  | strip
  | clip
  | keep
deriving DecidableEq

namespace Cursor

def chomp? (c : Cursor) : Option Chomp :=
  match c.peek? with
  | some '+' => some .keep
  | some '-' => some .strip
  | _ => none

def width? (c : Cursor) : Attempt (Option Nat × Cursor) :=
  match c.peek?.bind (digitIn? 10) with
  | some 0 => malformed
  | some d => .ok (some d, c.skip 1)
  | none => .ok (none, c)

def blockHeader (c : Cursor) : Attempt (Chomp × Option Nat × Cursor) := do
  match c.chomp? with
  | some how =>
    let (width, c) ← (c.skip 1).width?
    return (how, width, c)
  | none =>
    let (width, c) ← c.width?
    match width, c.chomp? with
    | some _, some how => return (how, width, c.skip 1)
    | _, _ => return (.clip, width, c)

/-- The empty lines of a block scalar, and the place behind the indentation of the next line. While
the indentation is not known all spaces count as such; the widest is given. -/
def blockBreaks (indent : Option Nat) : Nat → Nat → Cursor → Attempt (List Char × Nat × Cursor)
  | 0, widest, c => .ok ([], widest, c)
  | n + 1, widest, c =>
    let spaces := c.rest.takeWhile (· == ' ')
    let c := c.skip (match indent with
      | some i => min (i - c.column) spaces.length
      | none => spaces.length)
    let widest := max widest c.column
    if c.peek? == some '\t' && indent.all (c.column < ·) then malformed
    else match c.takeBreak? with
      | none => .ok ([], widest, c)
      | some (b, next) => do
        let (breaks, widest, last) ← blockBreaks indent n widest next
        return (b :: breaks, widest, last)

/-- The lines of a block scalar. `ending` is the break that ended the line before, `empty` those of
the empty lines behind it, and `led` tells whether that line began with a blank. Gives the two that
are left at the end. -/
def blockLines (fold : Bool) (indent : Nat) :
    Nat → List Char → List Char → Bool → Cursor →
      Attempt (List Char × List Char × List Char × Cursor)
  | 0, ending, empty, _, c => .ok ([], ending, empty, c)
  | n + 1, ending, empty, led, c => do
    if c.column != indent || c.rest.isEmpty then return ([], ending, empty, c)
    let leads := c.peek?.any isBlank
    let between :=
      if fold && ending == ['\n'] && !led && !leads then if empty.isEmpty then [' '] else []
      else ending
    let (line, after) := c.take (!isBreak ·)
    let (ending', next) := match after.takeBreak? with
      | some (b, next) => ([b], next)
      | none => ([], after)
    let (empty', _, next) ← next.blockBreaks (some indent) (next.rest.length + 1) 0
    let (more, ending', empty', last) ← next.blockLines fold indent n ending' empty' leads
    return (between ++ empty ++ line ++ more, ending', empty', last)

/-- A block scalar behind its mark, inside a collection at the column `parent`, which is negative
outside of all collections. -/
def block (fold : Bool) (parent : Int) (c : Cursor) : Attempt (List Char × Cursor) := do
  let (chomp, width, c) ← c.blockHeader
  let c := (← c.endLine).skipBreak
  let size := c.rest.length + 1
  let given := width.map (parent.toNat + ·)
  let (empty, widest, c) ← c.blockBreaks given size 0
  let indent := given.getD (max widest (max (parent + 1).toNat 1))
  let (text, ending, empty, c) ← c.blockLines fold indent size [] empty false
  let tail := match chomp with
    | .strip => []
    | .clip => ending
    | .keep => ending ++ empty
  return (text ++ tail, c)

end Cursor
end Stencil.Yaml
