import Stencil.Text.Blank

/-!
The names of the blocks that a source shows. The text of the source is searched as it stands, so a
block tag counts even where the engine does not take it for one, in a comment or in a quoted text.
-/

namespace Stencil.Markup.Declared

def isNameStart (c : Char) : Bool := c.isAlpha || c == '_'

def isNamePart (c : Char) : Bool := c.isAlphanum || c == '_'

def behind? (word cs : List Char) : Option (List Char) :=
  if word.isPrefixOf cs then some (cs.drop word.length) else none

def nameAt? (cs : List Char) : Option String := do
  let cs ← behind? ['{', '%'] cs
  let cs := match cs with
    | '-' :: rest | '+' :: rest => rest
    | cs => cs
  let cs ← behind? "block".toList (Text.trimStart cs)
  let name := Text.trimStart cs
  match cs.head?.any Text.isBlank, name with
  | true, c :: rest =>
    if isNameStart c then some (String.ofList (c :: rest.takeWhile isNamePart)) else none
  | _, _ => none

/-- The names in all block tags, from left to right. No tag begins inside another one's name. -/
def allNames : List Char → List String
  | [] => []
  | c :: rest =>
    match nameAt? (c :: rest) with
    | some name => name :: allNames rest
    | none => allNames rest

def firstOnly : List String → List String
  | [] => []
  | name :: rest => name :: (firstOnly rest).filter (· != name)

def blockNames (source : String) : List String := firstOnly (allNames source.toList)

end Stencil.Markup.Declared
