/-!
HTML escaping of the seven characters that can leave text, and its inverse.
-/

namespace Stencil.Html

def entities : List (Char × String) :=
  [('&', "&amp;"), ('<', "&lt;"), ('>', "&gt;"), ('"', "&quot;"), ('\'', "&#x27;"),
   (Char.ofNat 96, "&#x60;"), ('=', "&#x3D;")]

def entity? (c : Char) : Option String := entities.lookup c

def escapeChar (c : Char) : List Char :=
  match entity? c with
  | some e => e.toList
  | none => [c]

def escape (s : String) : String := String.ofList (s.toList.flatMap escapeChar)

/-- The character whose entity opens `s`, with what follows the entity. -/
def entityAt (s : List Char) : Option (Char × List Char) :=
  entities.findSome? fun (c, e) =>
    if e.toList.isPrefixOf s then some (c, s.drop e.length) else none

theorem eq_append_of_entityAt {s rest : List Char} {c : Char} (h : entityAt s = some (c, rest)) :
    ∃ e, (c, e) ∈ entities ∧ s = e.toList ++ rest := by
  obtain ⟨⟨d, e⟩, he, h⟩ := List.exists_of_findSome?_eq_some h
  by_cases hp : e.toList.isPrefixOf s
  · obtain ⟨after, rfl⟩ := List.isPrefixOf_iff_prefix.mp hp
    simp only [hp, if_true, Option.some.injEq, Prod.mk.injEq] at h
    obtain ⟨rfl, rfl⟩ := h
    exact ⟨e, he, by rw [← String.length_toList, List.drop_left]⟩
  · simp [hp] at h

theorem length_of_entityAt {s rest : List Char} {c : Char} (h : entityAt s = some (c, rest)) :
    rest.length < s.length := by
  obtain ⟨e, he, rfl⟩ := eq_append_of_entityAt h
  have filled : ∀ x ∈ entities, 0 < x.2.toList.length := by decide
  have : 0 < e.toList.length := filled _ he
  rw [List.length_append]
  omega

/-- Replaces entities by their characters in one pass from the left. -/
def unescapeChars : List Char → List Char
  | [] => []
  | c :: rest =>
    match _h : entityAt (c :: rest) with
    | some (d, after) => d :: unescapeChars after
    | none => c :: unescapeChars rest
termination_by s => s.length
decreasing_by
  · exact length_of_entityAt ‹_›
  · exact Nat.lt_succ_self _

def unescape (s : String) : String := String.ofList (unescapeChars s.toList)

end Stencil.Html
