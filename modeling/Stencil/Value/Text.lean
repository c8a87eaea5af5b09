import Stencil.Json.Writer

/-!
The text that a value prints as: scalars in canonical form, null as nothing, an array as its
elements between commas at every depth, an object as compact JSON. An array prints as its leaves
do, read from left to right.
-/

namespace Stencil.Value

mutual

def text : Value → String
  | .null => ""
  | .bool b => if b then "true" else "false"
  | .number n => n.text
  | .string s => s
  | .array items => ",".intercalate (texts items)
  | .object entries => Json.write (.object entries)

def texts : List Value → List String
  | [] => []
  | v :: rest => text v :: texts rest

end

mutual

/-- What an array holds at any depth that is not a filled array itself. -/
def leaves : Value → List Value
  | .array [] => [.array []]
  | .array (v :: rest) => leaves v ++ leavesAll rest
  | v => [v]

def leavesAll : List Value → List Value
  | [] => []
  | v :: rest => leaves v ++ leavesAll rest

end

/-- Null and the empty array become the empty string; every other value stays. -/
def guard : Value → Value
  | .null => .string ""
  | .array [] => .string ""
  | v => v

theorem texts_eq_map (vs : List Value) : texts vs = vs.map text := by
  induction vs with
  | nil => rfl
  | cons v rest ih => simp [texts, ih]

theorem leaves_ne_nil (v : Value) : v.leaves ≠ [] := by
  match v with
  | .array [] => simp [leaves]
  | .array (w :: _) => simp [leaves, leaves_ne_nil w]
  | .null => simp [leaves]
  | .bool _ => simp [leaves]
  | .number _ => simp [leaves]
  | .string _ => simp [leaves]
  | .object _ => simp [leaves]

theorem leaves_array {items : List Value} (h : items ≠ []) :
    (Value.array items).leaves = leavesAll items := by
  match items with
  | [] => exact absurd rfl h
  | _ :: _ => rfl

mutual

/-- Every value prints as its leaves do, with commas between them. -/
theorem text_eq_leaves : (v : Value) → v.text = ",".intercalate (v.leaves.map text)
  | .array items => by
    by_cases h : items = []
    · simp [h, leaves]
    · rw [text, leaves_array h, texts_eq_leaves items h]
  | .null => by simp [leaves]
  | .bool _ => by simp [leaves]
  | .number _ => by simp [leaves]
  | .string _ => by simp [leaves]
  | .object _ => by simp [leaves]

theorem texts_eq_leaves : (items : List Value) → items ≠ [] →
    ",".intercalate (texts items) = ",".intercalate ((leavesAll items).map text)
  | [], h => absurd rfl h
  | [v], _ => by
    rw [texts, texts, String.intercalate_singleton, leavesAll, leavesAll, List.append_nil,
      ← text_eq_leaves v]
  | v :: w :: rest, _ => by
    have ahead : v.leaves.map text ≠ [] := by simp [leaves_ne_nil v]
    have behind : (leavesAll (w :: rest)).map text ≠ [] := by simp [leavesAll, leaves_ne_nil w]
    rw [leavesAll, List.map_append, String.intercalate_append_of_ne_nil ahead behind,
      ← texts_eq_leaves (w :: rest) (List.cons_ne_nil w rest), ← text_eq_leaves v, texts,
      String.intercalate_cons_of_ne_nil (by simp [texts])]

end

theorem text_guard (v : Value) : v.guard.text = v.text := by
  match v with
  | .null => rfl
  | .array [] => rfl
  | .array (_ :: _) => rfl
  | .bool _ => rfl
  | .number _ => rfl
  | .string _ => rfl
  | .object _ => rfl

theorem guard_guard (v : Value) : v.guard.guard = v.guard := by
  match v with
  | .null => rfl
  | .array [] => rfl
  | .array (_ :: _) => rfl
  | .bool _ => rfl
  | .number _ => rfl
  | .string _ => rfl
  | .object _ => rfl

end Stencil.Value
