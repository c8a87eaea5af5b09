import Mathlib
import Stencil.Template

/-!
# Printed arrays

A value prints as its leaves do, so how the leaves are grouped into arrays cannot be told from what
is printed. `leaves_splice` says where the leaves of an element stand among those of the whole, at
any depth; what may be put in its place without a trace follows by looking at leaves alone
(`text_splice`). The guard of a template goes unseen for the same reason: it exchanges leaves of
one text.
-/

namespace Stencil.Value

-- ---------------------------------------------------------------------------
-- Leaves and their texts
-- ---------------------------------------------------------------------------

/-- What is no array, or is an empty one, with the text that it prints as. -/
inductive LeafText : Value → String → Prop
  | null : LeafText .null ""
  | bool (b : Bool) : LeafText (.bool b) (if b then "true" else "false")
  | number (n : Number) : LeafText (.number n) n.text
  | string (s : String) : LeafText (.string s) s
  | empty : LeafText (.array []) ""
  | object (entries : List (String × Value)) :
    LeafText (.object entries) (Json.write (.object entries))

theorem leavesAll_eq_flatMap (vs : List Value) : leavesAll vs = vs.flatMap leaves := by
  induction vs with
  | nil => rfl
  | cons v rest ih => rw [leavesAll, ih, List.flatMap_cons]

mutual

theorem leafText_of_mem_leaves {leaf : Value} : {v : Value} → leaf ∈ v.leaves →
    LeafText leaf leaf.text
  | .array [], h => by
    obtain rfl : leaf = .array [] := by simpa [leaves] using h
    exact .empty
  | .array (v :: rest), h => by
    rw [leaves, List.mem_append] at h
    exact h.elim leafText_of_mem_leaves leafText_of_mem_leavesAll
  | .null, h => by
    obtain rfl : leaf = .null := by simpa [leaves] using h
    exact .null
  | .bool b, h => by
    obtain rfl : leaf = .bool b := by simpa [leaves] using h
    exact .bool b
  | .number n, h => by
    obtain rfl : leaf = .number n := by simpa [leaves] using h
    exact .number n
  | .string s, h => by
    obtain rfl : leaf = .string s := by simpa [leaves] using h
    exact .string s
  | .object entries, h => by
    obtain rfl : leaf = .object entries := by simpa [leaves] using h
    exact .object entries

theorem leafText_of_mem_leavesAll {leaf : Value} : {vs : List Value} → leaf ∈ leavesAll vs →
    LeafText leaf leaf.text
  | [], h => nomatch h
  | v :: rest, h => by
    rw [leavesAll, List.mem_append] at h
    exact h.elim leafText_of_mem_leaves leafText_of_mem_leavesAll

end

def blanks : List Value := [.null, .string "", .array []]

theorem texts_leaves_of_blank {v : Value} (h : v ∈ blanks) : v.leaves.map text = [""] := by
  simp only [blanks, List.mem_cons, List.not_mem_nil, or_false] at h
  obtain rfl | rfl | rfl := h
  · rfl
  · rfl
  · rfl

-- ---------------------------------------------------------------------------
-- Elements at any depth
-- ---------------------------------------------------------------------------

/-- The element at `i` of the array that is reached by going into arrays along `path`. -/
def element? (i : Nat) : List Nat → Value → Option Value
  | [], .array items => items[i]?
  | j :: path, .array items => items[j]?.bind (element? i path)
  | _, _ => none

/-- Puts `parts` where that element stands. -/
def splice (i : Nat) (parts : List Value) : List Nat → Value → Value
  | [], .array items => .array (items.take i ++ parts ++ items.drop (i + 1))
  | j :: path, .array items => .array (items.modify j (splice i parts path))
  | _, v => v

variable {v w : Value} {items : List Value} {path : List Nat} {i : Nat}

theorem leaves_array_flatMap (h : items ≠ []) :
    (Value.array items).leaves = items.flatMap leaves := by
  rw [leaves_array h, leavesAll_eq_flatMap]

theorem leaves_array_of_getElem? (h : items[i]? = some v) :
    (Value.array items).leaves =
      (items.take i).flatMap leaves ++ v.leaves ++ (items.drop (i + 1)).flatMap leaves := by
  obtain ⟨hi, rfl⟩ := List.getElem?_eq_some_iff.mp h
  have around : items = items.take i ++ items[i] :: items.drop (i + 1) := by
    rw [← List.drop_eq_getElem_cons, List.take_append_drop]
  rw [leaves_array_flatMap (List.ne_nil_of_length_pos (Nat.zero_lt_of_lt hi))]
  conv_lhs => rw [around]
  rw [List.flatMap_append, List.flatMap_cons, List.append_assoc]

/-- The leaves of an element stand together among all leaves. What is put in its place has its
leaves there, and all others stay as they are. -/
theorem leaves_splice (h : element? i path v = some w) :
    ∃ before after, v.leaves = before ++ w.leaves ++ after ∧
      ∀ parts, parts ≠ [] →
        (splice i parts path v).leaves = before ++ parts.flatMap leaves ++ after := by
  induction path generalizing v with
  | nil =>
    cases v with
    | array items =>
      refine ⟨_, _, leaves_array_of_getElem? h, fun parts hp => ?_⟩
      have filled : items.take i ++ parts ++ items.drop (i + 1) ≠ [] := by simp [hp]
      rw [splice, leaves_array_flatMap filled, List.flatMap_append, List.flatMap_append]
    | _ => cases h
  | cons j path ih =>
    cases v with
    | array items =>
      obtain ⟨u, hu, hw⟩ := Option.bind_eq_some_iff.mp h
      obtain ⟨before, after, whole, spliced⟩ := ih hw
      refine ⟨(items.take j).flatMap leaves ++ before, after ++ (items.drop (j + 1)).flatMap leaves,
        ?_, fun parts hp => ?_⟩
      · rw [leaves_array_of_getElem? hu, whole]
        simp only [List.append_assoc]
      · obtain ⟨hj, rfl⟩ := List.getElem?_eq_some_iff.mp hu
        rw [splice, List.modify_eq_take_cons_drop hj, leaves_array_flatMap (by simp),
          List.flatMap_append, List.flatMap_cons, spliced parts hp]
        simp only [List.append_assoc]
    | _ => cases h

theorem text_splice (h : element? i path v = some w) {parts : List Value} (hp : parts ≠ [])
    (same : (parts.flatMap leaves).map text = w.leaves.map text) :
    (splice i parts path v).text = v.text := by
  obtain ⟨before, after, whole, spliced⟩ := leaves_splice h
  rw [text_eq_leaves, text_eq_leaves v, whole, spliced parts hp]
  simp only [List.map_append, same]

theorem text_iterate_guard (n : Nat) (v : Value) : (guard^[n] v).text = v.text := by
  induction n with
  | zero => rfl
  | succ n ih => rw [Function.iterate_succ_apply', text_guard, ih]

end Value

theorem Template.run_eq_text {Ω σ : Type} (host : Host Ω σ) (helpers : HelperTable Ω)
    (t : Template Ω) (context : Value) (s : σ) :
    t.run host helpers context s =
      ((t.call host helpers context s).1.map Value.text, (t.call host helpers context s).2) := by
  rw [run]
  cases t.call host helpers context s with
  | mk result s' =>
    cases result with
    | none => rfl
    | some v => exact congrArg (fun text => (some text, s')) (Value.text_guard v)

namespace Value

/-- An array prints as the texts of its leaves between commas. So an element of an array, however
deep in arrays, may be replaced by its own elements if it has any, and by any other blank if it is
one; and a template prints the text of its value, however often that goes through the guard. -/
theorem prints_leaves {Ω σ : Type} (host : Host Ω σ) (helpers : HelperTable Ω) :
    (∀ items, ∃ texts, List.Forall₂ LeafText (leaves (.array items)) texts ∧
      (Value.array items).text = ",".intercalate texts) ∧
    (∀ (v : Value) path i items, element? i path v = some (.array items) → items ≠ [] →
      (splice i items path v).text = v.text) ∧
    (∀ (v w blank : Value) path i, element? i path v = some w → w ∈ blanks → blank ∈ blanks →
      (splice i [blank] path v).text = v.text) ∧
    (∀ (t : Template Ω) context s n, t.run host helpers context s =
      ((t.call host helpers context s).1.map fun v => (guard^[n] v).text,
        (t.call host helpers context s).2)) ∧
    ∀ n v, (guard^[n] v).text = v.text := by
  refine ⟨fun items => ⟨(leaves (.array items)).map text, ?_, text_eq_leaves _⟩,
    fun v path i items h filled => ?_, fun v w blank path i h hw hb => ?_,
    fun t context s n => ?_, text_iterate_guard⟩
  · rw [List.forall₂_map_right_iff, List.forall₂_same]
    exact fun leaf h => leafText_of_mem_leaves h
  · apply text_splice h filled
    rw [leaves_array_flatMap filled]
  · apply text_splice h (List.cons_ne_nil blank [])
    rw [List.flatMap_singleton, texts_leaves_of_blank hb, texts_leaves_of_blank hw]
  · simp only [text_iterate_guard]
    exact t.run_eq_text host helpers context s

def nested : Value :=
  .array [.bool true, .array [.array [.string "a", .null], .object [("k", .null)]], .array []]

theorem prints_leaves_nested :
    element? 0 [1] nested = some (.array [.string "a", .null]) ∧
    element? 1 [1, 0] nested = some .null ∧
    nested.text = "true,a,,\x7b\"k\":null\x7d," ∧
    (splice 0 [.string "a", .null] [1] nested).text = nested.text ∧
    (splice 1 [.array []] [1, 0] nested).text = nested.text := by
  obtain ⟨-, elements, blank, -⟩ :=
    prints_leaves (Host.logging (Ω := Empty)) HelperTable.empty
  refine ⟨rfl, rfl, ?_, elements nested [1] 0 _ rfl (List.cons_ne_nil _ _),
    blank nested .null (.array []) [1, 0] 1 rfl (List.mem_cons_self ..) ?_⟩
  · decide
  · simp [blanks]

end Value
end Stencil
