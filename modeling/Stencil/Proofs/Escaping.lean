import Stencil.Helper
import Stencil.Proofs.Entities
import Stencil.Renderer

/-!
# What the escaping helper prints

The dispatcher drops what does not count as true, and the helper leaves such values as they are.
Neither can be seen: texts of values that do not count as true have nothing to escape, and the
helper gives texts, of which only the empty one is dropped. So a call prints the escaped text of its
first argument, whatever that is (`escape_prints_all`).
-/

namespace Stencil

namespace Html

theorem escape_append (s t : String) : escape (s ++ t) = escape s ++ escape t := by
  apply String.toList_injective
  simp only [toList_escape, String.toList_append, List.flatMap_append]

theorem escape_intercalate (parts : List String) :
    escape (",".intercalate parts) = ",".intercalate (parts.map escape) := by
  induction parts with
  | nil => rfl
  | cons part rest ih =>
    cases rest with
    | nil => simp
    | cons next rest =>
      have comma : escape "," = "," := by rfl
      rw [List.map_cons] at ih
      rw [String.intercalate_cons_cons, escape_append, escape_append, comma, ih, List.map_cons,
        List.map_cons, String.intercalate_cons_cons]

end Html

theorem Number.text_of_isZero {n : Number} (h : n.isZero = true) :
    n.text = "0" ∨ n.text = "0.0" ∨ n.text = "-0.0" := by
  cases n with
  | int i =>
    obtain rfl : i = 0 := by simpa [isZero] using h
    exact .inl rfl
  | float x =>
    have zero : x.isZero = true := h
    cases hn : x.negative <;> simp [text, Decimal.Layout.write, zero, hn]

namespace Value

theorem escape_text_of_falsy {v : Value} (h : v.isTruthy = false) :
    Html.escape v.text = v.text := by
  cases v with
  | null => rfl
  | bool b =>
    obtain rfl : b = false := h
    rfl
  | number n =>
    have zero : n.isZero = true := by simpa [isTruthy] using h
    rw [text]
    rcases n.text_of_isZero zero with h | h | h <;> rw [h] <;> rfl
  | string s =>
    obtain rfl : s = "" := by simpa [isTruthy] using h
    rfl
  | array items => cases h
  | object entries => cases h

/-- What does not count as true prints something all the same, if it is a number or a truth
value. -/
theorem text_eq_empty_of_falsy {v : Value} (h : v.isTruthy = false) :
    v.text = "" ↔ v = .null ∨ v = .string "" := by
  cases v with
  | null => simp [text]
  | bool b =>
    obtain rfl : b = false := h
    simp [text]
  | number n =>
    have zero : n.isZero = true := by simpa [isTruthy] using h
    rw [text]
    rcases n.text_of_isZero zero with h | h | h <;> simp [h]
  | string s => simp [text]
  | array items => cases h
  | object entries => cases h

theorem escape_text_array (items : List Value) :
    Html.escape (Value.array items).text =
      ",".intercalate (items.map fun v => Html.escape v.text) := by
  rw [text, texts_eq_map, Html.escape_intercalate, List.map_map]
  rfl

theorem escape_text_leaves (v : Value) :
    Html.escape v.text = ",".intercalate (v.leaves.map fun v => Html.escape v.text) := by
  rw [text_eq_leaves, Html.escape_intercalate, List.map_map]
  rfl

end Value

-- ---------------------------------------------------------------------------
-- Dispatched calls
-- ---------------------------------------------------------------------------

variable {Ω σ : Type}

theorem Helper.escape_eq (this v : Value) (rest : List Value) :
    (Helper.escape this (v :: rest) : Code Ω _) = .done (.ok (.string (Html.escape v.text))) := by
  unfold escape
  split
  · rename_i h
    cases h
  · rename_i h
    cases h
    rfl
  · rename_i h
    cases h
    cases hv : v.isTruthy with
    | false => rw [if_neg Bool.false_ne_true, Value.escape_text_of_falsy hv]
    | true => rw [if_pos rfl]

theorem HelperTable.dispatch_escape {t : HelperTable Ω}
    (ht : t.get? Helper.escapeName = some Helper.escape) (host : Host Ω σ) (this v : Value)
    (rest : List Value) (s : σ) :
    t.dispatch host this Helper.escapeName (v :: rest) s = (Html.escape v.text, s) := by
  have called : call host Helper.escape this (v :: rest) s =
      (.value (.string (Html.escape v.text)), s) := by
    rw [call, Helper.escape_eq]
    rfl
  simp only [dispatch, ht, called, Value.isTruthy, Value.text]
  by_cases h : Html.escape v.text = "" <;> simp [h]

/-- A call of the escaping helper prints the escaped text of its first argument and does nothing
else, whatever the receiver, the other arguments and the rest of the table are. All branches of the
helper come to this. Of the values that do not count as true, null and the empty string print
nothing, and the others their own text. No special character is printed but ampersands that open an
entity. An array prints what its elements print, one by one, with commas between; so do all leaves
of an array of arrays. -/
theorem escape_prints_all {t : HelperTable Ω} (ht : t.get? Helper.escapeName = some Helper.escape)
    (host : Host Ω σ) (this : Value) (rest : List Value) (s : σ) :
    let printed (v : Value) := (t.dispatch host this Helper.escapeName (v :: rest) s).1
    (∀ v, t.dispatch host this Helper.escapeName (v :: rest) s = (Html.escape v.text, s)) ∧
    (∀ v, (Helper.escape this (v :: rest) : Code Ω _) =
      .done (.ok (.string (Html.escape v.text)))) ∧
    (∀ v, v.isTruthy = false →
      printed v = v.text ∧ (printed v = "" ↔ v = .null ∨ v = .string "")) ∧
    (∀ v, Html.IsEscaped (printed v).toList) ∧
    (∀ items, printed (.array items) = ",".intercalate (items.map printed)) ∧
    ∀ v, printed v = ",".intercalate (v.leaves.map printed) := by
  intro printed
  have all (v : Value) := HelperTable.dispatch_escape ht host this v rest s
  have printed_eq : printed = fun v => Html.escape v.text := by
    funext v
    exact congrArg Prod.fst (all v)
  rw [printed_eq]
  refine ⟨all, fun v => Helper.escape_eq this v rest, fun v hv => ?_, fun v => ?_,
    Value.escape_text_array, Value.escape_text_leaves⟩
  · simp only [Value.escape_text_of_falsy hv, Value.text_eq_empty_of_falsy hv, true_and]
  · rw [Html.toList_escape]
    exact Html.isEscaped_escape v.text.toList

def firstHelpers : HelperTable Unit := (Renderer.ofConfig {}).helpers

theorem escape_prints_all_page :
    let zero := Value.number (.float (.zero true))
    let v := Value.array [.number (.int 0), .array [zero, .bool false], .null, .string "<&lt;>"]
    firstHelpers.get? Helper.escapeName = some Helper.escape ∧ zero.isTruthy = false ∧
      firstHelpers.dispatch .logging .null Helper.escapeName [v, .bool true] [] =
        ("0,-0.0,false,,&lt;&amp;lt;&gt;", []) ∧
      (firstHelpers.dispatch .logging .null Helper.escapeName [zero, .bool true] []).1 =
        "-0.0" := by
  intro zero v
  have there : firstHelpers.get? Helper.escapeName = some Helper.escape := by rfl
  have falsy : zero.isTruthy = false := by rfl
  obtain ⟨all, -, own, -⟩ := escape_prints_all there .logging .null [.bool true] []
  have text : Html.escape v.text = "0,-0.0,false,,&lt;&amp;lt;&gt;" := by decide +kernel
  exact ⟨there, falsy, (all v).trans (by rw [text]), (own zero falsy).1⟩

end Stencil
