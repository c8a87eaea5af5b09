import Mathlib
import Stencil.Markup.Declared
import Stencil.Markup.Token

/-!
# The name in a block tag

The search for block tags takes two names behind the opening of a tag and the mark at its edge: the
word for a block, and behind blanks the name of the block (`nameAt?_eq_some_iff`). Where no tag is
opened it finds nothing. The line break that a source may end in does not matter to it
(`allNames_withoutLastBreak`).
-/

namespace Stencil.Markup

-- ---------------------------------------------------------------------------
-- Marks and blanks
-- ---------------------------------------------------------------------------

theorem edge_eq (cs : List Char) : ∃ mark, cs = mark ++ cs.drop (Edge.ofChar? cs.head?).width ∧
    (mark = [] ∨ mark = ['-'] ∨ mark = ['+']) := by
  cases cs with
  | nil => exact ⟨[], rfl, .inl rfl⟩
  | cons c rest =>
    simp only [Edge.ofChar?, List.head?_cons]
    split
    · rename_i h
      cases h
      exact ⟨['-'], rfl, .inr (.inl rfl)⟩
    · rename_i h
      cases h
      exact ⟨['+'], rfl, .inr (.inr rfl)⟩
    · exact ⟨[], rfl, .inl rfl⟩

/-- No blank is near the letters and signs. -/
theorem toNat_of_isBlank {c : Char} (h : Text.isBlank c = true) :
    c.toNat ≤ 32 ∨ 128 ≤ c.toNat := by
  simp only [Text.isBlank, Bool.or_eq_true, beq_iff_eq, Bool.and_eq_true, decide_eq_true_eq,
    List.contains_iff_mem] at h
  rcases h with (rfl | h) | h
  · exact .inl (by decide)
  · exact .inl (by omega)
  · have wide : ∀ n ∈ Text.wideBlanks, 128 ≤ n := by decide
    exact .inr (wide _ h)

namespace Declared

variable {c : Char} {cs rest : List Char} {name : String}

-- ---------------------------------------------------------------------------
-- The search at one place
-- ---------------------------------------------------------------------------

theorem nameAt?_of_ne (hc : c ≠ '{') (cs : List Char) : nameAt? (c :: cs) = none := by
  simp [nameAt?, behind?, Ne.symm hc]

theorem nameAt?_of_head (hc : cs.head? ≠ some '%') : nameAt? ('{' :: cs) = none := by
  cases cs with
  | nil => rfl
  | cons c rest =>
    have hc : c ≠ '%' := by simpa using hc
    simp [nameAt?, behind?, Ne.symm hc]

theorem nameAt?_of_not_opened (h : ¬(c = '{' ∧ cs.head? = some '%')) :
    nameAt? (c :: cs) = none := by
  by_cases hc : c = '{'
  · exact hc ▸ nameAt?_of_head fun percent => h ⟨hc, percent⟩
  · exact nameAt?_of_ne hc cs

-- ---------------------------------------------------------------------------
-- Names
-- ---------------------------------------------------------------------------

def leadingName? : List Char → Option String
  | [] => none
  | c :: rest =>
    if isNameStart c then some (String.ofList ((c :: rest).takeWhile isNamePart)) else none

theorem isNamePart_of_isNameStart (h : isNameStart c = true) : isNamePart c = true := by
  simp only [isNameStart, isNamePart, Bool.or_eq_true, Char.isAlphanum] at h ⊢
  exact h.imp_left .inl

theorem toNat_of_isNamePart (h : isNamePart c = true) : 48 ≤ c.toNat ∧ c.toNat ≤ 122 := by
  simp only [isNamePart, Char.isAlphanum, Char.isAlpha, Char.isUpper, Char.isLower, Char.isDigit,
    Bool.or_eq_true, Bool.and_eq_true, decide_eq_true_eq, ge_iff_le, UInt32.le_iff_toNat_le,
    beq_iff_eq] at h
  have bounds : 'A'.val.toNat = 65 ∧ 'Z'.val.toNat = 90 ∧ 'a'.val.toNat = 97 ∧
      'z'.val.toNat = 122 ∧ '0'.val.toNat = 48 ∧ '9'.val.toNat = 57 := by decide
  rcases h with h | rfl
  · simp only [Char.toNat]
    omega
  · decide

theorem isNamePart_of_isBlank (h : Text.isBlank c = true) : isNamePart c = false := by
  by_contra part
  have near := toNat_of_isNamePart (by simpa using part)
  have far := toNat_of_isBlank h
  omega

theorem leadingName?_some (h : leadingName? cs = some name) :
    cs.takeWhile isNamePart = name.toList ∧ ∃ c rest, cs = c :: rest ∧ isNameStart c = true := by
  cases cs with
  | nil => cases h
  | cons c rest =>
    simp only [leadingName?] at h
    split at h
    · rename_i hc
      cases h
      exact ⟨String.toList_ofList.symm, c, rest, rfl, hc⟩
    · cases h

theorem nameAt?_eq (cs : List Char) : nameAt? ('{' :: '%' :: cs) =
    (behind? "block".toList (Text.trimStart (cs.drop (Edge.ofChar? cs.head?).width))).bind
      fun rest => if rest.head?.any Text.isBlank then leadingName? (Text.trimStart rest)
        else none := by
  unfold nameAt?
  rw [show behind? ['{', '%'] ('{' :: '%' :: cs) = some cs from rfl]
  refine (Option.bind_some _ _).trans ?_
  extract_lets unmarked
  have hunmarked : unmarked = cs.drop (Edge.ofChar? cs.head?).width := by
    dsimp only [unmarked]
    split
    · rfl
    · rfl
    · rename_i minus plus
      obtain ⟨mark, he, rfl | rfl | rfl⟩ := edge_eq cs
      · exact he
      · exact (minus _ he).elim
      · exact (plus _ he).elim
  rw [hunmarked]
  refine congrArg (Option.bind _) (funext fun rest => ?_)
  cases rest.head?.any Text.isBlank with
  | false => rfl
  | true =>
    cases Text.trimStart rest with
    | nil => rfl
    | cons c rest =>
      by_cases hc : isNameStart c = true
      · simp [leadingName?, hc, isNamePart_of_isNameStart hc]
      · simp [leadingName?, hc]

theorem isNamePart_of_mem_word : ∀ c ∈ "block".toList, isNamePart c = true :=
  List.all_eq_true.mp (show ['b', 'l', 'o', 'c', 'k'].all isNamePart = true from rfl)

/-- A block tag has two names: the word for a block, and its own one. -/
theorem nameAt?_eq_some_iff {inside : List Char}
    (hi : inside = Text.trimStart (cs.drop (Edge.ofChar? cs.head?).width)) :
    nameAt? ('{' :: '%' :: cs) = some name ↔ leadingName? inside = some "block" ∧
      leadingName? (Text.trimStart (inside.dropWhile isNamePart)) = some name := by
  rw [nameAt?_eq, ← hi, Option.bind_eq_some_iff]
  constructor
  · rintro ⟨rest, hr, h⟩
    simp only [behind?] at hr
    split at hr
    · rename_i hp
      obtain ⟨rest', rfl⟩ := List.isPrefixOf_iff_prefix.mp hp
      obtain rfl : rest' = rest := by simpa using hr
      split at h
      · rename_i hb
        obtain ⟨b, hb', hb⟩ : ∃ b, rest'.head? = some b ∧ Text.isBlank b = true := by
          simpa [Option.any_eq_true] using hb
        obtain ⟨behind, rfl⟩ := List.head?_eq_some_iff.mp hb'
        have apart : isNamePart b = false := isNamePart_of_isBlank hb
        have whole : ("block".toList ++ b :: behind).takeWhile isNamePart = "block".toList := by
          rw [List.takeWhile_append_of_pos isNamePart_of_mem_word,
            List.takeWhile_cons_of_neg (by simp [apart]), List.append_nil]
        have rest : ("block".toList ++ b :: behind).dropWhile isNamePart = b :: behind := by
          rw [List.dropWhile_append_of_pos isNamePart_of_mem_word,
            List.dropWhile_cons_of_neg (by simp [apart])]
        refine ⟨?_, by rwa [rest]⟩
        show (if isNameStart 'b' then some (String.ofList _) else none) = _
        exact congrArg (some ∘ String.ofList) whole
      · cases h
    · cases hr
  · rintro ⟨hb, hn⟩
    obtain ⟨word, -⟩ := leadingName?_some hb
    have whole := List.takeWhile_append_dropWhile (p := isNamePart) (l := inside)
    rw [word] at whole
    have cut (rest : List Char) (h : "block".toList ++ rest = inside) :
        behind? "block".toList inside = some rest := by
      rw [← h, behind?, if_pos (List.isPrefixOf_iff_prefix.mpr (List.prefix_append ..)),
        List.drop_left]
    refine ⟨_, cut _ whole, ?_⟩
    have apart := List.head?_dropWhile_not isNamePart inside
    cases hr : inside.dropWhile isNamePart with
    | nil =>
      rw [hr] at hn
      cases hn
    | cons b behind =>
      rw [hr] at hn apart
      -- what is not blank would begin the name, and then the word would go on
      have blank : Text.isBlank b = true := by
        by_contra hb
        rw [Text.trimStart, List.dropWhile_cons_of_neg hb] at hn
        obtain ⟨-, c, rest, he, hc⟩ := leadingName?_some hn
        cases he
        cases (isNamePart_of_isNameStart hc).symm.trans apart
      simpa [blank] using hn

-- ---------------------------------------------------------------------------
-- The last line break
-- ---------------------------------------------------------------------------

theorem takeWhile_append_of_neg {p : Char → Bool} (hp : p c = false) (cs : List Char) :
    (cs ++ [c]).takeWhile p = cs.takeWhile p := by
  induction cs with
  | nil => simp [hp]
  | cons d rest ih => simp [List.takeWhile_cons, ih]

theorem leadingName?_append (hb : isNamePart c = false) (cs : List Char) :
    leadingName? (cs ++ [c]) = leadingName? cs := by
  have start : isNameStart c ≠ true := fun h => by
    cases hb.symm.trans (isNamePart_of_isNameStart h)
  cases cs with
  | nil => exact if_neg start
  | cons d rest =>
    have taken := takeWhile_append_of_neg hb (d :: rest)
    rw [List.cons_append] at taken ⊢
    rw [leadingName?, leadingName?, taken]

theorem trimStart_append (hb : Text.isBlank c = true) (cs : List Char) :
    Text.trimStart (cs ++ [c]) =
      if (Text.trimStart cs).isEmpty then [] else Text.trimStart cs ++ [c] := by
  rw [Text.trimStart, List.dropWhile_append, List.dropWhile_cons_of_pos hb]
  rfl

theorem leadingName?_trimStart_append (hb : Text.isBlank c = true) (cs : List Char) :
    leadingName? (Text.trimStart (cs ++ [c])) = leadingName? (Text.trimStart cs) := by
  rw [trimStart_append hb]
  split
  · rename_i h
    rw [List.isEmpty_iff.mp h]
  · exact leadingName?_append (isNamePart_of_isBlank hb) _

theorem drop_edge_append (hb : Text.isBlank c = true) (cs : List Char) :
    (cs ++ [c]).drop (Edge.ofChar? (cs ++ [c]).head?).width =
      cs.drop (Edge.ofChar? cs.head?).width ++ [c] := by
  cases cs with
  | nil =>
    obtain ⟨mark, he, rfl | rfl | rfl⟩ := edge_eq [c]
    · exact he.symm
    all_goals
      cases he
      cases hb
  | cons d rest =>
    have short (edge : Edge) : edge.width ≤ (d :: rest).length := by
      cases edge <;> simp [Edge.width]
    exact List.drop_append_of_le_length (short _)

theorem nameAt?_append (hb : Text.isBlank c = true) (hc : cs ≠ []) :
    nameAt? (cs ++ [c]) = nameAt? cs := by
  obtain ⟨d, rest, rfl⟩ := List.exists_cons_of_ne_nil hc
  by_cases opened : d = '{' ∧ rest.head? = some '%'
  · obtain ⟨rfl, percent⟩ := opened
    obtain ⟨inside, rfl⟩ := List.head?_eq_some_iff.mp percent
    have behind (cs : List Char) :
        leadingName? (Text.trimStart ((Text.trimStart (cs ++ [c])).dropWhile isNamePart)) =
          leadingName? (Text.trimStart ((Text.trimStart cs).dropWhile isNamePart)) := by
      have alone : [c].dropWhile isNamePart = [c] :=
        List.dropWhile_cons_of_neg (by simp [isNamePart_of_isBlank hb])
      rw [trimStart_append hb]
      split
      · rename_i h
        rw [List.isEmpty_iff.mp h]
      · rw [List.dropWhile_append, alone]
        split
        · rename_i h
          rw [List.isEmpty_iff.mp h]
          exact leadingName?_trimStart_append hb []
        · exact leadingName?_trimStart_append hb _
    ext name
    rw [List.cons_append, List.cons_append, nameAt?_eq_some_iff rfl, nameAt?_eq_some_iff rfl,
      drop_edge_append hb, leadingName?_trimStart_append hb, behind]
  · have opened' : ¬(d = '{' ∧ (rest ++ [c]).head? = some '%') := by
      rintro ⟨rfl, percent⟩
      cases rest with
      | nil =>
        cases percent
        cases hb
      | cons e rest => exact opened ⟨rfl, percent⟩
    rw [List.cons_append, nameAt?_of_not_opened opened, nameAt?_of_not_opened opened']

theorem allNames_append (hb : Text.isBlank c = true) (cs : List Char) :
    allNames (cs ++ [c]) = allNames cs := by
  induction cs with
  | nil =>
    have unnamed : nameAt? [c] = none := nameAt?_of_ne (fun h => by subst h; cases hb) []
    simp only [List.nil_append, allNames, unnamed]
  | cons d rest ih =>
    have same := nameAt?_append hb (List.cons_ne_nil d rest)
    rw [List.cons_append] at same ⊢
    rw [allNames, allNames, same, ih]

theorem allNames_withoutLastBreak (cs : List Char) :
    allNames (Token.withoutLastBreak cs) = allNames cs := by
  have shorter {b : Char} (hb : Text.isBlank b = true) (cs : List Char) :
      allNames (if cs.getLast? == some b then cs.dropLast else cs) = allNames cs := by
    split
    · rename_i h
      obtain ⟨front, rfl⟩ := List.getLast?_eq_some_iff.mp (by simpa using h)
      rw [List.dropLast_concat, allNames_append hb]
    · rfl
  exact (shorter (by decide) _).trans (shorter (by decide) cs)

end Declared
end Stencil.Markup
