import Stencil.Html

/-!
# Escaped texts

Escaping loses nothing. Every entity opens with an ampersand, holds no other special character and
is no start of another one, so a pass from the left finds the entities that escaping wrote and no
others, also where the text had entities in it before (`unescapeChars_escape`). Which texts escaping
gives can be seen by looking at them: those without special characters but for ampersands that each
open an entity (`escape_unescape`).
-/

namespace Stencil.Html

variable {c d : Char} {e : String} {s t rest : List Char}

def IsSpecial (c : Char) : Prop := c ∈ entities.map Prod.fst

instance : DecidablePred IsSpecial := fun c =>
  inferInstanceAs (Decidable (c ∈ entities.map Prod.fst))

/-- No special character stands in the text but for ampersands, and each of these opens an
entity. -/
structure IsEscaped (t : List Char) : Prop where
  special : ∀ c ∈ t, IsSpecial c → c = '&'
  opens : ∀ rest, '&' :: rest <:+ t → ∃ x ∈ entities, x.2.toList <+: '&' :: rest

-- ---------------------------------------------------------------------------
-- The table
-- ---------------------------------------------------------------------------

theorem toList_of_entity (h : (c, e) ∈ entities) :
    ∃ name, e.toList = '&' :: name ∧ name ≠ [] ∧ ∀ d ∈ name, ¬IsSpecial d := by
  have shape : ∀ x ∈ entities, x.2.toList = '&' :: x.2.toList.tail ∧ x.2.toList.tail ≠ [] ∧
      (x.2.toList.tail.any fun d => IsSpecial d) = false := by decide
  obtain ⟨opened, filled, plain⟩ := shape _ h
  refine ⟨_, opened, filled, fun d hd => ?_⟩
  simpa using List.any_eq_false.mp plain d hd

theorem eq_of_prefix_entity {x y : Char × String} (hx : x ∈ entities) (hy : y ∈ entities)
    (h : x.2.toList <+: y.2.toList) : x = y := by
  have distinct : ∀ x ∈ entities, ∀ y ∈ entities, x.2.toList.isPrefixOf y.2.toList → x = y := by
    decide
  exact distinct x hx y hy (List.isPrefixOf_iff_prefix.mpr h)

theorem isSpecial_of_entity (h : (c, e) ∈ entities) : IsSpecial c :=
  List.mem_map.mpr ⟨_, h, rfl⟩

theorem exists_entity (h : IsSpecial c) : ∃ e, (c, e) ∈ entities := by
  obtain ⟨⟨d, e⟩, he, rfl⟩ := List.mem_map.mp h
  exact ⟨e, he⟩

theorem escapeChar_of_entity (h : (c, e) ∈ entities) : escapeChar c = e.toList := by
  have found : ∀ x ∈ entities, entity? x.1 = some x.2 := by decide
  have : entity? c = some e := found _ h
  rw [escapeChar, this]

theorem escapeChar_of_not_special (h : ¬IsSpecial c) : escapeChar c = [c] := by
  have missed : entity? c = none := by
    rw [entity?, List.lookup_eq_none_iff]
    intro x hx
    rw [bne_iff_ne]
    rintro rfl
    exact h (isSpecial_of_entity hx)
  rw [escapeChar, missed]

-- ---------------------------------------------------------------------------
-- One pass from the left
-- ---------------------------------------------------------------------------

theorem entityAt_eq_none_iff : entityAt s = none ↔ ∀ x ∈ entities, ¬x.2.toList <+: s := by
  simp [entityAt, List.findSome?_eq_none_iff]

theorem entityAt_of_ne (h : c ≠ '&') (rest : List Char) : entityAt (c :: rest) = none := by
  rw [entityAt_eq_none_iff]
  rintro ⟨d, e⟩ he hp
  obtain ⟨name, hn, -⟩ := toList_of_entity he
  rw [hn, List.cons_prefix_cons] at hp
  exact h hp.1.symm

theorem entityAt_append (h : (c, e) ∈ entities) (rest : List Char) :
    entityAt (e.toList ++ rest) = some (c, rest) := by
  cases hf : entityAt (e.toList ++ rest) with
  | none => exact absurd (List.prefix_append ..) (entityAt_eq_none_iff.mp hf _ h)
  | some found =>
    obtain ⟨d, after⟩ := found
    obtain ⟨f, hd, he⟩ := eq_append_of_entityAt hf
    have same : (c, e) = (d, f) := by
      rcases List.prefix_or_prefix_of_prefix (List.prefix_append e.toList rest)
        (he ▸ List.prefix_append f.toList after) with hp | hp
      · exact eq_of_prefix_entity h hd hp
      · exact (eq_of_prefix_entity hd h hp).symm
    cases same
    rw [List.append_cancel_left he]

theorem unescapeChars_append (h : (c, e) ∈ entities) (rest : List Char) :
    unescapeChars (e.toList ++ rest) = c :: unescapeChars rest := by
  have found := entityAt_append h rest
  obtain ⟨name, hn, -⟩ := toList_of_entity h
  rw [hn, List.cons_append] at found ⊢
  rw [unescapeChars]
  split
  · rename_i hf
    cases found.symm.trans hf
    rfl
  · rename_i hf
    cases found.symm.trans hf

theorem unescapeChars_cons (h : entityAt (c :: rest) = none) :
    unescapeChars (c :: rest) = c :: unescapeChars rest := by
  rw [unescapeChars]
  split
  · rename_i hf
    cases h.symm.trans hf
  · rfl

/-- The pass reads back what was escaped, whatever stands behind it. -/
theorem unescapeChars_escape (s rest : List Char) :
    unescapeChars (s.flatMap escapeChar ++ rest) = s ++ unescapeChars rest := by
  induction s with
  | nil => rfl
  | cons c s ih =>
    rw [List.flatMap_cons, List.append_assoc]
    by_cases hc : IsSpecial c
    · obtain ⟨e, he⟩ := exists_entity hc
      rw [escapeChar_of_entity he, unescapeChars_append he, ih, List.cons_append]
    · have hne : c ≠ '&' := by
        rintro rfl
        exact hc (by decide)
      rw [escapeChar_of_not_special hc, List.singleton_append,
        unescapeChars_cons (entityAt_of_ne hne _), ih, List.cons_append]

-- ---------------------------------------------------------------------------
-- What escaping gives
-- ---------------------------------------------------------------------------

theorem isEscaped_cons : IsEscaped (c :: t) ↔
    (IsSpecial c → c = '&' ∧ ∃ x ∈ entities, x.2.toList <+: c :: t) ∧ IsEscaped t := by
  constructor
  · rintro ⟨special, opens⟩
    refine ⟨fun hc => ?_, fun d hd => special d (List.mem_cons_of_mem _ hd),
      fun rest hr => opens rest (List.suffix_cons_iff.mpr (.inr hr))⟩
    obtain rfl := special c List.mem_cons_self hc
    exact ⟨rfl, opens t List.suffix_rfl⟩
  · rintro ⟨first, special, opens⟩
    refine ⟨fun d hd hs => ?_, fun rest hr => ?_⟩
    · rcases List.mem_cons.mp hd with rfl | hd
      · exact (first hs).1
      · exact special d hd hs
    · rcases List.suffix_cons_iff.mp hr with hr | hr
      · cases hr
        exact (first (by decide)).2
      · exact opens rest hr

theorem IsEscaped.suffix (h : IsEscaped t) (hs : s <:+ t) : IsEscaped s :=
  ⟨fun c hc => h.special c (hs.subset hc), fun rest hr => h.opens rest (hr.trans hs)⟩

theorem IsEscaped.plain_append (h : IsEscaped t) (hs : ∀ c ∈ s, ¬IsSpecial c) :
    IsEscaped (s ++ t) := by
  induction s with
  | nil => exact h
  | cons c s ih =>
    obtain ⟨hc, hs⟩ := List.forall_mem_cons.mp hs
    exact isEscaped_cons.mpr ⟨fun special => absurd special hc, ih hs⟩

theorem isEscaped_escape (s : List Char) : IsEscaped (s.flatMap escapeChar) := by
  induction s with
  | nil => exact ⟨nofun, fun _ hr => nomatch List.suffix_nil.mp hr⟩
  | cons c s ih =>
    rw [List.flatMap_cons]
    by_cases hc : IsSpecial c
    · obtain ⟨e, he⟩ := exists_entity hc
      obtain ⟨name, hn, -, plain⟩ := toList_of_entity he
      have opened : e.toList <+: '&' :: (name ++ s.flatMap escapeChar) := by
        rw [hn, ← List.cons_append]
        exact List.prefix_append ..
      rw [escapeChar_of_entity he, hn, List.cons_append]
      exact isEscaped_cons.mpr ⟨fun _ => ⟨rfl, _, he, opened⟩, ih.plain_append plain⟩
    · rw [escapeChar_of_not_special hc]
      exact ih.plain_append (by simpa using hc)

theorem escape_unescapeChars (h : IsEscaped t) : (unescapeChars t).flatMap escapeChar = t := by
  fun_induction unescapeChars t with
  | case1 => rfl
  | case2 c rest d after hf ih =>
    obtain ⟨e, he, hs⟩ := eq_append_of_entityAt hf
    rw [hs] at h ⊢
    rw [List.flatMap_cons, escapeChar_of_entity he, ih (h.suffix (List.suffix_append ..))]
  | case3 c rest hf ih =>
    obtain ⟨first, left⟩ := isEscaped_cons.mp h
    have hc : ¬IsSpecial c := by
      intro hc
      obtain ⟨-, x, hx, hp⟩ := first hc
      exact entityAt_eq_none_iff.mp hf x hx hp
    rw [List.flatMap_cons, escapeChar_of_not_special hc, ih left, List.singleton_append]

-- ---------------------------------------------------------------------------
-- What escaping leaves alone
-- ---------------------------------------------------------------------------

theorem length_escapeChar_of_special (h : IsSpecial c) : 1 < (escapeChar c).length := by
  obtain ⟨e, he⟩ := exists_entity h
  obtain ⟨name, hn, filled, -⟩ := toList_of_entity he
  rw [escapeChar_of_entity he, hn, List.length_cons]
  have := List.length_pos_iff.mpr filled
  omega

theorem length_le_escape (s : List Char) : s.length ≤ (s.flatMap escapeChar).length := by
  induction s with
  | nil => exact Nat.le_refl _
  | cons c s ih =>
    have one : 1 ≤ (escapeChar c).length := by
      by_cases hc : IsSpecial c
      · exact Nat.le_of_lt (length_escapeChar_of_special hc)
      · rw [escapeChar_of_not_special hc]
        exact Nat.le_refl _
    rw [List.flatMap_cons, List.length_append, List.length_cons]
    omega

theorem flatMap_escapeChar_eq_self_iff :
    s.flatMap escapeChar = s ↔ ∀ c ∈ s, ¬IsSpecial c := by
  constructor
  · intro h c hm hc
    -- around a special character nothing gets shorter, and it gets longer itself
    obtain ⟨before, behind, rfl⟩ := List.append_of_mem hm
    have lengths := congrArg List.length h
    simp only [List.flatMap_append, List.flatMap_cons, List.length_append,
      List.length_cons] at lengths
    have := length_le_escape before
    have := length_le_escape behind
    have := length_escapeChar_of_special hc
    omega
  · intro h
    induction s with
    | nil => rfl
    | cons c s ih =>
      obtain ⟨hc, hs⟩ := List.forall_mem_cons.mp h
      rw [List.flatMap_cons, escapeChar_of_not_special hc, ih hs, List.singleton_append]

-- ---------------------------------------------------------------------------
-- Texts
-- ---------------------------------------------------------------------------

theorem toList_escape (s : String) : (escape s).toList = s.toList.flatMap escapeChar :=
  String.toList_ofList

theorem toList_unescape (s : String) : (unescape s).toList = unescapeChars s.toList :=
  String.toList_ofList

theorem unescape_escape (s : String) : unescape (escape s) = s := by
  apply String.toList_injective
  have read := unescapeChars_escape s.toList []
  rw [List.append_nil] at read
  rw [toList_unescape, toList_escape, read, unescapeChars, List.append_nil]

theorem escape_inj {s t : String} : escape s = escape t ↔ s = t := by
  refine ⟨fun h => ?_, congrArg escape⟩
  rw [← unescape_escape s, h, unescape_escape]

theorem escape_unescape {t : String} (h : IsEscaped t.toList) : escape (unescape t) = t := by
  apply String.toList_injective
  rw [toList_escape, toList_unescape, escape_unescapeChars h]

theorem escape_eq_self_iff {s : String} : escape s = s ↔ ∀ c ∈ s.toList, ¬IsSpecial c := by
  rw [← String.toList_inj, toList_escape, flatMap_escapeChar_eq_self_iff]

/-- Escaping is undone by one pass from the left, also where the text had entities in it; so texts
that are escaped to the same are the same. What it gives are the texts without special characters
but for ampersands that open an entity. To escape twice is to escape once for the texts without
special characters, and for no others. -/
theorem escape_lossless :
    (∀ s, unescape (escape s) = s) ∧
    (∀ s t, escape s = escape t ↔ s = t) ∧
    (∀ t, (∃ s, escape s = t) ↔ IsEscaped t.toList) ∧
    ∀ s, escape (escape s) = escape s ↔ ∀ c ∈ s.toList, ¬IsSpecial c := by
  refine ⟨unescape_escape, fun _ _ => escape_inj, fun t => ⟨?_, fun h => ⟨_, escape_unescape h⟩⟩,
    fun s => escape_inj.trans escape_eq_self_iff⟩
  rintro ⟨s, rfl⟩
  rw [toList_escape]
  exact isEscaped_escape s.toList

end Stencil.Html
