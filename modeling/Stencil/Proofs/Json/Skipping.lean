import Stencil.Proofs.Json.Values

/-!
# Values that are passed over

Passing over goes by a stack of enclosures in place of a recursion. So the induction over a tree
says what comes of the whole from what comes of the text behind the tree (`Onward`), whatever
enclosures are open there.
-/

namespace Stencil.Json

open Reader

variable {ts : List Token} {text rest : List Char} {out : Except Failure (Unit × List Char)}

def resume (n k : Nat) (comma : Bool) (enclosing : List Enclosure) : Reader Unit := do
  match ← skipEnds n comma enclosing with
  | [] => pure ()
  | .list :: rest => skipWithin k (.list :: rest)
  | .object :: rest => do
    skipKey
    skipWithin k (.object :: rest)

theorem skipWithin_eq (n : Nat) (enclosing : List Enclosure) :
    skipWithin (n + 1) enclosing = (do
      let opened ← skipStart
      resume (n + 1) n opened.isNone (opened.toList ++ enclosing)) := rfl

/-- With any number of steps that covers the text, this is what comes of it behind a value. -/
def Onward (enclosing : List Enclosure) (text : List Char)
    (out : Except Failure (Unit × List Char)) : Prop :=
  ∀ n k, text.length < n → text.length < k → resume n k true enclosing text = out

theorem onward_nil (rest : List Char) : Onward [] rest (.ok ((), rest)) := by
  intro n k hn _
  obtain ⟨n, rfl⟩ := Nat.exists_eq_succ_of_ne_zero (Nat.ne_zero_of_lt hn)
  rfl

theorem length_of_peek? {o : Option Char} {text' : List Char} (h : peek? text = .ok (o, text')) :
    text'.length ≤ text.length := by
  cases h
  exact List.length_dropWhile_le ..

theorem resume_close (e : Enclosure) (enclosing : List Enclosure)
    (h : Laid ([e.close] :: ts) text rest) :
    ∃ text', Laid ts text' rest ∧ text'.length < text.length ∧
      ∀ n k comma,
        resume (n + 1) k comma (e :: enclosing) text = resume n k true enclosing text' := by
  have blank : isBlank e.close = false ∧ (e.close == ',') = false := by cases e <;> decide
  obtain ⟨text', hp, h⟩ := h.peek_mark blank.1
  refine ⟨text', h, Nat.lt_of_lt_of_le (Nat.lt_succ_self _) (length_of_peek? hp), ?_⟩
  intro n k comma
  apply bind_congr_of_eq
  rw [skipEnds, bind_of_ok hp]
  simp only [blank.2, Bool.and_false, Bool.false_eq_true, if_false, beq_self_eq_true, if_true]
  rw [bind_of_ok (advance_cons ..)]

theorem skipEnds_entry {e : Enclosure} {first : Bool} {c : Char} {s : Token}
    (enclosing : List Enclosure) (h : Laid (Tree.comma first ++ ((c :: s) :: ts)) text rest)
    (blank : isBlank c = false) (hc : (c == e.close) = false) :
    ∃ text', Laid ((c :: s) :: ts) text' rest ∧ text'.length ≤ text.length ∧
      ∀ n, skipEnds (n + 1) (!first) (e :: enclosing) text = .ok (e :: enclosing, text') := by
  cases first with
  | true =>
    obtain ⟨text', hp, h⟩ := Laid.peek h blank
    refine ⟨_, .cons [] (c :: s) nofun h, length_of_peek? hp, fun n => ?_⟩
    rw [skipEnds, bind_of_ok hp]
    simp only [Bool.not_true, Bool.false_and, Bool.false_eq_true, if_false, hc]
    rfl
  | false =>
    obtain ⟨text', hp, h⟩ := Laid.peek_mark h (by decide)
    refine ⟨text', h, Nat.le_of_lt (Nat.lt_of_lt_of_le (Nat.lt_succ_self _) (length_of_peek? hp)),
      fun n => ?_⟩
    rw [skipEnds, bind_of_ok hp]
    rfl

-- ---------------------------------------------------------------------------
-- The start of a value
-- ---------------------------------------------------------------------------

theorem skipStart_null (h : Laid Tree.null.tokens text rest) :
    skipStart text = .ok (none, rest) := by
  obtain ⟨text', hp, h⟩ := Laid.peek h (by decide)
  rw [skipStart, bind_of_ok hp, h.eq_of_nil]
  rfl

theorem skipStart_bool (b : Bool) (h : Laid (Tree.bool b).tokens text rest) :
    skipStart text = .ok (none, rest) := by
  cases b with
  | true =>
    obtain ⟨text', hp, h⟩ := Laid.peek h (by decide)
    rw [skipStart, bind_of_ok hp, h.eq_of_nil]
    rfl
  | false =>
    obtain ⟨text', hp, h⟩ := Laid.peek h (by decide)
    rw [skipStart, bind_of_ok hp, h.eq_of_nil]
    rfl

theorem skipStart_string (s : Quoted) (h : Laid (Tree.string s).tokens text rest) :
    skipStart text = .ok (none, rest) := by
  obtain ⟨text', hp, h⟩ := Laid.peek h (by decide)
  rw [skipStart, bind_of_ok hp, h.eq_of_nil, List.append_assoc]
  show (advance >>= _) _ = _
  rw [bind_of_ok (advance_cons ..), List.singleton_append, bind_of_ok (skipString_body s rest)]
  rfl

theorem skipStart_number (n : Numeral) (h : Laid (Tree.number n).tokens text rest)
    (ended : Ended rest) : skipStart text = .ok (none, rest) := by
  have skipped := skipNumber_unsigned n ended
  rw [Tree.tokens, Numeral.token] at h
  cases hn : n.negative with
  | true =>
    rw [hn] at h
    obtain ⟨text', hp, h⟩ := Laid.peek h (by decide)
    rw [skipStart, bind_of_ok hp, h.eq_of_nil]
    show (advance >>= _) _ = _
    rw [bind_of_ok (advance_cons ..), bind_of_ok skipped]
    rfl
  | false =>
    obtain ⟨c, s, hs, hc⟩ := n.exists_unsigned_eq
    rw [hn, if_neg Bool.false_ne_true, hs] at h
    rw [hs] at skipped
    obtain ⟨text', hp, h⟩ := Laid.peek h (isBlank_of_isDigit hc)
    obtain ⟨_, _, _, _, _, _⟩ := ne_of_numeral (.inr hc)
    have minus : c ≠ '-' := by
      rintro rfl
      cases hc
    rw [skipStart, bind_of_ok hp, h.eq_of_nil]
    simp only [hc, if_true]
    exact bind_of_ok skipped

theorem skipStart_open (e : Enclosure) {c : Char} (h : Laid ([c] :: ts) text rest)
    (he : c = '[' ∧ e = .list ∨ c = '\x7b' ∧ e = .object) :
    ∃ text', skipStart text = .ok (some e, text') ∧ Laid ts text' rest ∧
      text'.length < text.length := by
  rcases he with ⟨rfl, rfl⟩ | ⟨rfl, rfl⟩
  all_goals
    obtain ⟨text', hp, h⟩ := h.peek_mark (by decide)
    refine ⟨text', ?_, h, length_of_peek? hp⟩
    rw [skipStart, bind_of_ok hp]
    rfl

theorem skipKey_laid (k : Quoted) (h : Laid (k.token :: [':'] :: ts) text rest) :
    ∃ text', skipKey text = .ok ((), text') ∧ Laid ts text' rest ∧
      text'.length ≤ text.length := by
  obtain ⟨behind, hk, h⟩ := Laid.peek h (by decide)
  obtain ⟨text', hc, h⟩ := h.peek_mark (by decide)
  have colon : colon behind = .ok ((), text') := by
    rw [colon, bind_of_ok hc]
    rfl
  refine ⟨text', ?_, h, ?_⟩
  · rw [skipKey, bind_of_ok hk, List.append_assoc]
    show (advance >>= _) _ = _
    rw [bind_of_ok (advance_cons ..), List.singleton_append, bind_of_ok (skipString_body k behind),
      colon]
  · have := length_of_peek? hk
    have := length_of_peek? hc
    simp only [List.length_cons, List.length_append] at *
    omega

-- ---------------------------------------------------------------------------
-- Whole values
-- ---------------------------------------------------------------------------

theorem Tree.length_lt {t : Tree} (h : Laid t.tokens text rest) : rest.length < text.length := by
  have := h.length_le t.tokens_filled
  have := t.tokens_pos
  omega

theorem skipWithin_of_none {enclosing : List Enclosure} {n : Nat}
    (shorter : rest.length < text.length) (start : skipStart text = .ok (none, rest))
    (onward : Onward enclosing rest out) (enough : text.length < n) :
    skipWithin n enclosing text = out := by
  obtain ⟨n, rfl⟩ := Nat.exists_eq_succ_of_ne_zero (Nat.ne_zero_of_lt enough)
  rw [Nat.succ_eq_add_one, skipWithin_eq, bind_of_ok start]
  exact onward _ _ (by omega) (by omega)

mutual

theorem skipWithin_tree : (t : Tree) → {text rest : List Char} → {enclosing : List Enclosure} →
    {n : Nat} → Laid t.tokens text rest → Ended rest → Onward enclosing rest out →
    text.length < n → skipWithin n enclosing text = out
  | .null, _, _, _, _, h, _, onward, enough =>
    skipWithin_of_none (Tree.length_lt h) (skipStart_null h) onward enough
  | .bool b, _, _, _, _, h, _, onward, enough =>
    skipWithin_of_none (Tree.length_lt h) (skipStart_bool b h) onward enough
  | .number n, _, _, _, _, h, ended, onward, enough =>
    skipWithin_of_none (Tree.length_lt h) (skipStart_number n h ended) onward enough
  | .string s, _, _, _, _, h, _, onward, enough =>
    skipWithin_of_none (Tree.length_lt h) (skipStart_string s h) onward enough
  | .array items, text, rest, enclosing, n, h, _, onward, enough => by
    obtain ⟨text', start, h, shorter⟩ := skipStart_open .list h (.inl ⟨rfl, rfl⟩)
    obtain ⟨n, rfl⟩ := Nat.exists_eq_succ_of_ne_zero (Nat.ne_zero_of_lt enough)
    rw [Nat.succ_eq_add_one, skipWithin_eq, bind_of_ok start]
    exact resume_items items h onward (by omega) (by omega)
  | .object members, text, rest, enclosing, n, h, _, onward, enough => by
    obtain ⟨text', start, h, shorter⟩ := skipStart_open .object h (.inr ⟨rfl, rfl⟩)
    obtain ⟨n, rfl⟩ := Nat.exists_eq_succ_of_ne_zero (Nat.ne_zero_of_lt enough)
    rw [Nat.succ_eq_add_one, skipWithin_eq, bind_of_ok start]
    exact resume_members members h onward (by omega) (by omega)

theorem resume_items : (items : List Tree) → {first : Bool} → {text rest : List Char} →
    {enclosing : List Enclosure} → {n k : Nat} → Laid (Tree.itemTokens first items) text rest →
    Onward enclosing rest out → text.length < n → text.length < k →
    resume n k (!first) (.list :: enclosing) text = out
  | [], first, text, rest, enclosing, n + 1, k, h, onward, hn, hk => by
    obtain ⟨text', h, shorter, closed⟩ := resume_close .list enclosing h
    rw [closed, h.eq_of_nil]
    rw [h.eq_of_nil] at shorter
    exact onward n k (by omega) (by omega)
  | t :: items, first, text, rest, enclosing, n + 1, k, h, onward, hn, hk => by
    obtain ⟨c, s, ts, ht, blank, hc⟩ := t.exists_tokens_eq
    rw [Tree.itemTokens, ht] at h
    obtain ⟨text', entry, shorter, entered⟩ :=
      skipEnds_entry (e := .list) enclosing h blank (beq_eq_false_iff_ne.mpr hc)
    have h : Laid (t.tokens ++ Tree.itemTokens false items) text' rest := by
      rw [ht]
      exact entry
    obtain ⟨mid, item, others⟩ := h.split
    rw [resume, bind_of_ok (entered n)]
    refine skipWithin_tree t item (Tree.ended_itemTokens others) ?_ (by omega)
    exact fun n k hn hk => resume_items items others onward hn hk

theorem resume_members : (members : List (Quoted × Tree)) → {first : Bool} →
    {text rest : List Char} → {enclosing : List Enclosure} → {n k : Nat} →
    Laid (Tree.memberTokens first members) text rest → Onward enclosing rest out →
    text.length < n → text.length < k → resume n k (!first) (.object :: enclosing) text = out
  | [], first, text, rest, enclosing, n + 1, k, h, onward, hn, hk => by
    obtain ⟨text', h, shorter, closed⟩ := resume_close .object enclosing h
    rw [closed, h.eq_of_nil]
    rw [h.eq_of_nil] at shorter
    exact onward n k (by omega) (by omega)
  | (key, t) :: members, first, text, rest, enclosing, n + 1, k, h, onward, hn, hk => by
    obtain ⟨text', h, shorter, entered⟩ :=
      skipEnds_entry (e := .object) enclosing h (by decide) (by decide)
    obtain ⟨text'', keyed, h, shorter'⟩ := skipKey_laid key h
    obtain ⟨mid, item, others⟩ := h.split
    rw [resume, bind_of_ok (entered n)]
    show (skipKey >>= _) text' = out
    rw [bind_of_ok keyed]
    refine skipWithin_tree t item (Tree.ended_memberTokens others) ?_ (by omega)
    exact fun n k hn hk => resume_members members others onward hn hk

end

/-- A value is passed over whatever it is. -/
theorem skipValue_tree (t : Tree) (h : Laid t.tokens text rest) (ended : Ended rest) :
    skipValue text = .ok ((), rest) := by
  rw [skipValue, bind_get]
  exact skipWithin_tree t h ended (onward_nil rest) (Nat.lt_succ_self _)

end Stencil.Json
