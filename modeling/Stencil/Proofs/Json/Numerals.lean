import Stencil.Proofs.Json.Steps

/-!
# Numerals in texts

A numeral is read as the number that it stands for and refused when that is out of range, provided
that what stands behind it does not go on with it. It is passed over whatever its size is.
-/

namespace Stencil.Json

open Reader Literal

variable {rest : List Char}

-- ---------------------------------------------------------------------------
-- Digits
-- ---------------------------------------------------------------------------

theorem Digits.exists_chars_eq (ds : Digits) : ∃ c s, ds.chars = c :: s ∧ c.isDigit = true := by
  obtain ⟨c, s, hs⟩ := List.exists_cons_of_ne_nil ds.filled
  refine ⟨c, s, hs, ds.digits c ?_⟩
  rw [hs]
  exact List.mem_cons_self

def NoDigit (s : List Char) : Prop := ∀ c ∈ s.head?, c.isDigit = false

theorem Ended.noDigit (h : Ended rest) : NoDigit rest :=
  fun c hc => Bool.eq_false_iff.mpr fun hd => h c hc (.inl hd)

theorem takeDigits_digits (ds : Digits) (h : NoDigit rest) :
    takeDigits (ds.chars ++ rest) = .ok (ds.chars, rest) := by
  have stops : rest.takeWhile Char.isDigit = [] ∧ rest.dropWhile Char.isDigit = rest := by
    cases rest with
    | nil => exact ⟨rfl, rfl⟩
    | cons c s =>
      have hc := h c rfl
      simp [hc]
  rw [takeDigits, List.takeWhile_append_of_pos ds.digits, List.dropWhile_append_of_pos ds.digits,
    stops.1, stops.2, List.append_nil]

theorem skipDigits_digits (ds : Digits) (h : NoDigit rest) :
    skipDigits (ds.chars ++ rest) = .ok ((), rest) := by
  rw [skipDigits, bind_of_ok (takeDigits_digits ds h)]
  rfl

theorem next?_digits (ds : Digits) :
    ∃ c, c.isDigit = true ∧ ∀ rest, next? (ds.chars ++ rest) = .ok (some c, ds.chars ++ rest) := by
  obtain ⟨c, s, hs, hc⟩ := ds.exists_chars_eq
  refine ⟨c, hc, fun rest => ?_⟩
  rw [hs, List.cons_append]
  exact next?_cons ..

/-- What is left of the text does not count for the digits of an exponent. -/
theorem gatherExponent_eq (acc : Nat) (ds after : List Char) :
    gatherExponent acc ds after =
      ((gatherExponent acc ds []).1, (gatherExponent acc ds []).2.1,
        (gatherExponent acc ds []).2.2 ++ after) := by
  induction ds generalizing acc with
  | nil => rfl
  | cons c rest ih =>
    rw [gatherExponent, gatherExponent]
    split
    · exact ih _
    · simp

-- ---------------------------------------------------------------------------
-- Exponents
-- ---------------------------------------------------------------------------

theorem gives_finish (negative : Bool) (word : Nat) (power : Int) (rest : List Char) :
    Gives (finish negative word power rest) (float? negative word power) rest := by
  rw [finish]
  cases float? negative word power with
  | some n => exact .reads n rest
  | none => exact .refuses _ rest

theorem gives_readPower (negative : Bool) (word : Nat) (power : Int) (e : Exponent)
    (h : Ended rest) :
    Gives (readPower negative word power (e.sign == some '-') (e.digits.chars ++ rest))
      (e.number? negative word power) rest := by
  obtain ⟨c, hc, next⟩ := next?_digits e.digits
  rw [readPower, bind_of_ok (next rest)]
  simp only [hc, if_true]
  rw [bind_of_ok (takeDigits_digits e.digits h.noDigit), bind_get, gatherExponent_eq,
    Exponent.number?]
  obtain ⟨exponent, tooLarge, after⟩ := gatherExponent 0 e.digits.chars []
  simp only [Bool.and_eq_true, bne_iff_ne, Bool.not_eq_true', beq_eq_false_iff_ne, beq_iff_eq]
  split
  · split
    · exact .refuses _ _
    · exact .reads _ _
  · exact gives_finish ..

theorem not_sign_of_isDigit {c : Char} (h : c.isDigit = true) :
    (c == '+') = false ∧ (c == '-') = false := by
  simp only [beq_eq_false_iff_ne]
  constructor
  · rintro rfl
    cases h
  · rintro rfl
    cases h

theorem readExponent_signed (negative : Bool) (word : Nat) (power : Int) (e : Exponent) :
    readExponent negative word power (e.sign.toList ++ (e.digits.chars ++ rest)) =
      readPower negative word power (e.sign == some '-') (e.digits.chars ++ rest) := by
  rw [readExponent]
  cases hs : e.sign with
  | none =>
    obtain ⟨c, hc, next⟩ := next?_digits e.digits
    rw [Option.toList_none, List.nil_append, bind_of_ok (next rest)]
    obtain ⟨plus, minus⟩ := not_sign_of_isDigit hc
    simp [plus, minus]
  | some c =>
    rw [Option.toList_some, List.singleton_append, bind_of_ok (next?_cons ..)]
    rcases e.signs c hs with rfl | rfl
    · rfl
    · rfl

theorem gives_exponent (negative : Bool) (word : Nat) (power : Int) (e : Exponent)
    (h : Ended rest) :
    Gives (readExponent negative word power (e.sign.toList ++ (e.digits.chars ++ rest)))
      (e.number? negative word power) rest := by
  rw [readExponent_signed]
  exact gives_readPower negative word power e h

theorem skipExponent_text (e : Exponent) (h : Ended rest) :
    skipExponent (e.text ++ rest) = .ok ((), rest) := by
  obtain ⟨c, hc, next⟩ := next?_digits e.digits
  have power : skipPower (e.digits.chars ++ rest) = .ok ((), rest) := by
    rw [skipPower, bind_of_ok (next rest)]
    simp only [hc, if_true]
    exact skipDigits_digits e.digits h.noDigit
  rw [skipExponent, Exponent.text, List.cons_append, List.append_assoc,
    bind_of_ok (advance_cons ..), ← power]
  cases hs : e.sign with
  | none =>
    rw [Option.toList_none, List.nil_append, bind_of_ok (next rest)]
    obtain ⟨plus, minus⟩ := not_sign_of_isDigit hc
    simp [plus, minus]
  | some c =>
    rw [Option.toList_some, List.singleton_append, bind_of_ok (next?_cons ..)]
    rcases e.signs c hs with rfl | rfl
    · rfl
    · rfl

-- ---------------------------------------------------------------------------
-- What stands behind the digits
-- ---------------------------------------------------------------------------

theorem Ended.head_ne (h : Ended rest) :
    (rest.head? == some '.') = false ∧ isExponentMark rest.head? = false := by
  cases rest with
  | nil => exact ⟨rfl, rfl⟩
  | cons c s =>
    have hc := h c rfl
    simp only [Continues, not_or] at hc
    simp [isExponentMark, hc]

theorem Exponent.mark_ne (e : Exponent) :
    e.mark.isDigit = false ∧ (e.mark == '.') = false ∧ isExponentMark (some e.mark) = true := by
  rcases e.marks with h | h <;> rw [h] <;> decide

theorem noDigit_exponentText (n : Numeral) (h : Ended rest) : NoDigit (n.exponentText ++ rest) := by
  rw [Numeral.exponentText]
  cases n.exponent with
  | none => exact h.noDigit
  | some e =>
    rintro c ⟨⟩
    exact e.mark_ne.1

theorem noDigit_fractionText (n : Numeral) (h : Ended rest) :
    NoDigit (n.fractionText ++ (n.exponentText ++ rest)) := by
  rw [Numeral.fractionText]
  cases n.fraction with
  | none => exact noDigit_exponentText n h
  | some f =>
    rintro c ⟨⟩
    rfl

theorem next?_eq (s : List Char) : next? s = .ok (s.head?, s) := rfl

theorem gives_readFraction (n : Numeral) (f : Digits) (word : Nat) (power : Int) (h : Ended rest) :
    Gives (readFraction n.negative word power (f.chars ++ (n.exponentText ++ rest)))
      (let (word, dropped) := gather word f.chars
      let power := power - ((f.chars.length - dropped : Nat) : Int)
      match n.exponent with
      | none => float? n.negative word power
      | some e => e.number? n.negative word power) rest := by
  have filled : f.chars.isEmpty = false := by simpa using f.filled
  have behind := noDigit_exponentText n h
  rw [readFraction, bind_of_ok (takeDigits_digits f behind)]
  simp only [filled, Bool.false_eq_true, if_false]
  obtain ⟨word, dropped⟩ := gather word f.chars
  rw [Numeral.exponentText]
  cases n.exponent with
  | none =>
    simp only [Option.elim_none, List.nil_append]
    rw [bind_of_ok (next?_eq rest)]
    simp only [h.head_ne.2, Bool.false_eq_true, if_false]
    exact gives_finish ..
  | some e =>
    simp only [Option.elim_some, Exponent.text, List.cons_append, List.append_assoc]
    rw [bind_of_ok (next?_cons ..)]
    simp only [e.mark_ne.2.2, if_true]
    rw [bind_of_ok (advance_cons ..)]
    exact gives_exponent _ _ _ e h

theorem head_whole (n : Numeral) :
    ∃ c, c.isDigit = true ∧ n.whole.chars.head? = some c ∧
      ((c == '0') = true → n.whole.chars = ['0']) := by
  obtain ⟨c, s, hs, hc⟩ := n.whole.exists_chars_eq
  refine ⟨c, hc, by rw [hs]; rfl, fun zero => n.leading ?_⟩
  rw [hs, List.head?_cons, beq_iff_eq.mp zero]

theorem head_unsigned {n : Numeral} {c : Char} (h : n.whole.chars.head? = some c) :
    (n.unsigned ++ rest).head? = some c := by
  rw [Numeral.unsigned, List.append_assoc, List.head?_append, h, Option.some_or]

theorem any_isDigit_head? {s : List Char} (h : NoDigit s) :
    s.head?.any Char.isDigit = false := by
  rw [Option.any_eq_false]
  intro c hc
  simpa using h c hc

theorem gives_unsigned (n : Numeral) (h : Ended rest) :
    Gives (Literal.read n.negative (n.unsigned ++ rest)) n.number? rest := by
  obtain ⟨c, hc, head, zero⟩ := head_whole n
  have behind := noDigit_fractionText n h
  have digits : (if c == '0' then do advance; pure ['0'] else takeDigits : Reader (List Char))
      (n.unsigned ++ rest) = .ok (n.whole.chars, n.fractionText ++ (n.exponentText ++ rest)) := by
    rw [Numeral.unsigned, List.append_assoc, List.append_assoc]
    split
    · rename_i hz
      rw [zero hz]
      rfl
    · exact takeDigits_digits n.whole behind
  rw [Literal.read, bind_of_ok (next?_eq _), head_unsigned head]
  simp only [hc, Bool.not_true, Bool.false_eq_true, if_false]
  rw [bind_of_ok digits, bind_of_ok (next?_eq _)]
  simp only [any_isDigit_head? behind, Bool.and_false, Bool.false_eq_true, if_false]
  rw [Numeral.number?]
  obtain ⟨word, left⟩ := gather 0 n.whole.chars
  simp only
  rw [Numeral.fractionText]
  cases n.fraction with
  | some f => exact gives_readFraction n f word left h
  | none =>
    rw [Option.elim_none, List.nil_append, Numeral.exponentText]
    cases n.exponent with
    | none =>
      simp only [Option.elim_none, List.nil_append, h.head_ne, Bool.false_eq_true, if_false]
      split
      · exact .reads _ _
      · exact gives_finish ..
    | some e =>
      simp only [Option.elim_some, Exponent.text, List.cons_append, List.append_assoc,
        List.head?_cons, Option.some_beq_some, e.mark_ne, Bool.false_eq_true, if_false, if_true]
      rw [bind_of_ok (advance_cons ..)]
      exact gives_exponent _ _ _ e h

theorem gives_number (n : Numeral) (h : Ended rest) :
    Gives (number (n.token ++ rest)) n.number? rest := by
  have read := gives_unsigned n h
  rw [number, Numeral.token, bind_of_ok (next?_eq _)]
  cases hn : n.negative with
  | true =>
    rw [hn] at read
    exact read
  | false =>
    obtain ⟨c, hc, head, -⟩ := head_whole n
    rw [hn] at read
    simp only [Bool.false_eq_true, if_false, head_unsigned head, Option.some_beq_some,
      (not_sign_of_isDigit hc).2]
    exact read

-- ---------------------------------------------------------------------------
-- Passing over
-- ---------------------------------------------------------------------------

theorem skipFraction_text (n : Numeral) (f : Digits) (h : Ended rest) :
    skipFraction ('.' :: (f.chars ++ (n.exponentText ++ rest))) = .ok ((), rest) := by
  have filled : f.chars.isEmpty = false := by simpa using f.filled
  rw [skipFraction, bind_of_ok (advance_cons ..),
    bind_of_ok (takeDigits_digits f (noDigit_exponentText n h))]
  simp only [filled, Bool.false_eq_true, if_false]
  rw [bind_of_ok (next?_eq _), Numeral.exponentText]
  cases n.exponent with
  | none =>
    simp only [Option.elim_none, List.nil_append, h.head_ne, Bool.false_eq_true, if_false]
    rfl
  | some e =>
    simp only [Option.elim_some, Exponent.text, List.cons_append, List.head?_cons, e.mark_ne,
      if_true]
    exact skipExponent_text e h

theorem skipBehindWhole_text (n : Numeral) (c : Char) (h : Ended rest) :
    skipBehindWhole c (n.fractionText ++ (n.exponentText ++ rest)) = .ok ((), rest) := by
  have lone := any_isDigit_head? (noDigit_fractionText n h)
  rw [skipBehindWhole, bind_of_ok (next?_eq _)]
  simp only [lone, Bool.and_false, Bool.false_eq_true, if_false]
  rw [Numeral.fractionText]
  cases n.fraction with
  | some f => exact skipFraction_text n f h
  | none =>
    rw [Option.elim_none, List.nil_append, Numeral.exponentText]
    cases n.exponent with
    | none =>
      simp only [Option.elim_none, List.nil_append, h.head_ne, Bool.false_eq_true, if_false]
      rfl
    | some e =>
      simp only [Option.elim_some, Exponent.text, List.cons_append, List.head?_cons,
        Option.some_beq_some, e.mark_ne, Bool.false_eq_true, if_false, if_true]
      exact skipExponent_text e h

theorem skipNumber_unsigned (n : Numeral) (h : Ended rest) :
    skipNumber (n.unsigned ++ rest) = .ok ((), rest) := by
  obtain ⟨c, hc, head, zero⟩ := head_whole n
  have later := skipBehindWhole_text n c h
  rw [skipNumber, bind_of_ok (next?_eq _), head_unsigned head]
  simp only [hc, Bool.not_true, Bool.false_eq_true, if_false]
  rw [Numeral.unsigned, List.append_assoc, List.append_assoc]
  split
  · rename_i hz
    rw [zero hz, List.singleton_append, bind_of_ok (advance_cons ..)]
    exact later
  · rw [bind_of_ok (skipDigits_digits n.whole (noDigit_fractionText n h))]
    exact later

end Stencil.Json
