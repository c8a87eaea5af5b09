import Mathlib.Data.List.TakeWhile
import Stencil.Json.Skip
import Stencil.Json.Syntax

/-!
# Steps of a reader

What a reader does on a layout is followed token by token: each step finds the token that is due
behind some blanks, and stands at a layout of the tokens that are left. A numeral has no end of its
own, so what stands behind it must not go on with it (`Ended`).
-/

namespace Stencil.Json

open Reader

variable {α β : Type}

-- ---------------------------------------------------------------------------
-- Readers in sequence
-- ---------------------------------------------------------------------------

/-- A reader gives what it is expected to and stops at `rest`, or refuses where nothing is
expected. -/
inductive Gives : Except Failure (α × List Char) → Option α → List Char → Prop
  | reads (a : α) (rest : List Char) : Gives (.ok (a, rest)) (some a) rest
  | refuses (f : Failure) (rest : List Char) : Gives (.error f) none rest

theorem Gives.some_iff {x : Except Failure (α × List Char)} {a : α} {rest : List Char} :
    Gives x (some a) rest ↔ x = .ok (a, rest) := by
  constructor
  · rintro ⟨⟩
    rfl
  · rintro rfl
    exact .reads a rest

theorem Gives.none_iff {x : Except Failure (α × List Char)} {rest : List Char} :
    Gives x none rest ↔ ∃ f, x = .error f := by
  constructor
  · rintro ⟨⟩
    exact ⟨_, rfl⟩
  · rintro ⟨f, rfl⟩
    exact .refuses f rest

section

variable {r : Reader α} {f : α → Reader β} {s s' rest : List Char} {a : α} {o : Option α}

theorem bind_of_ok (h : r s = .ok (a, s')) : (r >>= f) s = f a s' := by
  show Except.bind (r s) _ = _
  rw [h]
  rfl

theorem bind_of_error {e : Failure} (h : r s = .error e) : (r >>= f) s = .error e := by
  show Except.bind (r s) _ = _
  rw [h]
  rfl

theorem bind_congr_of_eq {r' : Reader α} (h : r s = r' s') : (r >>= f) s = (r' >>= f) s' := by
  show Except.bind (r s) _ = Except.bind (r' s') _
  rw [h]

theorem bind_get (f : List Char → Reader β) (s : List Char) : (get >>= f) s = f s s := rfl

theorem Gives.bind {g : α → Option β} (h : Gives (r s) o s')
    (next : ∀ a, o = some a → Gives (f a s') (g a) rest) : Gives ((r >>= f) s) (o.bind g) rest := by
  cases o with
  | some a =>
    rw [bind_of_ok (Gives.some_iff.mp h)]
    exact next a rfl
  | none =>
    obtain ⟨e, he⟩ := Gives.none_iff.mp h
    rw [bind_of_error he]
    exact .refuses e rest

theorem Gives.map (h : Gives (r s) o rest) (g : α → β) :
    Gives ((r >>= fun a => pure (g a)) s) (o.map g) rest := by
  cases o with
  | some a =>
    rw [bind_of_ok (Gives.some_iff.mp h)]
    exact .reads (g a) rest
  | none =>
    obtain ⟨e, he⟩ := Gives.none_iff.mp h
    rw [bind_of_error he]
    exact .refuses e rest

theorem bind_fails (h : ∀ a s', ∃ e, f a s' = .error e) : ∃ e, (r >>= f) s = .error e := by
  cases hr : r s with
  | error e => exact ⟨e, bind_of_error hr⟩
  | ok done =>
    obtain ⟨a, s'⟩ := done
    rw [bind_of_ok hr]
    exact h a s'

end

-- ---------------------------------------------------------------------------
-- Layouts
-- ---------------------------------------------------------------------------

variable {ts us : List Token} {t : Token} {text rest : List Char} {c : Char}

theorem Laid.split (h : Laid (ts ++ us) text rest) :
    ∃ mid, Laid ts text mid ∧ Laid us mid rest := by
  induction ts generalizing text with
  | nil => exact ⟨text, .nil text, h⟩
  | cons t ts ih =>
    cases h with
    | cons blanks _ blank h =>
      obtain ⟨mid, front, back⟩ := ih h
      exact ⟨mid, .cons blanks t blank front, back⟩

/-- What stands behind the tokens in a text that starts with them. -/
def strip? : List Token → List Char → Option (List Char)
  | [], text => some text
  | t :: ts, text =>
    let found := text.dropWhile isBlank
    if t.isPrefixOf found then strip? ts (found.drop t.length) else none

theorem laid_of_strip? (h : strip? ts text = some rest) : Laid ts text rest := by
  induction ts generalizing text with
  | nil =>
    obtain rfl := Option.some.inj h
    exact .nil text
  | cons t ts ih =>
    rw [strip?] at h
    split at h
    · rename_i found
      obtain ⟨behind, hb⟩ := List.isPrefixOf_iff_prefix.mp found
      rw [← hb, List.drop_left] at h
      rw [← List.takeWhile_append_dropWhile (p := isBlank) (l := text), ← hb]
      exact .cons _ t (fun _ hc => List.mem_takeWhile_imp hc) (ih h)
    · cases h

def Continues (c : Char) : Prop := c.isDigit = true ∨ c = '.' ∨ c = 'e' ∨ c = 'E'

instance : DecidablePred Continues := fun _ => inferInstanceAs (Decidable (_ ∨ _))

def Ended (s : List Char) : Prop := ∀ c ∈ s.head?, ¬Continues c

theorem not_continues_of_isBlank (h : isBlank c = true) : ¬Continues c := by
  simp only [isBlank, Bool.or_eq_true, beq_iff_eq] at h
  rcases h with ((rfl | rfl) | rfl) | rfl <;> decide

theorem ended_of_blank (h : ∀ c ∈ rest, isBlank c = true) : Ended rest :=
  fun _ hc => not_continues_of_isBlank (h _ (List.mem_of_mem_head? hc))

theorem Laid.ended (h : Laid ((c :: t) :: ts) text rest) (hc : ¬Continues c) : Ended text := by
  cases h with
  | cons blanks _ blank h =>
    cases blanks with
    | nil =>
      rintro d ⟨⟩
      exact hc
    | cons b blanks =>
      rintro d ⟨⟩
      exact not_continues_of_isBlank (blank b List.mem_cons_self)

theorem peek?_of_not_blank (hc : isBlank c = false) (s : List Char) :
    peek? (c :: s) = .ok (some c, c :: s) := by
  rw [peek?, List.dropWhile_cons_of_neg (by simp [hc])]
  rfl

theorem peek?_blanks {blanks : List Char} (blank : ∀ c ∈ blanks, isBlank c = true)
    (s : List Char) : peek? (blanks ++ s) = peek? s := by
  simp only [peek?, List.dropWhile_append_of_pos blank]

theorem Laid.peek (h : Laid ((c :: t) :: ts) text rest) (hc : isBlank c = false) :
    ∃ text', peek? text = .ok (some c, c :: (t ++ text')) ∧ Laid ts text' rest := by
  cases h with
  | cons blanks _ blank h =>
    refine ⟨_, ?_, h⟩
    rw [peek?_blanks blank]
    exact peek?_of_not_blank hc _

theorem Laid.peek_mark (h : Laid ([c] :: ts) text rest) (hc : isBlank c = false) :
    ∃ text', peek? text = .ok (some c, c :: text') ∧ Laid ts text' rest :=
  h.peek hc

theorem advance_cons (c : Char) (s : List Char) : advance (c :: s) = .ok ((), s) := rfl

theorem next?_cons (c : Char) (s : List Char) : next? (c :: s) = .ok (some c, c :: s) := rfl

theorem Laid.length_le (h : Laid ts text rest) (filled : ∀ t ∈ ts, t ≠ []) :
    ts.length + rest.length ≤ text.length := by
  induction h with
  | nil => simp
  | cons blanks t _ _ ih =>
    have one := List.length_pos_iff.mpr (filled t List.mem_cons_self)
    have := ih fun t ht => filled t (List.mem_cons_of_mem _ ht)
    simp only [List.length_cons, List.length_append]
    omega

-- ---------------------------------------------------------------------------
-- Marks
-- ---------------------------------------------------------------------------

theorem colon_laid (h : Laid ([':'] :: ts) text rest) :
    ∃ text', colon text = .ok ((), text') ∧ Laid ts text' rest := by
  obtain ⟨text', hp, h⟩ := h.peek_mark (by decide)
  refine ⟨text', ?_, h⟩
  rw [colon, bind_of_ok hp]
  rfl

theorem Numeral.exists_unsigned_eq (n : Numeral) :
    ∃ c s, n.unsigned = c :: s ∧ c.isDigit = true := by
  obtain ⟨c, s, hs⟩ := List.exists_cons_of_ne_nil n.whole.filled
  refine ⟨c, s ++ (n.fractionText ++ n.exponentText), ?_, n.whole.digits c ?_⟩
  · rw [unsigned, hs, List.cons_append]
  · rw [hs]
    exact List.mem_cons_self

theorem Numeral.exists_token_eq (n : Numeral) :
    ∃ c s, n.token = c :: s ∧ (c = '-' ∨ c.isDigit = true) := by
  obtain ⟨c, s, hs, hc⟩ := n.exists_unsigned_eq
  rw [token]
  split
  · exact ⟨'-', n.unsigned, rfl, .inl rfl⟩
  · exact ⟨c, s, hs, .inr hc⟩

theorem isBlank_of_isDigit (h : c.isDigit = true) : isBlank c = false := by
  simp only [isBlank, Bool.or_eq_false_iff, beq_eq_false_iff_ne]
  refine ⟨⟨⟨?_, ?_⟩, ?_⟩, ?_⟩
  all_goals
    rintro rfl
    exact absurd h (by decide)

/-- What a tree is written with starts with none of the marks that close an array. -/
theorem Tree.exists_tokens_eq (t : Tree) :
    ∃ c s ts, t.tokens = (c :: s) :: ts ∧ isBlank c = false ∧ c ≠ ']' := by
  match t with
  | .null => exact ⟨_, _, _, rfl, by decide, by decide⟩
  | .bool true => exact ⟨_, _, _, rfl, by decide, by decide⟩
  | .bool false => exact ⟨_, _, _, rfl, by decide, by decide⟩
  | .number n =>
    obtain ⟨c, s, hs, hc⟩ := n.exists_token_eq
    refine ⟨c, s, [], by rw [tokens, hs], ?_, ?_⟩
    · rcases hc with rfl | hc
      · decide
      · exact isBlank_of_isDigit hc
    · rintro rfl
      exact absurd hc (by decide)
  | .string s => exact ⟨_, _, _, rfl, by decide, by decide⟩
  | .array _ => exact ⟨_, _, _, rfl, by decide, by decide⟩
  | .object _ => exact ⟨_, _, _, rfl, by decide, by decide⟩

theorem hasElement_item {first : Bool} {t : Tree}
    (h : Laid (Tree.comma first ++ (t.tokens ++ ts)) text rest) :
    ∃ text', hasElement first text = .ok (true, text') ∧ Laid (t.tokens ++ ts) text' rest := by
  obtain ⟨c, s, us, ht, hb, hc⟩ := t.exists_tokens_eq
  rw [ht] at h ⊢
  cases first with
  | true =>
    obtain ⟨text', hp, h⟩ := Laid.peek h hb
    refine ⟨_, ?_, .cons [] (c :: s) nofun h⟩
    rw [hasElement, bind_of_ok hp]
    simp only [↓reduceIte]
    rfl
  | false =>
    obtain ⟨text', hp, h⟩ := Laid.peek_mark h (by decide)
    obtain ⟨text'', hq, h⟩ := Laid.peek h hb
    refine ⟨_, ?_, .cons [] (c :: s) nofun h⟩
    rw [hasElement, bind_of_ok hp]
    show (advance >>= _) (',' :: text') = _
    rw [bind_of_ok (advance_cons ..), bind_of_ok hq]
    simp only
    rfl

theorem hasElement_end (first : Bool) (h : Laid ([']'] :: ts) text rest) :
    ∃ text', hasElement first text = .ok (false, ']' :: text') ∧ Laid ts text' rest := by
  obtain ⟨text', hp, h⟩ := h.peek_mark (by decide)
  refine ⟨text', ?_, h⟩
  rw [hasElement, bind_of_ok hp]
  rfl

theorem hasKey_member {first : Bool} {k : Quoted}
    (h : Laid (Tree.comma first ++ (k.token :: ts)) text rest) :
    ∃ text', hasKey first text = .ok (true, k.token ++ text') ∧ Laid ts text' rest := by
  cases first with
  | true =>
    obtain ⟨text', hp, h⟩ := Laid.peek h (by decide)
    refine ⟨text', ?_, h⟩
    rw [hasKey, bind_of_ok hp]
    rfl
  | false =>
    obtain ⟨text', hp, h⟩ := Laid.peek_mark h (by decide)
    obtain ⟨text'', hq, h⟩ := Laid.peek h (by decide)
    refine ⟨text'', ?_, h⟩
    rw [hasKey, bind_of_ok hp]
    show (advance >>= _) (',' :: text') = _
    rw [bind_of_ok (advance_cons ..), bind_of_ok hq]
    rfl

theorem hasKey_end (first : Bool) (h : Laid (['\x7d'] :: ts) text rest) :
    ∃ text', hasKey first text = .ok (false, '\x7d' :: text') ∧ Laid ts text' rest := by
  obtain ⟨text', hp, h⟩ := h.peek_mark (by decide)
  refine ⟨text', ?_, h⟩
  rw [hasKey, bind_of_ok hp]
  rfl

end Stencil.Json
