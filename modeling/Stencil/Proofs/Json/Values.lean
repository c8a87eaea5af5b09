import Stencil.Proofs.Json.Numerals
import Stencil.Proofs.Json.Strings

/-!
# Values in texts

A value is read from every layout of its tree, and with the same result. The proof follows the
tree, with one step for each element of an array and each member of an object; the steps that a
reader may take are bounded by the length of the text, of which each token takes some.
-/

namespace Stencil.Json

open Reader

variable {ts : List Token} {text rest : List Char}

-- ---------------------------------------------------------------------------
-- Tokens take some of the text
-- ---------------------------------------------------------------------------

theorem Numeral.token_ne_nil (n : Numeral) : n.token ≠ [] := by
  obtain ⟨c, s, hs, -⟩ := n.exists_token_eq
  rw [hs]
  exact List.cons_ne_nil _ _

namespace Tree

theorem comma_filled (first : Bool) : ∀ token ∈ comma first, token ≠ [] := by
  cases first with
  | true => exact nofun
  | false => exact List.forall_mem_singleton.mpr (List.cons_ne_nil _ _)

mutual

theorem tokens_filled : (t : Tree) → ∀ token ∈ t.tokens, token ≠ []
  | .null => List.forall_mem_singleton.mpr (by decide)
  | .bool true => List.forall_mem_singleton.mpr (by decide)
  | .bool false => List.forall_mem_singleton.mpr (by decide)
  | .number n => List.forall_mem_singleton.mpr n.token_ne_nil
  | .string _ => List.forall_mem_singleton.mpr (List.cons_ne_nil _ _)
  | .array items =>
    List.forall_mem_cons.mpr ⟨List.cons_ne_nil _ _, itemTokens_filled true items⟩
  | .object members =>
    List.forall_mem_cons.mpr ⟨List.cons_ne_nil _ _, memberTokens_filled true members⟩

theorem itemTokens_filled (first : Bool) :
    (items : List Tree) → ∀ token ∈ itemTokens first items, token ≠ []
  | [] => List.forall_mem_singleton.mpr (List.cons_ne_nil _ _)
  | t :: rest => by
    rw [itemTokens, List.forall_mem_append, List.forall_mem_append]
    exact ⟨comma_filled first, tokens_filled t, itemTokens_filled false rest⟩

theorem memberTokens_filled (first : Bool) :
    (members : List (Quoted × Tree)) → ∀ token ∈ memberTokens first members, token ≠ []
  | [] => List.forall_mem_singleton.mpr (List.cons_ne_nil _ _)
  | (k, t) :: rest => by
    rw [memberTokens, List.forall_mem_append, List.forall_mem_cons, List.forall_mem_cons,
      List.forall_mem_append]
    exact ⟨comma_filled first, List.cons_ne_nil _ _, List.cons_ne_nil _ _, tokens_filled t,
      memberTokens_filled false rest⟩

end

theorem tokens_pos (t : Tree) : 0 < t.tokens.length := by
  obtain ⟨c, s, ts, ht, -⟩ := t.exists_tokens_eq
  rw [ht]
  exact Nat.succ_pos _

theorem length_lt_itemTokens (first : Bool) (items : List Tree) :
    items.length < (itemTokens first items).length := by
  induction items generalizing first with
  | nil => exact Nat.one_pos
  | cons t rest ih =>
    have := t.tokens_pos
    have := ih false
    simp only [itemTokens, List.length_cons, List.length_append]
    omega

theorem length_lt_memberTokens (first : Bool) (members : List (Quoted × Tree)) :
    members.length < (memberTokens first members).length := by
  induction members generalizing first with
  | nil => exact Nat.one_pos
  | cons m rest ih =>
    have := ih false
    simp only [memberTokens, List.length_cons, List.length_append]
    omega

theorem items_lt_length {first : Bool} {items : List Tree}
    (h : Laid (itemTokens first items) text rest) : items.length < text.length := by
  have := h.length_le (itemTokens_filled first items)
  have := length_lt_itemTokens first items
  omega

theorem members_lt_length {first : Bool} {members : List (Quoted × Tree)}
    (h : Laid (memberTokens first members) text rest) : members.length < text.length := by
  have := h.length_le (memberTokens_filled first members)
  have := length_lt_memberTokens first members
  omega

theorem ended_itemTokens {items : List Tree} (h : Laid (itemTokens false items) text rest) :
    Ended text := by
  cases items with
  | nil => exact Laid.ended h (by decide)
  | cons t items => exact Laid.ended h (by decide)

theorem ended_memberTokens {members : List (Quoted × Tree)}
    (h : Laid (memberTokens false members) text rest) : Ended text := by
  cases members with
  | nil => exact Laid.ended h (by decide)
  | cons m members => exact Laid.ended h (by decide)

end Tree

-- ---------------------------------------------------------------------------
-- Values that hold no others
-- ---------------------------------------------------------------------------

section

variable (item : Option (Reader Value))

theorem Laid.eq_of_nil (h : Laid [] text rest) : text = rest := by
  cases h
  rfl

theorem gives_null (h : Laid Tree.null.tokens text rest) :
    Gives (valueWith item text) (some .null) rest := by
  obtain ⟨text', hp, h⟩ := h.peek (by decide)
  rw [valueWith.eq_def, bind_of_ok hp, h.eq_of_nil]
  exact .reads _ _

theorem gives_bool (b : Bool) (h : Laid (Tree.bool b).tokens text rest) :
    Gives (valueWith item text) (some (.bool b)) rest := by
  cases b with
  | true =>
    obtain ⟨text', hp, h⟩ := Laid.peek h (by decide)
    rw [valueWith.eq_def, bind_of_ok hp, h.eq_of_nil]
    exact .reads _ _
  | false =>
    obtain ⟨text', hp, h⟩ := Laid.peek h (by decide)
    rw [valueWith.eq_def, bind_of_ok hp, h.eq_of_nil]
    exact .reads _ _

theorem gives_quoted (s : Quoted) (h : Laid (Tree.string s).tokens text rest) :
    Gives (valueWith item text) (s.string?.map .string) rest := by
  obtain ⟨text', hp, h⟩ := Laid.peek h (by decide)
  rw [valueWith.eq_def, bind_of_ok hp, h.eq_of_nil, List.append_assoc]
  exact (gives_string s rest).map Value.string

theorem ne_of_numeral {c : Char} (h : c = '-' ∨ c.isDigit = true) :
    c ≠ 'n' ∧ c ≠ 't' ∧ c ≠ 'f' ∧ c ≠ '"' ∧ c ≠ '[' ∧ c ≠ '\x7b' := by
  have other (d : Char) (hd : d ≠ '-' ∧ d.isDigit = false) : c ≠ d := by
    rintro rfl
    rcases h with h | h
    · exact hd.1 h
    · exact Bool.false_ne_true (hd.2.symm.trans h)
  exact ⟨other _ (by decide), other _ (by decide), other _ (by decide), other _ (by decide),
    other _ (by decide), other _ (by decide)⟩

theorem gives_numeral (n : Numeral) (h : Laid (Tree.number n).tokens text rest)
    (ended : Ended rest) : Gives (valueWith item text) (n.number?.map .number) rest := by
  obtain ⟨c, s, hs, hc⟩ := n.exists_token_eq
  have read := (gives_number n ended).map Value.number
  have blank : isBlank c = false := by
    rcases hc with rfl | hc
    · rfl
    · exact isBlank_of_isDigit hc
  have numeral : (c == '-' || c.isDigit) = true := by simpa using hc
  rw [Tree.tokens, hs] at h
  obtain ⟨text', hp, h⟩ := h.peek blank
  obtain ⟨_, _, _, _, _, _⟩ := ne_of_numeral hc
  rw [valueWith.eq_def, bind_of_ok hp, h.eq_of_nil]
  simp only [numeral, if_true]
  rw [hs] at read
  exact read

end

-- ---------------------------------------------------------------------------
-- Arrays and objects
-- ---------------------------------------------------------------------------

def inner : Nat → Option (Reader Value)
  | 0 => none
  | depth + 1 => some (value depth)

theorem value_eq (depth : Nat) : value depth = valueWith (inner depth) := by
  cases depth with
  | zero => rfl
  | succ depth => rfl

theorem value_array (depth : Nat) (hp : peek? text = .ok (some '[', '[' :: rest)) :
    value (depth + 1) text =
      (elements (value depth) (rest.length + 1) true >>= fun items => pure (.array items))
        rest := by
  rw [value, valueWith, bind_of_ok hp]
  rfl

theorem value_object (depth : Nat) (hp : peek? text = .ok (some '\x7b', '\x7b' :: rest)) :
    value (depth + 1) text =
      (entries (value depth) (rest.length + 1) true [] >>= fun es => pure (.object es)) rest := by
  rw [value, valueWith, bind_of_ok hp]
  rfl

theorem elements_end {α : Type} (item : Reader α) (n : Nat) (first : Bool)
    (h : Laid ([']'] :: ts) text rest) :
    ∃ text', elements item (n + 1) first text = .ok ([], text') ∧ Laid ts text' rest := by
  obtain ⟨text', he, h⟩ := hasElement_end first h
  refine ⟨text', ?_, h⟩
  rw [elements, bind_of_ok he]
  rfl

theorem entries_end {α : Type} (item : Reader α) (n : Nat) (first : Bool) (acc : Entries α)
    (h : Laid (['\x7d'] :: ts) text rest) :
    ∃ text', entries item (n + 1) first acc text = .ok (acc, text') ∧ Laid ts text' rest := by
  obtain ⟨text', he, h⟩ := hasKey_end first h
  refine ⟨text', ?_, h⟩
  rw [entries, bind_of_ok he]
  rfl

mutual

theorem gives_value (depth : Nat) : (t : Tree) → {text rest : List Char} →
    Laid t.tokens text rest → Ended rest → Gives (value depth text) (t.value? depth) rest
  | .null, text, rest, h, _ => by
    rw [value_eq, Tree.value?]
    exact gives_null _ h
  | .bool b, text, rest, h, _ => by
    rw [value_eq, Tree.value?]
    exact gives_bool _ b h
  | .number n, text, rest, h, ended => by
    rw [value_eq, Tree.value?]
    exact gives_numeral _ n h ended
  | .string s, text, rest, h, _ => by
    rw [value_eq, Tree.value?]
    exact gives_quoted _ s h
  | .array items, text, rest, h, _ => by
    obtain ⟨text', hp, h⟩ := Laid.peek_mark h (by decide)
    cases depth with
    | zero =>
      rw [value, valueWith, bind_of_ok hp]
      exact .refuses _ _
    | succ depth =>
      have enough := Nat.lt_succ_of_lt (Tree.items_lt_length h)
      rw [value_array depth hp]
      exact (gives_items depth items enough h).map Value.array
  | .object members, text, rest, h, _ => by
    obtain ⟨text', hp, h⟩ := Laid.peek_mark h (by decide)
    cases depth with
    | zero =>
      rw [value, valueWith, bind_of_ok hp]
      exact .refuses _ _
    | succ depth =>
      have enough := Nat.lt_succ_of_lt (Tree.members_lt_length h)
      have read := (gives_members depth members [] enough h).map Value.object
      rw [Option.map_map] at read
      rw [value_object depth hp]
      exact read

theorem gives_items (depth : Nat) : (items : List Tree) → {n : Nat} → {first : Bool} →
    {text rest : List Char} → items.length < n → Laid (Tree.itemTokens first items) text rest →
    Gives (elements (value depth) n first text) (Tree.values? depth items) rest
  | [], n + 1, first, text, rest, _, h => by
    obtain ⟨text', he, h⟩ := elements_end (value depth) n first h
    rw [he, h.eq_of_nil]
    exact .reads _ _
  | t :: items, n + 1, first, text, rest, enough, h => by
    obtain ⟨text', he, h⟩ := hasElement_item h
    obtain ⟨mid, item, others⟩ := h.split
    rw [elements, bind_of_ok he, Tree.values?]
    refine (gives_value depth t item (Tree.ended_itemTokens others)).bind fun v _ => ?_
    exact (gives_items depth items (Nat.lt_of_succ_lt_succ enough) others).map (v :: ·)

theorem gives_members (depth : Nat) : (members : List (Quoted × Tree)) → {n : Nat} →
    {first : Bool} → {text rest : List Char} → (acc : Entries Value) → members.length < n →
    Laid (Tree.memberTokens first members) text rest →
    Gives (entries (value depth) n first acc text)
      ((Tree.entries? depth members).map (Entries.overlay acc)) rest
  | [], n + 1, first, text, rest, acc, _, h => by
    obtain ⟨text', he, h⟩ := entries_end (value depth) n first acc h
    rw [he, h.eq_of_nil]
    exact .reads _ _
  | (k, t) :: members, n + 1, first, text, rest, acc, enough, h => by
    obtain ⟨text', hk, h⟩ := hasKey_member h
    obtain ⟨text'', hc, h⟩ := colon_laid h
    obtain ⟨mid, item, others⟩ := h.split
    rw [entries, bind_of_ok hk, Tree.entries?, Option.map_bind]
    refine (gives_key k text').bind fun name _ => ?_
    rw [bind_of_ok hc, Function.comp_apply, Option.map_bind]
    refine (gives_value depth t item (Tree.ended_memberTokens others)).bind fun v _ => ?_
    rw [Function.comp_apply, Option.map_map]
    exact gives_members depth members (acc.insert name v) (Nat.lt_of_succ_lt_succ enough) others

end

-- ---------------------------------------------------------------------------
-- Whole texts
-- ---------------------------------------------------------------------------

theorem endOfText_of_blank (h : ∀ c ∈ rest, isBlank c = true) : endOfText rest = .ok ((), []) := by
  have blank := peek?_blanks h []
  rw [List.append_nil] at blank
  rw [endOfText, bind_of_ok blank]
  rfl

theorem endOfText_of_other (h : ¬∀ c ∈ rest, isBlank c = true) :
    ∃ e, endOfText rest = .error e := by
  have found : rest.dropWhile isBlank ≠ [] := by rwa [Ne, List.dropWhile_eq_nil_iff]
  obtain ⟨c, s, hs⟩ := List.exists_cons_of_ne_nil found
  have peeked : peek? rest = .ok (some c, c :: s) := by
    rw [peek?, hs]
    rfl
  exact ⟨_, by rw [endOfText, bind_of_ok peeked]; rfl⟩

theorem readWith_eq_ok_iff {α : Type} {r : Reader α} {text : String} {o : Option α}
    (h : Gives (r text.toList) o rest) (a : α) :
    readWith r text = .ok a ↔ o = some a ∧ ∀ c ∈ rest, isBlank c = true := by
  rw [readWith]
  cases o with
  | none =>
    obtain ⟨e, he⟩ := Gives.none_iff.mp h
    rw [bind_of_error he]
    exact ⟨nofun, nofun⟩
  | some b =>
    rw [bind_of_ok (Gives.some_iff.mp h)]
    by_cases hb : ∀ c ∈ rest, isBlank c = true
    · rw [bind_of_ok (endOfText_of_blank hb), and_iff_left hb]
      constructor
      · rintro ⟨⟩
        rfl
      · rintro ⟨⟩
        rfl
    · obtain ⟨e, he⟩ := endOfText_of_other hb
      rw [bind_of_error he]
      simp [hb]

/-- A text that is written for a tree is read as the value of the tree, and refused if that has
none. -/
theorem read_eq_ok_iff {t : Tree} {text : String} (h : t.Writes text) (v : Value) :
    read text = .ok v ↔ t.value? depthLimit = some v := by
  obtain ⟨blanks, laid, blank⟩ := h
  rw [read, readWith_eq_ok_iff (gives_value depthLimit t laid (ended_of_blank blank))]
  exact and_iff_left blank

end Stencil.Json
