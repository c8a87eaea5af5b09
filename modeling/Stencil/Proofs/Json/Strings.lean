import Stencil.Proofs.Json.Steps

/-!
# Strings in texts

A string is read piece by piece, a pair of surrogates at once; it is passed over piece by piece,
whatever its codes are.
-/

namespace Stencil.Json

open Reader

variable {rest : List Char}

namespace Piece

theorem text_ne_nil (p : Piece) : p.text ≠ [] := by
  cases p with
  | plain c h => exact List.cons_ne_nil _ _
  | short c d h => exact List.cons_ne_nil _ _
  | code a b c d => exact List.cons_ne_nil _ _

theorem length_le_body (s : Quoted) : s.length ≤ s.body.length := by
  induction s with
  | nil => exact Nat.le_refl _
  | cons p s ih =>
    have := List.length_pos_iff.mpr p.text_ne_nil
    rw [Quoted.body] at ih ⊢
    rw [List.flatMap_cons, List.length_append, List.length_cons]
    omega

theorem ne_u_of_short {c d : Char} (h : simpleEscape? c = some d) : c ≠ 'u' := by
  rintro rfl
  cases h

end Piece

open Piece

theorem body_cons (p : Piece) (s : Quoted) (rest : List Char) :
    Quoted.body (p :: s) ++ rest = p.text ++ (Quoted.body s ++ rest) := by
  rw [Quoted.body, List.flatMap_cons, List.append_assoc]
  rfl

theorem hexWord_code (a b c d : HexDigit) (rest : List Char) :
    hexWord (a.char :: b.char :: c.char :: d.char :: rest) = .ok (word a b c d, rest) := by
  simp only [hexWord, a.reads, b.reads, c.reads, d.reads]
  rfl

-- ---------------------------------------------------------------------------
-- Reading
-- ---------------------------------------------------------------------------

section

variable (n : Nat) (acc : List Char)

theorem stringBody_end : stringBody (n + 1) acc ('"' :: rest) =
    .ok (String.ofList acc.reverse, rest) := by
  rw [stringBody, bind_of_ok (next?_cons ..)]
  rfl

theorem stringBody_plain {c : Char} (h : c ≠ '"' ∧ c ≠ '\\' ∧ 32 ≤ c.toNat) :
    stringBody (n + 1) acc ((plain c h).text ++ rest) = stringBody n (c :: acc) rest := by
  obtain ⟨quote, backslash, printed⟩ := h
  have shown : ¬c.toNat < 32 := by omega
  rw [text, List.singleton_append, stringBody, bind_of_ok (next?_cons ..)]
  simp only [if_neg shown]
  rw [bind_of_ok (advance_cons ..)]

theorem stringBody_escape :
    stringBody (n + 1) acc ('\\' :: rest) =
      (escaped >>= fun c => stringBody n (c :: acc)) rest := by
  rw [stringBody, bind_of_ok (next?_cons ..)]
  rfl

theorem stringBody_short {c d : Char} (h : simpleEscape? c = some d) :
    stringBody (n + 1) acc ((short c d h).text ++ rest) = stringBody n (d :: acc) rest := by
  have := ne_u_of_short h
  have single : escaped (c :: rest) = .ok (d, rest) := by
    rw [escaped, bind_of_ok (next?_cons ..)]
    simp only [h]
    rfl
  rw [text, List.cons_append, stringBody_escape]
  exact bind_of_ok single

theorem stringBody_code (a b c d : HexDigit) :
    stringBody (n + 1) acc ((code a b c d).text ++ rest) =
      (unicodeEscape >>= fun c => stringBody n (c :: acc))
        (a.char :: b.char :: c.char :: d.char :: rest) := by
  rw [text, List.cons_append, stringBody_escape]
  rfl

end

theorem expectInPair_same (c : Char) (s : List Char) :
    expectInPair c (c :: s) = .ok ((), s) := by
  rw [expectInPair, bind_of_ok (next?_cons ..)]
  simp only [↓reduceIte]
  rfl

theorem expectInPair_other {c d : Char} (h : c ≠ d) (s : List Char) :
    expectInPair c (d :: s) = failAtNext .endOfHexEscape (d :: s) := by
  rw [expectInPair, bind_of_ok (next?_cons ..)]
  simp only [if_neg h]

section

variable {a b c d a' b' c' d' : HexDigit}

theorem unicodeEscape_single (low : ¬IsLow (word a b c d)) (high : ¬IsHigh (word a b c d)) :
    unicodeEscape (a.char :: b.char :: c.char :: d.char :: rest) =
      .ok (Char.ofNat (word a b c d), rest) := by
  simp only [IsLow, IsHigh] at low high
  rw [unicodeEscape, bind_of_ok (hexWord_code ..)]
  simp only [Bool.and_eq_true, decide_eq_true_eq, if_neg low, if_neg high]
  rfl

theorem unicodeEscape_low (low : IsLow (word a b c d)) :
    unicodeEscape (a.char :: b.char :: c.char :: d.char :: rest) = fail .loneSurrogate rest := by
  simp only [IsLow] at low
  rw [unicodeEscape, bind_of_ok (hexWord_code ..)]
  simp only [Bool.and_eq_true, decide_eq_true_eq, if_pos low]

variable (low : ¬IsLow (word a b c d)) (high : IsHigh (word a b c d))

include low high

theorem unicodeEscape_high :
    unicodeEscape (a.char :: b.char :: c.char :: d.char :: rest) =
      (do
        expectInPair '\\'
        expectInPair 'u'
        let w ← hexWord
        if 0xDC00 ≤ w ∧ w ≤ 0xDFFF then
          pure (Char.ofNat ((word a b c d - 0xD800) * 0x400 + (w - 0xDC00) + 0x10000))
        else fail .loneSurrogate : Reader Char) rest := by
  simp only [IsLow, IsHigh] at low high
  rw [unicodeEscape, bind_of_ok (hexWord_code ..)]
  simp only [Bool.and_eq_true, decide_eq_true_eq, if_neg low, if_pos high]

theorem unicodeEscape_two :
    unicodeEscape (a.char :: b.char :: c.char :: d.char :: ((code a' b' c' d').text ++ rest)) =
      (if IsLow (word a' b' c' d') then
        pure (Char.ofNat
          ((word a b c d - 0xD800) * 0x400 + (word a' b' c' d' - 0xDC00) + 0x10000))
      else fail .loneSurrogate : Reader Char) rest := by
  rw [unicodeEscape_high low high, text, List.cons_append, bind_of_ok (expectInPair_same ..),
    List.cons_append, bind_of_ok (expectInPair_same ..)]
  simp only [List.cons_append, List.nil_append]
  rw [bind_of_ok (hexWord_code ..)]
  rfl

theorem unicodeEscape_pair (h : IsLow (word a' b' c' d')) :
    unicodeEscape (a.char :: b.char :: c.char :: d.char :: ((code a' b' c' d').text ++ rest)) =
      .ok (Char.ofNat ((word a b c d - 0xD800) * 0x400 + (word a' b' c' d' - 0xDC00) + 0x10000),
        rest) := by
  rw [unicodeEscape_two low high, if_pos h]
  rfl

theorem unicodeEscape_unpaired (h : ¬IsLow (word a' b' c' d')) :
    unicodeEscape (a.char :: b.char :: c.char :: d.char :: ((code a' b' c' d').text ++ rest)) =
      fail .loneSurrogate rest := by
  rw [unicodeEscape_two low high, if_neg h]

theorem unicodeEscape_broken {s : Quoted} (alone : ∀ a b c d t, s = code a b c d :: t → False) :
    ∃ e, unicodeEscape (a.char :: b.char :: c.char :: d.char :: (s.body ++ '"' :: rest)) =
      .error e := by
  rw [unicodeEscape_high low high]
  match s with
  | [] => exact ⟨_, bind_of_error (expectInPair_other (by decide) _)⟩
  | plain c h :: s =>
    rw [body_cons]
    exact ⟨_, bind_of_error (expectInPair_other (Ne.symm h.2.1) _)⟩
  | short c d h :: s =>
    rw [body_cons, text, List.cons_append, bind_of_ok (expectInPair_same ..)]
    exact ⟨_, bind_of_error (expectInPair_other (Ne.symm (ne_u_of_short h)) _)⟩
  | code a b c d :: s => exact absurd rfl (alone a b c d s)

end

theorem gathered_cons (acc : List Char) (c : Char) (o : Option (List Char)) :
    (o.map (c :: ·)).map (fun t => String.ofList (acc.reverse ++ t)) =
      o.map fun t => String.ofList ((c :: acc).reverse ++ t) := by
  simp [Option.map_map, Function.comp_def]

/-- A string is read as what its pieces stand for; when a surrogate stands alone, it is refused. -/
theorem gives_stringBody (s : Quoted) (n : Nat) (acc : List Char) (hn : s.length < n) :
    Gives (stringBody n acc (s.body ++ '"' :: rest))
      ((decode? s).map fun t => String.ofList (acc.reverse ++ t)) rest := by
  fun_induction decode? s generalizing n acc with
  | case1 =>
    obtain ⟨n, rfl⟩ := Nat.exists_eq_succ_of_ne_zero (Nat.ne_zero_of_lt hn)
    rw [Option.map_some, List.append_nil]
    exact Gives.some_iff.mpr (stringBody_end n acc)
  | case2 c h s ih =>
    obtain ⟨n, rfl⟩ := Nat.exists_eq_succ_of_ne_zero (Nat.ne_zero_of_lt hn)
    rw [gathered_cons, body_cons, stringBody_plain]
    exact ih n (c :: acc) (Nat.lt_of_succ_lt_succ hn)
  | case3 c d h s ih =>
    obtain ⟨n, rfl⟩ := Nat.exists_eq_succ_of_ne_zero (Nat.ne_zero_of_lt hn)
    rw [gathered_cons, body_cons, stringBody_short]
    exact ih n (d :: acc) (Nat.lt_of_succ_lt_succ hn)
  | case4 a b c d s w low =>
    obtain ⟨n, rfl⟩ := Nat.exists_eq_succ_of_ne_zero (Nat.ne_zero_of_lt hn)
    rw [body_cons, stringBody_code, bind_of_error (unicodeEscape_low low)]
    exact .refuses _ _
  | case5 a b c d w low high a' b' c' d' s w' low' ih =>
    obtain ⟨n, rfl⟩ := Nat.exists_eq_succ_of_ne_zero (Nat.ne_zero_of_lt hn)
    rw [gathered_cons, body_cons, body_cons, stringBody_code,
      bind_of_ok (unicodeEscape_pair low high low')]
    exact ih n _ (Nat.lt_of_succ_lt (Nat.lt_of_succ_lt_succ hn))
  | case6 a b c d w low high a' b' c' d' s w' low' =>
    obtain ⟨n, rfl⟩ := Nat.exists_eq_succ_of_ne_zero (Nat.ne_zero_of_lt hn)
    rw [body_cons, body_cons, stringBody_code,
      bind_of_error (unicodeEscape_unpaired low high low')]
    exact .refuses _ _
  | case7 a b c d s w low high alone =>
    obtain ⟨n, rfl⟩ := Nat.exists_eq_succ_of_ne_zero (Nat.ne_zero_of_lt hn)
    obtain ⟨e, he⟩ := unicodeEscape_broken low high alone
    rw [body_cons, stringBody_code, bind_of_error he]
    exact .refuses _ _
  | case8 a b c d s w low high ih =>
    obtain ⟨n, rfl⟩ := Nat.exists_eq_succ_of_ne_zero (Nat.ne_zero_of_lt hn)
    rw [gathered_cons, body_cons, stringBody_code, bind_of_ok (unicodeEscape_single low high)]
    exact ih n _ (Nat.lt_of_succ_lt_succ hn)

theorem gives_string (s : Quoted) (rest : List Char) :
    Gives (string (s.body ++ '"' :: rest)) s.string? rest := by
  rw [string, bind_get]
  apply gives_stringBody s _ []
  have := length_le_body s
  rw [List.length_append]
  omega

theorem gives_key (s : Quoted) (rest : List Char) :
    Gives (key (s.token ++ rest)) s.string? rest := by
  rw [key, Quoted.token, List.cons_append, List.append_assoc, bind_of_ok (advance_cons ..)]
  exact gives_string s rest

-- ---------------------------------------------------------------------------
-- Passing over
-- ---------------------------------------------------------------------------

theorem skipEscape_short {c d : Char} (h : simpleEscape? c = some d) :
    skipEscape (c :: rest) = .ok ((), rest) := by
  have := ne_u_of_short h
  rw [skipEscape, bind_of_ok (next?_cons ..)]
  simp only [h, Option.isSome_some, if_true]
  rfl

theorem skipEscape_code (a b c d : HexDigit) :
    skipEscape ('u' :: a.char :: b.char :: c.char :: d.char :: rest) = .ok ((), rest) := by
  rw [skipEscape, bind_of_ok (next?_cons ..)]
  show (advance >>= _) _ = _
  rw [bind_of_ok (advance_cons ..), bind_of_ok (hexWord_code ..)]
  rfl

theorem skipStringBody_escape {after : List Char} (n : Nat)
    (h : skipEscape rest = .ok ((), after)) :
    skipStringBody (n + 1) ('\\' :: rest) = skipStringBody n after := by
  rw [skipStringBody, bind_of_ok (next?_cons ..)]
  show (advance >>= _) _ = _
  rw [bind_of_ok (advance_cons ..), bind_of_ok h]

/-- Surrogates may stand alone here. -/
theorem skipStringBody_body (s : Quoted) (n : Nat) (hn : s.length < n) :
    skipStringBody n (s.body ++ '"' :: rest) = .ok ((), rest) := by
  induction s generalizing n with
  | nil =>
    obtain ⟨n, rfl⟩ := Nat.exists_eq_succ_of_ne_zero (Nat.ne_zero_of_lt hn)
    rw [Quoted.body, List.flatMap_nil, List.nil_append, skipStringBody,
      bind_of_ok (next?_cons ..)]
    rfl
  | cons p s ih =>
    obtain ⟨n, rfl⟩ := Nat.exists_eq_succ_of_ne_zero (Nat.ne_zero_of_lt hn)
    have later := ih n (Nat.lt_of_succ_lt_succ hn)
    rw [body_cons]
    cases p with
    | plain c h =>
      obtain ⟨quote, backslash, printed⟩ := h
      have shown : ¬c.toNat < 32 := by omega
      rw [text, List.singleton_append, skipStringBody, bind_of_ok (next?_cons ..)]
      simp only [if_neg shown]
      rw [bind_of_ok (advance_cons ..), later]
    | short c d h => exact (skipStringBody_escape n (skipEscape_short h)).trans later
    | code a b c d => exact (skipStringBody_escape n (skipEscape_code a b c d)).trans later

theorem skipString_body (s : Quoted) (rest : List Char) :
    skipString (s.body ++ '"' :: rest) = .ok ((), rest) := by
  rw [skipString, bind_get]
  apply skipStringBody_body
  have := length_le_body s
  rw [List.length_append]
  omega

end Stencil.Json
