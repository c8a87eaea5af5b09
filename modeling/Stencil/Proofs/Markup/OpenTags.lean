import Stencil.Proofs.Markup.BlockTags
import Stencil.Proofs.Markup.Sightings

/-!
# The block tags of a source that can be read

Where the engine that is written out can read a source, the tags of the source keep to the syntax,
and the tokens open the blocks that they declare, and no others (`agree_source`): tag by tag, and in
a tag token by token (`Tagged`). So the blocks that the parser has read are those that the tags of
the source declare (`blocks_of_read`).
-/

namespace Stencil.Markup

open Declared

-- ---------------------------------------------------------------------------
-- Places that keep to the syntax
-- ---------------------------------------------------------------------------

namespace Proper

variable {s s' : List Spot} {spot : Spot}

theorem nil : Proper [] := ⟨fun _ h => (nomatch h), .nil⟩

theorem cons (hb : spot.place = .tag → Text.isBlank spot.char = true →
    Token.isTagBlank spot.char = true)
    (hp : spot.char = '{' → s.head? ≠ some ⟨'%', .tag⟩) (h : Proper s) : Proper (spot :: s) where
  blanks := List.forall_mem_cons.mpr ⟨hb, h.blanks⟩
  percents := List.isChain_cons.mpr
    ⟨fun _ hn percent brace => hp brace (percent ▸ hn), h.percents⟩

theorem opened {kind : Char} (hp : kind = '{' → s.head? ≠ some ⟨'%', .tag⟩) (h : Proper s) :
    Proper (⟨'{', .delimiter⟩ :: ⟨kind, .delimiter⟩ :: s) :=
  .cons (by simp) (by simp) (.cons (by simp) hp h)

theorem append (h : Proper s) (h' : Proper s') (hn : ∀ next ∈ s'.head?, next.place ≠ .tag) :
    Proper (s ++ s') where
  blanks spot hs := (List.mem_append.mp hs).elim (h.blanks spot) (h'.blanks spot)
  percents := List.isChain_append.mpr ⟨h.percents, h'.percents,
    fun _ _ next hnext percent => absurd (congrArg Spot.place percent) (hn next hnext)⟩

theorem outside {p : Place} (hp : p ≠ .tag) (cs : List Char) : Proper (spots p cs) := by
  induction cs with
  | nil => exact nil
  | cons c cs ih =>
    refine cons (fun h => absurd h hp) (fun _ h => ?_) ih
    cases cs with
    | nil => cases h
    | cons c cs => exact hp (congrArg Spot.place (Option.some.inj h))

theorem lead {cs : List Char} (hb : ∀ c ∈ cs, Text.isBlank c = true → Token.isTagBlank c = true)
    (hc : '{' ∉ cs) (h : Proper s) : Proper (spots .tag cs ++ s) := by
  induction cs with
  | nil => exact h
  | cons c cs ih =>
    obtain ⟨blank, blanks⟩ := List.forall_mem_cons.mp hb
    obtain ⟨brace, braces⟩ := not_or.mp (mt List.mem_cons.mpr hc)
    exact cons (fun _ => blank) (fun h => absurd h.symm brace) (ih blanks braces)

theorem mark {mark : List Char} (kind : mark = [] ∨ mark = ['-'] ∨ mark = ['+']) (h : Proper s) :
    Proper (spots .tag mark ++ s) := by
  refine h.lead ?_ ?_
  · rcases kind with rfl | rfl | rfl <;> simp [Text.isBlank, Text.wideBlanks]
  · rcases kind with rfl | rfl | rfl <;> simp

end Proper

theorem head_append {p : Place} (hp : p ≠ .tag) (cs : List Char) {s : List Spot}
    (hs : ∀ spot ∈ s.head?, spot.place ≠ .tag) :
    ∀ spot ∈ (spots p cs ++ s).head?, spot.place ≠ .tag := by
  cases cs with
  | nil => exact hs
  | cons c cs =>
    rintro spot h
    cases h
    exact hp

-- ---------------------------------------------------------------------------
-- The token at the front of a text
-- ---------------------------------------------------------------------------

namespace Token

variable {close cs rest : List Char} {c : Char} {d : Int}

def isNumber : Token → Bool
  | .int _ | .float _ _ => true
  | _ => false

theorem isSolid_of_isNumber {t : Token} (h : t.isNumber = true) : t.isSolid = true := by
  cases t <;> first | rfl | cases h

theorem isNumber_of_floatToken? {cs : List Char} {t : Token} (h : floatToken? cs = some t) :
    t.isNumber = true := by
  simp only [floatToken?, Option.bind_eq_bind, Option.bind_eq_some_iff] at h
  obtain ⟨digits, -, h⟩ := h
  split at h
  · cases h
    rfl
  all_goals
    obtain ⟨power, -, h⟩ := Option.bind_eq_some_iff.mp h
    cases h
    rfl

theorem isNumber_of_digits {p q : Prop} [Decidable p] [Decidable q] {radix : Nat}
    {digits : List Char} {t : Token}
    (h : (if p then none
      else if q then (natIn? radix digits).bind fun n =>
        if n < twoTo 128 then some (.int n) else none
      else floatToken? digits) = some t) : t.isNumber = true := by
  split at h
  · cases h
  · split at h
    · obtain ⟨n, -, h⟩ := Option.bind_eq_some_iff.mp h
      split at h
      · cases h
        rfl
      · cases h
    · exact isNumber_of_floatToken? h

theorem number_fst (cs : List Char) :
    (number cs).1 = .broken .badSyntax ∨ (number cs).1.isNumber = true := by
  have given (found : Option Token) (h : ∀ t, found = some t → t.isNumber = true) :
      found.getD (.broken .badSyntax) = .broken .badSyntax ∨
        (found.getD (.broken .badSyntax)).isNumber = true := by
    cases found with
    | none => exact .inl rfl
    | some t => exact .inr (h t rfl)
  exact given _ fun t ht => isNumber_of_digits ht

def name? : Token → Option String
  | .name s => some s
  | _ => none

theorem sign2?_near {d : Char} {s : Sign} (h : sign2? c d = some s) :
    33 ≤ c.toNat ∧ c.toNat < 128 ∧ isNameStart c = false := by
  unfold sign2? at h
  split at h <;> cases h <;> decide

theorem sign1?_near {s : Sign} (h : sign1? c = some s) :
    33 ≤ c.toNat ∧ c.toNat < 128 ∧ isNameStart c = false := by
  unfold sign1? at h
  split at h <;> cases h <;> decide

theorem not_sign (h : ¬(33 ≤ c.toNat ∧ c.toNat < 128 ∧ isNameStart c = false))
    (rest : List Char) :
    rest.head?.bind (sign2? c) = none ∧ sign1? c = none ∧ (c == '"' || c == '\'') = false := by
  refine ⟨?_, ?_, ?_⟩
  · cases hs : rest.head?.bind (sign2? c) with
    | none => rfl
    | some s =>
      obtain ⟨d, -, hs⟩ := Option.bind_eq_some_iff.mp hs
      exact absurd (sign2?_near hs) h
  · cases hs : sign1? c with
    | none => rfl
    | some s => exact absurd (sign1?_near hs) h
  · rw [Bool.or_eq_false_iff, beq_eq_false_iff_ne, beq_eq_false_iff_ne]
    constructor
    all_goals
      rintro rfl
      exact h (by decide)

theorem isDigit_of_isNameStart (h : isNameStart c = true) : c.isDigit = false := by
  simp only [isNameStart, Char.isAlpha, Char.isUpper, Char.isLower, Char.isDigit, Bool.or_eq_true,
    Bool.and_eq_true, decide_eq_true_eq, ge_iff_le, UInt32.le_iff_toNat_le, beq_iff_eq,
    Bool.and_eq_false_iff, decide_eq_false_iff_not] at h ⊢
  have bounds : 'A'.val.toNat = 65 ∧ 'a'.val.toNat = 97 ∧ '9'.val.toNat = 57 := by decide
  rcases h with h | rfl
  · omega
  · decide

theorem lexeme_of_name (h : isNameStart c = true) : lexeme (c :: rest) =
    (.name (String.ofList ((c :: rest).takeWhile isNamePart)),
      (c :: rest).dropWhile isNamePart) := by
  have start : ¬(33 ≤ c.toNat ∧ c.toNat < 128 ∧ isNameStart c = false) := by simp [h]
  obtain ⟨two, one, quote⟩ := not_sign start rest
  simp only [lexeme, two, one, quote, isDigit_of_isNameStart h]
  rw [if_neg Bool.false_ne_true, if_neg Bool.false_ne_true]
  exact if_pos h

theorem name?_lexeme (cs : List Char) : (lexeme cs).1.name? = leadingName? cs := by
  cases cs with
  | nil => rfl
  | cons c rest =>
    by_cases hc : isNameStart c = true
    · rw [lexeme_of_name hc]
      exact (if_pos hc).symm
    · rw [show leadingName? (c :: rest) = none from if_neg hc]
      simp only [lexeme]
      split
      · rfl
      · split
        · rfl
        · split
          · split
            · rfl
            · split <;> rfl
          · split
            · rcases number_fst (c :: rest) with broken | written
              · rw [broken]
                rfl
              · cases ht : (number (c :: rest)).1 with
                | name s =>
                  rw [ht] at written
                  cases written
                | _ => rfl
            · rfl

/-- The characters of names, of numbers and of the signs that have two. -/
def isTokenPart (c : Char) : Bool :=
  isNamePart c || ['.', '+', '-', '/', '*', '=', '!', '<', '>'].contains c

theorem not_isBlank_of_isTokenPart (h : isTokenPart c = true) : Text.isBlank c = false := by
  rcases Bool.or_eq_true_iff.mp h with h | h
  · by_contra hb
    cases (isNamePart_of_isBlank (Bool.not_eq_false _ ▸ hb)).symm.trans h
  · have solid : (['.', '+', '-', '/', '*', '=', '!', '<', '>'].all (!Text.isBlank ·)) = true := by
      decide
    simpa using List.all_eq_true.mp solid c (List.contains_iff_mem.mp h)

def depth : Token → Int
  | .sign s => s.depth
  | _ => 0

/-- How the token at the front of a text takes its characters, but for those that cannot be read. -/
inductive Lexed (cs : List Char) : Token × List Char → Prop
  | broken (f : Fault) (rest : List Char) : Lexed cs (.broken f, rest)
  | quoted {q : Char} {body behind rest : List Char} (s : String) (hq : Inside.isQuote q = true)
      (h : cs = q :: behind) (hb : quoted q behind = some (body, rest)) :
      Lexed cs (.string s, rest)
  | sign {c : Char} {s : Sign} {rest : List Char} (h : cs = c :: rest) (hs : sign1? c = some s) :
      Lexed cs (.sign s, rest)
  | parts {t : Token} {lead rest : List Char} (ht : t.isSolid = true) (hd : t.depth = 0)
      (h : cs = lead ++ rest) (hl : ∀ c ∈ lead, isTokenPart c = true) : Lexed cs (t, rest)

theorem isNamePart_of_hexDigit? (h : (hexDigit? c).isSome = true) : isNamePart c = true := by
  unfold hexDigit? at h
  simp only [isNamePart, Char.isAlphanum, Char.isAlpha, Char.isUpper, Char.isLower,
    Bool.or_eq_true, Bool.and_eq_true, decide_eq_true_eq]
  split at h
  · rename_i digit
    exact .inl (.inr digit)
  all_goals split at h
  · rename_i lower
    simp only [Bool.and_eq_true, decide_eq_true_eq] at lower
    exact .inl (.inl (.inr ⟨lower.1, le_trans lower.2 (by decide : 'f' ≤ 'z')⟩))
  all_goals split at h
  · rename_i upper
    simp only [Bool.and_eq_true, decide_eq_true_eq] at upper
    exact .inl (.inl (.inl ⟨upper.1, le_trans upper.2 (by decide : 'F' ≤ 'Z')⟩))
  · cases h

theorem isTokenPart_of_next? {radix : Nat} {p p' : Part} (h : p.next? radix c = some p') :
    isTokenPart c = true := by
  by_contra other
  have apart {d : Char} (hd : isTokenPart d = true) : (c == d) = false :=
    beq_eq_false_iff_ne.mpr fun h => other (h ▸ hd)
  have named : isNamePart c ≠ true := fun h => other (by simp [isTokenPart, h])
  have digit : c.isDigit = false :=
    Bool.eq_false_iff.mpr fun h => named (by simp [isNamePart, Char.isAlphanum, h])
  have hex : (hexDigit? c).isSome = false :=
    Bool.eq_false_iff.mpr fun h => named (isNamePart_of_hexDigit? h)
  have signs : (c == '_') = false ∧ (c == '.') = false ∧ (c == 'e') = false ∧ (c == 'E') = false ∧
      (c == '+') = false ∧ (c == '-') = false :=
    ⟨apart rfl, apart rfl, apart rfl, apart rfl, apart rfl, apart rfl⟩
  cases p <;> simp [Part.next?, digit, hex, signs] at h

theorem numberText_parts (radix : Nat) (p : Part) (cs : List Char) :
    ∃ lead, cs = lead ++ (numberText radix p cs).2.2 ∧ ∀ c ∈ lead, isTokenPart c = true := by
  induction cs generalizing p with
  | nil => exact ⟨[], rfl, fun _ h => nomatch h⟩
  | cons c cs ih =>
    unfold numberText
    split
    · exact ⟨[], rfl, fun _ h => nomatch h⟩
    · rename_i p' hp
      obtain ⟨lead, hl, parts⟩ := ih p'
      refine ⟨c :: lead, congrArg (c :: ·) hl, List.forall_mem_cons.mpr ⟨?_, parts⟩⟩
      split at hp
      · cases hp
      · exact isTokenPart_of_next? hp

theorem numberText_parts_of {radix : Nat} {inside : List Char}
    (h : radix ≠ 10 → ∃ lead, cs = lead ++ inside ∧ ∀ c ∈ lead, isTokenPart c = true) :
    ∃ lead, cs = lead ++ (if radix = 10 then numberText radix .whole cs
      else numberText radix .radix inside).2.2 ∧ ∀ c ∈ lead, isTokenPart c = true := by
  split
  · exact numberText_parts ..
  · rename_i hr
    obtain ⟨mark, rfl, hm⟩ := h hr
    obtain ⟨lead, hl, parts⟩ := numberText_parts radix .radix inside
    refine ⟨mark ++ lead, ?_, fun c hc => (List.mem_append.mp hc).elim (hm c) (parts c)⟩
    rw [List.append_assoc, ← hl]

theorem number_parts (cs : List Char) :
    ∃ lead, cs = lead ++ (number cs).2 ∧ ∀ c ∈ lead, isTokenPart c = true := by
  simp only [number]
  split
  · rename_i c rest
    refine numberText_parts_of fun hr => ⟨['0', c], rfl, ?_⟩
    have mark : isTokenPart c = true := by
      by_contra other
      have apart {d : Char} (hd : isTokenPart d = true) : (c == d) = false :=
        beq_eq_false_iff_ne.mpr fun h => other (h ▸ hd)
      have marks : (c == 'b') = false ∧ (c == 'B') = false ∧ (c == 'o') = false ∧
          (c == 'O') = false ∧ (c == 'x') = false ∧ (c == 'X') = false :=
        ⟨apart rfl, apart rfl, apart rfl, apart rfl, apart rfl, apart rfl⟩
      simp [marks] at hr
    simpa [mark] using (by decide : isTokenPart '0' = true)
  · exact numberText_parts ..

theorem lexed_number (cs : List Char) : Lexed cs (number cs) := by
  obtain ⟨lead, hl, parts⟩ := number_parts cs
  have first := number_fst cs
  generalize number cs = found at hl first
  obtain ⟨t, rest⟩ := found
  rcases first with rfl | written
  · exact .broken ..
  · refine .parts (isSolid_of_isNumber written) ?_ hl parts
    cases t with
    | sign s => cases written
    | _ => rfl

theorem bracket_of_sign1? {s : Sign} (h : sign1? c = some s) :
    Inside.isQuote c = false ∧ Inside.bracket c = s.depth := by
  unfold sign1? at h
  split at h <;> cases h <;> decide

theorem sign2?_parts {d : Char} {s : Sign} (h : sign2? c d = some s) :
    isTokenPart c = true ∧ isTokenPart d = true ∧ (Token.sign s).isSolid = true ∧ s.depth = 0 := by
  unfold sign2? at h
  split at h <;> cases h <;> decide

theorem lexed (cs : List Char) : Lexed cs (lexeme cs) := by
  cases cs with
  | nil => exact .broken _ _
  | cons c rest =>
    simp only [lexeme]
    split
    · rename_i s hs
      obtain ⟨d, hd, hs⟩ := Option.bind_eq_some_iff.mp hs
      obtain ⟨first, second, solid, depth⟩ := sign2?_parts hs
      obtain ⟨behind, rfl⟩ := List.head?_eq_some_iff.mp hd
      have split : c :: d :: behind = [c, d] ++ behind := rfl
      exact .parts solid depth split (by simp [first, second])
    · split
      · rename_i s hs
        exact .sign rfl hs
      · split
        · rename_i hq
          split
          · exact .broken _ _
          · rename_i hb
            split
            · exact .quoted _ hq rfl hb
            · exact .broken _ _
        · split
          · exact lexed_number (c :: rest)
          · split
            · refine .parts rfl rfl List.takeWhile_append_dropWhile.symm fun d hd => ?_
              have part : isNamePart d = true := List.mem_takeWhile_imp hd
              simp [isTokenPart, part]
            · exact .broken _ _

-- ---------------------------------------------------------------------------
-- Tags
-- ---------------------------------------------------------------------------

theorem after?_eq {mark : List Char} (h : after? mark cs = some rest) : cs = mark ++ rest := by
  unfold after? at h
  split at h
  · rename_i hp
    cases h
    obtain ⟨behind, rfl⟩ := List.isPrefixOf_iff_prefix.mp hp
    rw [List.drop_left]
  · cases h

theorem tagEnd?_eq {found : Edge × List Char} (h : tagEnd? close cs = some found) :
    ∃ mark, cs = mark ++ close ++ found.2 ∧ (mark = [] ∨ mark = ['-'] ∨ mark = ['+']) := by
  obtain ⟨mark, hm, kind⟩ := edge_eq cs
  simp only [tagEnd?] at h
  split at h
  · rename_i ha
    cases h
    exact ⟨mark, by rw [hm, after?_eq ha, List.append_assoc], kind⟩
  · cases h

theorem not_prefix_of_tagEnd? (hc : Closes close) (h : tagEnd? close cs = none) :
    ¬close <+: cs := by
  rintro ⟨rest, rfl⟩
  rcases hc with rfl | rfl <;> simp [tagEnd?, after?, Edge.ofChar?, Edge.width] at h

inductive Tagged (close : List Char) :
    Int → List Char → List Token → Option (Edge × List Char) → Prop
  | ended {cs : List Char} {found} (h : tagEnd? close (cs.dropWhile isTagBlank) = some found) :
      Tagged close 0 cs [] (some found)
  | stopped {d : Int} {cs : List Char} (h : cs.dropWhile isTagBlank = []) :
      Tagged close d cs [] none
  | broken {d : Int} {cs : List Char} (f : Fault) : Tagged close d cs [.broken f] none
  | token {d : Int} {cs : List Char} {t rest tokens found} (ht : ∀ f, t ≠ .broken f)
      (hd : d = 0 → tagEnd? close (cs.dropWhile isTagBlank) = none)
      (hl : lexeme (cs.dropWhile isTagBlank) = (t, rest))
      (next : Tagged close (d + t.depth) rest tokens found) :
      Tagged close d cs (t :: tokens) found

theorem tagged (close : List Char) (n : Nat) (d : Int) (cs : List Char) :
    Tagged close d cs (tag close n d cs).1 (tag close n d cs).2 := by
  induction n generalizing d cs with
  | zero => exact .broken _
  | succ n ih =>
    cases hf : (if d = 0 then tagEnd? close (cs.dropWhile isTagBlank) else none) with
    | some found =>
      simp only [tag, hf]
      split at hf
      · subst d
        exact .ended hf
      · cases hf
    | none =>
      have hd : d = 0 → tagEnd? close (cs.dropWhile isTagBlank) = none := fun hd => by
        rwa [if_pos hd] at hf
      rcases hl : lexeme (cs.dropWhile isTagBlank) with ⟨t, rest⟩
      simp only [tag, hf, hl]
      split
      · rename_i he
        exact .stopped (List.isEmpty_iff.mp he)
      · cases t with
        | broken f => exact .broken f
        | _ => exact .token nofun hd hl (ih ..)

def behind (found : Option (Edge × List Char)) : List Char := (found.map Prod.snd).getD []

section Marks

variable {t : Token} {tokens : List Token}

theorem wrong_notMem_tail (hw : .wrong ∉ marks (t :: tokens)) : .wrong ∉ marks tokens :=
  fun h => hw (List.mem_append_right _ h)

/-- Only the opening of a tag opens a block. -/
theorem markAt?_eq_none (ht : t ≠ .openBlock) (hw : .wrong ∉ marks (t :: tokens)) :
    markAt? (t :: tokens) = none := by
  cases hm : markAt? (t :: tokens) with
  | none => rfl
  | some m =>
    have wrong : m = .wrong := by
      unfold markAt? at hm
      split at hm
      · rename_i he
        exact absurd (List.cons.inj he).1 ht
      all_goals
        cases hm
      all_goals rfl
    subst wrong
    exact absurd (by rw [marks, hm]; exact List.mem_cons_self ..) hw

theorem head_ne_percent (ht : t = .openVariable ∨ t = .sign .openBrace)
    (hw : .wrong ∉ marks (t :: tokens)) : tokens.head? ≠ some (.sign .percent) := by
  intro percent
  obtain ⟨behind, rfl⟩ := List.head?_eq_some_iff.mp percent
  rcases ht with rfl | rfl <;> exact hw (List.mem_cons_self ..)

end Marks

namespace Tagged

variable {tokens : List Token} {found : Option (Edge × List Char)}

theorem blanks_dropWhile (hc : Closes close) : tagPlaces close (.code d) cs =
    (spots .tag (cs.takeWhile isTagBlank) ++
      (tagPlaces close (.code d) (cs.dropWhile isTagBlank)).1,
        (tagPlaces close (.code d) (cs.dropWhile isTagBlank)).2) := by
  have blank : ∀ c ∈ cs.takeWhile isTagBlank, c ∉ signals := fun c h =>
    notMem_signals (by decide) (List.mem_takeWhile_imp h)
  rw [← tagPlaces_append hc blank, List.takeWhile_append_dropWhile]

/-- Where no percent sign is read first, none is the first of the places. -/
theorem head_places (h : Tagged close d cs tokens found) (hc : Closes close)
    (hp : tokens.head? ≠ some (.sign .percent)) (hw : .wrong ∉ marks tokens) :
    (tagPlaces close (.code d) cs).1.head? ≠ some ⟨'%', .tag⟩ := by
  cases cs with
  | nil => exact nofun
  | cons c cs =>
    cases he : (Inside.code d).ends close (c :: cs) with
    | true =>
      rw [tagPlaces_of_ends he]
      rcases hc with rfl | rfl <;> simp [spots]
    | false =>
      rw [tagPlaces_cons he]
      intro first
      obtain rfl : c = '%' := congrArg Spot.char (Option.some.inj first)
      cases h with
      | ended h =>
        obtain ⟨mark, hm, kind⟩ := tagEnd?_eq h
        rcases kind with rfl | rfl | rfl <;> rcases hc with rfl | rfl <;> cases hm
        cases he
      | stopped h => cases h
      | broken f => exact hw (List.mem_cons_self ..)
      | @token _ _ t rest _ _ ht hd hl next =>
        have percent : (lexeme ('%' :: cs)).1 = .sign .percent := by
          cases cs <;> rfl
        exact hp (congrArg some ((congrArg Prod.fst hl).symm.trans percent))

theorem head_quoted (q : Char) (d : Int) (cs : List Char) :
    ∀ spot ∈ (tagPlaces close (.quoted q d) cs).1.head?, spot.place ≠ .tag := by
  cases cs with
  | nil => exact fun _ h => nomatch h
  | cons c cs =>
    rw [tagPlaces_cons rfl]
    rintro spot h
    cases h
    exact nofun

/-- Behind a quoted text a tag goes on as before. -/
theorem places_quoted {q : Char} {body : List Char} (hq : Inside.isQuote q = true)
    (h : quoted q cs = some (body, rest)) (hp : Proper (tagPlaces close (.code d) rest).1) :
    (tagPlaces close (.quoted q d) cs).2 = (tagPlaces close (.code d) rest).2 ∧
      Proper (tagPlaces close (.quoted q d) cs).1 := by
  have covered {c : Char} {i : Inside} {s : List Spot} (hi : i.place c = .covered)
      (hs : c = '{' → ∀ spot ∈ s.head?, spot.place ≠ .tag) (h : Proper s) :
      Proper (⟨c, i.place c⟩ :: s) := by
    refine .cons (fun h => ?_) (fun hc h => hs hc _ h rfl) h
    cases hi.symm.trans h
  induction cs using quoted.induct q generalizing body with
  | case1 => cases h
  | case2 c cs ih =>
    obtain ⟨found, hf, h⟩ := Option.map_eq_some_iff.mp h
    cases h
    obtain ⟨later, proper⟩ := ih hf
    have next : (Inside.quoted q d).next '\\' = .escaped q d := rfl
    rw [tagPlaces_cons rfl, next, tagPlaces_cons rfl]
    exact ⟨later, covered rfl nofun (covered rfl (fun _ => head_quoted q d cs) proper)⟩
  | case3 cs _ => simp [quoted] at h
  | case4 cs _ hc =>
    simp only [quoted, if_neg hc] at h
    cases h
    have next : (Inside.quoted q d).next q = .code d := by simp [Inside.next, hc]
    rw [tagPlaces_cons rfl, next]
    exact ⟨rfl, covered rfl (fun brace => by subst brace; cases hq) hp⟩
  | case5 c cs _ hc hd ih =>
    simp only [quoted, if_neg hc, if_neg hd] at h
    obtain ⟨found, hf, h⟩ := Option.map_eq_some_iff.mp h
    cases h
    obtain ⟨later, proper⟩ := ih hf
    have next : (Inside.quoted q d).next c = .quoted q d := by simp [Inside.next, hc, hd]
    rw [tagPlaces_cons rfl, next]
    exact ⟨later, covered rfl (fun _ => head_quoted q d cs) proper⟩

theorem places_of_quote {q : Char} {cs body : List Char} (hc : Closes close)
    (hq : Inside.isQuote q = true) (hb : quoted q cs = some (body, rest))
    (hp : Proper (tagPlaces close (.code d) rest).1) :
    (tagPlaces close (.code d) (q :: cs)).2 = (tagPlaces close (.code d) rest).2 ∧
      Proper (tagPlaces close (.code d) (q :: cs)).1 := by
  have goes : (Inside.code d).ends close (q :: cs) = false := by
    by_contra he
    obtain ⟨more, hm⟩ := Inside.prefix_of_ends (Bool.not_eq_false _ ▸ he)
    rcases hc with rfl | rfl <;> cases hm <;> cases hq
  have state : (Inside.code d).next q = .quoted q d ∧ (Inside.code d).place q = .covered := by
    simp [Inside.next, Inside.place, hq]
  obtain ⟨later, text⟩ := places_quoted hq hb hp
  rw [tagPlaces_cons goes, state.1, state.2]
  exact ⟨later, .cons (by simp) (fun brace => by subst brace; cases hq) text⟩

theorem places_of_sign {s : Sign} (hs : sign1? c = some s)
    (goes : (Inside.code d).ends close (c :: rest) = false)
    (hb : c = '{' → (tagPlaces close (.code (d + s.depth)) rest).1.head? ≠ some ⟨'%', .tag⟩)
    (hp : Proper (tagPlaces close (.code (d + s.depth)) rest).1) :
    (tagPlaces close (.code d) (c :: rest)).2 = (tagPlaces close (.code (d + s.depth)) rest).2 ∧
      Proper (tagPlaces close (.code d) (c :: rest)).1 := by
  obtain ⟨unquoted, bracket⟩ := bracket_of_sign1? hs
  have state : (Inside.code d).next c = .code (d + s.depth) ∧ (Inside.code d).place c = .tag := by
    simp [Inside.next, Inside.place, unquoted, bracket]
  rw [tagPlaces_cons goes, state.1, state.2]
  refine ⟨rfl, .cons (fun _ blank => ?_) hb hp⟩
  have near := sign1?_near hs
  have far := toNat_of_isBlank (c := c) blank
  omega

theorem places_of_parts {lead : List Char} (hc : Closes close)
    (parts : ∀ c ∈ lead, isTokenPart c = true) (hp : Proper (tagPlaces close (.code d) rest).1) :
    (tagPlaces close (.code d) (lead ++ rest)).2 = (tagPlaces close (.code d) rest).2 ∧
      Proper (tagPlaces close (.code d) (lead ++ rest)).1 := by
  rw [tagPlaces_append hc fun c h => notMem_signals (by decide) (parts c h)]
  refine ⟨rfl, .lead (fun c h blank => ?_) (fun h => ?_) hp⟩
  · cases (not_isBlank_of_isTokenPart (parts c h)).symm.trans blank
  · cases parts _ h

/-- A tag that is read has its places up to where its tokens end, and keeps to the syntax. -/
theorem places (h : Tagged close d cs tokens found) (hc : Closes close)
    (hw : .wrong ∉ marks tokens) :
    (tagPlaces close (.code d) cs).2 = behind found ∧ Proper (tagPlaces close (.code d) cs).1 := by
  have blanks {cs : List Char} {s : List Spot} (hs : Proper s) :
      Proper (spots .tag (cs.takeWhile isTagBlank) ++ s) := by
    refine .lead (fun c hc _ => List.mem_takeWhile_imp hc) (fun hc => ?_) hs
    cases (List.mem_takeWhile_imp hc : isTagBlank '{' = true)
  induction h with
  | @ended cs found h =>
    rw [blanks_dropWhile hc]
    obtain ⟨mark, hm, kind⟩ := tagEnd?_eq h
    have closed : tagPlaces close (.code 0) (close ++ found.2) =
        (spots .delimiter close, found.2) := by
      rcases hc with rfl | rfl <;> rfl
    rw [hm, List.append_assoc, tagPlaces_append hc (notMem_signals_of_mark kind), closed]
    exact ⟨rfl, blanks (.mark kind (.outside (by decide) close))⟩
  | @stopped d cs h =>
    rw [blanks_dropWhile hc, h]
    exact ⟨rfl, blanks .nil⟩
  | broken f => exact absurd (List.mem_cons_self ..) hw
  | @token d cs t rest tokens found ht hd hl next ih =>
    have hw' := wrong_notMem_tail hw
    obtain ⟨later, proper⟩ := ih hw'
    rw [blanks_dropWhile hc]
    have taken := lexed (cs.dropWhile isTagBlank)
    rw [hl] at taken
    suffices here : (tagPlaces close (.code d) (cs.dropWhile isTagBlank)).2 = behind found ∧
        Proper (tagPlaces close (.code d) (cs.dropWhile isTagBlank)).1 from
      ⟨here.1, blanks here.2⟩
    generalize cs.dropWhile isTagBlank = inside at hd hl taken ⊢
    cases taken with
    | broken f => exact absurd rfl (ht f)
    | @quoted q body behind rest s hq h hb =>
      subst h
      rw [show d + depth (.string s) = d from add_zero d] at later proper
      exact (places_of_quote hc hq hb proper).imp_left (·.trans later)
    | @sign c s rest h hs =>
      subst h
      have goes : (Inside.code d).ends close (c :: rest) = false := by
        by_contra he
        have he := Bool.not_eq_false _ ▸ he
        exact not_prefix_of_tagEnd? hc (hd (beq_iff_eq.mp (Bool.and_eq_true_iff.mp he).1))
          (Inside.prefix_of_ends he)
      refine (places_of_sign hs goes (fun brace => ?_) proper).imp_left (·.trans later)
      subst brace
      cases hs
      exact next.head_places hc (head_ne_percent (.inr rfl) hw) hw'
    | @parts t lead rest _ depth h parts =>
      subst h
      rw [depth, add_zero] at later proper
      exact (places_of_parts hc parts proper).imp_left (·.trans later)

theorem places_of_edge (h : Tagged close 0 (cs.drop (Edge.ofChar? cs.head?).width) tokens found)
    (hc : Closes close) (hw : .wrong ∉ marks tokens) :
    (tagPlaces close (.code 0) cs).2 = behind found ∧ Proper (tagPlaces close (.code 0) cs).1 ∧
      (tokens.head? ≠ some (.sign .percent) →
        (tagPlaces close (.code 0) cs).1.head? ≠ some ⟨'%', .tag⟩) := by
  obtain ⟨mark, he, kind⟩ := edge_eq cs
  generalize cs.drop (Edge.ofChar? cs.head?).width = inside at h he
  subst he
  obtain ⟨ended, proper⟩ := h.places hc hw
  rw [tagPlaces_append hc (notMem_signals_of_mark kind)]
  refine ⟨ended, .mark kind proper, fun hp => ?_⟩
  rcases kind with rfl | rfl | rfl
  · exact h.head_places hc hp hw
  all_goals simp [spots]

theorem name? (h : Tagged close 0 cs tokens found) (hc : Closes close)
    (hw : .wrong ∉ marks tokens) :
    tokens.head?.bind Token.name? = leadingName? (cs.dropWhile isTagBlank) := by
  cases h with
  | @ended _ found h =>
    obtain ⟨mark, hm, kind⟩ := tagEnd?_eq h
    rw [hm]
    rcases kind with rfl | rfl | rfl <;> rcases hc with rfl | rfl <;> rfl
  | stopped h =>
    rw [h]
    rfl
  | broken f => exact absurd (List.mem_cons_self ..) hw
  | @token _ _ t rest tokens found ht hd hl next =>
    have first := name?_lexeme (cs.dropWhile isTagBlank)
    rwa [hl] at first

/-- Behind a name a tag goes on where the name ends. -/
theorem next_of_name {w : String} (h : Tagged close d cs (.name w :: tokens) found) :
    Tagged close d ((cs.dropWhile isTagBlank).dropWhile isNamePart) tokens found := by
  cases h with
  | @token _ _ _ rest _ _ ht hd hl next =>
    have first := name?_lexeme (cs.dropWhile isTagBlank)
    rw [hl] at first
    obtain ⟨-, c, inside, hi, hc⟩ := leadingName?_some first.symm
    rw [hi, lexeme_of_name hc] at hl
    cases hl
    rw [hi]
    simpa [depth] using next

/-- A block is opened by the tokens of a tag where the tag declares it. -/
theorem markAt?_openBlock
    (h : Tagged close 0 (cs.drop (Edge.ofChar? cs.head?).width) tokens found)
    (hc : Closes close) (hw : .wrong ∉ marks tokens) :
    markAt? (.openBlock :: tokens) = (blockName? cs).map .block := by
  have first := h.name? hc hw
  by_cases word : tokens.head? = some (.name "block")
  · obtain ⟨behind, rfl⟩ := List.head?_eq_some_iff.mp word
    have second := h.next_of_name.name? hc (wrong_notMem_tail hw)
    have named : leadingName? ((cs.drop (Edge.ofChar? cs.head?).width).dropWhile isTagBlank) =
        some "block" := first.symm
    rw [blockName?, if_pos named]
    refine Eq.trans ?_ (congrArg _ second)
    cases behind with
    | nil => rfl
    | cons t behind => cases t <;> rfl
  · have other : leadingName? ((cs.drop (Edge.ofChar? cs.head?).width).dropWhile isTagBlank) ≠
        some "block" := fun hn => by
      obtain ⟨t, ht, named⟩ := Option.bind_eq_some_iff.mp (first.trans hn)
      cases t <;> cases named
      exact word ht
    rw [blockName?, if_neg other]
    unfold markAt?
    split <;> simp_all

/-- The tokens of a tag open no blocks, but for the tag itself. -/
theorem marks_eq_nil (h : Tagged close d cs tokens found) (hw : .wrong ∉ marks tokens) :
    marks tokens = [] := by
  induction h with
  | ended => rfl
  | stopped => rfl
  | broken f => exact absurd (List.mem_cons_self ..) hw
  | @token d cs t rest tokens found ht hd hl next ih =>
    have taken := lexed (cs.dropWhile isTagBlank)
    rw [hl] at taken
    have shut : t ≠ .openBlock := by
      rintro rfl
      cases taken with
      | parts ht => cases ht
    rw [marks, markAt?_eq_none shut hw]
    exact ih (wrong_notMem_tail hw)

end Tagged

-- ---------------------------------------------------------------------------
-- Sources
-- ---------------------------------------------------------------------------

/-- From one text on to the rest of it, with no brace that opens on the way. -/
def Passes (cs rest : List Char) : Prop := ∃ lead, cs = lead ++ rest ∧ '{' ∉ lead

namespace Passes

variable {rest' : List Char}

theorem refl (cs : List Char) : Passes cs cs := ⟨[], rfl, List.not_mem_nil⟩

theorem cons (hc : c ≠ '{') (h : Passes cs rest) : Passes (c :: cs) rest := by
  obtain ⟨lead, rfl, hl⟩ := h
  exact ⟨c :: lead, rfl, fun h => (List.mem_cons.mp h).elim hc.symm hl⟩

theorem trans (h : Passes cs rest) (h' : Passes rest rest') : Passes cs rest' := by
  obtain ⟨lead, rfl, hl⟩ := h
  obtain ⟨lead', rfl, hl'⟩ := h'
  exact ⟨lead ++ lead', (List.append_assoc ..).symm, fun h => (List.mem_append.mp h).elim hl hl'⟩

theorem dropWhile {p : Char → Bool} (hp : p '{' = false) (cs : List Char) :
    Passes cs (cs.dropWhile p) := by
  refine ⟨cs.takeWhile p, List.takeWhile_append_dropWhile.symm, fun h => ?_⟩
  simp [List.mem_takeWhile_imp h] at hp

theorem suffix (h : Passes cs rest) : rest <:+ cs := by
  obtain ⟨lead, rfl, -⟩ := h
  exact List.suffix_append lead rest

end Passes

theorem passes_dropBreak (cs : List Char) : Passes cs (dropBreak cs) := by
  unfold dropBreak
  extract_lets returned
  have hreturned : Passes cs returned := by
    dsimp only [returned]
    split
    · exact .cons (by decide) (.refl _)
    · exact .refl _
  refine hreturned.trans ?_
  clear_value returned
  split
  · exact .cons (by decide) (.refl _)
  · exact .refl _

theorem passes_afterEdge (trim : Bool) (edge : Edge) (cs : List Char) :
    Passes cs (afterEdge trim edge cs) := by
  cases edge with
  | plain =>
    cases trim with
    | false => exact .refl cs
    | true => exact passes_dropBreak cs
  | strip => exact .dropWhile rfl cs
  | keep => exact .refl cs

theorem scan_append (h : Passes cs rest) (n : Nat) :
    ∃ lead, scan (n + 1) cs = spots .text lead ++ scan (n + 1) rest := by
  obtain ⟨lead, rfl, none⟩ := h
  refine ⟨lead, ?_⟩
  have front : splitText (lead ++ rest) = (lead ++ (splitText rest).1, (splitText rest).2) := by
    induction lead with
    | nil => rfl
    | cons c lead ih =>
      obtain ⟨hc, hl⟩ := not_or.mp (mt List.mem_cons.mpr none)
      simp [splitText, ih hl, Ne.symm hc]
  simp only [scan, front, spots_append, List.append_assoc]

theorem marks_textTokens (cs : List Char) (tokens : List Token) :
    marks (textTokens cs ++ tokens) = marks tokens := by
  unfold textTokens
  split <;> rfl

theorem marks_append_closing {t : Token} (ht : t = .closeVariable ∨ t = .closeBlock)
    (tokens rest : List Token) : marks (tokens ++ t :: rest) = marks tokens ++ marks rest := by
  induction tokens with
  | nil => rcases ht with rfl | rfl <;> rfl
  | cons first tokens ih =>
    have same : markAt? (first :: (tokens ++ t :: rest)) = markAt? (first :: tokens) := by
      rcases tokens with - | ⟨second, - | ⟨third, tokens⟩⟩
      · rcases ht with rfl | rfl <;> (unfold markAt?; split <;> simp_all)
      · rcases ht with rfl | rfl <;> (unfold markAt?; split <;> split <;> simp_all)
      · unfold markAt?
        split <;> split <;> simp_all
    rw [List.cons_append, marks, same, ih, ← List.append_assoc]
    rfl

/-- The tokens open the blocks that tags declare at the places. These keep to the syntax, and begin
outside of tags. -/
structure Agree (tokens : List Token) (s : List Spot) : Prop where
  marks : Token.marks tokens = (declaredNames s).map .block
  proper : Proper s
  begins : ∀ spot ∈ s.head?, spot.place ≠ .tag

namespace Agree

variable {tokens more : List Token} {s : List Spot}

theorem scan_nil (n : Nat) : scan n [] = [] :=
  List.map_eq_nil_iff.mp (spelling_scan n [])

theorem nil : Agree [] [] := ⟨rfl, .nil, fun _ h => nomatch h⟩

theorem prepend {p : Place} (hp : p ≠ .tag ∧ p ≠ .delimiter) (lead : List Char)
    (h : Agree tokens s) : Agree tokens (spots p lead ++ s) where
  marks := by rw [h.marks, declaredNames_spots hp.2]
  proper := .append (.outside hp.1 lead) h.proper h.begins
  begins := head_append hp.1 lead h.begins

theorem text (front : List Char) (h : Agree tokens s) : Agree (textTokens front ++ tokens) s :=
  ⟨(marks_textTokens front tokens).trans h.marks, h.proper, h.begins⟩

theorem raw (body : List Char) (h : Agree tokens s) : Agree (.text body :: tokens) s :=
  ⟨h.marks, h.proper, h.begins⟩

theorem trimmed (n : Nat) (hp : Passes cs rest) (h : Agree tokens (scan (n + 1) rest)) :
    Agree tokens (scan (n + 1) cs) := by
  obtain ⟨lead, hs⟩ := scan_append hp n
  rw [hs]
  exact h.prepend (by decide) lead

def Opens (opening : Token) (kind : Char) : Prop :=
  opening = .openVariable ∧ kind = '{' ∨ opening = .openBlock ∧ kind = '%'

theorem tag {opening : Token} {kind : Char} {inside : List Char} {n : Nat}
    {found : Option (Edge × List Char)} (ho : Opens opening kind)
    (h : Tagged (closing kind) 0 (inside.drop (Edge.ofChar? inside.head?).width) tokens found)
    (hm : ∀ tokens, Token.marks (tokens ++ more) = Token.marks tokens ++ Token.marks more)
    (hw : .wrong ∉ Token.marks (opening :: tokens ++ more))
    (hr : Token.behind found <:+ inside → .wrong ∉ Token.marks more →
      Agree more (scan n (Token.behind found))) :
    Agree (opening :: tokens ++ more) (⟨'{', .delimiter⟩ :: ⟨kind, .delimiter⟩ ::
      ((tagPlaces (closing kind) (.code 0) inside).1 ++
        scan n (tagPlaces (closing kind) (.code 0) inside).2)) := by
  have hc := closes_closing kind
  rw [hm] at hw
  obtain ⟨first, rest⟩ := not_or.mp (mt List.mem_append.mpr hw)
  have unread := wrong_notMem_tail first
  obtain ⟨ended, proper, head⟩ := h.places_of_edge hc unread
  have agree := hr (ended ▸ tagPlaces_suffix ..) rest
  rw [← ended] at agree
  have spelled := spelling_scan n (tagPlaces (closing kind) (.code 0) inside).2
  generalize scan n (tagPlaces (closing kind) (.code 0) inside).2 = s at agree spelled ⊢
  have apart := delimiter_notMem_tagPlaces hc (.code 0) inside
  have whole : Proper ((tagPlaces (closing kind) (.code 0) inside).1 ++ s) :=
    proper.append agree.proper agree.begins
  have begins {s : List Spot} : ∀ spot ∈ (⟨'{', .delimiter⟩ :: s : List Spot).head?,
      spot.place ≠ .tag := by
    rintro spot h
    cases h
    decide
  rcases ho with ⟨rfl, rfl⟩ | ⟨rfl, rfl⟩
  · have head := head (head_ne_percent (.inl rfl) first)
    have printed : Proper (⟨'{', .delimiter⟩ :: (tagPlaces (closing '{') (.code 0) inside).1) :=
      .cons (by simp) (fun _ => head) proper
    have behind : ((tagPlaces (closing '{') (.code 0) inside).1 ++ s).head? ≠
        some ⟨'%', .tag⟩ := by
      cases hi : (tagPlaces (closing '{') (.code 0) inside).1 with
      | nil => exact fun h => agree.begins _ h rfl
      | cons spot places =>
        rw [hi] at head
        exact head
    obtain ⟨-, undeclared⟩ := names_of_printed spelled printed
    refine ⟨?_, whole.opened fun _ => behind, begins⟩
    rw [hm, Token.marks, markAt?_eq_none (by simp) first, h.marks_eq_nil unread, agree.marks,
      declaredNames, declaredNames, declaredNames_append apart, undeclared]
    rfl
  · have all : spelling ((tagPlaces (closing '%') (.code 0) inside).1 ++ s) = inside := by
      rw [spelling_append, spelled, spelling_tagPlaces]
    have opened : declaredAt? (⟨'{', .delimiter⟩ :: ⟨'%', .delimiter⟩ ::
        ((tagPlaces (closing '%') (.code 0) inside).1 ++ s)) = blockName? inside :=
      congrArg blockName? all
    refine ⟨?_, whole.opened (by simp), begins⟩
    rw [hm, Token.marks, h.markAt?_openBlock hc unread, h.marks_eq_nil unread, agree.marks,
      declaredNames, declaredNames, declaredNames_append apart, opened,
      declaredAt?_eq_none (by simp)]
    cases blockName? inside <;> rfl

def following (follow : Edge → List Char → List Token) : Option (Edge × List Char) → List Token
  | none => []
  | some (edge, after) => follow edge after

/-- Behind a tag that ends the source goes on; else it has ended in the tag. -/
theorem tagged {opening closer : Token} {kind : Char} {inside : List Char} {n : Nat}
    {found : Option (Edge × List Char)} (ho : Opens opening kind)
    (hcl : closer = .closeVariable ∨ closer = .closeBlock)
    (h : Tagged (closing kind) 0 (inside.drop (Edge.ofChar? inside.head?).width) tokens found)
    {follow : Edge → List Char → List Token}
    (hr : ∀ edge after, after <:+ inside → .wrong ∉ Token.marks (follow edge after) →
      Agree (follow edge after) (scan n after))
    (hw : .wrong ∉ Token.marks (opening :: tokens ++
      following (fun edge after => closer :: follow edge after) found)) :
    Agree (opening :: tokens ++ following (fun edge after => closer :: follow edge after) found)
      (⟨'{', .delimiter⟩ :: ⟨kind, .delimiter⟩ ::
        ((tagPlaces (closing kind) (.code 0) inside).1 ++
          scan n (tagPlaces (closing kind) (.code 0) inside).2)) := by
  cases found with
  | none =>
    refine tag ho h (fun tokens => by simp [following, Token.marks]) hw fun _ _ => ?_
    rw [show Token.behind none = [] from rfl, scan_nil]
    exact nil
  | some found =>
    obtain ⟨edge, after⟩ := found
    have closed : Token.marks (closer :: follow edge after) = Token.marks (follow edge after) := by
      rcases hcl with rfl | rfl <;> rfl
    refine tag ho h (fun tokens => ?_) hw fun suffix hw' => ?_
    · rw [following, marks_append_closing hcl, closed]
    · rw [following, closed] at hw'
      have later := hr edge after suffix hw'
      exact ⟨closed.trans later.marks, later.proper, later.begins⟩

end Agree

/-- In a source that can be read the tokens open the blocks that its tags declare. -/
theorem agree_source (trim : Bool) {n : Nat} (hn : cs.length < n)
    (hw : .wrong ∉ marks (source trim n cs)) : Agree (source trim n cs) (scan n cs) := by
  induction n generalizing cs with
  | zero => cases hn
  | succ n ih =>
    rcases splitText_rest cs with h | ⟨kind, inside, h, kinds⟩
    · simp only [source, scan, h]
      exact List.append_nil (textTokens _) ▸ .text _ (Agree.nil.prepend (by decide) _)
    · have shorter : inside.length < n := by
        have parts := congrArg List.length (splitText_append cs)
        rw [h, List.length_append, List.length_cons, List.length_cons] at parts
        omega
      have opened := List.drop_suffix (Edge.ofChar? inside.head?).width inside
      have go {after rest : List Char} (hl : after <:+ inside) (hp : Passes after rest)
          (hw : .wrong ∉ marks (source trim n rest)) :
          Agree (source trim n rest) (scan n after) := by
        have hl := hl.length_le
        have hp' := hp.suffix.length_le
        obtain ⟨m, rfl⟩ : ∃ m, n = m + 1 := ⟨n - 1, by omega⟩
        exact (ih (by omega) hw).trimmed m hp
      simp only [source, scan, h] at hw ⊢
      rcases kinds with rfl | rfl | rfl
      · simp only [beq_self_eq_true, if_true] at hw ⊢
        cases hs : splitAt? ['#', '\x7d'] (inside.drop (Edge.ofChar? inside.head?).width) with
        | none =>
          simp only [hs, marks_textTokens] at hw
          exact absurd (List.mem_cons_self ..) hw
        | some found =>
          simp only [hs, marks_textTokens] at hw ⊢
          have later := go ((splitAt?_suffix hs).trans opened) (passes_afterEdge ..) hw
          exact ((later.prepend (by decide) _).prepend (by decide) _).text _
      · have printed : ('{' == '#') = false := by decide
        simp only [printed, beq_self_eq_true, Bool.false_eq_true, if_true, if_false,
          List.append_assoc, marks_textTokens] at hw ⊢
        have here := Agree.tagged (.inl ⟨rfl, rfl⟩) (.inl rfl) (tagged ..)
          (fun edge after hl hw => go hl (passes_afterEdge ..) hw) hw
        exact (here.prepend (by decide) _).text _
      · have stated : ('%' == '#') = false ∧ ('%' == '{') = false := by decide
        simp only [stated.1, stated.2, Bool.false_eq_true, if_false] at hw ⊢
        cases hr : bareTag? "raw" (inside.drop (Edge.ofChar? inside.head?).width) with
        | some raw =>
          simp only [hr] at hw ⊢
          cases hb : rawBody (raw.2.length + 1) raw.2 with
          | none =>
            simp only [hb, marks_textTokens] at hw
            exact absurd (List.mem_cons_self ..) hw
          | some found =>
            simp only [hb, marks_textTokens] at hw ⊢
            have passed := (rawBody_suffix hb).trans ((bareTag?_suffix hr).trans opened)
            have later := go passed (passes_afterEdge ..) hw
            exact (((later.raw _).prepend (by decide) _).prepend (by decide) _).text _
        | none =>
          simp only [hr, List.append_assoc, marks_textTokens] at hw ⊢
          have here := Agree.tagged (.inr ⟨rfl, rfl⟩) (.inr rfl) (tagged ..)
            (fun edge after hl hw => go hl (passes_afterEdge ..) hw) hw
          exact (here.prepend (by decide) _).text _

end Token

/-- The blocks of a source that can be read are those that its tags declare, each once and in the
order of the tags. -/
theorem blocks_of_read {settings : Settings} {source : String} {t : Syntax}
    (h : Syntax.read settings source = .ok t) :
    t.blocks.map Prod.fst = declaredNames (places source) ∧ (t.blocks.map Prod.fst).Nodup ∧
      Proper (places source) := by
  obtain ⟨shown, nodup⟩ := Parser.marks_of_read h
  have readable : .wrong ∉ Token.marks (Token.ofSource settings source) := by
    rw [shown]
    simp
  have agree := Token.agree_source settings.trimBlocks (Nat.lt_succ_self _) readable
  refine ⟨?_, nodup, agree.proper⟩
  exact List.map_injective_iff.mpr (fun _ _ => Mark.block.inj) (shown.symm.trans agree.marks)

end Stencil.Markup
