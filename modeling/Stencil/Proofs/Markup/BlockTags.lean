import Mathlib.Data.List.Nodup
import Stencil.Markup.Parser

/-!
# The block tags that a parser reads

Blocks are opened by three tokens: the opening of a tag, the word `block` and a name. What a parser
reads of the tokens shows the names of blocks at these places and nowhere else, and for each of them
there is a block in what it gives, in the same order (`marks_of_read`). An expression shows none.

What was read is closed: no tag begins in it that ends in the tokens behind it (`Shows`). So the
names of two parts that are read one after the other are those of the first and then those of the
second.
-/

namespace Stencil.Markup

-- ---------------------------------------------------------------------------
-- Tokens
-- ---------------------------------------------------------------------------

/-- What tokens show: that a block is opened, or that they cannot be read. No expression begins with
a percent sign, so none stands behind a brace or at the opening of a tag that is printed. -/
inductive Mark
  | block (name : String)
  | wrong
deriving DecidableEq

namespace Token

def markAt? : List Token → Option Mark
  | .openBlock :: .name "block" :: .name s :: _ => some (.block s)
  | .openVariable :: .sign .percent :: _ => some .wrong
  | .sign .openBrace :: .sign .percent :: _ => some .wrong
  | .broken _ :: _ => some .wrong
  | _ => none

def marks : List Token → List Mark
  | [] => []
  | t :: rest => (markAt? (t :: rest)).toList ++ marks rest

/-- The tokens show the blocks, whatever follows them. -/
def Shows (used : List Token) (blocks : List String) : Prop :=
  ∀ rest, marks (used ++ rest) = blocks.map .block ++ marks rest

/-- The token shows nothing, whatever follows it. -/
def isSolid : Token → Bool
  | .openBlock | .openVariable | .sign .openBrace | .broken _ => false
  | _ => true

namespace Shows

variable {used used' : List Token} {blocks blocks' : List String} {t : Token}

theorem nil : Shows [] [] := fun _ => rfl

theorem append (h : Shows used blocks) (h' : Shows used' blocks') :
    Shows (used ++ used') (blocks ++ blocks') := by
  intro rest
  rw [List.append_assoc, h, h', List.map_append, List.append_assoc]

theorem solid (h : t.isSolid = true) : Shows [t] [] := by
  intro rest
  have none : markAt? (t :: rest) = none := by
    unfold markAt?
    split <;> simp_all [isSolid]
  show (markAt? (t :: rest)).toList ++ marks rest = _
  rw [none]
  rfl

theorem cons (ht : t.isSolid = true) (h : Shows used blocks) : Shows (t :: used) blocks :=
  (solid ht).append h

/-- What begins with a percent sign alone is wrong behind a brace, or where a tag is opened that is
printed. -/
theorem opened (ht : t = .sign .openBrace ∨ t = .openVariable) {first : Token}
    (hf : first ≠ .sign .percent) (h : Shows (first :: used) blocks) :
    Shows (t :: first :: used) blocks := by
  intro rest
  have none : markAt? (t :: first :: (used ++ rest)) = none := by
    rcases ht with rfl | rfl <;> (unfold markAt?; split <;> simp_all)
  show (markAt? (t :: first :: (used ++ rest))).toList ++ marks (first :: used ++ rest) = _
  rw [none, h]
  rfl

theorem tag {word : String} (hw : word ≠ "block") (h : Shows used blocks) :
    Shows (.openBlock :: .name word :: used) blocks := by
  have named : Shows (.name word :: used) blocks := h.cons rfl
  intro rest
  have none : markAt? (.openBlock :: .name word :: (used ++ rest)) = none := by
    unfold markAt?
    split <;> simp_all
  show (markAt? (.openBlock :: .name word :: (used ++ rest))).toList ++
    marks (.name word :: used ++ rest) = _
  rw [none, named]
  rfl

theorem block {s : String} (h : Shows used blocks) :
    Shows (.openBlock :: .name "block" :: .name s :: used) (s :: blocks) := by
  have named : Shows (.name "block" :: .name s :: used) blocks :=
    cons rfl (cons rfl h)
  intro rest
  show Mark.block s :: marks (.name "block" :: .name s :: used ++ rest) = _
  rw [named]
  rfl

end Shows
end Token

-- ---------------------------------------------------------------------------
-- Steps of a parser
-- ---------------------------------------------------------------------------

open Token

/-- What is read from one point to another one shows the blocks, and their names are taken. -/
structure Progress.Reads (blocks : List String) (s s' : Progress) : Prop where
  used : ∃ used, s.tokens = used ++ s'.tokens ∧ Shows used blocks
  names : s'.blocks = blocks.reverse ++ s.blocks
  nodup : s.blocks.Nodup → s'.blocks.Nodup

/-- What is read begins an expression: there is some of it, and no percent sign at its front. -/
structure Progress.Leads (s s' : Progress) : Prop where
  used : ∃ first used, s.tokens = first :: used ++ s'.tokens ∧ first ≠ .sign .percent ∧
    Shows (first :: used) []
  names : s'.blocks = s.blocks

namespace Progress

variable {s s' s'' : Progress} {blocks blocks' : List String} {t : Token} {rest : List Token}

theorem Reads.refl (s : Progress) : s.Reads [] s := ⟨⟨[], rfl, .nil⟩, rfl, id⟩

theorem Reads.trans (h : s.Reads blocks s') (h' : s'.Reads blocks' s'') :
    s.Reads (blocks ++ blocks') s'' := by
  obtain ⟨used, hu, shown⟩ := h.used
  obtain ⟨used', hu', shown'⟩ := h'.used
  refine ⟨⟨used ++ used', by rw [hu, hu', List.append_assoc], shown.append shown'⟩, ?_,
    h'.nodup ∘ h.nodup⟩
  rw [h'.names, h.names, List.reverse_append, List.append_assoc]

theorem Reads.quiet (h : s.Reads blocks s') (h' : s'.Reads [] s'') : s.Reads blocks s'' :=
  List.append_nil blocks ▸ h.trans h'

theorem Reads.length_le (h : s.Reads blocks s') : s'.tokens.length ≤ s.tokens.length := by
  obtain ⟨used, hu, -⟩ := h.used
  simp [hu]

theorem reads_token (hs : s.tokens = t :: rest) (ht : t.isSolid = true) :
    s.Reads [] { s with tokens := rest } :=
  ⟨⟨[t], hs, .solid ht⟩, rfl, id⟩

theorem Leads.reads (h : s.Leads s') : s.Reads [] s' := by
  obtain ⟨first, used, hs, -, shown⟩ := h.used
  exact ⟨⟨_, hs, shown⟩, h.names, h.names ▸ id⟩

theorem Leads.trans (h : s.Leads s') (h' : s'.Reads [] s'') : s.Leads s'' := by
  obtain ⟨first, used, hs, hf, shown⟩ := h.used
  obtain ⟨used', hs', shown'⟩ := h'.used
  exact ⟨⟨first, used ++ used', by simp [hs, hs'], hf, shown.append shown'⟩, h'.names.trans h.names⟩

theorem leads_token (hs : s.tokens = t :: rest) (ht : t.isSolid = true)
    (hp : t ≠ .sign .percent) : s.Leads { s with tokens := rest } :=
  ⟨⟨t, [], hs, hp, .solid ht⟩, rfl⟩

/-- Behind a brace, or in a tag that is printed, an expression or an end is due. -/
theorem Leads.behind (hs : s.tokens = t :: rest) (ht : t = .sign .openBrace ∨ t = .openVariable)
    (h : Progress.Leads { s with tokens := rest } s') : s.Leads s' := by
  obtain ⟨first, used, hs', hf, shown⟩ := h.used
  refine ⟨⟨t, first :: used, by rw [hs, show rest = _ from hs']; rfl, ?_, .opened ht hf shown⟩,
    h.names⟩
  rcases ht with rfl | rfl <;> simp

/-- What is read behind the opening of a tag shows the blocks together with it. -/
structure Opens (blocks : List String) (s s' : Progress) : Prop where
  used : ∃ used, s.tokens = used ++ s'.tokens ∧ Shows (.openBlock :: used) blocks
  names : s'.blocks = blocks.reverse ++ s.blocks
  nodup : s.blocks.Nodup → s'.blocks.Nodup

theorem Opens.reads (hs : s.tokens = .openBlock :: rest)
    (h : Progress.Opens blocks { s with tokens := rest } s') :
    s.Reads blocks s' ∧ s'.tokens.length < s.tokens.length := by
  obtain ⟨used, hu, shown⟩ := h.used
  have hu : rest = used ++ s'.tokens := hu
  refine ⟨⟨⟨.openBlock :: used, by rw [hs, hu]; rfl, shown⟩, h.names, h.nodup⟩, ?_⟩
  simp only [hs, hu, List.length_cons, List.length_append]
  omega

theorem Reads.opens {word : String} (hs : s.tokens = .name word :: rest) (hw : word ≠ "block")
    (h : Progress.Reads blocks { s with tokens := rest } s') : s.Opens blocks s' := by
  obtain ⟨used, hu, shown⟩ := h.used
  exact ⟨⟨.name word :: used, by rw [hs, show rest = _ from hu]; rfl, shown.tag hw⟩, h.names,
    h.nodup⟩

/-- The tag of a block whose name is free, and what stands in the block. -/
theorem Reads.opens_block {name : String} (hs : s.tokens = .name "block" :: .name name :: rest)
    (free : name ∉ s.blocks) (h : Progress.Reads blocks ⟨rest, name :: s.blocks⟩ s') :
    s.Opens (name :: blocks) s' := by
  obtain ⟨used, hu, shown⟩ := h.used
  refine ⟨⟨.name "block" :: .name name :: used, by rw [hs, show rest = _ from hu]; rfl,
    shown.block⟩, by simp [h.names], fun nodup => h.nodup (List.nodup_cons.mpr ⟨free, nodup⟩)⟩

end Progress

-- ---------------------------------------------------------------------------
-- Parsers
-- ---------------------------------------------------------------------------

namespace Parser

variable {α β : Type}

def Ensures (p : Parser α) (s : Progress) (post : α → Progress → Prop) : Prop :=
  ∀ a s', p s = .ok (a, s') → post a s'

/-- The blocks shown by what the parser reads are those of what it gives. -/
def Tells (p : Parser α) (blocks : α → List String) : Prop :=
  ∀ s, Ensures p s fun a s' => s.Reads (blocks a) s'

abbrev Quiet (p : Parser α) : Prop := Tells p fun _ => []

def Leading (p : Parser α) : Prop := ∀ s, Ensures p s fun _ s' => s.Leads s'

section Ensures

variable {p : Parser α} {q : α → Parser β} {s : Progress} {post : β → Progress → Prop}

theorem Ensures.bind {mid : α → Progress → Prop} (hp : Ensures p s mid)
    (hq : ∀ a s', mid a s' → Ensures (q a) s' post) : Ensures (p >>= q) s post := by
  intro b s'' h
  change (p s >>= fun x => q x.1 x.2) = _ at h
  cases ended : p s with
  | error f =>
    rw [ended] at h
    cases h
  | ok x =>
    rw [ended] at h
    exact hq x.1 x.2 (hp _ _ ended) _ _ h

theorem Ensures.mono {post' : β → Progress → Prop} {p : Parser β} (hp : Ensures p s post)
    (h : ∀ b s', post b s' → post' b s') : Ensures p s post' :=
  fun b s' ended => h b s' (hp b s' ended)

theorem ensures_pure {b : β} (h : post b s) : Ensures (pure b) s post := by
  rintro _ _ ⟨⟩
  exact h

theorem ensures_bad : Ensures (bad : Parser β) s post := fun _ _ h => nomatch h

theorem ensures_get {q : Progress → Parser β} (h : Ensures (q s) s post) :
    Ensures (get >>= q) s post :=
  h

theorem ensures_remaining {q : Nat → Parser β} (h : Ensures (q s.tokens.length) s post) :
    Ensures (remaining >>= q) s post :=
  h

theorem ensures_modify {f : Progress → Progress} {q : PUnit → Parser β}
    (h : Ensures (q ⟨⟩) (f s) post) : Ensures (modify f >>= q) s post :=
  h

inductive Peeked (s : Progress) : Option Token → Prop
  | nothing (h : s.tokens = []) : Peeked s none
  | token {t : Token} {rest : List Token} (h : s.tokens = t :: rest)
      (ht : ∀ fault, t ≠ .broken fault) : Peeked s (some t)

theorem ensures_peek {q : Option Token → Parser β} (h : ∀ o, Peeked s o → Ensures (q o) s post) :
    Ensures (peek? >>= q) s post := by
  have peeked : Ensures peek? s fun o s' => s' = s ∧ Peeked s o := by
    unfold peek?
    refine ensures_get ?_
    cases hs : s.tokens with
    | nil => exact ensures_pure ⟨rfl, .nothing hs⟩
    | cons t rest =>
      cases t with
      | broken fault => exact fun _ _ h => nomatch h
      | _ => exact ensures_pure ⟨rfl, .token hs nofun⟩
  exact peeked.bind fun o s' ⟨hs', ho⟩ => hs' ▸ h o ho

theorem ensures_advance {t : Token} {rest : List Token} (hs : s.tokens = t :: rest)
    {q : Unit → Parser β} (h : Ensures (q ()) { s with tokens := rest } post) :
    Ensures (advance >>= q) s post := by
  refine ensures_modify ?_
  rw [hs]
  exact h

theorem ensures_next {q : Token → Parser β} (h : ∀ t rest, s.tokens = t :: rest →
    Ensures (q t) { s with tokens := rest } post) : Ensures (next >>= q) s post := by
  unfold next
  rw [bind_assoc]
  refine ensures_peek fun o ho => ?_
  cases ho with
  | nothing => exact ensures_bad
  | token hs =>
    rw [bind_assoc]
    exact ensures_advance hs (h _ _ hs)

theorem ensures_name {q : String → Parser β} (h : ∀ n rest, s.tokens = .name n :: rest →
    Ensures (q n) { s with tokens := rest } post) : Ensures (name >>= q) s post := by
  unfold name
  rw [bind_assoc]
  refine ensures_next fun t rest hs => ?_
  split
  · exact h _ _ hs
  · exact ensures_bad

theorem ensures_accept {t : Token} {q : Bool → Parser β}
    (yes : ∀ rest, s.tokens = t :: rest → Ensures (q true) { s with tokens := rest } post)
    (no : Ensures (q false) s post) : Ensures (accept t >>= q) s post := by
  unfold accept
  rw [bind_assoc]
  refine ensures_peek fun o ho => ?_
  split
  · rename_i heq
    cases ho with
    | nothing => cases heq
    | @token t' rest hs =>
      obtain rfl : t' = t := by simpa using heq
      rw [bind_assoc]
      exact ensures_advance hs (yes rest hs)
  · exact no

end Ensures

section Quiet

variable {p : Parser α} {q : α → Parser β} {blocks : β → List String} {s : Progress} {t : Token}

theorem Tells.bind (hp : Quiet p) (hq : ∀ a, Tells (q a) blocks) : Tells (p >>= q) blocks :=
  fun s => (hp s).bind fun a s' h => (hq a s').mono fun _ _ h' => h.trans h'

theorem tells_pure {b : β} (h : blocks b = []) : Tells (pure b) blocks :=
  fun _ => ensures_pure (h ▸ .refl _)

theorem quiet_pure (a : α) : Quiet (pure a) := fun _ => ensures_pure (.refl _)

theorem tells_bad : Tells (bad : Parser β) blocks := fun _ => ensures_bad

theorem tells_bad_bind : Tells (bad >>= q) blocks := fun _ _ _ h => nomatch h

theorem quiet_remaining : Quiet remaining := fun s => ensures_get (ensures_pure (.refl s))

theorem quiet_peek : Quiet peek? :=
  fun _ => bind_pure peek? ▸ ensures_peek fun _ _ => ensures_pure (.refl _)

theorem tells_peek {q : Option Token → Parser β}
    (h : ∀ s o, Peeked s o → Ensures (q o) s fun b s' => s.Reads (blocks b) s') :
    Tells (peek? >>= q) blocks :=
  fun s => ensures_peek (h s)

theorem Peeked.advance (ho : Peeked s (some t)) (ht : t.isSolid = true) {q : Unit → Parser β}
    (hq : Tells (q ()) blocks) : Ensures (advance >>= q) s fun b s' => s.Reads (blocks b) s' := by
  cases ho with
  | token hs =>
    exact ensures_advance hs ((hq _).mono fun _ _ h => (Progress.reads_token hs ht).trans h)

theorem quiet_accept (ht : t.isSolid = true) : Quiet (accept t) := fun s =>
  bind_pure (accept t) ▸ ensures_accept
    (fun _ hs => ensures_pure (Progress.reads_token hs ht)) (ensures_pure (.refl s))

theorem quiet_expect (ht : t.isSolid = true) : Quiet (expect t) := by
  unfold expect
  refine (quiet_accept ht).bind fun b => ?_
  cases b
  · exact tells_bad
  · exact quiet_pure _

theorem quiet_name : Quiet name := fun _ =>
  bind_pure name ▸ ensures_name fun _ _ hs => ensures_pure (Progress.reads_token hs rfl)

theorem Quiet.map {p : Parser α} (hp : Quiet p) (f : α → β) : Quiet (f <$> p) := by
  rw [map_eq_pure_bind]
  exact hp.bind fun a => quiet_pure _

end Quiet

section Leading

variable {p : Parser α} {q : α → Parser β} {t : Token}

theorem Leading.quiet (hp : Leading p) : Quiet p := fun s => (hp s).mono fun _ _ h => h.reads

theorem Leading.bind (hp : Leading p) (hq : ∀ a, Quiet (q a)) : Leading (p >>= q) :=
  fun s => (hp s).bind fun a s' h => (hq a s').mono fun _ _ h' => h.trans h'

theorem leading_bad : Leading (bad : Parser β) := fun _ => ensures_bad

theorem leading_remaining {q : Nat → Parser β} (h : ∀ n, Leading (q n)) :
    Leading (remaining >>= q) :=
  fun s => h s.tokens.length s

theorem leading_accept (ht : t.isSolid = true) (hp : t ≠ .sign .percent) {q : Bool → Parser β}
    (yes : Quiet (q true)) (no : Leading (q false)) : Leading (accept t >>= q) := fun s =>
  ensures_accept (fun _ hs => (yes _).mono fun _ _ h => (Progress.leads_token hs ht hp).trans h)
    (no s)

end Leading

-- ---------------------------------------------------------------------------
-- Operators
-- ---------------------------------------------------------------------------

section Operators

variable {operand : Parser Expr}

theorem quiet_chain {operator : Token → Option Binary}
    (ho : ∀ t op, operator t = some op → t.isSolid = true) (h : Quiet operand) (n : Nat)
    (left : Expr) : Quiet (chain operator operand n left) := by
  induction n generalizing left with
  | zero => exact quiet_pure left
  | succ n ih =>
    unfold chain
    refine tells_peek fun s o hs => ?_
    split
    · rename_i op heq
      obtain ⟨t, rfl, ht⟩ := Option.bind_eq_some_iff.mp heq
      exact hs.advance (ho t op ht) (h.bind fun right => ih _)
    · exact ensures_pure (.refl s)

theorem leading_level {operator : Token → Option Binary}
    (ho : ∀ t op, operator t = some op → t.isSolid = true) (h : Leading operand) :
    Leading (level operator operand) := by
  unfold level
  exact leading_remaining fun n => h.bind fun left => quiet_chain ho h.quiet n left

theorem leading_arithmetic (h : Leading operand) : Leading (arithmetic operand) := by
  have power : ∀ t op, power? t = some op → t.isSolid = true := by
    intro t op ht
    unfold power? at ht
    split at ht <;> first | rfl | cases ht
  have product : ∀ t op, product? t = some op → t.isSolid = true := by
    intro t op ht
    unfold product? at ht
    split at ht <;> first | rfl | cases ht
  have concat : ∀ t op, concat? t = some op → t.isSolid = true := by
    intro t op ht
    unfold concat? at ht
    split at ht <;> first | rfl | cases ht
  have sum : ∀ t op, sum? t = some op → t.isSolid = true := by
    intro t op ht
    unfold sum? at ht
    split at ht <;> first | rfl | cases ht
  exact leading_level sum (leading_level concat (leading_level product (leading_level power h)))

theorem solid_of_comparison {t : Token} {c : Comparison} (h : comparison? t = some c) :
    t.isSolid = true := by
  unfold comparison? at h
  split at h <;> first | rfl | cases h

theorem quiet_comparisons (h : Quiet operand) (n : Nat) : Quiet (comparisons operand n) := by
  induction n with
  | zero => exact quiet_pure []
  | succ n ih =>
    have compared (c : Comparison) : Quiet do
        let e ← operand
        return (c, e) :: (← comparisons operand n) :=
      h.bind fun e => ih.bind fun rest => quiet_pure _
    unfold comparisons
    refine tells_peek fun s o hs => ?_
    split
    · exact ensures_pure (.refl s)
    · rename_i c heq
      obtain ⟨t, rfl, ht⟩ := Option.bind_eq_some_iff.mp heq
      refine hs.advance (solid_of_comparison ht) ?_
      dsimp only
      split
      · exact (quiet_expect rfl).bind fun _ => compared c
      · exact compared c

theorem leading_comparison (h : Leading operand) : Leading (comparison operand) := by
  unfold comparison
  exact h.bind fun first => quiet_remaining.bind fun n =>
    (quiet_comparisons h.quiet n).bind fun rest => quiet_pure _

theorem leading_negation (h : Leading operand) (n : Nat) : Leading (negation operand n) := by
  induction n with
  | zero => exact leading_comparison h
  | succ n ih =>
    unfold negation
    refine leading_accept rfl (by decide) ?_ ?_
    · exact ih.quiet.bind fun e => quiet_pure _
    · exact leading_comparison h

theorem quiet_conjunctions (h : Quiet operand) (n : Nat) (left : Expr) :
    Quiet (conjunctions operand n left) := by
  induction n generalizing left with
  | zero => exact quiet_pure left
  | succ n ih =>
    unfold conjunctions
    refine (quiet_accept rfl).bind fun b => ?_
    split
    · exact h.bind fun e => ih _
    · exact quiet_pure left

theorem leading_conjunction (h : Leading operand) : Leading (conjunction operand) := by
  have negated : Leading (do negation operand (← remaining)) :=
    leading_remaining (leading_negation h)
  unfold conjunction
  exact leading_remaining fun n => negated.bind fun left => quiet_conjunctions negated.quiet n left

theorem quiet_disjunctions (h : Quiet operand) (n : Nat) (left : Expr) :
    Quiet (disjunctions operand n left) := by
  induction n generalizing left with
  | zero => exact quiet_pure left
  | succ n ih =>
    unfold disjunctions
    refine (quiet_accept rfl).bind fun b => ?_
    split
    · exact h.bind fun e => ih _
    · exact quiet_pure left

theorem leading_disjunction (h : Leading operand) : Leading (disjunction operand) := by
  have operands := leading_conjunction h
  unfold disjunction
  exact leading_remaining fun n => operands.bind fun left =>
    quiet_disjunctions operands.quiet n left

theorem quiet_conditionals (h : Leading operand) (n : Nat) (yes : Expr) :
    Quiet (conditionals operand n yes) := by
  induction n generalizing yes with
  | zero => exact quiet_pure yes
  | succ n ih =>
    have operands := (leading_disjunction h).quiet
    unfold conditionals
    refine (quiet_accept rfl).bind fun b => ?_
    split
    · refine operands.bind fun condition => (quiet_accept rfl).bind fun b => ?_
      split
      · exact operands.bind fun e => (ih e).bind fun no => ih _
      · exact ih _
    · exact quiet_pure yes

theorem leading_conditional (h : Leading operand) : Leading (conditional operand) := by
  unfold conditional
  exact leading_remaining fun n => (leading_disjunction h).bind fun yes =>
    quiet_conditionals h n yes

end Operators

-- ---------------------------------------------------------------------------
-- Operands
-- ---------------------------------------------------------------------------

section Operands

variable {expr simple : Parser Expr}

theorem quiet_separated {close : Sign} (hc : (Token.sign close).isSolid = true)
    {element : Parser α} (h : Quiet element) (n : Nat) (first : Bool) :
    Quiet (separated close element n first) := by
  induction n generalizing first with
  | zero => exact tells_bad
  | succ n ih =>
    have one : Quiet do
        let a ← element
        return a :: (← separated close element n false) :=
      h.bind fun a => (ih false).bind fun rest => quiet_pure _
    unfold separated
    refine (quiet_accept hc).bind fun b => ?_
    split
    · exact quiet_pure []
    · dsimp only
      split
      · refine (quiet_expect rfl).bind fun _ => (quiet_accept hc).bind fun b => ?_
        split
        · exact quiet_pure []
        · exact one
      · exact one

/-- What stands in brackets begins with an expression, if it does not end at once. -/
theorem leading_separated {close : Sign} (hc : (Token.sign close).isSolid = true)
    (hp : close ≠ .percent) {element : Parser α} (h : Leading element) (n : Nat) :
    Leading (separated close element n true) := by
  cases n with
  | zero => exact leading_bad
  | succ n =>
    unfold separated
    refine leading_accept hc (by simpa using hp) (quiet_pure []) ?_
    exact h.bind fun a => (quiet_separated hc h.quiet n false).bind fun rest => quiet_pure _

theorem leading_entry (h : Leading expr) : Leading (entry expr) := by
  unfold entry
  exact h.bind fun key => (quiet_expect rfl).bind fun _ => h.quiet.bind fun v => quiet_pure _

theorem quiet_arguments (he : Quiet expr) (hs : Quiet simple) (n : Nat) (first named : Bool) :
    Quiet (arguments expr simple n first named) := by
  induction n generalizing first named with
  | zero => exact tells_bad
  | succ n ih =>
    have more (named : Bool) (arg : Option String × Expr) : Quiet do
        return arg :: (← arguments expr simple n false named) :=
      (ih false named).bind fun rest => quiet_pure _
    unfold arguments
    refine (quiet_accept rfl).bind fun b => ?_
    split
    · exact quiet_pure []
    -- `one` reads an argument and those behind it; it is due behind a comma, or at once.
    extract_lets one
    have hone : Quiet (one ()) := by
      refine he.bind fun e => ?_
      split
      · refine (quiet_accept rfl).bind fun b => ?_
        split
        · exact hs.bind fun v => more true _
        · split
          · exact tells_bad
          · exact more false _
      · dsimp only
        split
        · exact tells_bad_bind
        · exact more false _
    split
    · refine (quiet_expect rfl).bind fun _ => (quiet_accept rfl).bind fun b => ?_
      split
      · exact quiet_pure []
      · exact hone
    · exact hone

theorem quiet_subscript (h : Quiet expr) (e : Expr) : Quiet (subscript expr e) := by
  unfold subscript
  -- What is read behind the start of a slice, and where its start is still to be read.
  extract_lets isEnd started begun
  have hstarted (start : Option Expr) : Quiet (started start) := by
    refine (quiet_accept rfl).bind fun b => ?_
    split
    · refine quiet_peek.bind fun t => ?_
      extract_lets stopped
      have hstopped (stop : Option Expr) : Quiet (stopped stop) := by
        refine (quiet_accept rfl).bind fun b => ?_
        extract_lets stepped
        have hstepped (step : Option Expr) : Quiet (stepped step) :=
          (quiet_expect rfl).bind fun _ => quiet_pure _
        split
        · refine quiet_peek.bind fun t => ?_
          split
          · exact (quiet_pure none).bind hstepped
          · exact (h.map some).bind hstepped
        · exact (quiet_pure none).bind hstepped
      split
      · exact (quiet_pure none).bind hstopped
      · exact (h.map some).bind hstopped
    · refine (quiet_expect rfl).bind fun _ => ?_
      split
      · exact quiet_pure _
      · exact tells_bad
  have hbegun : Quiet (begun ()) := by
    refine quiet_peek.bind fun t => ?_
    split
    · exact (quiet_pure none).bind hstarted
    · exact (h.map some).bind hstarted
  refine quiet_peek.bind fun t => ?_
  split
  · exact tells_bad_bind
  · exact hbegun

theorem quiet_attributeOf (e : Expr) : Quiet (attributeOf e) := by
  intro s
  unfold attributeOf
  refine ensures_next fun t rest hs => ?_
  split
  · exact ensures_pure (Progress.reads_token hs rfl)
  · exact ensures_pure (Progress.reads_token hs rfl)
  · exact ensures_bad

theorem quiet_suffixes (he : Quiet expr) (hs : Quiet simple) (n : Nat) (e : Expr) :
    Quiet (suffixes expr simple n e) := by
  induction n generalizing e with
  | zero => exact quiet_pure e
  | succ n ih =>
    unfold suffixes
    refine tells_peek fun s o ho => ?_
    split
    · exact ho.advance rfl ((quiet_attributeOf e).bind fun e => ih e)
    · exact ho.advance rfl ((quiet_subscript he e).bind fun e => ih e)
    · exact ho.advance rfl (quiet_remaining.bind fun n =>
        (quiet_arguments he hs n true false).bind fun args => ih _)
    · exact ensures_pure (.refl s)

theorem quiet_optionalArguments (he : Quiet expr) (hs : Quiet simple) :
    Quiet (optionalArguments expr simple) := by
  unfold optionalArguments
  refine (quiet_accept rfl).bind fun b => ?_
  split
  · exact quiet_remaining.bind fun n => quiet_arguments he hs n true false
  · exact quiet_pure []

theorem quiet_refinements {bare : Parser Expr} (he : Quiet expr) (hs : Quiet simple)
    (hb : Quiet bare) (n : Nat) (e : Expr) : Quiet (refinements expr simple bare n e) := by
  induction n generalizing e with
  | zero => exact quiet_pure e
  | succ n ih =>
    unfold refinements
    refine tells_peek fun s o ho => ?_
    split
    · exact ho.advance rfl (quiet_name.bind fun f =>
        (quiet_optionalArguments he hs).bind fun args => ih _)
    · refine ho.advance rfl ((quiet_accept rfl).bind fun negated => quiet_name.bind fun t =>
        quiet_peek.bind fun next => ?_)
      dsimp only
      split
      · exact hb.bind fun arg => (quiet_pure _).bind fun args => ih _
      · exact (quiet_optionalArguments he hs).bind fun args => ih _
    · exact ensures_pure (.refl s)

theorem quiet_tuple (h : Quiet expr) (first : Expr) : Quiet (tuple expr first) := by
  unfold tuple
  exact quiet_remaining.bind fun n => (quiet_separated rfl h n false).bind fun rest => quiet_pure _

theorem quiet_quotedTexts (n : Nat) (text : String) : Quiet (quotedTexts n text) := by
  induction n generalizing text with
  | zero => exact quiet_pure text
  | succ n ih =>
    unfold quotedTexts
    refine tells_peek fun s o ho => ?_
    split
    · exact ho.advance rfl (ih _)
    · exact ensures_pure (.refl s)

theorem Leading.of_next {q : Token → Parser β} (h : ∀ (s : Progress) t rest, s.tokens = t :: rest →
    Ensures (q t) { s with tokens := rest } fun _ s' => s.Leads s') : Leading (next >>= q) :=
  fun s => ensures_next fun t rest hs => h s t rest hs

theorem leading_primary (h : Leading expr) : Leading (primary expr) := by
  have begun {s : Progress} {t : Token} {rest : List Token} (hs : s.tokens = t :: rest)
      (ht : t.isSolid = true) (hp : t ≠ .sign .percent) {q : Parser Expr} (hq : Quiet q) :
      Ensures q { s with tokens := rest } fun _ s' => s.Leads s' :=
    (hq _).mono fun _ _ h => (Progress.leads_token hs ht hp).trans h
  unfold primary
  refine Leading.of_next fun s t rest hs => ?_
  split
  case h_11 =>
    refine begun hs rfl (by simp) ((quiet_accept rfl).bind fun b => ?_)
    split
    · exact quiet_pure _
    · refine h.quiet.bind fun e => quiet_peek.bind fun t => ?_
      split
      · exact quiet_tuple h.quiet e
      · exact (quiet_expect rfl).bind fun _ => quiet_pure e
  case h_12 =>
    exact begun hs rfl (by simp) (quiet_remaining.bind fun n =>
      (quiet_separated rfl h.quiet n true).bind fun items => quiet_pure _)
  case h_13 =>
    -- a brace: what follows it is an entry or the end
    have entries : Leading (do
        return Expr.map (← separated .closeBrace (entry expr) (← remaining) true)) :=
      leading_remaining fun n =>
        (leading_separated rfl (by simp) (leading_entry h) n).bind fun items => quiet_pure _
    exact (entries _).mono fun _ _ led => led.behind hs (.inl rfl)
  case h_14 => exact ensures_bad
  case h_8 =>
    exact begun hs rfl (by simp) (quiet_remaining.bind fun n =>
      (quiet_quotedTexts n _).bind fun text => quiet_pure _)
  all_goals exact begun hs rfl (by simp) (quiet_pure _)

theorem leading_negative {value : Parser Expr} (h : Leading value) (n : Nat) :
    Leading (negative value n) := by
  induction n with
  | zero => exact leading_bad
  | succ n ih =>
    unfold negative
    refine leading_accept rfl (by simp) ?_ ?_
    · exact ih.quiet.bind fun e => quiet_pure _
    · exact h

theorem leading_operand {self outer inner : Parser Expr} (hs : Leading self) (ho : Leading outer)
    (hi : Leading inner) : Leading (operand self outer inner) := by
  have simple : Quiet (disjunction (arithmetic self)) :=
    (leading_disjunction (leading_arithmetic hs)).quiet
  have whole : Quiet (conditional (arithmetic outer)) :=
    (leading_conditional (leading_arithmetic ho)).quiet
  have value : Leading (primary (conditional (arithmetic inner))) :=
    leading_primary (leading_conditional (leading_arithmetic hi))
  have bare : Leading (do
      suffixes (conditional (arithmetic outer)) (disjunction (arithmetic self)) (← remaining)
        (← negative (primary (conditional (arithmetic inner))) ((← remaining) + 1))) :=
    leading_remaining fun n => leading_remaining fun m =>
      (leading_negative value (m + 1)).bind fun e => quiet_suffixes whole simple n e
  unfold operand
  exact bare.bind fun e => quiet_remaining.bind fun n =>
    quiet_refinements whole simple bare.quiet n e

theorem leading_operandAt (n depth : Nat) : Leading (operandAt n depth) := by
  induction n generalizing depth with
  | zero => exact leading_bad
  | succ n ih =>
    cases depth with
    | zero => exact leading_bad
    | succ depth =>
      intro s
      exact leading_operand (ih (depth + 1)) (ih depth) (ih (depth - 1)) s

end Operands

-- ---------------------------------------------------------------------------
-- Parts of statements
-- ---------------------------------------------------------------------------

section Parts

theorem leading_simpleExpr (depth : Nat) : Leading (simpleExpr depth) := by
  unfold simpleExpr
  exact leading_remaining fun n =>
    leading_disjunction (leading_arithmetic (leading_operandAt (n + 1) depth))

theorem leading_expr (depth : Nat) : Leading (expr depth) := by
  unfold expr
  exact leading_remaining fun n =>
    leading_conditional (leading_arithmetic (leading_operandAt (n + 1) (depth - 1)))

theorem quiet_expr (depth : Nat) : Quiet (expr depth) := (leading_expr depth).quiet

theorem quiet_simpleExpr (depth : Nat) : Quiet (simpleExpr depth) :=
  (leading_simpleExpr depth).quiet

theorem quiet_exprs (depth n : Nat) : Quiet (exprs depth n) := by
  induction n with
  | zero => exact tells_bad
  | succ n ih =>
    unfold exprs
    refine (quiet_accept rfl).bind fun b => ?_
    split
    · exact quiet_pure []
    · refine quiet_peek.bind fun t => ?_
      split
      · exact quiet_pure []
      · exact (quiet_expr depth).bind fun e => ih.bind fun rest => quiet_pure _

theorem quiet_exprOrList (depth : Nat) : Quiet (exprOrList depth) := by
  unfold exprOrList
  refine (quiet_expr depth).bind fun first => quiet_peek.bind fun t => ?_
  split
  · exact quiet_remaining.bind fun n => (quiet_exprs depth n).bind fun rest => quiet_pure _
  · exact quiet_pure first

theorem quiet_assignedName : Quiet assignedName := by
  unfold assignedName
  refine quiet_name.bind fun s => ?_
  split
  · exact tells_bad
  · exact quiet_pure s

theorem quiet_attributePath (n : Nat) : Quiet (attributePath n) := by
  induction n with
  | zero => exact quiet_pure []
  | succ n ih =>
    unfold attributePath
    refine (quiet_accept rfl).bind fun b => ?_
    split
    · exact quiet_name.bind fun s => ih.bind fun rest => quiet_pure _
    · exact quiet_pure []

theorem quiet_assignedPlace (attributes : Bool) : Quiet (assignedPlace attributes) := by
  unfold assignedPlace
  refine quiet_assignedName.bind fun root => ?_
  extract_lets placed
  have hplaced (path : List String) : Quiet (placed path) := by
    dsimp only [placed]
    split <;> exact quiet_pure _
  split
  · exact quiet_remaining.bind fun n => (quiet_attributePath n).bind hplaced
  · exact (quiet_pure []).bind hplaced

/-- All three ways of reading targets, for as many levels as are left. -/
theorem quiet_targets (n : Nat) :
    Quiet (target n) ∧ Quiet (targetItems n) ∧ ∀ attributes, Quiet (targetItem n attributes) := by
  induction n with
  | zero => exact ⟨tells_bad, tells_bad, fun _ => tells_bad⟩
  | succ n ih =>
    obtain ⟨whole, items, item⟩ := ih
    refine ⟨?_, ?_, fun attributes => ?_⟩
    · unfold target
      refine items.bind fun x => ?_
      dsimp only
      split <;> exact quiet_pure _
    · unfold targetItems
      refine quiet_peek.bind fun t => ?_
      split
      · exact quiet_pure _
      · refine (item false).bind fun t => (quiet_accept rfl).bind fun b => ?_
        split
        · exact items.bind fun x => quiet_pure _
        · exact quiet_pure _
    · unfold targetItem
      refine (quiet_accept rfl).bind fun b => ?_
      split
      · exact whole.bind fun t => (quiet_expect rfl).bind fun _ => quiet_pure t
      · exact quiet_assignedPlace attributes

theorem quiet_simpleTarget : Quiet simpleTarget := by
  unfold simpleTarget
  exact quiet_remaining.bind fun n => (quiet_targets (2 * n + 2)).2.2 false

theorem quiet_setTarget : Quiet setTarget := by
  unfold setTarget
  refine quiet_peek.bind fun t => quiet_remaining.bind fun n =>
    ((quiet_targets (2 * n + 2)).2.2 true).bind fun first => (quiet_accept rfl).bind fun b => ?_
  split
  · exact ((quiet_targets (2 * n + 2)).2.1).bind fun x => quiet_pure _
  · exact quiet_pure _

theorem quiet_filterChain (depth n : Nat) : Quiet (filterChain depth n) := by
  induction n with
  | zero => exact tells_bad
  | succ n ih =>
    unfold filterChain
    refine quiet_name.bind fun f => (quiet_optionalArguments (quiet_expr depth)
      (quiet_simpleExpr depth)).bind fun args => (quiet_accept rfl).bind fun b => ?_
    split
    · exact ih.bind fun rest => quiet_pure _
    · exact quiet_pure _

theorem quiet_assignments (depth n : Nat) (first : Bool) : Quiet (assignments depth n first) := by
  induction n generalizing first with
  | zero => exact tells_bad
  | succ n ih =>
    have one : Quiet do
        let t ← simpleTarget
        expect (.sign .assign)
        let e ← Parser.expr depth
        return (t, e) :: (← assignments depth n false) :=
      quiet_simpleTarget.bind fun t => (quiet_expect rfl).bind fun _ =>
        (quiet_expr depth).bind fun e => (ih false).bind fun rest => quiet_pure _
    unfold assignments
    refine quiet_peek.bind fun t => ?_
    split
    · exact quiet_pure []
    · dsimp only
      split
      · exact (quiet_expect rfl).bind fun _ => one
      · exact one

theorem quiet_contextRemark : Quiet contextRemark := by
  unfold contextRemark
  refine (quiet_accept rfl).bind fun b => ?_
  split
  · exact quiet_expect rfl
  · refine (quiet_accept rfl).bind fun b => ?_
    split
    · exact quiet_expect rfl
    · exact quiet_pure _

end Parts

-- ---------------------------------------------------------------------------
-- Statements
-- ---------------------------------------------------------------------------

section Statements

variable {depth : Nat} {one : Parser Statement} {words : List String}

def Opening (p : Parser Statement) : Prop :=
  ∀ s, Ensures p s fun st s' => s.Opens (st.blocks.map Prod.fst) s'

/-- What was read up to a tag that opens with one of the words, or to the end if there is no such
tag. It takes no more steps than there are tokens. -/
structure Closes (words : List String) (n : Nat) (s : Progress)
    (r : List Statement × Option String) (s' : Progress) : Prop where
  read : s.Reads ((allBlocks r.1).map Prod.fst) s'
  known : ∀ word, r.2 = some word → word ∈ words
  ended : r.2 = none → s.tokens.length ≤ n → s'.tokens = []

theorem ensures_statements (hone : Opening one) (hw : "block" ∉ words) (n : Nat) (s : Progress) :
    Ensures (statements depth one words n) s (Closes words n s) := by
  induction n generalizing s with
  | zero => exact ensures_pure ⟨.refl s, nofun, fun _ h => List.eq_nil_of_length_eq_zero (by omega)⟩
  | succ n ih =>
    have more (st : Statement) {s₁ : Progress} (read : s.Reads (st.blocks.map Prod.fst) s₁)
        (shorter : s₁.tokens.length < s.tokens.length) :
        Ensures (statements depth one words n >>= fun r => pure (st :: r.1, r.2)) s₁
          (Closes words (n + 1) s) := by
      refine (ih s₁).bind fun r s' h => ensures_pure ⟨?_, h.known, fun hr hn =>
        h.ended hr (by omega)⟩
      rw [allBlocks, List.map_append]
      exact read.trans h.read
    unfold statements
    refine ensures_peek fun o ho => ?_
    split
    · cases ho with
      | nothing hs => exact ensures_pure ⟨.refl s, nofun, fun _ _ => hs⟩
    · cases ho with
      | token hs =>
        refine ensures_advance hs (more _ (Progress.reads_token hs rfl) ?_)
        simp [hs]
    · cases ho with
      | token hs =>
        refine ensures_advance hs (((leading_expr depth) _).bind fun e s₁ led => ?_)
        refine ((quiet_expect rfl) s₁).bind fun _ s₂ closed => more (.emit e) ?_ ?_
        · exact (led.behind hs (.inr rfl)).reads.quiet closed
        · have shorter := led.reads.length_le
          have shorter' := closed.length_le
          simp only [hs, List.length_cons] at shorter ⊢
          omega
    · cases ho with
      | token hs =>
        refine ensures_advance hs (ensures_peek fun o ho => ?_)
        split
        · exact ensures_bad
        · rename_i t
          extract_lets found
          have known (word : String) (h : found = some word) : t = .name word ∧ word ∈ words := by
            dsimp only [found] at h
            split at h
            · obtain ⟨hword, he⟩ := Option.ite_none_right_eq_some.mp h
              cases he
              exact ⟨rfl, by simpa using hword⟩
            · cases h
          split
          · obtain ⟨word, hfound⟩ := Option.isSome_iff_exists.mp ‹found.isSome = true›
            obtain ⟨rfl, hword⟩ := known word hfound
            cases ho with
            | token hs' =>
              refine ensures_advance hs' (ensures_pure ⟨⟨⟨[.openBlock, .name word], ?_, ?_⟩, rfl,
                id⟩, fun word h => (known word h).2, fun h => ?_⟩)
              · exact hs.trans (congrArg (Token.openBlock :: ·) hs')
              · exact .tag (fun he => hw (he ▸ hword)) .nil
              · exact nomatch hfound.symm.trans h
          · refine (hone _).bind fun st s₁ opened =>
              ((quiet_expect rfl) s₁).bind fun _ s₂ closed => ?_
            obtain ⟨read, shorter⟩ := opened.reads hs
            exact more st (read.quiet closed) (Nat.lt_of_le_of_lt closed.length_le shorter)
    · exact ensures_bad

theorem tells_statements (hone : Opening one) (hw : "block" ∉ words) (n : Nat) :
    Tells (statements depth one words n) fun r => (allBlocks r.1).map Prod.fst :=
  fun s => (ensures_statements hone hw n s).mono fun _ _ h => h.read

theorem tells_body (hone : Opening one) {word : String} (hw : word ≠ "block") :
    Tells (body depth one word) fun ss => (allBlocks ss).map Prod.fst := by
  have words : "block" ∉ [word] := by simpa using hw.symm
  unfold body
  exact quiet_remaining.bind fun n s =>
    ((tells_statements hone words n) s).bind fun r s' h => ensures_pure h

theorem tells_branches (hone : Opening one) (n : Nat) :
    Tells (branches depth one n) fun st => st.blocks.map Prod.fst := by
  induction n with
  | zero => exact tells_bad
  | succ n ih =>
    unfold branches
    refine (quiet_simpleExpr depth).bind fun condition => (quiet_expect rfl).bind fun _ =>
      quiet_remaining.bind fun m s => ?_
    refine ((tells_statements hone (by decide) m) s).bind fun ⟨yes, word⟩ s₁ read => ?_
    dsimp only
    split
    · refine ((quiet_expect rfl) s₁).bind fun _ s₂ closed =>
        ((tells_body hone (by decide)) s₂).bind fun no s₃ rest => ensures_pure ?_
      rw [Statement.blocks, List.map_append]
      exact (read.quiet closed).trans rest
    · refine (ih s₁).bind fun no s₂ rest => ensures_pure ?_
      rw [Statement.blocks, List.map_append, allBlocks, allBlocks, List.append_nil]
      exact read.trans rest
    · refine ensures_pure ?_
      rw [Statement.blocks, allBlocks, List.append_nil]
      exact read

theorem tells_loop (hone : Opening one) :
    Tells (loop depth one) fun st => st.blocks.map Prod.fst := by
  unfold loop
  refine quiet_remaining.bind fun n => (quiet_targets (2 * n + 2)).1.bind fun t =>
    (quiet_expect rfl).bind fun _ => (quiet_simpleExpr depth).bind fun items =>
    (quiet_accept rfl).bind fun b => ?_
  extract_lets looped
  have hlooped (condition : Option Expr) :
      Tells (looped condition) fun st => st.blocks.map Prod.fst := by
    refine (quiet_expect rfl).bind fun _ => quiet_remaining.bind fun n s => ?_
    refine ((tells_statements hone (by decide) n) s).bind fun r s₁ read => ?_
    obtain ⟨ss, word⟩ := r
    dsimp only
    split
    · refine ((quiet_expect rfl) s₁).bind fun _ s₂ closed =>
        ((tells_body hone (by decide)) s₂).bind fun otherwise s₃ rest => ensures_pure ?_
      rw [Statement.blocks, List.map_append]
      exact (read.quiet closed).trans rest
    · refine ensures_pure ?_
      rw [Statement.blocks, allBlocks, List.append_nil]
      exact read
  split
  · exact ((quiet_expr depth).map some).bind hlooped
  · exact (quiet_pure none).bind hlooped

theorem tells_assignment (hone : Opening one) :
    Tells (assignment depth one) fun st => st.blocks.map Prod.fst := by
  have captured (t : Target) (filters : List FilterCall) : Tells (do
      expect .closeBlock
      return Statement.capture t filters (← body depth one "endset"))
      fun st => st.blocks.map Prod.fst :=
    (quiet_expect rfl).bind fun _ s =>
      ((tells_body hone (by decide)) s).bind fun ss s' h => ensures_pure h
  unfold assignment
  refine quiet_setTarget.bind fun ⟨t, parenthesized⟩ => quiet_peek.bind fun after => ?_
  dsimp only
  split
  · refine (quiet_accept rfl).bind fun b => ?_
    split
    · exact quiet_remaining.bind fun n => (quiet_filterChain depth (n + 1)).bind fun filters =>
        captured t filters
    · exact (quiet_pure []).bind fun filters => captured t filters
  · exact (quiet_expect rfl).bind fun _ => (quiet_exprOrList depth).bind fun e => tells_pure rfl

theorem tells_inclusion : Tells (inclusion depth) fun st => st.blocks.map Prod.fst := by
  unfold inclusion
  refine (quiet_expr depth).bind fun e => quiet_contextRemark.bind fun _ =>
    (quiet_accept rfl).bind fun b => ?_
  split
  · exact (quiet_expect rfl).bind fun _ => quiet_contextRemark.bind fun _ => tells_pure rfl
  · exact tells_pure rfl

/-- A block has its name to itself. The name may stand at the end of the block again. -/
theorem ensures_block (hone : Opening one) {s : Progress} {rest : List Token}
    (hs : s.tokens = .name "block" :: rest) :
    Ensures (block depth one) { s with tokens := rest } fun st s' =>
      s.Opens (st.blocks.map Prod.fst) s' := by
  unfold block
  refine ensures_name fun name rest' hs' => ensures_get ?_
  dsimp only
  split
  · exact fun _ _ h => nomatch h
  · rename_i free
    refine ensures_modify (((quiet_expect rfl) _).bind fun _ s₁ closed =>
      ((tells_body hone (by decide)) s₁).bind fun ss s₂ inside => ?_)
    have ended {s₃ : Progress} (read : s₂.Reads [] s₃) :
        Ensures (pure (Statement.block name ss)) s₃ fun st s' =>
          s.Opens (st.blocks.map Prod.fst) s' := by
      refine ensures_pure ?_
      rw [Statement.blocks, List.map_cons]
      refine Progress.Reads.opens_block (hs.trans (congrArg (Token.name "block" :: ·) hs')) ?_
        ((closed.trans inside).quiet read)
      simpa using free
    refine ensures_peek fun o ho => ?_
    split
    · split
      · exact fun _ _ h => nomatch h
      · cases ho with
        | token hs₂ => exact ensures_advance hs₂ (ended (Progress.reads_token hs₂ rfl))
    · exact ended (.refl s₂)

/-- A statement may open a block by the word at its front. All other words lead to statements that
read on as usual. -/
theorem opening_statement (n : Nat) : Opening (statement n) := by
  induction n with
  | zero => exact fun _ => ensures_bad
  | succ n hone =>
    intro s
    unfold statement
    refine ensures_name fun word rest hs => ?_
    have read {p : Parser Statement} (hw : word ≠ "block")
        (hp : Tells p fun st => st.blocks.map Prod.fst) :
        Ensures p { s with tokens := rest } fun st s' => s.Opens (st.blocks.map Prod.fst) s' :=
      (hp _).mono fun _ _ h => h.opens hs hw
    split
    · exact read (by decide) (quiet_remaining.bind fun m => tells_branches hone m)
    · exact read (by decide) (tells_loop hone)
    · exact read (by decide) (tells_assignment hone)
    · exact read (by decide) (quiet_remaining.bind fun m =>
        (quiet_assignments n (m + 1) true).bind fun pairs => (quiet_expect rfl).bind fun _ s =>
          ((tells_body hone (by decide)) s).bind fun ss s' h => ensures_pure h)
    · exact read (by decide) (quiet_remaining.bind fun m =>
        (quiet_filterChain n (m + 1)).bind fun filters => (quiet_expect rfl).bind fun _ s =>
          ((tells_body hone (by decide)) s).bind fun ss s' h => ensures_pure h)
    · exact read (by decide) ((quiet_expr n).bind fun mode => (quiet_expect rfl).bind fun _ s =>
        ((tells_body hone (by decide)) s).bind fun ss s' h => ensures_pure h)
    · exact ensures_block hone hs
    · exact read (by decide) ((quiet_expr n).bind fun e => tells_pure rfl)
    · exact read (by decide) tells_inclusion
    · refine read (by decide) ((quiet_expr n).bind fun e => ?_)
      split
      · exact tells_pure rfl
      · exact tells_bad
    · exact ensures_bad

end Statements

/-- All tokens of a source that can be read are used up. They show its blocks, each under a name of
its own. -/
theorem marks_of_read {settings : Settings} {source : String} {t : Syntax}
    (h : Syntax.read settings source = .ok t) :
    marks (ofSource settings source) = (t.blocks.map Prod.fst).map .block ∧
      (t.blocks.map Prod.fst).Nodup := by
  let s : Progress := { tokens := ofSource settings source }
  have read : Ensures template s fun body s' =>
      s.Reads ((allBlocks body).map Prod.fst) s' ∧ s'.tokens = [] := by
    unfold template
    refine ensures_remaining ((ensures_statements (opening_statement _) List.not_mem_nil _ s).bind
      fun r s' h => ensures_pure ⟨h.read, h.ended ?_ (Nat.le_succ _)⟩)
    cases hr : r.2 with
    | none => rfl
    | some word => cases h.known word hr
  unfold Syntax.read at h
  cases ended : template.run s with
  | error f =>
    rw [ended] at h
    cases h
  | ok x =>
    rw [ended] at h
    cases h
    obtain ⟨⟨⟨used, hu, shown⟩, names, nodup⟩, done⟩ := read x.1 x.2 ended
    have all : ofSource settings source = used ++ [] := done ▸ hu
    refine ⟨?_, ?_⟩
    · rw [all, shown]
      exact List.append_nil _
    · have distinct := nodup .nil
      rw [names, List.append_nil, List.nodup_reverse] at distinct
      exact distinct

end Parser
end Stencil.Markup
