import Stencil.Markup.Render
import Stencil.Proofs.Markup.Careful

/-!
# All of a render is careful

Every part of a render is careful, from expressions to whole templates, as long as the sources
mention no hidden name other than to call it. Bodies come from the template, from its blocks and
from the sources that it extends and includes, and all of these are spared.
-/

namespace Stencil.Markup.Engine

variable {hidden : String → Prop}

def CarefulBodies (hidden : String → Prop) (again : List Statement → Engine String) : Prop :=
  ∀ body, Spared hidden (mentionsBody body) → Careful hidden (fun _ => True) (again body)

-- ---------------------------------------------------------------------------
-- Blocks
-- ---------------------------------------------------------------------------

section

variable {again : List Statement → Engine String}

theorem careful_inScope (ha : CarefulBodies hidden again) {body : List Statement}
    (hb : Spared hidden (mentionsBody body)) :
    Careful hidden (fun _ => True) (inScope again body) := by
  unfold inScope
  exact (careful_push Frame.free_new).bind fun _ _ => (ha body hb).bind fun _ _ =>
    careful_pop.bind fun _ _ => careful_plain _

theorem careful_renderBlock (ha : CarefulBodies hidden again) (name : String) :
    Careful hidden (fun _ => True) (renderBlock again name) := by
  unfold renderBlock
  refine careful_get.bind fun m hm => ?_
  split
  · exact careful_fail _
  · rename_i b hb
    refine (careful_set (m := { m with current := some name })
      ⟨hm.frames, hm.blocks, hm.parent⟩).bind fun _ _ => ?_
    refine (careful_inScope ha (hm.body hb b.level)).bind fun _ _ => ?_
    exact careful_restore _ fun _ h => ⟨h.frames, h.blocks, h.parent⟩

theorem careful_blockInPlace (ha : CarefulBodies hidden again) (name : String) :
    Careful hidden (fun _ => True) (blockInPlace again name) := by
  unfold blockInPlace
  refine careful_get.bind fun m hm => ?_
  split
  · exact careful_plain _
  · exact careful_renderBlock ha name

theorem careful_renderSuper (ha : CarefulBodies hidden again) :
    Careful hidden (fun _ => True) (renderSuper again) := by
  unfold renderSuper
  refine careful_get.bind fun m hm => ?_
  split
  · exact careful_fail _
  · rename_i name _
    split
    · exact careful_fail _
    · rename_i b hb
      have hs := hm.blocks.of_get? hb
      simp only
      split
      · exact careful_failing _ _
      · have hu := hm.blocks.insert (b := { b with level := b.level + 1 }) hs name
        refine (careful_set (m := { m with blocks := m.blocks.insert name _ })
          ⟨hm.frames, hu, hm.parent⟩).bind fun _ _ => ?_
        refine (careful_push Frame.free_new).bind fun _ _ => ?_
        refine ((ha _ (hm.body hb _)).tryCatch _).bind fun _ _ => careful_pop.bind fun _ _ => ?_
        exact careful_restore _ fun _ h => ⟨h.frames, h.blocks.insert hs name, h.parent⟩

theorem careful_capturing {c : Engine String} (hc : Careful hidden (fun _ => True) c) :
    Careful hidden (Datum.Free hidden) (capturing c) := by
  unfold capturing
  refine careful_get.bind fun m hm => ?_
  refine (careful_modify ?_).bind fun _ _ => hc.bind fun _ _ => (careful_modify ?_).bind fun _ _ =>
    careful_rules.bind fun _ _ => careful_pure (.string _ _)
  · exact fun _ h => ⟨h.frames, h.blocks, h.parent⟩
  · exact fun _ h => ⟨h.frames, h.blocks, h.parent⟩

-- ---------------------------------------------------------------------------
-- Expressions
-- ---------------------------------------------------------------------------

theorem free_literal (l : Literal) : (literal l).Free hidden := by
  cases l with
  | none => exact .none
  | bool b => exact .bool b
  | int i => exact .int i
  | float digits power => exact .float _
  | string s => exact Datum.free_text s

theorem careful_found {name : String} (hn : ¬ hidden name) :
    Careful hidden (Datum.Free hidden)
      (do return (← lookup name).getD .missing : Engine Datum) := by
  refine (careful_lookup hn).bind fun found hf => careful_pure ?_
  cases found with
  | none => exact Datum.free_missing
  | some d => exact hf d rfl

def FreeParts (hidden : String → Prop) (parts : List Datum × List (Datum × Datum)) : Prop :=
  (∀ d ∈ parts.1, d.Free hidden) ∧ ∀ e ∈ parts.2, e.1.Free hidden ∧ e.2.Free hidden

theorem free_arguments {parts : List Datum × List (Datum × Datum)}
    (h : FreeParts hidden parts) : ∀ d ∈ arguments parts, d.Free hidden := by
  obtain ⟨plain, named⟩ := parts
  simp only [arguments]
  split
  · exact h.1
  · exact List.forall_mem_append.mpr ⟨h.1, by simpa using Datum.free_ofEntries h.2⟩

section

variable {args : List (Option String × Expr)}

theorem careful_callVar (hr : ¬ hidden "range") (ha : CarefulBodies hidden again) (name : String)
    (hargs : Careful hidden (FreeParts hidden) (evalParts again args)) :
    Careful hidden (Datum.Free hidden) (eval again (.call (.var name) args)) := by
  unfold eval
  split
  · refine hargs.bind fun ds _ => ?_
    simp only
    split
    · exact careful_failing _ _
    · exact careful_capturing (careful_renderSuper ha)
  · exact hargs.bind fun _ _ => careful_get.bind fun _ _ => careful_fail _
  · exact hargs.bind fun parts _ => careful_callName hr _ (arguments parts)
  · contradiction
  · contradiction
  · rename_i h _ _
    exact (h _ rfl).elim

theorem careful_callMethod (ha : CarefulBodies hidden again) {e : Expr} (name : String)
    (he : Careful hidden (Datum.Free hidden) (eval again e))
    (hargs : Careful hidden (FreeParts hidden) (evalParts again args)) :
    Careful hidden (Datum.Free hidden) (eval again (.call (.attr e name) args)) := by
  unfold eval
  split
  · contradiction
  · contradiction
  · contradiction
  · exact careful_capturing (careful_blockInPlace ha _)
  · rename_i heq
    cases heq
    refine he.bind fun d hd => hargs.bind fun ds _ => ?_
    split
    · rename_i f hf
      exact careful_callDatum (Operator.free_attribute? hd hf) _
    · exact careful_fail _
  · rename_i h
    exact (h _ _ rfl).elim

end

mutual

theorem careful_eval (hr : ¬ hidden "range") (ha : CarefulBodies hidden again) :
    ∀ e : Expr, Spared hidden e.mentions → Careful hidden (Datum.Free hidden) (eval again e)
  | .lit l, _ => by
    rw [eval]
    exact careful_pure (free_literal l)
  | .var name, h => by
    rw [eval]
    exact careful_found (h name (List.mem_singleton_self _))
  | .list items, h => by
    rw [eval]
    exact (careful_evalAll hr ha items h).bind fun _ hd => careful_pure (.list hd)
  | .map entries, h => by
    rw [eval]
    exact (careful_evalEntries hr ha entries h).bind fun _ hd =>
      careful_pure (Datum.free_ofEntries hd)
  | .attr e name, h => by
    rw [eval]
    exact (careful_eval hr ha e h).bind fun _ hd => careful_attribute hd name
  | .item e key, h => by
    obtain ⟨he, hk⟩ := spared_append.mp h
    rw [eval]
    exact (careful_eval hr ha e he).bind fun _ hd => (careful_eval hr ha key hk).bind fun _ _ =>
      careful_part fun _ => Operator.free_item? hd
  | .slice e start stop step, h => by
    obtain ⟨h, h₃⟩ := spared_append.mp h
    obtain ⟨h, h₂⟩ := spared_append.mp h
    obtain ⟨he, h₁⟩ := spared_append.mp h
    rw [eval]
    refine (careful_eval hr ha e he).bind fun d hd => ?_
    refine (careful_evalOption hr ha start h₁).bind fun _ _ => ?_
    refine (careful_evalOption hr ha stop h₂).bind fun _ _ => ?_
    refine (careful_evalOption hr ha step h₃).bind fun _ _ => careful_rules.bind fun r _ => ?_
    split
    · exact careful_failing _ _
    · exact careful_lift fun _ => Operator.free_slice hd
  | .unary .not e, h => by
    rw [eval]
    exact careful_rules.bind fun r _ => (careful_eval hr ha e h).bind fun _ _ =>
      (careful_got _).bind fun _ _ => careful_pure (.bool _)
  | .unary .negate e, h => by
    rw [eval]
    exact (careful_eval hr ha e h).bind fun _ _ => careful_lift fun _ => Operator.free_negate
  | .binary op left right, h => by
    obtain ⟨hl, hr'⟩ := spared_append.mp h
    rw [eval]
    exact (careful_eval hr ha left hl).bind fun _ hd => (careful_eval hr ha right hr').bind
      fun _ hd' => careful_lift fun _ => Operator.free_binary hd hd'
  | .compare first rest, h => by
    obtain ⟨hf, hr'⟩ := spared_append.mp h
    rw [eval]
    exact (careful_eval hr ha first hf).bind fun d _ => careful_evalChain hr ha d rest hr'
  | .and left right, h => by
    obtain ⟨hl, hr'⟩ := spared_append.mp h
    rw [eval]
    refine (careful_eval hr ha left hl).bind fun d hd => careful_rules.bind fun _ _ =>
      (careful_got _).bind fun b _ => ?_
    split
    · exact careful_eval hr ha right hr'
    · exact careful_pure hd
  | .or left right, h => by
    obtain ⟨hl, hr'⟩ := spared_append.mp h
    rw [eval]
    refine (careful_eval hr ha left hl).bind fun d hd => careful_rules.bind fun _ _ =>
      (careful_got _).bind fun b _ => ?_
    split
    · exact careful_pure hd
    · exact careful_eval hr ha right hr'
  | .choose condition yes no, h => by
    obtain ⟨h, hn⟩ := spared_append.mp h
    obtain ⟨hc, hy⟩ := spared_append.mp h
    unfold eval
    refine careful_rules.bind fun _ _ => (careful_eval hr ha condition hc).bind fun _ _ =>
      (careful_got _).bind fun b _ => ?_
    split
    · exact careful_eval hr ha yes hy
    · cases no with
      | none => exact careful_pure (.undefined _)
      | some e => exact careful_eval hr ha e hn
  | .filter name e args, h => by
    obtain ⟨he, hargs⟩ := spared_append.mp h
    rw [eval]
    exact (careful_eval hr ha e he).bind fun _ hd => (careful_evalParts hr ha args hargs).bind
      fun _ hp => careful_rules.bind fun _ _ => careful_lift fun _ =>
        Filter.free_apply hd (free_arguments hp)
  | .test name e args, h => by
    obtain ⟨he, hargs⟩ := spared_append.mp h
    rw [eval]
    exact (careful_eval hr ha e he).bind fun _ _ => (careful_evalParts hr ha args hargs).bind
      fun _ _ => (careful_got _).bind fun _ _ => careful_pure (.bool _)
  | .call f args, h => by
    have hf := careful_eval hr ha f
    cases f with
    | var name => exact careful_callVar hr ha name (careful_evalParts hr ha args h)
    | attr e name =>
      obtain ⟨he, hargs⟩ := spared_append.mp h
      exact careful_callMethod ha name (careful_eval hr ha e he)
        (careful_evalParts hr ha args hargs)
    | _ =>
      obtain ⟨hf', hargs⟩ := spared_append.mp h
      rw [eval]
      · exact (hf hf').bind fun _ hd => (careful_evalParts hr ha args hargs).bind fun args _ =>
          careful_callDatum hd _
      all_goals simp

theorem careful_evalChain (hr : ¬ hidden "range") (ha : CarefulBodies hidden again) (a : Datum) :
    ∀ rest : List (Comparison × Expr), Spared hidden (mentionsChain rest) →
      Careful hidden (Datum.Free hidden) (evalChain again a rest)
  | [], _ => by
    rw [evalChain]
    exact careful_pure (.bool true)
  | (c, e) :: rest, h => by
    obtain ⟨he, hrest⟩ := spared_append.mp h
    rw [evalChain]
    refine (careful_eval hr ha e he).bind fun b _ => careful_rules.bind fun _ _ =>
      (careful_got _).bind fun holds _ => ?_
    split
    · exact careful_evalChain hr ha b rest hrest
    · exact careful_pure (.bool false)

theorem careful_evalAll (hr : ¬ hidden "range") (ha : CarefulBodies hidden again) :
    ∀ es : List Expr, Spared hidden (mentionsAll es) →
      Careful hidden (fun ds => ∀ d ∈ ds, d.Free hidden) (evalAll again es)
  | [], _ => by
    rw [evalAll]
    exact careful_pure (by simp)
  | e :: rest, h => by
    obtain ⟨he, hrest⟩ := spared_append.mp h
    rw [evalAll]
    exact (careful_eval hr ha e he).bind fun _ hd => (careful_evalAll hr ha rest hrest).bind
      fun _ hds => careful_pure (List.forall_mem_cons.mpr ⟨hd, hds⟩)

theorem careful_evalEntries (hr : ¬ hidden "range") (ha : CarefulBodies hidden again) :
    ∀ es : List (Expr × Expr), Spared hidden (mentionsEntries es) →
      Careful hidden (fun ds => ∀ d ∈ ds, d.1.Free hidden ∧ d.2.Free hidden) (evalEntries again es)
  | [], _ => by
    rw [evalEntries]
    exact careful_pure (by simp)
  | (key, e) :: rest, h => by
    obtain ⟨h, hrest⟩ := spared_append.mp h
    obtain ⟨hk, he⟩ := spared_append.mp h
    rw [evalEntries]
    exact (careful_eval hr ha key hk).bind fun _ hk => (careful_eval hr ha e he).bind fun _ hd =>
      (careful_evalEntries hr ha rest hrest).bind fun _ hds =>
        careful_pure (List.forall_mem_cons.mpr ⟨⟨hk, hd⟩, hds⟩)

theorem careful_evalOption (hr : ¬ hidden "range") (ha : CarefulBodies hidden again) :
    ∀ e : Option Expr, Spared hidden (mentionsOption e) →
      Careful hidden (Datum.Free hidden) (evalOption again e)
  | none, _ => by
    rw [evalOption]
    exact careful_pure .none
  | some e, h => by
    rw [evalOption]
    exact careful_eval hr ha e h

theorem careful_evalParts (hr : ¬ hidden "range") (ha : CarefulBodies hidden again) :
    ∀ args : List (Option String × Expr), Spared hidden (mentionsArguments args) →
      Careful hidden (FreeParts hidden) (evalParts again args)
  | [], _ => by
    rw [evalParts]
    exact careful_pure (by simp [FreeParts])
  | (name, e) :: rest, h => by
    obtain ⟨he, hrest⟩ := spared_append.mp h
    rw [evalParts]
    refine (careful_eval hr ha e he).bind fun d hd => (careful_evalParts hr ha rest hrest).bind
      fun ds hds => ?_
    cases name with
    | none => exact careful_pure ⟨List.forall_mem_cons.mpr ⟨hd, hds.1⟩, hds.2⟩
    | some s =>
      exact careful_pure ⟨hds.1, List.forall_mem_cons.mpr ⟨⟨Datum.free_text s, hd⟩, hds.2⟩⟩

end

-- ---------------------------------------------------------------------------
-- Statements
-- ---------------------------------------------------------------------------

theorem careful_refine (hr : ¬ hidden "range") (ha : CarefulBodies hidden again) :
    ∀ (filters : List FilterCall) {d : Datum}, Spared hidden (mentionsFilters filters) →
      d.Free hidden → Careful hidden (Datum.Free hidden) (refine again filters d)
  | [], _, _, hd => careful_pure hd
  | (name, args) :: rest, _, h, hd => by
    obtain ⟨hargs, hrest⟩ := spared_append.mp h
    refine (careful_evalParts hr ha args hargs).bind fun ds hds => careful_rules.bind fun r _ => ?_
    exact (careful_lift fun _ => Filter.free_apply hd (free_arguments hds)).bind fun _ hd' =>
      careful_refine hr ha rest hrest hd'

theorem careful_beginRound {loop : Option Datum} (h : ∀ d, loop = some d → d.Free hidden) :
    Careful hidden (fun _ => True) (beginRound loop : Engine Unit) := by
  refine careful_modify fun m hm => ?_
  split
  · rename_i f rest hf
    obtain ⟨hf, hr⟩ := List.forall_mem_cons.mp (hf ▸ hm.frames)
    exact ⟨List.forall_mem_cons.mpr ⟨⟨by simp, h, hf.context⟩, hr⟩, hm.blocks, hm.parent⟩
  · exact hm

theorem free_loopState (length : Option Nat) (i : Nat) {before : Datum} {after : Option Datum}
    (hb : before.Free hidden) (ha : ∀ d, after = some d → d.Free hidden) :
    (loopState length i before after).Free hidden := by
  have known (f : Nat → Nat) :
      ((length.map fun n => Datum.int (f n)).getD .missing).Free hidden := by
    cases length with
    | none => exact Datum.free_missing
    | some n => exact .int _
  have next : (after.getD .missing).Free hidden := by
    cases after with
    | none => exact Datum.free_missing
    | some d => exact ha d rfl
  refine Datum.free_map_iff.mpr ?_
  simp only [List.forall_mem_cons, Datum.free_text, true_and]
  exact ⟨.int _, .int _, known _, known _, known _, .bool _, .bool _, .int _, .int _, hb, next,
    by simp⟩

theorem careful_rounds {target : Target} {body : Engine String}
    (ht : Spared hidden target.mentions) (hb : Careful hidden (fun _ => True) body)
    (length : Option Nat) (i : Nat) {before : Datum} {ds : List Datum}
    (hbefore : before.Free hidden) (hds : ∀ d ∈ ds, d.Free hidden) :
    Careful hidden (fun _ => True) (rounds length target body i before ds) := by
  induction ds generalizing i before with
  | nil => exact careful_plain _
  | cons d rest ih =>
    obtain ⟨hd, hrest⟩ := List.forall_mem_cons.mp hds
    have hloop : (loopState length i before rest.head?).Free hidden :=
      free_loopState length i hbefore fun d h => hrest d (List.mem_of_head? h)
    refine (careful_beginRound fun d h => by cases h; exact hloop).bind fun _ _ => ?_
    exact (careful_assign target ht hd).bind fun _ _ => hb.bind fun _ _ =>
      (ih _ hd hrest).bind fun _ _ => careful_plain _

theorem careful_selected {target : Target} {condition : Engine Datum}
    (ht : Spared hidden target.mentions) (hc : Careful hidden (Datum.Free hidden) condition)
    {ds : List Datum} (hds : ∀ d ∈ ds, d.Free hidden) :
    Careful hidden (fun kept => ∀ d ∈ kept, d.Free hidden) (selected target condition ds) := by
  induction ds with
  | nil => exact careful_pure (by simp)
  | cons d rest ih =>
    obtain ⟨hd, hrest⟩ := List.forall_mem_cons.mp hds
    refine (careful_beginRound (by simp)).bind fun _ _ => ?_
    refine (careful_assign target ht hd).bind fun _ _ => careful_rules.bind fun _ _ => ?_
    refine hc.bind fun _ _ => (careful_got _).bind fun keep _ => (ih hrest).bind fun kept hk =>
      careful_pure ?_
    split
    · exact List.forall_mem_cons.mpr ⟨hd, hk⟩
    · exact hk

theorem careful_escapingOf (initial : Escaping) (d : Datum) :
    Careful hidden (fun _ => True) (escapingOf initial d : Engine Escaping) := by
  unfold escapingOf
  split
  · exact careful_plain _
  · exact careful_plain _
  · exact careful_plain _
  · exact careful_fail _
  · split <;> exact careful_plain _

theorem careful_template (name : String) :
    Careful hidden (fun t => Spared hidden t.mentions) (template name : Engine Syntax) := by
  unfold template
  refine careful_read (fun _ _ => rfl) fun setup only => ?_
  split
  · rename_i source hsource
    exact careful_lift fun t ht => only name source t hsource ht
  · exact careful_fail _

theorem spared_mentions {t : Syntax} : Spared hidden t.mentions ↔
    Spared hidden (mentionsBody t.body) ∧ ∀ b ∈ t.blocks, Spared hidden (mentionsBody b.2) := by
  unfold Syntax.mentions
  rw [spared_append]
  exact and_congr_right fun _ => by simp only [Spared, List.forall_mem_flatMap]

theorem spared_stackBlocks {blocks : List (String × List Statement)}
    (h : ∀ b ∈ blocks, Spared hidden (mentionsBody b.2)) :
    SparedBlocks hidden (stackBlocks blocks) := by
  have set (bs : Entries BlockStack) (hbs : SparedBlocks hidden bs) :
      SparedBlocks hidden
        (bs.overlay (blocks.map fun b => (b.1, (⟨[b.2], 0⟩ : BlockStack)))) := by
    induction blocks generalizing bs with
    | nil => exact hbs
    | cons b rest ih =>
      obtain ⟨hb, hrest⟩ := List.forall_mem_cons.mp h
      exact ih hrest _ (hbs.insert_single hb b.1)
  exact set [] (by simp [SparedBlocks])

theorem spared_layered {blocks : Entries BlockStack} {upper : List (String × List Statement)}
    (hb : SparedBlocks hidden blocks) (h : ∀ b ∈ upper, Spared hidden (mentionsBody b.2)) :
    SparedBlocks hidden (layered blocks upper) := by
  induction upper generalizing blocks with
  | nil => exact hb
  | cons b rest ih =>
    obtain ⟨hbody, hrest⟩ := List.forall_mem_cons.mp h
    refine ih ?_ hrest
    simp only
    split
    · rename_i stack hs
      refine hb.insert (List.forall_mem_append.mpr ⟨hb.of_get? hs, ?_⟩) b.1
      simpa using hbody
    · exact hb.insert_single hbody b.1

theorem careful_extend (d : Datum) :
    Careful hidden (fun _ => True) (extend d : Engine Unit) := by
  unfold extend
  refine careful_get.bind fun m hm => ?_
  simp only
  split
  · exact careful_failing _ _
  · split
    · exact careful_fail _
    · rename_i name _
      refine careful_get.bind fun m hm => ?_
      split
      · exact careful_failing _ _
      · refine (careful_template name).bind fun t ht => careful_modify fun m hm => ?_
        exact ⟨hm.frames, spared_layered hm.blocks (spared_mentions.mp ht).2,
          fun t h => by cases h; exact ht⟩

theorem careful_firstTemplate (ds : List Datum) :
    Careful hidden (fun found => ∀ e, found = some e → Spared hidden e.2.mentions)
      (firstTemplate ds : Engine (Option (String × Syntax))) := by
  induction ds with
  | nil => exact careful_pure (by simp)
  | cons d rest ih =>
    unfold firstTemplate
    split
    · exact careful_fail _
    · rename_i name _
      refine careful_read (fun _ _ => rfl) fun setup _ => ?_
      split
      · exact (careful_template name).bind fun t ht => careful_pure fun e h => by cases h; exact ht
      · exact ih

theorem careful_renderInclude (ha : CarefulBodies hidden again) (d : Datum)
    (ignoreMissing : Bool) :
    Careful hidden (fun _ => True) (renderInclude again d ignoreMissing) := by
  unfold renderInclude
  simp only
  refine (careful_firstTemplate _).bind fun found hf => ?_
  cases found with
  | none =>
    simp only
    generalize List.isEmpty _ = empty
    split
    · exact careful_plain _
    · exact careful_fail _
  | some found =>
    obtain ⟨name, t⟩ := found
    have ht := spared_mentions.mp (hf _ rfl)
    refine careful_get.bind fun m hm => ?_
    split
    · exact careful_failing _ _
    · refine careful_read (fun _ _ => rfl) fun setup _ => ?_
      refine (careful_set (m := { m with
          included := _, escaping := _, blocks := stackBlocks t.blocks })
        ⟨hm.frames, spared_stackBlocks ht.2, hm.parent⟩).bind fun _ _ => ?_
      refine ((ha _ ht.1).tryCatch _).bind fun _ _ => ?_
      exact careful_restore _ fun _ h => ⟨h.frames, hm.blocks, h.parent⟩

theorem careful_inNewScope {c : Engine String} (hc : Careful hidden (fun _ => True) c) :
    Careful hidden (fun _ => True) (inNewScope c) := by
  unfold inNewScope
  exact (careful_push Frame.free_new).bind fun _ _ => hc.bind fun _ _ => careful_pop.bind
    fun _ _ => careful_plain _

theorem careful_assignAllOf (hr : ¬ hidden "range") (ha : CarefulBodies hidden again) :
    ∀ assignments : List (Target × Expr), Spared hidden (mentionsAssignments assignments) →
      Careful hidden (fun _ => True) (assignAllOf again assignments)
  | [], _ => careful_plain _
  | (t, e) :: rest, h => by
    obtain ⟨h, hrest⟩ := spared_append.mp h
    obtain ⟨ht, he⟩ := spared_append.mp h
    exact (careful_eval hr ha e he).bind fun _ hd => (careful_assign t ht hd).bind fun _ _ =>
      careful_assignAllOf hr ha rest hrest

mutual

theorem careful_exec (hr : ¬ hidden "range") (ha : CarefulBodies hidden again) :
    ∀ s : Statement, Spared hidden s.mentions → Careful hidden (fun _ => True) (exec again s)
  | .text s, _ => by
    rw [exec]
    exact careful_printed s
  | .emit e, h => by
    unfold exec
    split
    · exact (careful_renderSuper ha).bind fun s _ => careful_printed s
    · exact careful_blockInPlace ha _
    · exact (careful_eval hr ha _ h).bind fun d _ => careful_output d
  | .choose condition yes no, h => by
    obtain ⟨h, hn⟩ := spared_append.mp h
    obtain ⟨hc, hy⟩ := spared_append.mp h
    rw [exec]
    refine careful_rules.bind fun _ _ => (careful_eval hr ha condition hc).bind fun _ _ =>
      (careful_got _).bind fun b _ => ?_
    split
    · exact careful_execAll hr ha yes hy
    · exact careful_execAll hr ha no hn
  | .loop target items condition body otherwise, h => by
    obtain ⟨h, ho⟩ := spared_append.mp h
    obtain ⟨h, hb⟩ := spared_append.mp h
    obtain ⟨h, hc⟩ := spared_append.mp h
    obtain ⟨ht, hi⟩ := spared_append.mp h
    rw [exec]
    refine (careful_eval hr ha items hi).bind fun d hd => careful_rules.bind fun r _ => ?_
    refine (careful_lift fun _ => Rules.free_items hd).bind fun all hall => ?_
    have looped {kept : List Datum} (hk : ∀ d ∈ kept, d.Free hidden) (length : Option Nat) :
        Careful hidden (fun _ => True)
          (if kept.isEmpty then execAll again otherwise
            else inNewScope (rounds length target (execAll again body) 0 .missing kept)) := by
      split
      · exact careful_execAll hr ha otherwise ho
      · exact careful_inNewScope
          (careful_rounds ht (careful_execAll hr ha body hb) length 0 Datum.free_missing hk)
    cases condition with
    | none => exact looped hall _
    | some e =>
      exact (careful_push Frame.free_new).bind fun _ _ =>
        (careful_selected ht (careful_eval hr ha e hc) hall).bind fun _ hk =>
          careful_pop.bind fun _ _ => looped hk _
  | .set target e, h => by
    obtain ⟨ht, he⟩ := spared_append.mp h
    rw [exec]
    exact (careful_eval hr ha e he).bind fun _ hd => (careful_assign target ht hd).bind
      fun _ _ => careful_plain _
  | .capture target filters body, h => by
    obtain ⟨h, hb⟩ := spared_append.mp h
    obtain ⟨ht, hf⟩ := spared_append.mp h
    rw [exec]
    exact (careful_capturing (careful_execAll hr ha body hb)).bind fun _ hd =>
      (careful_refine hr ha filters hf hd).bind fun _ hd' => (careful_assign target ht hd').bind
        fun _ _ => careful_plain _
  | .scope assignments body, h => by
    obtain ⟨has, hb⟩ := spared_append.mp h
    rw [exec]
    exact careful_inNewScope ((careful_assignAllOf hr ha assignments has).bind fun _ _ =>
      careful_execAll hr ha body hb)
  | .filtered filters body, h => by
    obtain ⟨hf, hb⟩ := spared_append.mp h
    rw [exec]
    exact (careful_capturing (careful_execAll hr ha body hb)).bind fun _ hd =>
      (careful_refine hr ha filters hf hd).bind fun d _ => careful_output d
  | .escaping mode body, h => by
    obtain ⟨hm, hb⟩ := spared_append.mp h
    rw [exec]
    refine careful_get.bind fun _ _ => careful_rules.bind fun _ _ => ?_
    refine (careful_eval hr ha mode hm).bind fun d _ => (careful_escapingOf _ d).bind fun _ _ => ?_
    refine (careful_modify ?_).bind fun _ _ => (careful_execAll hr ha body hb).bind fun _ _ => ?_
    · exact fun _ h => ⟨h.frames, h.blocks, h.parent⟩
    · exact careful_restore _ fun _ h => ⟨h.frames, h.blocks, h.parent⟩
  | .block name _, _ => by
    rw [exec]
    exact careful_blockInPlace ha name
  | .extend e, h => by
    rw [exec]
    exact (careful_eval hr ha e h).bind fun d _ => (careful_extend d).bind fun _ _ =>
      careful_plain _
  | .inclusion e ignoreMissing, h => by
    rw [exec]
    exact (careful_eval hr ha e h).bind fun d _ => careful_renderInclude ha d ignoreMissing
  | .perform call, h => by
    rw [exec]
    exact (careful_eval hr ha call h).bind fun _ _ => careful_plain _

theorem careful_execAll (hr : ¬ hidden "range") (ha : CarefulBodies hidden again) :
    ∀ body : List Statement, Spared hidden (mentionsBody body) →
      Careful hidden (fun _ => True) (execAll again body)
  | [], _ => by
    rw [execAll]
    exact careful_plain _
  | s :: rest, h => by
    obtain ⟨hs, hrest⟩ := spared_append.mp h
    rw [execAll]
    exact (careful_exec hr ha s hs).bind fun _ _ => (careful_execAll hr ha rest hrest).bind
      fun _ _ => careful_plain _

end

end

-- ---------------------------------------------------------------------------
-- Renders
-- ---------------------------------------------------------------------------

theorem careful_render (hr : ¬ hidden "range") (n : Nat) :
    CarefulBodies hidden (render n : List Statement → Engine String) := by
  induction n with
  | zero => exact fun _ _ => careful_fail _
  | succ n ih =>
    intro body hb
    unfold render
    refine careful_get.bind fun outer ho => ?_
    refine (careful_set (m := { outer with parent := none })
      ⟨ho.frames, ho.blocks, by simp⟩).bind fun _ _ => ?_
    refine (careful_execAll hr ih body hb).bind fun _ _ => careful_get.bind fun m hm => ?_
    cases hp : m.parent with
    | none => exact careful_restore _ fun _ h => ⟨h.frames, h.blocks, ho.parent⟩
    | some t =>
      refine (careful_modify ?_).bind fun _ _ => ?_
      · exact fun _ h => ⟨h.frames, h.blocks, by simp⟩
      refine (ih t.body (spared_mentions.mp (hm.parent t hp)).1).bind fun _ _ => ?_
      exact careful_restore _ fun _ h => ⟨h.frames, h.blocks, ho.parent⟩

theorem free_start (setup : Setup) {t : Syntax} (ht : Spared hidden t.mentions) :
    (start setup t).Free hidden where
  frames := List.forall_mem_singleton.mpr ⟨by simp, by simp, Datum.free_ofValue _⟩
  blocks := spared_stackBlocks (spared_mentions.mp ht).2
  parent := by simp [start]

section

variable (hidden) (setup : Setup) (more : List String) (hr : ¬ hidden "range")
  (hmore : ∀ name ∈ more, hidden name) (hs : ∀ name ∈ setup.functions, ¬ hidden name)
  (only : setup.settings.OnlyCall hidden setup.sources)

include hr hmore hs only

theorem until_whole : (whole setup).Until hidden
    (fun (r r' : String × Machine) => r' = r ∧ r.2.Free hidden) (whole (register setup more)) := by
  cases hs' : setup.sources.get? setup.name with
  | none =>
    have missing (setup : Setup) (h : setup.sources.get? setup.name = none) :
        whole setup = .done (.error .templateNotFound) := by simp only [whole, h]
    rw [missing _ hs', missing (register setup more) hs']
    exact .failed _
  | some source =>
    cases ht : Syntax.read setup.settings source with
    | error f =>
      have unread (setup : Setup) (hs : setup.sources.get? setup.name = some source)
          (ht : Syntax.read setup.settings source = .error f) :
          whole setup = .done (.error f) := by simp only [whole, hs, ht]
      rw [unread _ hs' ht, unread (register setup more) hs' ht]
      exact .failed f
    | ok t =>
      rw [whole_of_read setup hs' ht, whole_of_read (register setup more) hs' ht]
      have spared := only _ _ _ hs' ht
      have gone := careful_render hr (levels setup) t.body (spared_mentions.mp spared).1 setup more
        (start setup t) hmore hs only (free_start setup spared)
      exact gone.mono fun _ _ h => ⟨h.1, h.2.2⟩

theorem until_captured (text : String) {m : Machine} (hm : m.Free hidden) :
    (captured setup text m).Until hidden (captured (register setup more) text m) := by
  intro block
  have gone := careful_renderBlock (careful_render hr (levels setup)) block setup more m hmore hs
    only hm
  refine gone.bind (fun f => ⟨_, rfl, rfl⟩) ?_
  rintro _ r ⟨rfl, -⟩
  exact .done rfl

end

end Engine

open Engine

/-- Where `range` is the one function of the engine itself, and no source mentions a name other than
to call it, unknown functions are failures. -/
theorem Settings.failsUnknown (settings : Settings) :
    settings.environment.FailsUnknown (· = "range")
      fun sources name => settings.OnlyCall (· = name) sources where
  render {scene name} hown only _ hs := by
    have gone := until_whole (· = name) ⟨scene, settings⟩ [name] (fun h => hown h.symm) (by simp)
      (fun _ mem same => hs (same ▸ mem)) only
    refine gone.bind (fun f => ⟨_, rfl, rfl⟩) ?_
    rintro _ r ⟨rfl, -⟩
    exact .done rfl
  capture {scene name} hown only _ hs := by
    have hr : ¬ "range" = name := fun h => hown h.symm
    have hs' : ∀ other ∈ scene.functions, ¬ other = name := fun _ mem same => hs (same ▸ mem)
    have gone := until_whole (· = name) ⟨scene, settings⟩ [name] hr (by simp) hs' only
    refine gone.bind (fun f => ⟨_, rfl, rfl⟩) ?_
    rintro _ r ⟨rfl, hm⟩
    exact .done (until_captured (· = name) ⟨scene, settings⟩ [name] hr (by simp) hs' only _ hm)

end Stencil.Markup
