import Mathlib.Order.Defs.Unbundled
import Stencil.Markup.Render
import Stencil.Proofs.Overlay
import Stencil.Proofs.Renders

/-!
# What a render leaves as it was

Parts of a render find the surroundings in order when they go on behind another part: an expression
leaves all scopes alone, and a statement all but the innermost; neither loses a block
(`Machine.Intact`, `Machine.Kept`).
-/

namespace Stencil.Markup

variable {α β ε δ : Type}

-- ---------------------------------------------------------------------------
-- Machines
-- ---------------------------------------------------------------------------

/-- What statements leave of a machine. Output is dropped from where a template extends another. -/
structure Machine.Kept (m m' : Machine) : Prop where
  scopes : m'.frames.tail = m.frames.tail
  escaping : m'.escaping = m.escaping
  blocks : m.blocks.keys ⊆ m'.blocks.keys
  drops : m'.parent = none → m.parent = none ∧ m'.silent = m.silent

structure Machine.Closed (m m' : Machine) : Prop where
  scopes : m'.frames.tail = m.frames.tail
  escaping : m'.escaping = m.escaping
  blocks : m.blocks.keys ⊆ m'.blocks.keys
  silent : m'.silent = m.silent
  parent : m'.parent = m.parent

structure Machine.Intact (m m' : Machine) : Prop where
  frames : m'.frames = m.frames
  escaping : m'.escaping = m.escaping
  blocks : m.blocks.keys ⊆ m'.blocks.keys
  silent : m'.silent = m.silent
  parent : m'.parent = m.parent

theorem Machine.Intact.kept {m m' : Machine} (h : m.Intact m') : m.Kept m' :=
  ⟨by rw [h.frames], h.escaping, h.blocks, fun hn => ⟨h.parent.symm.trans hn, h.silent⟩⟩

instance : IsPreorder Machine Machine.Kept where
  refl _ := ⟨rfl, rfl, List.Subset.refl _, fun h => ⟨h, rfl⟩⟩
  trans _ _ _ h h' := ⟨h'.scopes.trans h.scopes, h'.escaping.trans h.escaping,
    List.Subset.trans h.blocks h'.blocks, fun hn =>
      ⟨(h.drops (h'.drops hn).1).1, (h'.drops hn).2.trans (h.drops (h'.drops hn).1).2⟩⟩

instance : IsPreorder Machine Machine.Intact where
  refl _ := ⟨rfl, rfl, List.Subset.refl _, rfl, rfl⟩
  trans _ _ _ h h' := ⟨h'.frames.trans h.frames, h'.escaping.trans h.escaping,
    List.Subset.trans h.blocks h'.blocks, h'.silent.trans h.silent, h'.parent.trans h.parent⟩

theorem keys_subset_insert (bs : Entries BlockStack) (name : String) (b : BlockStack) :
    bs.keys ⊆ (bs.insert name b).keys := by
  intro k hk
  rw [Entries.keys_insert]
  split
  · exact hk
  · exact List.mem_append_left _ hk

-- ---------------------------------------------------------------------------
-- Parts of a render
-- ---------------------------------------------------------------------------

namespace Engine

theorem run_bind (c : Engine α) (g : α → Engine β) (setup : Setup) (m : Machine) :
    (c >>= g) setup m = Rendering.bind (c setup m) fun
      | Except.ok (a, m) => g a setup m
      | Except.error e => .done (.error e) :=
  congrArg (Rendering.bind _) (funext fun r => by cases r <;> rfl)

theorem run_get (g : Machine → Engine α) (setup : Setup) (m : Machine) :
    (get >>= g) setup m = g m setup m :=
  rfl

def Ends (good : Machine → Prop) (setup : Setup) (m : Machine) (c : Engine α) : Prop :=
  (c setup m).Gives fun r : α × Machine => good r.2

def Steady (R : Machine → Machine → Prop) (c : Engine α) : Prop :=
  ∀ setup m, Ends (R m) setup m c

section Ends

variable {good mid : Machine → Prop} {setup : Setup} {m : Machine}

theorem ends_pure {a : α} (h : good m) : Ends good setup m (pure a : Engine α) := h

theorem ends_failing {f : Fault} {g : α → Engine β} : Ends good setup m (fail f >>= g) :=
  trivial

theorem Ends.bind {c : Engine α} {g : α → Engine β} (hc : Ends mid setup m c)
    (hg : ∀ a m', mid m' → Ends good setup m' (g a)) : Ends good setup m (c >>= g) :=
  Rendering.Gives.bind hc (fun _ => trivial) fun r hr => hg r.1 r.2 hr

theorem ends_read {g : Setup → Engine β} (h : Ends good setup m (g setup)) :
    Ends good setup m (read >>= g) :=
  h

theorem ends_get {g : Machine → Engine β} (h : Ends good setup m (g m)) :
    Ends good setup m (get >>= g) :=
  h

theorem ends_set {m' : Machine} {g : PUnit → Engine β} (h : Ends good setup m' (g ⟨⟩)) :
    Ends good setup m (set m' >>= g) :=
  h

theorem ends_modify {f : Machine → Machine} {g : PUnit → Engine β}
    (h : Ends good setup (f m) (g ⟨⟩)) : Ends good setup m (modify f >>= g) :=
  h

theorem ends_restore {f : Machine → Machine} {a : α} (h : good (f m)) :
    Ends good setup m (do modify f; return a : Engine α) :=
  h

theorem Ends.tryCatch {c : Engine α} (hc : Ends good setup m c) (f : Fault) :
    Ends good setup m (tryCatch c fun _ => fail f) :=
  Rendering.Gives.bind hc (fun _ => trivial) fun _ hr => hr

end Ends

section Steady

variable {R : Machine → Machine → Prop}

theorem Steady.ends {c : Engine α} {good : Machine → Prop} {setup : Setup} {m : Machine}
    (hc : Steady R c) (h : ∀ m', R m m' → good m') : Ends good setup m c :=
  (hc setup m).mono fun r hr => h r.2 hr

theorem steady_fail (f : Fault) : Steady R (fail f : Engine α) := fun _ _ => trivial

theorem steady_failing (f : Fault) (g : α → Engine β) : Steady R (fail f >>= g) :=
  fun _ _ => trivial

theorem steady_modify {f : Machine → Machine} (h : ∀ m, R m (f m)) :
    Steady R (modify f : Engine PUnit) :=
  fun _ m => h m

variable [IsPreorder Machine R]

theorem steady_pure (a : α) : Steady R (pure a : Engine α) := fun _ m => ends_pure (refl_of R m)

theorem Steady.bind {c : Engine α} {g : α → Engine β} (hc : Steady R c)
    (hg : ∀ a, Steady R (g a)) : Steady R (c >>= g) := fun setup m =>
  (hc setup m).bind fun a _ h => (hg a).ends fun _ h' => trans_of R h h'

theorem steady_get : Steady R (get : Engine Machine) := fun _ m => refl_of R m

theorem steady_read : Steady R (read : Engine Setup) := fun _ m => refl_of R m

theorem steady_lift (r : Except Fault α) : Steady R (lift r : Engine α) := by
  cases r with
  | ok a => exact steady_pure a
  | error f => exact steady_fail f

end Steady

theorem Steady.kept {c : Engine α} (hc : Steady Machine.Intact c) : Steady Machine.Kept c :=
  fun _ _ => hc.ends fun _ h => h.kept

-- ---------------------------------------------------------------------------
-- What is done with a machine
-- ---------------------------------------------------------------------------

variable {R : Machine → Machine → Prop} [IsPreorder Machine R]

theorem steady_rules : Steady R (rules : Engine Rules) :=
  steady_read.bind fun _ => steady_get.bind fun _ => steady_pure _

theorem steady_lookup (name : String) : Steady R (lookup name : Engine (Option Datum)) := by
  unfold lookup
  refine steady_get.bind fun m => ?_
  split
  · exact steady_pure _
  · refine (steady_read.bind fun _ => steady_pure _ : Steady R (isRegistered name)).bind
      fun known => ?_
    split
    · exact steady_pure _
    · split <;> exact steady_pure _

theorem steady_part (whole : Datum) (found : Option Datum) :
    Steady R (part whole found : Engine Datum) := by
  unfold part
  split
  · exact steady_pure _
  · split
    · exact steady_fail _
    · exact steady_pure _

theorem steady_along (path : List String) (d : Datum) :
    Steady R (along path d : Engine Datum) := by
  induction path generalizing d with
  | nil => exact steady_pure d
  | cons name rest ih => exact (steady_part _ _).bind ih

theorem steady_printed (s : String) : Steady R (printed s : Engine String) :=
  steady_get.bind fun _ => steady_pure _

theorem steady_output (d : Datum) : Steady R (output d : Engine String) :=
  steady_rules.bind fun _ => (steady_lift _).bind fun _ => (steady_lift _).bind steady_printed

theorem steady_callDatum (d : Datum) (args : List Datum) :
    Steady R (callDatum d args : Engine Datum) := by
  unfold callDatum
  split
  · unfold callFunction
    split
    · have asked (name : String) (args : List (Option Value)) : Steady R (request name args) :=
        fun _ m _ => refl_of R m
      exact (asked _ _).bind fun s => steady_pure _
    · exact steady_lift _
  · exact steady_fail _

theorem kept_of_top {m : Machine} {f g : Frame} {rest : List Frame} (h : m.frames = f :: rest) :
    m.Kept { m with frames := g :: rest } :=
  ⟨by rw [h]; rfl, rfl, List.Subset.refl _, fun h => ⟨h, rfl⟩⟩

theorem steady_store (name : String) (d : Datum) :
    Steady Machine.Kept (store name d : Engine Unit) := by
  refine steady_modify fun m => ?_
  split
  · rename_i h
    exact kept_of_top h
  · exact refl_of _ m

theorem steady_beginRound (loop : Option Datum) :
    Steady Machine.Kept (beginRound loop : Engine Unit) := by
  refine steady_modify fun m => ?_
  split
  · rename_i h
    exact kept_of_top h
  · exact refl_of _ m

mutual

theorem steady_assign : ∀ (t : Target) (d : Datum),
    Steady Machine.Kept (assign t d : Engine Unit)
  | .name s, d => by
    rw [assign]
    exact steady_store s d
  | .list targets, d => by
    unfold assign
    split
    · contradiction
    · rename_i heq
      cases heq
      exact steady_assignAll targets _
    · rename_i heq
      cases heq
      exact steady_assignAll targets _
    · exact steady_fail _
    · contradiction
  | .attr name path, d => by
    rw [assign]
    exact (steady_lookup name).bind fun _ => (steady_along path _).bind fun _ => steady_fail _

theorem steady_assignAll : ∀ (ts : List Target) (ds : List Datum),
    Steady Machine.Kept (assignAll ts ds : Engine Unit)
  | [], [] => by
    rw [assignAll]
    exact steady_pure _
  | t :: ts, d :: ds => by
    rw [assignAll]
    exact (steady_assign t d).bind fun _ => steady_assignAll ts ds
  | [], _ :: _ => by
    simp only [assignAll]
    exact steady_fail _
  | _ :: _, [] => by
    simp only [assignAll]
    exact steady_fail _

end

theorem steady_scoped {S : Machine → Machine → Prop} {c : Engine α} (hc : Steady S c)
    (hS : ∀ m m', S { m with frames := {} :: m.frames } m' →
      R m { m' with frames := m'.frames.drop 1 })
    {g : α → Engine β} (hg : ∀ a, Steady R (g a)) :
    Steady R (do
      push {}
      let a ← c
      pop
      g a) := by
  intro setup m
  unfold push
  rw [bind_assoc]
  refine ends_get ?_
  split
  · exact ends_failing
  · exact ends_set ((hc.ends fun m' h => hS m m' h).bind fun a m' h =>
      ends_modify ((hg a).ends fun _ => trans_of R h))

theorem kept_scoped {c : Engine α} (hc : Steady Machine.Kept c) {g : α → Engine β}
    (hg : ∀ a, Steady Machine.Kept (g a)) :
    Steady Machine.Kept (do
      push {}
      let a ← c
      pop
      g a) := by
  refine steady_scoped hc (fun m m' h => ?_) hg
  have scopes : m'.frames.drop 1 = m.frames := by simpa using h.scopes
  exact ⟨congrArg List.tail scopes, h.escaping, h.blocks, h.drops⟩

theorem kept_inNewScope {c : Engine String} (hc : Steady Machine.Kept c) :
    Steady Machine.Kept (inNewScope c) :=
  kept_scoped hc steady_pure

-- ---------------------------------------------------------------------------
-- Blocks
-- ---------------------------------------------------------------------------

def SteadyBodies (again : List Statement → Engine String) : Prop :=
  ∀ body, Steady Machine.Closed (again body)

variable {again : List Statement → Engine String}

theorem intact_inScope (ha : SteadyBodies again) (body : List Statement) :
    Steady Machine.Intact (inScope again body) := by
  refine steady_scoped (ha body) (fun m m' h => ?_) steady_pure
  have scopes : m'.frames.drop 1 = m.frames := by simpa using h.scopes
  exact ⟨scopes, h.escaping, h.blocks, h.silent, h.parent⟩

theorem intact_renderBlock (ha : SteadyBodies again) (name : String) :
    Steady Machine.Intact (renderBlock again name) := by
  intro setup m
  unfold renderBlock
  refine ends_get ?_
  split
  · exact trivial
  · refine ends_set (((intact_inScope ha _).ends fun m' h => ?_).bind fun _ m' h =>
      ends_restore h)
    exact ⟨h.frames, h.escaping, h.blocks, h.silent, h.parent⟩

theorem intact_blockInPlace (ha : SteadyBodies again) (name : String) :
    Steady Machine.Intact (blockInPlace again name) := by
  unfold blockInPlace
  refine steady_get.bind fun m => ?_
  split
  · exact steady_pure _
  · exact intact_renderBlock ha name

theorem intact_renderSuper (ha : SteadyBodies again) :
    Steady Machine.Intact (renderSuper again) := by
  intro setup m
  unfold renderSuper
  refine ends_get ?_
  split
  · exact trivial
  · rename_i name _
    split
    · exact trivial
    · rename_i b hb
      dsimp only
      split
      · exact ends_failing
      · unfold push
        rw [bind_assoc]
        refine ends_set (ends_get ?_)
        split
        · exact ends_failing
        · refine ends_set (((ha _).ends fun m' h => ?_).tryCatch _ |>.bind fun _ m' h =>
            ends_modify (ends_restore h))
          exact ⟨by simpa using h.scopes, h.escaping,
            List.Subset.trans (List.Subset.trans (keys_subset_insert _ name _) h.blocks)
              (keys_subset_insert ..), h.silent, h.parent⟩

theorem steady_capturing {c : Engine String} (hc : Steady R c)
    (hR : ∀ m m', R { m with silent := false } m' → R m { m' with silent := m.silent }) :
    Steady R (capturing c) := by
  intro setup m
  unfold capturing
  refine ends_get (ends_modify ((hc.ends fun m' h => hR m m' h).bind fun a m' h => ?_))
  refine ends_modify ((steady_rules (R := R) setup _).bind fun r m'' h' => ?_)
  exact trans_of R h h'

theorem intact_capturing {c : Engine String} (hc : Steady Machine.Intact c) :
    Steady Machine.Intact (capturing c) :=
  steady_capturing hc fun _ _ h => ⟨h.frames, h.escaping, h.blocks, rfl, h.parent⟩

theorem kept_capturing {c : Engine String} (hc : Steady Machine.Kept c) :
    Steady Machine.Kept (capturing c) :=
  steady_capturing hc fun _ _ h =>
    ⟨h.scopes, h.escaping, h.blocks, fun hn => ⟨(h.drops hn).1, rfl⟩⟩

-- ---------------------------------------------------------------------------
-- Expressions
-- ---------------------------------------------------------------------------

mutual

theorem intact_eval (ha : SteadyBodies again) : ∀ e, Steady Machine.Intact (eval again e)
  | .lit _ => by
    rw [eval]
    exact steady_pure _
  | .var name => by
    rw [eval]
    exact (steady_lookup name).bind fun _ => steady_pure _
  | .list items => by
    rw [eval]
    exact (intact_evalAll ha items).bind fun _ => steady_pure _
  | .map entries => by
    rw [eval]
    exact (intact_evalEntries ha entries).bind fun _ => steady_pure _
  | .attr e name => by
    rw [eval]
    exact (intact_eval ha e).bind fun _ => steady_part _ _
  | .item e key => by
    rw [eval]
    exact (intact_eval ha e).bind fun _ => (intact_eval ha key).bind fun _ => steady_part _ _
  | .slice e start stop step => by
    rw [eval]
    refine (intact_eval ha e).bind fun d => (intact_evalOption ha start).bind fun _ =>
      (intact_evalOption ha stop).bind fun _ => (intact_evalOption ha step).bind fun _ =>
        steady_rules.bind fun r => ?_
    split
    · exact steady_failing _ _
    · exact steady_lift _
  | .unary .not e => by
    rw [eval]
    exact steady_rules.bind fun _ => (intact_eval ha e).bind fun _ => (steady_lift _).bind
      fun _ => steady_pure _
  | .unary .negate e => by
    rw [eval]
    exact (intact_eval ha e).bind fun _ => steady_lift _
  | .binary op left right => by
    rw [eval]
    exact (intact_eval ha left).bind fun _ => (intact_eval ha right).bind fun _ => steady_lift _
  | .compare first rest => by
    rw [eval]
    exact (intact_eval ha first).bind fun a => intact_evalChain ha a rest
  | .and left right => by
    rw [eval]
    refine (intact_eval ha left).bind fun _ => steady_rules.bind fun _ => (steady_lift _).bind
      fun _ => ?_
    split
    · exact intact_eval ha right
    · exact steady_pure _
  | .or left right => by
    rw [eval]
    refine (intact_eval ha left).bind fun _ => steady_rules.bind fun _ => (steady_lift _).bind
      fun _ => ?_
    split
    · exact steady_pure _
    · exact intact_eval ha right
  | .choose condition yes no => by
    unfold eval
    refine steady_rules.bind fun _ => (intact_eval ha condition).bind fun _ => (steady_lift _).bind
      fun _ => ?_
    split
    · exact intact_eval ha yes
    · cases no with
      | none => exact steady_pure _
      | some e => exact intact_eval ha e
  | .filter name e args => by
    rw [eval]
    exact (intact_eval ha e).bind fun _ => (intact_evalParts ha args).bind fun _ =>
      steady_rules.bind fun _ => steady_lift _
  | .test name e args => by
    rw [eval]
    exact (intact_eval ha e).bind fun _ => (intact_evalParts ha args).bind fun _ =>
      (steady_lift _).bind fun _ => steady_pure _
  | .call f args => by
    have hargs := intact_evalParts ha args
    have hf := intact_eval ha f
    unfold eval
    split
    · refine hargs.bind fun _ => ?_
      dsimp only
      split
      · exact steady_failing _ _
      · exact intact_capturing (intact_renderSuper ha)
    · exact hargs.bind fun _ => steady_get.bind fun _ => steady_fail _
    · refine hargs.bind fun _ => (steady_lookup _).bind fun _ => ?_
      split
      · exact steady_callDatum _ _
      · exact steady_fail _
    · exact intact_capturing (intact_blockInPlace ha _)
    · rename_i e _ _
      refine (intact_eval ha e).bind fun _ => hargs.bind fun _ => ?_
      split
      · exact steady_callDatum _ _
      · exact steady_fail _
    · exact hf.bind fun _ => hargs.bind fun _ => steady_callDatum _ _

theorem intact_evalChain (ha : SteadyBodies again) (a : Datum) :
    ∀ rest, Steady Machine.Intact (evalChain again a rest)
  | [] => by
    rw [evalChain]
    exact steady_pure _
  | (c, e) :: rest => by
    rw [evalChain]
    refine (intact_eval ha e).bind fun b => steady_rules.bind fun _ => (steady_lift _).bind
      fun _ => ?_
    split
    · exact intact_evalChain ha b rest
    · exact steady_pure _

theorem intact_evalAll (ha : SteadyBodies again) :
    ∀ es, Steady Machine.Intact (evalAll again es)
  | [] => by
    rw [evalAll]
    exact steady_pure _
  | e :: rest => by
    rw [evalAll]
    exact (intact_eval ha e).bind fun _ => (intact_evalAll ha rest).bind fun _ => steady_pure _

theorem intact_evalEntries (ha : SteadyBodies again) :
    ∀ es, Steady Machine.Intact (evalEntries again es)
  | [] => by
    rw [evalEntries]
    exact steady_pure _
  | (key, e) :: rest => by
    rw [evalEntries]
    exact (intact_eval ha key).bind fun _ => (intact_eval ha e).bind fun _ =>
      (intact_evalEntries ha rest).bind fun _ => steady_pure _

theorem intact_evalOption (ha : SteadyBodies again) :
    ∀ e, Steady Machine.Intact (evalOption again e)
  | none => by
    rw [evalOption]
    exact steady_pure _
  | some e => by
    rw [evalOption]
    exact intact_eval ha e

theorem intact_evalParts (ha : SteadyBodies again) :
    ∀ args, Steady Machine.Intact (evalParts again args)
  | [] => by
    rw [evalParts]
    exact steady_pure _
  | (name, e) :: rest => by
    rw [evalParts]
    refine (intact_eval ha e).bind fun _ => (intact_evalParts ha rest).bind fun _ => ?_
    cases name <;> exact steady_pure _

end

-- ---------------------------------------------------------------------------
-- Statements
-- ---------------------------------------------------------------------------

theorem intact_refine (ha : SteadyBodies again) :
    ∀ (filters : List FilterCall) (d : Datum), Steady Machine.Intact (refine again filters d)
  | [], d => steady_pure d
  | (_, args) :: rest, _ =>
    (intact_evalParts ha args).bind fun _ => steady_rules.bind fun _ => (steady_lift _).bind
      (intact_refine ha rest)

theorem kept_rounds (target : Target) {body : Engine String} (hb : Steady Machine.Kept body)
    (length : Option Nat) (i : Nat) (before : Datum) (ds : List Datum) :
    Steady Machine.Kept (rounds length target body i before ds) := by
  induction ds generalizing i before with
  | nil => exact steady_pure _
  | cons d rest ih =>
    exact (steady_beginRound _).bind fun _ => (steady_assign target d).bind fun _ => hb.bind
      fun _ => (ih _ d).bind fun _ => steady_pure _

theorem kept_selected (target : Target) {condition : Engine Datum}
    (hc : Steady Machine.Kept condition) (ds : List Datum) :
    Steady Machine.Kept (selected target condition ds) := by
  induction ds with
  | nil => exact steady_pure _
  | cons d rest ih =>
    exact (steady_beginRound _).bind fun _ => (steady_assign target d).bind fun _ =>
      steady_rules.bind fun _ => hc.bind fun _ => (steady_lift _).bind fun _ => ih.bind
        fun _ => steady_pure _

theorem steady_escapingOf (initial : Escaping) (d : Datum) :
    Steady R (escapingOf initial d : Engine Escaping) := by
  unfold escapingOf
  split
  · exact steady_pure _
  · exact steady_pure _
  · exact steady_pure _
  · exact steady_fail _
  · split <;> exact steady_pure _

theorem steady_template (name : String) : Steady R (template name : Engine Syntax) := by
  unfold template
  refine steady_read.bind fun setup => ?_
  split
  · exact steady_lift _
  · exact steady_fail _

theorem keys_subset_layered (upper : List (String × List Statement)) (blocks : Entries BlockStack) :
    blocks.keys ⊆ (layered blocks upper).keys := by
  induction upper generalizing blocks with
  | nil => exact List.Subset.refl _
  | cons b rest ih =>
    refine List.Subset.trans ?_ (ih _)
    dsimp only
    split <;> exact keys_subset_insert ..

theorem kept_extend (d : Datum) : Steady Machine.Kept (extend d : Engine Unit) := by
  unfold extend
  refine steady_get.bind fun m => ?_
  dsimp only
  split
  · exact steady_failing _ _
  · split
    · exact steady_fail _
    · refine steady_get.bind fun m => ?_
      split
      · exact steady_failing _ _
      · exact (steady_template _).bind fun t => steady_modify fun m =>
          ⟨rfl, rfl, keys_subset_layered t.blocks m.blocks, by simp⟩

theorem steady_firstTemplate (ds : List Datum) :
    Steady R (firstTemplate ds : Engine (Option (String × Syntax))) := by
  induction ds with
  | nil => exact steady_pure _
  | cons d rest ih =>
    unfold firstTemplate
    split
    · exact steady_fail _
    · refine steady_read.bind fun setup => ?_
      split
      · exact (steady_template _).bind fun _ => steady_pure _
      · exact ih

theorem kept_renderInclude (ha : SteadyBodies again) (d : Datum) (ignoreMissing : Bool) :
    Steady Machine.Kept (renderInclude again d ignoreMissing) := by
  unfold renderInclude
  dsimp only
  refine (steady_firstTemplate _).bind fun found => ?_
  cases found with
  | none =>
    dsimp only
    generalize List.isEmpty _ = empty
    split
    · exact steady_pure _
    · exact steady_fail _
  | some found =>
    intro setup m
    refine ends_get ?_
    split
    · exact ends_failing
    · refine ends_read (ends_set (((ha _).ends fun m' h => ?_).tryCatch _ |>.bind fun _ m' h =>
        ends_restore h))
      exact ⟨h.scopes, rfl, List.Subset.refl _, fun hn => ⟨h.parent.symm.trans hn, h.silent⟩⟩

theorem kept_assignAllOf (ha : SteadyBodies again) :
    ∀ assignments : List (Target × Expr), Steady Machine.Kept (assignAllOf again assignments)
  | [] => steady_pure _
  | (t, e) :: rest =>
    (intact_eval ha e).kept.bind fun d => (steady_assign t d).bind fun _ =>
      kept_assignAllOf ha rest

mutual

theorem kept_exec (ha : SteadyBodies again) : ∀ s, Steady Machine.Kept (exec again s)
  | .text s => by
    rw [exec]
    exact steady_printed s
  | .emit e => by
    unfold exec
    split
    · exact (intact_renderSuper ha).kept.bind steady_printed
    · exact (intact_blockInPlace ha _).kept
    · exact (intact_eval ha _).kept.bind steady_output
  | .choose condition yes no => by
    rw [exec]
    refine steady_rules.bind fun _ => (intact_eval ha condition).kept.bind fun _ =>
      (steady_lift _).bind fun _ => ?_
    split
    · exact kept_execAll ha yes
    · exact kept_execAll ha no
  | .loop target items condition body otherwise => by
    have looped (length : Option Nat) (kept : List Datum) : Steady Machine.Kept
        (if kept.isEmpty then execAll again otherwise
          else inNewScope (rounds length target (execAll again body) 0 .missing kept)) := by
      split
      · exact kept_execAll ha otherwise
      · exact kept_inNewScope (kept_rounds target (kept_execAll ha body) _ _ _ _)
    rw [exec]
    refine (intact_eval ha items).kept.bind fun d => steady_rules.bind fun _ =>
      (steady_lift _).bind fun all => ?_
    cases condition with
    | none => exact looped _ _
    | some e =>
      exact kept_scoped (kept_selected target (intact_eval ha e).kept all) fun kept => looped _ kept
  | .set target e => by
    rw [exec]
    exact (intact_eval ha e).kept.bind fun d => (steady_assign target d).bind fun _ =>
      steady_pure _
  | .capture target filters body => by
    rw [exec]
    exact (kept_capturing (kept_execAll ha body)).bind fun d =>
      (intact_refine ha filters d).kept.bind fun d => (steady_assign target d).bind fun _ =>
        steady_pure _
  | .scope assignments body => by
    rw [exec]
    exact kept_inNewScope ((kept_assignAllOf ha assignments).bind fun _ => kept_execAll ha body)
  | .filtered filters body => by
    rw [exec]
    exact (kept_capturing (kept_execAll ha body)).bind fun d =>
      (intact_refine ha filters d).kept.bind steady_output
  | .escaping mode body => by
    rw [exec]
    intro setup m
    refine ends_get ((steady_rules (R := Machine.Kept) setup m).bind fun _ m₁ h₁ =>
      ((intact_eval ha mode).kept.ends fun _ => trans_of _ h₁).bind fun d m₂ h₂ =>
        ((steady_escapingOf _ d).ends fun _ => trans_of _ h₂).bind fun mode m₃ h₃ => ?_)
    refine ends_modify ((kept_execAll ha body setup _).bind fun _ m₄ h₄ => ends_restore ?_)
    exact ⟨h₄.scopes.trans h₃.scopes, rfl, List.Subset.trans h₃.blocks h₄.blocks, fun hn =>
      ⟨(h₃.drops (h₄.drops hn).1).1, (h₄.drops hn).2.trans (h₃.drops (h₄.drops hn).1).2⟩⟩
  | .block name _ => by
    rw [exec]
    exact (intact_blockInPlace ha name).kept
  | .extend e => by
    rw [exec]
    exact (intact_eval ha e).kept.bind fun d => (kept_extend d).bind fun _ => steady_pure _
  | .inclusion e ignoreMissing => by
    rw [exec]
    exact (intact_eval ha e).kept.bind fun d => kept_renderInclude ha d ignoreMissing
  | .perform call => by
    rw [exec]
    exact (intact_eval ha call).kept.bind fun _ => steady_pure _

theorem kept_execAll (ha : SteadyBodies again) : ∀ body, Steady Machine.Kept (execAll again body)
  | [] => by
    rw [execAll]
    exact steady_pure _
  | s :: rest => by
    rw [execAll]
    exact (kept_exec ha s).bind fun _ => (kept_execAll ha rest).bind fun _ => steady_pure _

end

-- ---------------------------------------------------------------------------
-- Renders
-- ---------------------------------------------------------------------------

theorem steady_render (n : Nat) : SteadyBodies (render n : List Statement → Engine String) := by
  induction n with
  | zero => exact fun _ => steady_fail _
  | succ n ih =>
    intro body setup m
    unfold render
    refine ends_get (ends_set ((kept_execAll ih body setup _).bind fun text m₁ h₁ => ends_get ?_))
    cases hp : m₁.parent with
    | none => exact ends_restore ⟨h₁.scopes, h₁.escaping, h₁.blocks, (h₁.drops hp).2, rfl⟩
    | some t =>
      refine ends_modify ((ih t.body setup _).bind fun _ m₂ h₂ => ends_restore ?_)
      exact ⟨h₂.scopes.trans h₁.scopes, h₂.escaping.trans h₁.escaping,
        List.Subset.trans h₁.blocks h₂.blocks, rfl, rfl⟩

/-- A template has all its blocks while it is rendered, and more if it extends another. -/
theorem whole_keeps (setup : Setup) {source : String} {t : Syntax}
    (hs : setup.sources.get? setup.name = some source)
    (ht : Syntax.read setup.settings source = .ok t) :
    (whole setup).Gives fun ended =>
      ∀ name ∈ t.blocks.map Prod.fst, name ∈ ended.2.blocks.keys := by
  rw [whole_of_read setup hs ht]
  refine (steady_render (levels setup) t.body setup (start setup t)).mono fun ended kept name hn =>
    kept.blocks ?_
  refine (Entries.mem_keys_overlay [] _).mpr (.inr ?_)
  simpa [Entries.keys, Function.comp_def] using hn

end Engine
end Stencil.Markup
