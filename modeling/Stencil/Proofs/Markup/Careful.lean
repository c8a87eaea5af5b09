import Stencil.Markup.Machine
import Stencil.Proofs.Markup.Mention
import Stencil.Proofs.Markup.Reference
import Stencil.Proofs.Markup.Unregistered

/-!
# Renders that only call what is hidden

A part of a render comes upon a hidden name in one way only: to call it. If a function of the name
is registered, it is called then, and else the render fails at once. So long as no value of the
machine has a hidden function in it, it makes no other difference whether these are registered
(`Careful`).
-/

namespace Stencil.Markup

variable {α β : Type} {hidden : String → Prop}

-- ---------------------------------------------------------------------------
-- Machines
-- ---------------------------------------------------------------------------

structure Frame.Free (hidden : String → Prop) (f : Frame) : Prop where
  locals : ∀ e ∈ f.locals, e.2.Free hidden
  loop : ∀ d, f.loop = some d → d.Free hidden
  context : f.context.Free hidden

def SparedBlocks (hidden : String → Prop) (bs : Entries BlockStack) : Prop :=
  ∀ e ∈ bs, ∀ body ∈ e.2.bodies, Spared hidden (mentionsBody body)

/-- No value of the machine has a hidden helper in it, and no body that is still to be rendered
mentions one. -/
structure Machine.Free (hidden : String → Prop) (m : Machine) : Prop where
  frames : ∀ f ∈ m.frames, f.Free hidden
  blocks : SparedBlocks hidden m.blocks
  parent : ∀ t, m.parent = some t → Spared hidden t.mentions

theorem Frame.free_new : ({} : Frame).Free hidden :=
  ⟨by simp, by simp, Datum.free_missing⟩

theorem Frame.Free.get? {f : Frame} (hf : f.Free hidden) {name : String} {d : Datum}
    (h : f.get? name = some d) : d.Free hidden := by
  unfold Frame.get? at h
  split at h
  · rename_i hd
    cases h
    exact hf.locals _ (Entries.mem_of_get? hd)
  · split at h
    · rename_i hloop _
      cases h
      exact hf.loop d hloop
    · exact Operator.free_attribute? hf.context h

theorem SparedBlocks.insert {bs : Entries BlockStack} (h : SparedBlocks hidden bs) {b : BlockStack}
    (hb : ∀ body ∈ b.bodies, Spared hidden (mentionsBody body)) (name : String) :
    SparedBlocks hidden (bs.insert name b) := by
  intro e he
  rcases Entries.mem_insert he with rfl | he
  · exact hb
  · exact h e he

theorem SparedBlocks.insert_single {bs : Entries BlockStack} (h : SparedBlocks hidden bs)
    {body : List Statement} (hb : Spared hidden (mentionsBody body)) (name : String) :
    SparedBlocks hidden (bs.insert name ⟨[body], 0⟩) :=
  h.insert (by simpa using hb) name

theorem SparedBlocks.of_get? {bs : Entries BlockStack} (h : SparedBlocks hidden bs) {name : String}
    {b : BlockStack} (hb : bs.get? name = some b) :
    ∀ body ∈ b.bodies, Spared hidden (mentionsBody body) :=
  h _ (Entries.mem_of_get? hb)

theorem Machine.Free.push {m : Machine} (hm : m.Free hidden) {f : Frame} (hf : f.Free hidden) :
    { m with frames := f :: m.frames }.Free hidden :=
  ⟨List.forall_mem_cons.mpr ⟨hf, hm.frames⟩, hm.blocks, hm.parent⟩

theorem Machine.Free.findSome? {m : Machine} (hm : m.Free hidden) {name : String} {d : Datum}
    (h : m.frames.findSome? (Frame.get? · name) = some d) : d.Free hidden := by
  obtain ⟨f, hf, hd⟩ := List.exists_of_findSome?_eq_some h
  exact (hm.frames f hf).get? hd

theorem Machine.Free.body {m : Machine} (hm : m.Free hidden) {name : String} {b : BlockStack}
    (hb : m.blocks.get? name = some b) (level : Nat) :
    Spared hidden (mentionsBody ({ b with level := level } : BlockStack).body) := by
  unfold BlockStack.body
  cases h : b.bodies[level]? with
  | none => simp [Spared, mentionsBody]
  | some body =>
    exact hm.blocks.of_get? hb body (List.mem_of_getElem? h)

-- ---------------------------------------------------------------------------
-- Parts of a render
-- ---------------------------------------------------------------------------

namespace Engine

def register (setup : Setup) (more : List String) : Setup :=
  { setup with toScene := setup.toScene.register more }

/-- With hidden functions and without them, a part of a render gives the same and leaves the same
machine, unless it calls one of them. Results have the property `P`. -/
def Careful (hidden : String → Prop) (P : α → Prop) (c : Engine α) : Prop :=
  ∀ (setup : Setup) (more : List String) (m : Machine), (∀ name ∈ more, hidden name) →
    (∀ name ∈ setup.functions, ¬ hidden name) → setup.settings.OnlyCall hidden setup.sources →
    m.Free hidden →
    (c setup m).Until hidden (fun (r r' : α × Machine) => r' = r ∧ P r.1 ∧ r.2.Free hidden)
      (c (register setup more) m)

variable {P : α → Prop} {Q : β → Prop}

theorem careful_pure {a : α} (h : P a) : Careful hidden P (pure a : Engine α) :=
  fun _ _ _ _ _ _ hm => .done ⟨rfl, h, hm⟩

theorem careful_fail (f : Fault) : Careful hidden P (fail f : Engine α) :=
  fun _ _ _ _ _ _ _ => .failed f

theorem careful_failing (f : Fault) (g : α → Engine β) : Careful hidden Q (fail f >>= g) :=
  fun _ _ _ _ _ _ _ => .failed f

theorem careful_plain (a : α) : Careful hidden (fun _ => True) (pure a : Engine α) :=
  careful_pure trivial

theorem Careful.bind {c : Engine α} {g : α → Engine β} (hc : Careful hidden P c)
    (hg : ∀ a, P a → Careful hidden Q (g a)) : Careful hidden Q (c >>= g) := by
  intro setup more m hmore hs only hm
  refine (hc setup more m hmore hs only hm).bind (fun f => ⟨f, rfl, rfl⟩) ?_
  rintro _ r ⟨rfl, hr, hm⟩
  exact hg r.1 hr setup more r.2 hmore hs only hm

theorem careful_get : Careful hidden (Machine.Free hidden) (get : Engine Machine) :=
  fun _ _ _ _ _ _ hm => .done ⟨rfl, hm, hm⟩

theorem careful_set {m : Machine} (h : m.Free hidden) :
    Careful hidden (fun _ => True) (set m : Engine PUnit) :=
  fun _ _ _ _ _ _ _ => .done ⟨rfl, trivial, h⟩

theorem careful_modify {f : Machine → Machine} (h : ∀ m, m.Free hidden → (f m).Free hidden) :
    Careful hidden (fun _ => True) (modify f : Engine PUnit) :=
  fun _ _ _ _ _ _ hm => .done ⟨rfl, trivial, h _ hm⟩

theorem careful_restore {f : Machine → Machine} (a : α)
    (h : ∀ m, m.Free hidden → (f m).Free hidden) :
    Careful hidden (fun _ => True) (do modify f; return a : Engine α) :=
  (careful_modify h).bind fun _ _ => careful_plain a

theorem careful_read {g : Setup → Engine β} (same : ∀ setup more, g (register setup more) = g setup)
    (hg : ∀ setup : Setup, setup.settings.OnlyCall hidden setup.sources →
      Careful hidden Q (g setup)) : Careful hidden Q (read >>= g) := by
  intro setup more m hmore hs only hm
  show (g setup setup m).Until hidden _ (g (register setup more) (register setup more) m)
  rw [same]
  exact hg setup only setup more m hmore hs only hm

theorem careful_lift {r : Except Fault α} (h : ∀ a, r = .ok a → P a) :
    Careful hidden P (lift r : Engine α) := by
  cases r with
  | ok a => exact careful_pure (h a rfl)
  | error f => exact careful_fail f

theorem careful_got (r : Except Fault α) :
    Careful hidden (fun _ => True) (lift r : Engine α) :=
  careful_lift fun _ _ => trivial

/-- The rest goes on after a failure with another one. -/
theorem Careful.tryCatch {c : Engine α} (hc : Careful hidden P c) (f : Fault) :
    Careful hidden P (tryCatch c fun _ => fail f) := fun setup more m hmore hs only hm =>
  (hc setup more m hmore hs only hm).bind (fun _ => ⟨f, rfl, rfl⟩) fun _ _ hr => .done hr

-- ---------------------------------------------------------------------------
-- What is done with a machine
-- ---------------------------------------------------------------------------

theorem careful_rules : Careful hidden (fun _ => True) (rules : Engine Rules) := by
  unfold rules
  exact careful_read (fun _ _ => rfl) fun _ _ => careful_get.bind fun _ _ => careful_plain _

theorem careful_push {f : Frame} (hf : f.Free hidden) :
    Careful hidden (fun _ => True) (push f : Engine Unit) := by
  unfold push
  refine careful_get.bind fun m hm => ?_
  split
  · exact careful_failing _ _
  · exact careful_set (hm.push hf)

theorem careful_pop : Careful hidden (fun _ => True) (pop : Engine Unit) :=
  careful_modify fun _ hm =>
    ⟨fun f hf => hm.frames f (List.mem_of_mem_drop hf), hm.blocks, hm.parent⟩

theorem careful_store (name : String) {d : Datum} (hd : d.Free hidden) :
    Careful hidden (fun _ => True) (store name d : Engine Unit) := by
  refine careful_modify fun m hm => ?_
  split
  · rename_i f rest hf
    obtain ⟨hf, hr⟩ := List.forall_mem_cons.mp (hf ▸ hm.frames)
    refine ⟨List.forall_mem_cons.mpr ⟨⟨fun e he => ?_, hf.loop, hf.context⟩, hr⟩, hm.blocks,
      hm.parent⟩
    rcases Entries.mem_insert he with rfl | he
    · exact hd
    · exact hf.locals e he
  · exact hm

theorem careful_isRegistered {name : String} (hn : ¬ hidden name) :
    Careful hidden (fun _ => True) (isRegistered name) := by
  refine fun setup more m hmore _ _ hm => .done ⟨Prod.ext ?_ rfl, trivial, hm⟩
  have other : name ∉ more := fun h => hn (hmore name h)
  simp [register, Scene.register, other]

theorem careful_lookup {name : String} (hn : ¬ hidden name) :
    Careful hidden (fun found => ∀ d, found = some d → d.Free hidden)
      (lookup name : Engine (Option Datum)) := by
  unfold lookup
  refine careful_get.bind fun m hm => ?_
  split
  · rename_i d hd
    exact careful_pure fun d' h => by cases h; exact hm.findSome? hd
  · refine (careful_isRegistered hn).bind fun known _ => ?_
    split
    · exact careful_pure fun d h => by cases h; exact .helper hn
    · split
      · exact careful_pure fun d h => by cases h; exact .range
      · exact careful_pure fun d h => by cases h

theorem careful_part {whole : Datum} {found : Option Datum}
    (h : ∀ d, found = some d → d.Free hidden) :
    Careful hidden (Datum.Free hidden) (part whole found : Engine Datum) := by
  unfold part
  split
  · exact careful_pure (h _ rfl)
  · split
    · exact careful_fail _
    · exact careful_pure Datum.free_missing

theorem careful_attribute {d : Datum} (hd : d.Free hidden) (name : String) :
    Careful hidden (Datum.Free hidden) (part d (Operator.attribute? d name) : Engine Datum) :=
  careful_part fun _ => Operator.free_attribute? hd

theorem careful_along (path : List String) {d : Datum} (hd : d.Free hidden) :
    Careful hidden (Datum.Free hidden) (along path d : Engine Datum) := by
  induction path generalizing d with
  | nil => exact careful_pure hd
  | cons name rest ih => exact (careful_attribute hd name).bind fun _ => ih

mutual

theorem careful_assign : ∀ (t : Target) {d : Datum}, Spared hidden t.mentions → d.Free hidden →
    Careful hidden (fun _ => True) (assign t d : Engine Unit)
  | .name s, d, _, hd => by
    rw [assign]
    exact careful_store s hd
  | .list targets, d, ht, hd => by
    cases hd with
    | list h =>
      rw [assign]
      exact careful_assignAll targets ht h
    | map hk _ =>
      rw [assign]
      exact careful_assignAll targets ht (List.forall_mem_map.mpr hk)
    | _ =>
      simp only [assign]
      exact careful_fail _
  | .attr name path, d, ht, _ => by
    rw [assign]
    refine (careful_lookup (ht name (List.mem_singleton_self _))).bind fun found hf => ?_
    refine (careful_along path ?_).bind fun _ _ => careful_fail _
    cases found with
    | none => exact Datum.free_missing
    | some d => exact hf d rfl

theorem careful_assignAll : ∀ (ts : List Target) {ds : List Datum},
    Spared hidden (mentionsTargets ts) → (∀ d ∈ ds, d.Free hidden) →
      Careful hidden (fun _ => True) (assignAll ts ds : Engine Unit)
  | [], [], _, _ => by
    rw [assignAll]
    exact careful_plain _
  | t :: ts, d :: ds, ht, hd => by
    obtain ⟨ht, hts⟩ := spared_append.mp ht
    obtain ⟨hd, hds⟩ := List.forall_mem_cons.mp hd
    rw [assignAll]
    exact (careful_assign t ht hd).bind fun _ _ => careful_assignAll ts hts hds
  | [], _ :: _, _, _ => by
    simp only [assignAll]
    exact careful_fail _
  | _ :: _, [], _, _ => by
    simp only [assignAll]
    exact careful_fail _

end

theorem careful_printed (s : String) :
    Careful hidden (fun _ => True) (printed s : Engine String) :=
  careful_get.bind fun _ _ => careful_plain _

theorem careful_output (d : Datum) :
    Careful hidden (fun _ => True) (output d : Engine String) := by
  unfold output
  exact careful_rules.bind fun r _ =>
    (careful_got _).bind fun _ _ => (careful_got _).bind fun s _ => careful_printed s

-- ---------------------------------------------------------------------------
-- Calls
-- ---------------------------------------------------------------------------

theorem careful_callDatum {d : Datum} (hd : d.Free hidden) (args : List Datum) :
    Careful hidden (Datum.Free hidden) (callDatum d args : Engine Datum) := by
  unfold callDatum
  split
  · unfold callFunction
    cases hd with
    | helper hn =>
      have asked (args : List (Option Value)) :
          Careful hidden (fun _ => True) (request _ args) :=
        fun _ _ _ _ _ _ hm => .call hn fun _ => .done ⟨rfl, trivial, hm⟩
      exact (asked _).bind fun s _ => careful_pure (Datum.free_text s)
    | range => exact careful_lift fun _ => Filter.free_range
  · exact careful_fail _

/-- Where a hidden function is called if it is registered, and where else the render fails. -/
theorem careful_ifRegistered {name : String} (hn : hidden name) {g : Bool → Engine β} (f : Fault)
    (unknown : ∀ setup m, g false setup m = .done (.error f))
    (called : ∀ setup m, ∃ args next, g true setup m = .call name args next) :
    Careful hidden Q (isRegistered name >>= g) := by
  intro setup more m _ hs _ _
  have unregistered : setup.functions.contains name = false := by
    simpa using fun h => hs name h hn
  show (g (setup.functions.contains name) setup m).Until hidden _
    (g ((register setup more).functions.contains name) (register setup more) m)
  rw [unregistered, unknown]
  cases (register setup more).functions.contains name with
  | false =>
    rw [unknown]
    exact .failed f
  | true =>
    obtain ⟨args, next, h⟩ := called (register setup more) m
    rw [h]
    exact .called f args next hn

/-- Calling what a name stands for. This is where a render may come upon a hidden name. -/
theorem careful_callName (hr : ¬ hidden "range") (name : String) (args : List Datum) :
    Careful hidden (Datum.Free hidden) (do
      match ← lookup name with
      | some d => callDatum d args
      | none => fail .unknownFunction : Engine Datum) := by
  by_cases hn : hidden name
  · have hne : (name == "range") = false := by
      rw [beq_eq_false_iff_ne]
      rintro rfl
      exact hr hn
    unfold lookup
    rw [bind_assoc]
    refine careful_get.bind fun m hm => ?_
    split
    · rename_i d hd
      exact careful_callDatum (hm.findSome? hd) args
    · rw [bind_assoc]
      refine careful_ifRegistered hn .unknownFunction (fun setup m => ?_) fun setup m => ⟨_, _, rfl⟩
      rw [if_neg Bool.false_ne_true, if_neg (by simp [hne]), pure_bind]
      rfl
  · refine (careful_lookup hn).bind fun found hf => ?_
    split
    · exact careful_callDatum (hf _ rfl) args
    · exact careful_fail _

end Engine
end Stencil.Markup
