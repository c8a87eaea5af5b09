import Stencil.Proofs.SessionLockstep

/-!
# Renders do not leak into each other

The data and the block of a render are its own: two sessions of mute code that differ only in what
some render calls take along do the same in every step, but for the outcomes of these very renders.
Nothing else can tell them apart: not the other renders and the parse calls, not the global data,
the helpers and the caches, and not the loaders.

Callbacks of parse calls may perform any operations, renders that differ among them. Loaders may
count their calls.
-/

namespace Stencil

open World Session

-- ---------------------------------------------------------------------------
-- Sessions that differ in renders
-- ---------------------------------------------------------------------------

def Op.callbackOps : Op → List Op
  | .parse _ _ args _ =>
    ([args.block, args.data, args.callback].filterMap (·.callback?)).flatMap (·.ops)
  | _ => []

/-- All code that the operation may register is mute, by its callbacks as well. -/
inductive Op.Mute : Op → Prop
  | mk {op : Op} (brings : op.BringsMute) (callbacks : ∀ o ∈ op.callbackOps, Mute o) : Mute op

/-- Operations that differ at most in the data and the block of render calls. Renders that differ
are kept under the names `ids`, if they are kept. -/
inductive Op.Twin (ids : String → Prop) : Op → Op → Prop
  | same (op : Op) : Twin ids op op
  | start (handle : Nat) {id : String} (hid : ids id) (name : String) (data data' : Option Value)
      (block block' : Option String) :
      Twin ids (.start handle id name data block) (.start handle id name data' block')
  | render (handle : Nat) (name : String) (data data' : Option Value)
      (block block' : Option String) :
      Twin ids (.render handle name data block) (.render handle name data' block')
  | parse (handle : Nat) (name : String) {args args' : Arguments (Receiver Op)}
      (h : args.Twin (Twin ids) args') (executor : Bool) :
      Twin ids (.parse handle name args executor) (.parse handle name args' executor)

/-- All code in the world is mute, and all that callbacks of tasks may register. -/
structure World.AllMute (w : World Op) : Prop where
  code : w.Mute
  tasks : ∀ t, t ∈ w.ready ∨ t ∈ w.yielded ∨ t ∈ w.parked → ∀ op ∈ t.receiver.ops, op.Mute

def Event.invocation? {Ω : Type} : Event Ω → Option (Nat × String × Nat)
  | .invoked i name load => some (i, name, load)
  | _ => none

/-- Which renderers called their loaders for which names, and the loads they got, in order. -/
def World.invocations (w : World Op) : List (Nat × String × Nat) :=
  w.history.filterMap Event.invocation?

/-- What is the same in two worlds that differ only in what renders took along for themselves. -/
structure World.SameBeside (ids : String → Prop) (w w' : World Op) : Prop where
  handles : w'.handles = w.handles
  /-- Global data, helpers, loaders and caches. -/
  renderers : w'.renderers = w.renderers
  loads : w'.loads = w.loads
  counts : w'.counts = w.counts
  invocations : w'.invocations = w.invocations
  /-- What callbacks were called with, and what became of each parse call. -/
  outputs : w'.outputs = w.outputs
  journal : w'.journal = w.journal
  renders : ∀ id, ¬ ids id → w'.renders.get? id = w.renders.get? id
  answers : List.Forall₂ (Answer.Twin True) w.answers w'.answers

-- ---------------------------------------------------------------------------
-- A likeness for them
-- ---------------------------------------------------------------------------

def Likeness.beside (ids : String → Prop) : Likeness Op where
  free := True
  ids := ids
  op op op' := op.Mute ∧ op.Twin ids op'
  told := Answer.Twin True

section

variable {ids : String → Prop} {w w' : World Op}

theorem Argument.Twin.and_mute {a a' : Argument (Receiver Op)} (h : a.Twin (Op.Twin ids) a')
    (mute : ∀ r, a.callback? = some r → ∀ op ∈ r.ops, op.Mute) :
    a.Twin (Likeness.beside ids).op a' := by
  cases h with
  | absent => exact .absent
  | block name => exact .block name
  | data v => exact .data v
  | callback hr =>
    obtain ⟨label, ho⟩ := hr
    exact .callback (.mk label ((List.forall₂_and_left _ _).mpr ⟨mute _ rfl, ho⟩))

theorem Op.Mute.callback {handle : Nat} {name : String} {args : Arguments (Receiver Op)}
    {executor : Bool} (h : (Op.parse handle name args executor).Mute)
    {a : Argument (Receiver Op)} (ha : a ∈ [args.block, args.data, args.callback])
    {r : Receiver Op} (hr : a.callback? = some r) : ∀ op ∈ r.ops, op.Mute := by
  obtain ⟨-, callbacks⟩ := h
  intro op ho
  exact callbacks op (List.mem_flatMap.mpr ⟨r, List.mem_filterMap.mpr ⟨a, ha, hr⟩, ho⟩)

theorem Op.Twin.matched {op op' : Op} (h : op.Twin ids op') (mute : op.Mute) :
    op.Matched True ids (Likeness.beside ids).op op' := by
  cases h with
  | same =>
    by_cases he : ∃ handle name args executor, op = .parse handle name args executor
    · obtain ⟨handle, name, args, executor, rfl⟩ := he
      have same {a : Argument (Receiver Op)} (ha : a ∈ [args.block, args.data, args.callback]) :
          a.Twin (Likeness.beside ids).op a :=
        .refl fun r hr o ho => ⟨mute.callback ha hr o ho, .same o⟩
      exact .parse handle name ⟨same (by simp), same (by simp), same (by simp)⟩ executor
    · exact .same fun handle name args executor h => he ⟨handle, name, args, executor, h⟩
  | start handle hid name data data' block block' =>
    exact .start trivial handle hid name data data' block block'
  | render handle name data data' block block' =>
    exact .render trivial handle name data data' block block'
  | parse handle name h executor =>
    obtain ⟨hb, hd, hc⟩ := h
    have callbacks {a : Argument (Receiver Op)} (ha : a ∈ [_, _, _]) {r : Receiver Op}
        (hr : a.callback? = some r) := mute.callback ha hr
    exact .parse handle name ⟨hb.and_mute fun r => callbacks (by simp),
      hd.and_mute fun r => callbacks (by simp), hc.and_mute fun r => callbacks (by simp)⟩ executor

theorem Likeness.kept_beside (ids : String → Prop) : (beside ids).Kept where
  refl bound := absurd trivial bound
  told h := h
  op := by
    rintro op op' ⟨mute, twin⟩
    refine ⟨twin.matched mute, fun _ => ?_⟩
    obtain ⟨brings, -⟩ := mute
    exact brings

theorem World.AllMute.alike (hw : w.AllMute) (ids : String → Prop) :
    Alike (.beside ids) w w :=
  .refl (fun _ => .inl rfl) (fun t ht op ho => ⟨hw.tasks t ht op ho, .same op⟩) fun _ => hw.code

namespace World.Alike

theorem invocations (h : Alike (.beside ids) w w') : w'.invocations = w.invocations := by
  have events {es es' : List (Event Op)} (he : List.Forall₂ (Event.Twin True) es es') :
      es'.filterMap Event.invocation? = es.filterMap Event.invocation? := by
    induction he with
    | nil => rfl
    | @cons e e' _ _ head _ ih =>
      have same : e'.invocation? = e.invocation? := by cases head <;> rfl
      simp only [List.filterMap_cons, same, ih]
  exact events h.history

theorem sameBeside (h : Alike (.beside ids) w w') : w.SameBeside ids w' where
  handles := h.handles
  renderers := h.renderers
  loads := h.loads
  counts := h.counts
  invocations := h.invocations
  outputs := h.outputs
  journal := h.journal
  renders id hid := by
    rcases Pending.get?_alike h.renders id with ⟨hn, hn'⟩ | ⟨p, p', hp, hp', kept⟩
    · rw [hn, hn']
    · have same : p' = p := kept.2.resolve_right fun hk => hid hk.1
      rw [hp, hp', same]
  answers := h.answers

end World.Alike

namespace Session

theorem reportStep_alike {op op' : Op} (twin : op.Twin ids op') (mute : op.Mute)
    (h : Alike (.beside ids) w w') :
    Steps (.beside ids) op op' (cleared w) (cleared w')
      (step (hostAt depthLimit) (cleared w) op) (step (hostAt depthLimit) (cleared w') op') := by
  have lockstep := hostAt_lockstep (Likeness.kept_beside ids) depthLimit
  refine step_steps depthLimit lockstep (twin.matched mute) (fun _ => ?_) (cleared_alike h)
  obtain ⟨brings, -⟩ := mute
  exact brings

theorem after_alike {ops ops' : List Op} (twins : List.Forall₂ (Op.Twin ids) ops ops')
    (mute : ∀ op ∈ ops, op.Mute) (h : Alike (.beside ids) w w') :
    Alike (.beside ids) (after w ops) (after w' ops') := by
  induction twins generalizing w w' with
  | nil => exact h
  | @cons op op' _ _ twin _ ih =>
    obtain ⟨hop, hrest⟩ := List.forall_mem_cons.mp mute
    exact ih hrest (reportStep_alike twin hop h).alike

end Session

end

-- ---------------------------------------------------------------------------
-- Runs
-- ---------------------------------------------------------------------------

/-- Two sessions that differ only in the data and the block of render calls are the same beside
these renders, after every step. Each step gives the same answer in both, unless it is such a call
itself or polls such a render. -/
theorem renders_do_not_leak {ids : String → Prop} {w : World Op} (hw : w.AllMute)
    {ops ops' : List Op} (twins : List.Forall₂ (Op.Twin ids) ops ops')
    (mute : ∀ op ∈ ops, op.Mute) (k : Nat) :
    let u := after w (ops.take k)
    let u' := after w (ops'.take k)
    u.SameBeside ids u' ∧
    ∀ op op', ops[k]? = some op → ops'[k]? = some op' →
      let report := (reportStep u op).1
      let report' := (reportStep u' op').1
      report.answer.Twin True report'.answer ∧
      (op' = op → (∀ id, op = .poll id → u'.renders.get? id = u.renders.get? id) →
        report'.answer = report.answer) := by
  have before : Alike (.beside ids) (after w (ops.take k)) (after w (ops'.take k)) :=
    after_alike (List.forall₂_take k twins) (fun op ho => mute op (List.mem_of_mem_take ho))
      (hw.alike ids)
  refine ⟨before.sameBeside, fun op op' ho ho' => ?_⟩
  obtain ⟨hk, rfl⟩ := List.getElem?_eq_some_iff.mp ho
  obtain ⟨hk', rfl⟩ := List.getElem?_eq_some_iff.mp ho'
  have steps := reportStep_alike (twins.get hk hk') (mute _ (List.getElem_mem hk)) before
  exact ⟨steps.told, steps.same⟩

theorem allMute_site (policy : CachePolicy) : (site (.template titlePage) policy).AllMute := by
  have page : titlePage.Mute := .ofBody fun _ => trivial
  have loads : (loaderOf (.template titlePage)).Mute := by
    refine fun _ _ => ⟨fun e he => ?_, nofun⟩
    obtain rfl := List.mem_singleton.mp he
    rintro t ⟨⟩
    exact page
  refine ⟨⟨fun r hr => ?_, World.mute_empty.loads⟩, ?_⟩
  · obtain rfl := List.mem_singleton.mp hr
    refine ⟨HelperTable.mute_empty, ?_⟩
    rintro l ⟨⟩
    exact loads
  · rintro t (ht | ht | ht) <;> cases ht

def secretRun (data : Option Value) (block : Option String) : List Op :=
  [.start 0 "mine" "page" data block, .start 0 "other" "page" none none, .poll "mine",
    .poll "other"]

/-- With data of its own the one render prints something else, with a block that is missing nothing;
the other one stays as it is. -/
theorem renders_do_not_leak_page :
    let w := site (.template titlePage) .retain
    let ops := secretRun none none
    let ops' := secretRun (some (.object [("title", .string "secret")])) none
    let ops'' := secretRun none (some "missing")
    ((reportStep (after w (ops.take 2)) (.poll "mine")).1.answer = .output "old" ∧
      (reportStep (after w (ops'.take 2)) (.poll "mine")).1.answer = .output "secret" ∧
      (reportStep (after w (ops''.take 2)) (.poll "mine")).1.answer = .output "") ∧
    (reportStep (after w (ops.take 3)) (.poll "other")).1.answer = .output "old" ∧
    (reportStep (after w (ops'.take 3)) (.poll "other")).1.answer =
      (reportStep (after w (ops.take 3)) (.poll "other")).1.answer ∧
    (reportStep (after w (ops''.take 3)) (.poll "other")).1.answer =
      (reportStep (after w (ops.take 3)) (.poll "other")).1.answer := by
  intro w ops ops' ops''
  have twins (data : Option Value) (block : Option String) :
      List.Forall₂ (Op.Twin (· = "mine")) ops (secretRun data block) := by
    have changed : Op.Twin (· = "mine") (.start 0 "mine" "page" none none)
        (.start 0 "mine" "page" data block) := by
      refine .start 0 ?_ "page" none data none block
      rfl
    exact .cons changed (.cons (.same _) (.cons (.same _) (.cons (.same _) .nil)))
  have mute (op : Op) (ho : op ∈ ops) : op.Mute := by
    simp only [ops, secretRun, List.mem_cons, List.not_mem_nil, or_false] at ho
    rcases ho with rfl | rfl | rfl | rfl <;> exact ⟨trivial, nofun⟩
  have other (data : Option Value) (block : Option String) :
      (reportStep (after w ((secretRun data block).take 3)) (.poll "other")).1.answer =
        (reportStep (after w (ops.take 3)) (.poll "other")).1.answer := by
    obtain ⟨beside, steps⟩ :=
      renders_do_not_leak (allMute_site .retain) (twins data block) mute 3
    refine (steps _ _ rfl rfl).2 rfl ?_
    rintro _ ⟨⟩
    exact beside.renders "other" (by decide)
  exact ⟨⟨rfl, rfl, rfl⟩, rfl, other _ _, other _ _⟩

end Stencil
