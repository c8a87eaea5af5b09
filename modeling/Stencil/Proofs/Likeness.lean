import Mathlib.Data.List.Forall2
import Stencil.Proofs.Mute
import Stencil.Proofs.Operations

/-!
# Worlds that are alike

Two worlds that are alike hold the same renderers, loads, outputs and so on, and their tasks, kept
renders and events correspond one to one. A `Likeness` says in what these may differ. If it is
`free`, renders may differ in the data and the block that their calls took along for themselves, and
the log is not looked at; then all code has to be mute. If it is not, nothing but warnings in the
log makes a difference between the two.

Every operation keeps worlds alike and gives the same in both (`Agree`), if its host does so for the
code inside of it. Each function has one theorem for this, ending in `_alike`.
-/

namespace Stencil

open World

variable {Ω α : Type}

-- ---------------------------------------------------------------------------
-- What corresponds
-- ---------------------------------------------------------------------------

/-- In what two worlds that are alike may differ. -/
structure Likeness (Ω : Type) where
  /-- Whether renders may differ in what their calls took along for themselves. -/
  free : Prop
  /-- The names under which renders that differ are kept. -/
  ids : String → Prop
  /-- Which operations of callbacks stand for one another. -/
  op : Ω → Ω → Prop
  /-- Which answers that are recorded do. -/
  told : Answer → Answer → Prop

/-- The same render, but for the context and the block where these are `free`. -/
def Pending.Twin (free : Prop) (p p' : Pending) : Prop :=
  p' = p ∨ free ∧ ∃ context block, p' = { p with context := context, block := block }

def Pending.KeptTwin (L : Likeness Ω) (e e' : String × Pending) : Prop :=
  e'.1 = e.1 ∧ (e'.2 = e.2 ∨ L.ids e.1 ∧ e.2.Twin L.free e'.2)

inductive Receiver.Twin (op : Ω → Ω → Prop) : Receiver Ω → Receiver Ω → Prop
  | mk (label : String) {ops ops' : List Ω} (h : List.Forall₂ op ops ops') :
      Twin op ⟨label, ops⟩ ⟨label, ops'⟩

structure Task.Twin (op : Ω → Ω → Prop) (t t' : Task Ω) : Prop where
  id : t'.id = t.id
  stage : t'.stage = t.stage
  receiver : t.receiver.Twin op t'.receiver

inductive Event.Twin (free : Prop) : Event Ω → Event Ω → Prop
  | refl (e : Event Ω) : Twin free e e
  | received {p p' : Pending} (h : p.Twin free p') (result : LoadResult (Template Ω)) :
      Twin free (.received p result) (.received p' result)

inductive Argument.Twin (op : Ω → Ω → Prop) :
    Argument (Receiver Ω) → Argument (Receiver Ω) → Prop
  | absent : Twin op .absent .absent
  | block (name : String) : Twin op (.block name) (.block name)
  | data (v : Value) : Twin op (.data v) (.data v)
  | callback {r r' : Receiver Ω} (h : r.Twin op r') : Twin op (.callback r) (.callback r')

inductive Arguments.Twin (op : Ω → Ω → Prop) :
    Arguments (Receiver Ω) → Arguments (Receiver Ω) → Prop
  | mk {b b' d d' c c' : Argument (Receiver Ω)} (block : b.Twin op b') (data : d.Twin op d')
      (callback : c.Twin op c') : Twin op ⟨b, d, c⟩ ⟨b', d', c'⟩

section

variable {op : Ω → Ω → Prop}

theorem Receiver.Twin.label {r r' : Receiver Ω} (h : r.Twin op r') : r'.label = r.label := by
  cases h
  rfl

theorem Receiver.Twin.ops {r r' : Receiver Ω} (h : r.Twin op r') :
    List.Forall₂ op r.ops r'.ops := by
  cases h
  assumption

theorem Receiver.Twin.refl {r : Receiver Ω} (h : ∀ o ∈ r.ops, op o o) : r.Twin op r :=
  .mk r.label (List.forall₂_same.mpr h)

theorem Task.Twin.refl {t : Task Ω} (h : ∀ o ∈ t.receiver.ops, op o o) : t.Twin op t :=
  ⟨rfl, rfl, .refl h⟩

theorem Argument.Twin.refl {a : Argument (Receiver Ω)}
    (h : ∀ r, a.callback? = some r → ∀ o ∈ r.ops, op o o) : a.Twin op a := by
  cases a with
  | absent => exact .absent
  | block name => exact .block name
  | data v => exact .data v
  | callback r => exact .callback (.refl (h r rfl))

end

theorem Task.Twin.load? {op : Ω → Ω → Prop} {t t' : Task Ω} (h : t.Twin op t') :
    t'.load? = t.load? := by
  simp only [Task.load?, h.stage]

theorem Argument.Twin.data? {op : Ω → Ω → Prop} {a a' : Argument (Receiver Ω)}
    (h : a.Twin op a') : a'.data? = a.data? := by
  cases h <;> rfl

theorem Argument.Twin.selection {op : Ω → Ω → Prop} {a a' : Argument (Receiver Ω)}
    (h : a.Twin op a') : World.selection a' = World.selection a := by
  cases h <;> rfl

theorem Arguments.Twin.shift {op : Ω → Ω → Prop} {a a' : Arguments (Receiver Ω)}
    (h : a.Twin op a') : a.shift.Twin op a'.shift := by
  obtain ⟨hb, hd, hc⟩ := h
  -- only data, a callback and nothing are shifted, and both sides have that shape or neither
  cases hb <;> cases hd <;> cases hc <;> constructor <;> constructor <;> assumption

namespace World

def core (w : World Ω) : World Ω :=
  { w with renders := [], ready := [], yielded := [], parked := [], log := [], answers := []
           history := [] }

def rejoin (c w : World Ω) : World Ω :=
  { c with renders := w.renders, ready := w.ready, yielded := w.yielded, parked := w.parked
           log := w.log, answers := w.answers, history := w.history }

def calmLog (w : World Ω) : List Record := w.log.filter (·.level ≠ .warn)

structure Alike (L : Likeness Ω) (w w' : World Ω) : Prop where
  core : w'.core = w.core
  renders : List.Forall₂ (Pending.KeptTwin L) w.renders w'.renders
  ready : List.Forall₂ (Task.Twin L.op) w.ready w'.ready
  yielded : List.Forall₂ (Task.Twin L.op) w.yielded w'.yielded
  parked : List.Forall₂ (Task.Twin L.op) w.parked w'.parked
  log : ¬ L.free → w'.calmLog = w.calmLog
  answers : List.Forall₂ L.told w.answers w'.answers
  history : List.Forall₂ (Event.Twin L.free) w.history w'.history
  mute : L.free → w.Mute

inductive Agree (L : Likeness Ω) : α × World Ω → α × World Ω → Prop
  | mk (a : α) {w w' : World Ω} (h : Alike L w w') : Agree L (a, w) (a, w')

variable {L : Likeness Ω} {w w' : World Ω}

namespace Agree

theorem intro {x y : α × World Ω} (he : y.1 = x.1) (h : Alike L x.2 y.2) : Agree L x y := by
  obtain ⟨a, w⟩ := x
  obtain ⟨b, w'⟩ := y
  cases he
  exact .mk _ h

theorem fst {x y : α × World Ω} (h : Agree L x y) : y.1 = x.1 := by
  cases h
  rfl

theorem snd {x y : α × World Ω} (h : Agree L x y) : Alike L x.2 y.2 := by
  cases h
  assumption

end Agree

namespace Alike

theorem refl (told : ∀ a, L.told a a)
    (ops : ∀ t, t ∈ w.ready ∨ t ∈ w.yielded ∨ t ∈ w.parked → ∀ o ∈ t.receiver.ops, L.op o o)
    (mute : L.free → w.Mute) : Alike L w w where
  core := rfl
  renders := List.forall₂_same.mpr fun _ _ => ⟨rfl, .inl rfl⟩
  ready := List.forall₂_same.mpr fun t ht => .refl (ops t (.inl ht))
  yielded := List.forall₂_same.mpr fun t ht => .refl (ops t (.inr (.inl ht)))
  parked := List.forall₂_same.mpr fun t ht => .refl (ops t (.inr (.inr ht)))
  log _ := rfl
  answers := List.forall₂_same.mpr fun a _ => told a
  history := List.forall₂_same.mpr fun e _ => .refl e
  mute := mute

-- ---------------------------------------------------------------------------
-- What is the same
-- ---------------------------------------------------------------------------

theorem handles (h : Alike L w w') : w'.handles = w.handles :=
  (congrArg World.handles h.core :)

theorem renderers (h : Alike L w w') : w'.renderers = w.renderers :=
  (congrArg World.renderers h.core :)

theorem loads (h : Alike L w w') : w'.loads = w.loads :=
  (congrArg World.loads h.core :)

theorem counts (h : Alike L w w') : w'.counts = w.counts :=
  (congrArg World.counts h.core :)

theorem libraries (h : Alike L w w') : w'.libraries = w.libraries :=
  (congrArg World.libraries h.core :)

theorem spawned (h : Alike L w w') : w'.spawned = w.spawned :=
  (congrArg World.spawned h.core :)

theorem inExecutor (h : Alike L w w') : w'.inExecutor = w.inExecutor :=
  (congrArg World.inExecutor h.core :)

theorem outputs (h : Alike L w w') : w'.outputs = w.outputs :=
  (congrArg World.outputs h.core :)

theorem journal (h : Alike L w w') : w'.journal = w.journal :=
  (congrArg World.journal h.core :)

theorem renderer? (h : Alike L w w') (i : Nat) : w'.renderer? i = w.renderer? i := by
  simp only [World.renderer?, h.renderers]

theorem callCount (h : Alike L w w') (counter name : String) :
    w'.callCount counter name = w.callCount counter name := by
  simp only [World.callCount, h.counts]

theorem mute_helpers (h : Alike L w w') (i : Nat) :
    L.free → (((w.renderer? i).map (·.helpers)).getD .empty : HelperTable Ω).Mute := by
  intro free
  cases hr : w.renderer? i with
  | none => exact HelperTable.mute_empty
  | some r => exact ((h.mute free).renderers r (List.mem_of_getElem? hr)).helpers

-- ---------------------------------------------------------------------------
-- What keeps worlds alike
-- ---------------------------------------------------------------------------

/-- A change of the common part, by which mute worlds stay so. -/
theorem change (h : Alike L w w') {f : World Ω → World Ω} (hf : ∀ v, f v = (f v.core).rejoin v)
    (mute : L.free → w.Mute → (f w).Mute) : Alike L (f w) (f w') := by
  have hm := fun free => mute free (h.mute free)
  rw [hf w] at hm ⊢
  rw [hf w', h.core]
  exact { h with core := rfl, mute := hm }

theorem setLoads (h : Alike L w w') {loads : Loads (Work Ω) (Template Ω)}
    (mute : L.free → loads.All LoadResult.Mute Work.Mute) :
    Alike L { w with loads := loads } { w' with loads := loads } :=
  h.change (f := fun v => { v with loads := loads }) (fun _ => rfl)
    fun free hw => ⟨hw.renderers, mute free⟩

theorem setRenderers (h : Alike L w w') {renderers : List (Renderer Ω)}
    (mute : L.free → ∀ r ∈ renderers, r.Mute) :
    Alike L { w with renderers := renderers } { w' with renderers := renderers } :=
  h.change (f := fun v => { v with renderers := renderers }) (fun _ => rfl)
    fun free hw => ⟨mute free, hw.loads⟩

theorem update (h : Alike L w w') (i : Nat) {f : Renderer Ω → Renderer Ω}
    (mute : L.free → ∀ r, r.Mute → (f r).Mute) : Alike L (w.update i f) (w'.update i f) := by
  simp only [World.update, h.renderers]
  exact h.setRenderers fun free => forall_mem_modify (h.mute free).renderers (mute free) i

theorem mark (h : Alike L w w') (m : Milestone) : Alike L (w.mark m) (w'.mark m) :=
  h.change (f := fun v => v.mark m) (fun _ => rfl) fun _ hw => ⟨hw.renderers, hw.loads⟩

theorem recordOutput (h : Alike L w w') (label output : String) :
    Alike L (w.recordOutput label output) (w'.recordOutput label output) :=
  h.change (f := fun v => v.recordOutput label output) (fun _ => rfl)
    fun _ hw => ⟨hw.renderers, hw.loads⟩

theorem setInExecutor (h : Alike L w w') (b : Bool) :
    Alike L { w with inExecutor := b } { w' with inExecutor := b } :=
  h.change (f := fun v => { v with inExecutor := b }) (fun _ => rfl)
    fun _ hw => ⟨hw.renderers, hw.loads⟩

theorem countCall (h : Alike L w w') (counter : Option String) (name : String) :
    Alike L (w.countCall counter name) (w'.countCall counter name) := by
  cases counter with
  | none => exact h
  | some counter =>
    exact h.change (f := fun v => v.countCall (some counter) name) (fun _ => rfl)
      fun _ hw => ⟨hw.renderers, hw.loads⟩

theorem calmLog_logged (w : World Ω) (rs : List Record) :
    (w.logged rs).calmLog = w.calmLog ++ rs.filter (·.level ≠ .warn) := by
  simp [logged, calmLog]

/-- The logs may grow in different ways if only warnings make the difference, or all is free. -/
theorem logged (h : Alike L w w') {rs rs' : List Record}
    (hr : ¬ L.free → rs'.filter (·.level ≠ .warn) = rs.filter (·.level ≠ .warn)) :
    Alike L (w.logged rs) (w'.logged rs') :=
  { h with
    log := fun bound => by rw [calmLog_logged, calmLog_logged, h.log bound, hr bound]
    mute := fun free => ⟨(h.mute free).renderers, (h.mute free).loads⟩ }

theorem record (h : Alike L w w') (r : Record) : Alike L (w.record r) (w'.record r) := by
  have grown : Alike L (w.logged [r]) (w'.logged [r]) := h.logged fun _ => rfl
  exact grown

theorem note (h : Alike L w w') {e e' : Event Ω} (he : e.Twin L.free e') :
    Alike L (w.note e) (w'.note e') :=
  { h with
    history := List.rel_append h.history (.cons he .nil)
    mute := fun free => ⟨(h.mute free).renderers, (h.mute free).loads⟩ }

theorem recordAnswer (h : Alike L w w') {a a' : Answer} (ha : L.told a a') :
    Alike L (w.recordAnswer a) (w'.recordAnswer a') :=
  { h with
    answers := List.rel_append h.answers (.cons ha .nil)
    mute := fun free => ⟨(h.mute free).renderers, (h.mute free).loads⟩ }

theorem setRenders (h : Alike L w w') {renders renders' : Entries Pending}
    (hr : List.Forall₂ (Pending.KeptTwin L) renders renders') :
    Alike L { w with renders := renders } { w' with renders := renders' } :=
  { h with
    renders := hr
    mute := fun free => ⟨(h.mute free).renderers, (h.mute free).loads⟩ }

theorem setTasks (h : Alike L w w') {ready yielded parked ready' yielded' parked' : List (Task Ω)}
    (hr : List.Forall₂ (Task.Twin L.op) ready ready')
    (hy : List.Forall₂ (Task.Twin L.op) yielded yielded')
    (hp : List.Forall₂ (Task.Twin L.op) parked parked') :
    Alike L { w with ready := ready, yielded := yielded, parked := parked }
      { w' with ready := ready', yielded := yielded', parked := parked' } :=
  { h with
    ready := hr, yielded := hy, parked := hp
    mute := fun free => ⟨(h.mute free).renderers, (h.mute free).loads⟩ }

theorem spawn (h : Alike L w w') (stage : Stage) {r r' : Receiver Ω} (hr : r.Twin L.op r') :
    Alike L (w.spawn stage r) (w'.spawn stage r') := by
  have counted := h.change (f := fun v => { v with spawned := v.spawned + 1 }) (fun _ => rfl)
    fun _ hw => ⟨hw.renderers, hw.loads⟩
  have new : Task.Twin L.op ⟨w.spawned, stage, r⟩ ⟨w'.spawned, stage, r'⟩ := ⟨h.spawned, rfl, hr⟩
  exact counted.setTasks (List.rel_append h.ready (.cons new .nil)) h.yielded h.parked

theorem wake (h : Alike L w w') (load : Nat) : Alike L (w.wake load) (w'.wake load) := by
  simp only [World.wake, List.partition_eq_filter_filter]
  have picked (p : Option Nat → Bool) : List.Forall₂ (Task.Twin L.op)
      (w.parked.filter fun t => p t.load?) (w'.parked.filter fun t => p t.load?) :=
    List.rel_filter (fun t t' ht => by simp only [ht.load?]) h.parked
  exact h.setTasks (List.rel_append h.ready (picked (· == some load))) h.yielded
    (picked fun l => !(l == some load))

theorem setCache (h : Alike L w w') (i : Nat) (cache : Cache Nat) :
    Alike L (w.setCache i cache) (w'.setCache i cache) := by
  refine h.update i fun free r hr => ?_
  exact ⟨hr.helpers, hr.loader⟩

end Alike
end World
end Stencil
