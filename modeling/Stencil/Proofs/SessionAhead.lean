import Stencil.Proofs.Ahead
import Stencil.Proofs.Privacy

/-!
# Sessions that are ahead

Sessions that go by the same operations from two worlds that are ahead of one stay so, as long as no
code calls back: what operations have to do with gates, handles and helpers is the same in both
(`Session.bare`), and all else makes no difference to the loads that are old. So renders that are
kept under a name are found to be the same by all polls, until the name is given to another render.
-/

namespace Stencil

open World Session

-- ---------------------------------------------------------------------------
-- Operations that bring no code
-- ---------------------------------------------------------------------------

/-- The code that the operation brings performs no operations, callbacks included. -/
structure Op.Inert (op : Op) : Prop where
  brings : op.BringsMute
  callbacks : op.callbackOps = []

theorem Op.Inert.arguments {handle : Nat} {name : String} {args : Arguments (Receiver Op)}
    {executor : Bool} (h : (Op.parse handle name args executor).Inert) :
    args.Twin Likeness.inert.op args := by
  have quiet {a : Argument (Receiver Op)} (ha : a ∈ [args.block, args.data, args.callback]) :
      a.Twin Likeness.inert.op a := by
    refine .refl fun r hr o ho => ?_
    have called : o ∈ (Op.parse handle name args executor).callbackOps :=
      List.mem_flatMap.mpr ⟨r, List.mem_filterMap.mpr ⟨a, ha, hr⟩, ho⟩
    rw [h.callbacks] at called
    cases called
  exact ⟨quiet (by simp), quiet (by simp), quiet (by simp)⟩

theorem Op.Inert.matched {op : Op} (h : op.Inert) :
    op.Matched True (fun _ => True) Likeness.inert.op op := by
  by_cases he : ∃ handle name args executor, op = .parse handle name args executor
  · obtain ⟨handle, name, args, executor, rfl⟩ := he
    exact .parse handle name h.arguments executor
  · exact .same fun handle name args executor h => he ⟨handle, name, args, executor, h⟩

theorem Likeness.kept_inert : (Likeness.inert : Likeness Op).Kept where
  refl bound := absurd trivial bound
  told _ := trivial
  op := False.elim

-- ---------------------------------------------------------------------------
-- Renders under one name
-- ---------------------------------------------------------------------------

namespace Entries

variable {α : Type} (es : Entries α)

def under (name : String) : Entries α := es.filter (·.1 == name)

theorem get?_eq_under (name : String) : es.get? name = (es.under name).head?.map (·.2) := by
  induction es with
  | nil => rfl
  | cons e rest ih =>
    obtain ⟨key, a⟩ := e
    by_cases hk : key = name <;> simp_all [get?, under]

theorem under_erase (name : String) : (es.erase name).under name = (es.under name).tail := by
  induction es with
  | nil => rfl
  | cons e rest ih =>
    obtain ⟨key, a⟩ := e
    by_cases hk : key = name <;> simp_all [erase, under]

theorem under_erase_of_ne {name other : String} (hne : other ≠ name) :
    (es.erase other).under name = es.under name := by
  induction es with
  | nil => rfl
  | cons e rest ih =>
    obtain ⟨key, a⟩ := e
    by_cases hk : key = other
    · simp [erase, under, hk, hne]
    · by_cases hn : key = name <;> simp_all [erase, under]

theorem under_insert (name : String) (a : α) :
    (es.insert name a).under name = (name, a) :: (es.under name).tail := by
  induction es with
  | nil => simp [insert, under]
  | cons e rest ih =>
    obtain ⟨key, b⟩ := e
    by_cases hk : key = name <;> simp_all [insert, under]

theorem under_insert_of_ne {name other : String} (hne : other ≠ name) (a : α) :
    (es.insert other a).under name = es.under name := by
  induction es with
  | nil => simp [insert, under, hne]
  | cons e rest ih =>
    obtain ⟨key, b⟩ := e
    by_cases hk : key = other
    · simp [insert, under, hk, hne]
    · by_cases hn : key = name <;> simp_all [insert, under]

end Entries

-- ---------------------------------------------------------------------------
-- Operations
-- ---------------------------------------------------------------------------

variable {old : Nat → Prop} {renders : Entries Pending} {c u v : World Op}

namespace Session

theorem inert_step (n : Nat) (inert : Alike .inert v v) {op : Op} (hop : op.Inert) :
    Alike .inert (step (hostAt n) v op).2 (step (hostAt n) v op).2 := by
  have lockstep := hostAt_lockstep Likeness.kept_inert n
  exact (step_steps n lockstep hop.matched (fun _ => hop.brings) inert).alike

/-- What of an operation has nothing to do with loads that are asked for or looked at. -/
def bare (c : World Op) : Op → World Op
  | .create config =>
    match config.read with
    | .ok r => c.addRenderer (.ofConfig r)
    | .error _ => c
  | .share handle => c.addHandle (resolve c handle)
  | .registerHelper handle name helper =>
    (change c handle fun r => r.registerHelper name helper.helper).2
  | .release gate => { c with loads := (c.loads.release gate).2 }
  | _ => c

/-- Whether a load that shows a result now still shows it when the gate has opened. -/
def Sticks (old : Nat → Prop) (c : World Op) (gate : String) : Prop :=
  ∀ l, old l → ∀ r, (c.loads.visit Work.finds l).1 = .ready r →
    ((c.loads.release gate).2.visit Work.finds l).1 = .ready r

section

variable (h : World.Ahead old renders c v)

include h

theorem length_ahead : v.renderers.length = c.renderers.length := by
  simpa [tables] using congrArg List.length h.tables

theorem resolve_ahead (handle : Nat) : resolve v handle = resolve c handle := by
  rw [resolve, resolve, h.handles, length_ahead h]

theorem create_ahead (config : Config) :
    World.Ahead old renders (c.addRenderer (.ofConfig config))
      (v.addRenderer (.ofConfig config)) := by
  refine ⟨?_, ?_, h.loads, h.renders⟩
  · simp only [addRenderer, h.handles, length_ahead h]
  · have tables := h.tables
    simp only [World.tables, addRenderer, List.map_append] at tables ⊢
    rw [tables]

theorem update_ahead {f g : Renderer Op → Renderer Op} {k : HelperTable Op → HelperTable Op}
    (hf : ∀ r, (f r).helpers = k r.helpers) (hg : ∀ r, (g r).helpers = k r.helpers) (i : Nat) :
    World.Ahead old renders (c.update i f) (v.update i g) := by
  refine ⟨h.handles, ?_, h.loads, h.renders⟩
  have tables := h.tables
  simp only [World.tables, World.update] at tables ⊢
  rw [map_modify hf, map_modify hg, tables]

theorem change_ahead (f : Renderer Op → Renderer Op) (hf : ∀ r, (f r).helpers = r.helpers)
    (handle : Nat) : World.Ahead old renders c (change v handle f).2 :=
  h.of_eq _ rfl (Ahead.tables_modify hf v _) rfl rfl

theorem registerLoader_ahead (handle : Nat) (id : String) (source : LoaderSource Op) :
    World.Ahead old renders c (registerLoader v handle id source).2 := by
  have registered {u : World Op} (hu : World.Ahead old renders c u) (loader : Loader Op) :
      World.Ahead old renders c (change u handle fun r => r.registerLoader loader).2 :=
    change_ahead hu (·.registerLoader loader) (fun _ => rfl) handle
  have kept (libraries : Entries Markup.Library) :
      World.Ahead old renders c { v with libraries := libraries } := h.of_eq _ rfl rfl rfl rfl
  cases source with
  | script s => exact registered h _
  | library l => exact registered (kept _) _
  | kept env => exact registered (kept _) _

theorem flush_ahead (handle : Nat) : World.Ahead old renders c (flush v handle).2 := by
  unfold flush
  split
  · exact h
  · rename_i r hr
    have noted := h.of_eq ((v.note (.flushed (resolve v handle))).record (.flushing r.cache.size))
      rfl rfl rfl rfl
    exact change_ahead noted Renderer.flush (fun _ => rfl) handle

theorem release_ahead {gate : String} (sticks : Sticks old c gate) :
    World.Ahead old renders { c with loads := (c.loads.release gate).2 } (v.release gate).2 := by
  have opened : World.Ahead old renders { c with loads := (c.loads.release gate).2 }
      { v with loads := (v.loads.release gate).2 } :=
    ⟨h.handles, h.tables, h.loads.release gate sticks, h.renders⟩
  have woken (loads : List Nat) {u : World Op}
      (hu : World.Ahead old renders { c with loads := (c.loads.release gate).2 } u) :
      World.Ahead old renders { c with loads := (c.loads.release gate).2 }
        (loads.foldl wake u) := by
    induction loads generalizing u with
    | nil => exact hu
    | cons load rest ih => exact ih (hu.wake load)
  exact woken _ opened

variable (n : Nat) (inert : Alike .inert v v)

include inert

theorem callHelper_ahead (handle : Nat) (name : String) (this : Value) (args : List Value) :
    World.Ahead old renders c (step (hostAt n) v (.callHelper handle name this args)).2 := by
  simp only [step]
  cases hr : v.renderer? (resolve v handle) with
  | none => exact h
  | some r =>
    have mute := ((Alike.mute inert trivial).renderers r (List.mem_of_getElem? hr)).helpers
    have aside := (HelperTable.aside_dispatcher (hostAt_logs n) mute).dispatch this name args v []
    rw [logged_nil] at aside
    simp only [HelperTable.dispatcher] at aside
    simp only [aside]
    exact h.of_eq _ rfl rfl rfl rfl

theorem render_ahead (handle : Nat) (name : String) (data : Option Value)
    (block : Option String) :
    World.Ahead old renders c (render (hostAt n) v handle name data block).2 := by
  have hh := hostAt_lockstep Likeness.kept_inert n
  have asked := h.ask hh inert (resolve v handle) name data block
  have inert' := (ask_alike hh (resolve v handle) name data block inert).snd
  unfold render
  generalize World.ask (hostAt n) (resolve v handle) name data block v = x at asked inert'
  obtain ⟨p, u⟩ := x
  cases p with
  | none => exact asked
  | some p =>
    have polled := asked.poll hh inert' p
    simp only
    generalize World.poll (hostAt n) p u = y at polled
    obtain ⟨seen, u'⟩ := y
    cases seen <;> exact polled

end

/-- All operations but those that ask for, poll or drop a render that is kept. -/
theorem step_ahead (n : Nat) (h : World.Ahead old renders c v) (inert : Alike .inert v v) {op : Op}
    (hop : op.Inert) (sticks : ∀ gate, op = .release gate → Sticks old c gate)
    (hstart : ∀ handle id name data block, op ≠ .start handle id name data block)
    (hpoll : ∀ id, op ≠ .poll id) (hdrop : ∀ id, op ≠ .drop id) :
    World.Ahead old renders (bare c op) (step (hostAt n) v op).2 := by
  have hh := hostAt_lockstep Likeness.kept_inert n
  cases op with
  | create config =>
    simp only [step, bare]
    cases config.read with
    | error e => exact h
    | ok r => exact create_ahead h r
  | share handle =>
    refine ⟨?_, h.tables, h.loads, h.renders⟩
    simp only [step, bare, addHandle, h.handles, resolve_ahead h]
  | helperNames handle => exact h
  | hasLoader handle => exact h
  | flush handle => exact flush_ahead h handle
  | isCached handle name => exact h
  | inspect handle => exact h
  | registerHelper handle name helper =>
    simp only [step, bare, change, resolve_ahead h]
    exact update_ahead h (k := fun t => t.register name helper.helper) (fun _ => rfl)
      (fun _ => rfl) _
  | setGlobal handle key value =>
    exact change_ahead h (fun r => r.setGlobal key value) (fun _ => rfl) handle
  | addGlobals handle data => exact h
  | callHelper handle name this args => exact callHelper_ahead h n inert handle name this args
  | registerLoader handle id loader => exact registerLoader_ahead h handle id loader
  | addSource id name source env => exact h.of_eq _ rfl rfl rfl rfl
  | calls id name => exact h
  | start handle id name data block => exact absurd rfl (hstart handle id name data block)
  | poll id => exact absurd rfl (hpoll id)
  | drop id => exact absurd rfl (hdrop id)
  | render handle name data block => exact render_ahead h n inert handle name data block
  | release gate => exact release_ahead h (sticks gate rfl)
  | parse handle name args executor =>
    exact h.parse hh inert (resolve v handle) name hop.arguments executor
  | drain => exact h.drain hh inert turnLimit

def remaining (renders : Entries Pending) (id : String) (p : Pending) :
    Polled (Except Error String) → Entries Pending
  | .pending => (renders.erase id).insert id p
  | _ => renders.erase id

theorem under_remaining (renders : Entries Pending) (id : String) (p : Pending)
    (seen : Polled (Except Error String)) :
    (remaining renders id p seen).under id =
      match seen with
      | .pending => (id, p) :: (renders.under id).tail.tail
      | _ => (renders.under id).tail := by
  cases seen <;> simp [remaining, Entries.under_insert, Entries.under_erase]

theorem poll_ahead (n : Nat) (h : World.Ahead old v.renders c v) (inert : Alike .inert v v)
    {id : String} {p : Pending} (hp : v.renders.get? id = some p) :
    let seen := (World.poll (hostAt n) p { v with renders := v.renders.erase id }).1
    (poll (hostAt n) v id).1 = .ofPolled seen ∧
      World.Ahead old (remaining v.renders id p seen) c (poll (hostAt n) v id).2 := by
  have hh := hostAt_lockstep Likeness.kept_inert n
  have erased : World.Ahead old (v.renders.erase id) c { v with renders := v.renders.erase id } :=
    ⟨h.handles, h.tables, h.loads, rfl⟩
  have inert' : Alike .inert { v with renders := v.renders.erase id }
      { v with renders := v.renders.erase id } :=
    Alike.setRenders inert (Pending.erase_alike (Alike.renders inert) id)
  have polled := erased.poll hh inert' p
  simp only [poll, hp]
  generalize World.poll (hostAt n) p { v with renders := v.renders.erase id } = x at polled
  obtain ⟨seen, v'⟩ := x
  cases seen with
  | panicked => exact ⟨rfl, polled⟩
  | ready result => exact ⟨rfl, polled⟩
  | pending =>
    refine ⟨rfl, polled.handles, polled.tables, polled.loads, ?_⟩
    exact congrArg (·.insert id p) polled.renders

theorem start_ahead (n : Nat) (h : World.Ahead old v.renders c v) (inert : Alike .inert v v)
    (handle : Nat) (id name : String) (data : Option Value) (block : Option String) :
    ∃ renders, World.Ahead old renders c (start (hostAt n) v handle id name data block).2 ∧
      ∀ other, id ≠ other → renders.under other = v.renders.under other := by
  have hh := hostAt_lockstep Likeness.kept_inert n
  have asked := h.ask hh inert (resolve v handle) name data block
  unfold start
  generalize World.ask (hostAt n) (resolve v handle) name data block v = x at asked
  obtain ⟨p, v'⟩ := x
  cases p with
  | none => exact ⟨_, asked, fun _ _ => rfl⟩
  | some p =>
    refine ⟨v.renders.insert id p, ⟨asked.handles, asked.tables, asked.loads, ?_⟩, fun other hne =>
      v.renders.under_insert_of_ne hne p⟩
    exact congrArg (·.insert id p) asked.renders

/-- Every operation keeps the world ahead, and leaves renders alone that it does not name. -/
theorem step_kept (n : Nat) (h : World.Ahead old v.renders c v) (inert : Alike .inert v v) {op : Op}
    (hop : op.Inert) (sticks : ∀ gate, op = .release gate → Sticks old c gate) :
    ∃ renders, World.Ahead old renders (bare c op) (step (hostAt n) v op).2 ∧
      ∀ id, (∀ handle name data block, op ≠ .start handle id name data block) → op ≠ .poll id →
        op ≠ .drop id → renders.under id = v.renders.under id := by
  by_cases hs : ∃ handle id name data block, op = .start handle id name data block
  · obtain ⟨handle, id, name, data, block, rfl⟩ := hs
    obtain ⟨renders, started, same⟩ := start_ahead n h inert handle id name data block
    refine ⟨renders, started, fun other hstart _ _ => same other ?_⟩
    rintro rfl
    exact hstart handle name data block rfl
  by_cases hp : ∃ id, op = .poll id
  · obtain ⟨id, rfl⟩ := hp
    cases hg : v.renders.get? id with
    | none =>
      refine ⟨v.renders, ?_, fun _ _ _ _ => rfl⟩
      simpa only [step, poll, hg, bare] using h
    | some p =>
      obtain ⟨-, polled⟩ := poll_ahead n h inert hg
      refine ⟨_, polled, fun other _ hpoll _ => ?_⟩
      have hne : id ≠ other := fun he => hpoll (he ▸ rfl)
      cases (World.poll (hostAt n) p { v with renders := v.renders.erase id }).1 with
      | pending =>
        simp only [remaining, Entries.under_insert_of_ne _ hne, Entries.under_erase_of_ne _ hne]
      | panicked => exact v.renders.under_erase_of_ne hne
      | ready result => exact v.renders.under_erase_of_ne hne
  by_cases hd : ∃ id, op = .drop id
  · obtain ⟨id, rfl⟩ := hd
    refine ⟨_, ⟨h.handles, h.tables, h.loads, rfl⟩, fun other _ _ hdrop => ?_⟩
    exact v.renders.under_erase_of_ne fun he => hdrop (he ▸ rfl)
  · have moved := step_ahead n h inert hop sticks
      (fun handle id name data block he => hs ⟨handle, id, name, data, block, he⟩)
      (fun id he => hp ⟨id, he⟩) fun id he => hd ⟨id, he⟩
    exact ⟨_, moved, fun _ _ _ _ => rfl⟩

-- ---------------------------------------------------------------------------
-- Two sessions
-- ---------------------------------------------------------------------------

/-- Two worlds that are ahead of a third one with the same loads. Under the names `ids` they keep
the same renders, all of them bound to these loads. -/
structure Abreast (old : Nat → Prop) (ids : String → Prop) (c u v : World Op) : Prop where
  left : World.Ahead old u.renders c u
  right : World.Ahead old v.renders c v
  inert_left : Alike .inert u u
  inert_right : Alike .inert v v
  same : ∀ id, ids id → v.renders.under id = u.renders.under id
  bound : ∀ id, ids id → ∀ e ∈ u.renders.under id, ∀ b, e.2.binding = some b → old b.load

namespace Abreast

variable {ids : String → Prop} (h : Abreast old ids c u v) (n : Nat)

include h

theorem poll {id : String} (hid : ids id) :
    (Session.poll (hostAt n) v id).1 = (Session.poll (hostAt n) u id).1 ∧
      (Session.poll (hostAt n) v id).2.renders.under id =
        (Session.poll (hostAt n) u id).2.renders.under id ∧
      ∀ e ∈ (Session.poll (hostAt n) u id).2.renders.under id, e ∈ u.renders.under id := by
  have same := h.same id hid
  have get : v.renders.get? id = u.renders.get? id := by
    rw [Entries.get?_eq_under, Entries.get?_eq_under, same]
  cases hp : u.renders.get? id with
  | none =>
    simp only [Session.poll, get, hp]
    exact ⟨trivial, same, fun e he => he⟩
  | some p =>
    obtain ⟨answer, left⟩ := poll_ahead n h.left h.inert_left hp
    obtain ⟨answer', right⟩ := poll_ahead n h.right h.inert_right (get.trans hp)
    have here : (id, p) ∈ u.renders.under id :=
      List.mem_filter.mpr ⟨Entries.mem_of_get? hp, by simp⟩
    have erased {w : World Op} (hw : World.Ahead old w.renders c w) :
        World.Ahead old (w.renders.erase id) c { w with renders := w.renders.erase id } :=
      ⟨hw.handles, hw.tables, hw.loads, rfl⟩
    have mute {w : World Op} (hw : w.Mute) :
        World.Mute { w with renders := w.renders.erase id } := ⟨hw.renderers, hw.loads⟩
    have seen : (World.poll (hostAt n) p { v with renders := v.renders.erase id }).1 =
        (World.poll (hostAt n) p { u with renders := u.renders.erase id }).1 :=
      (erased h.left).poll_fst (hostAt_logs n) (erased h.right) (mute (h.inert_left.mute trivial))
        (mute (h.inert_right.mute trivial)) (h.bound id hid _ here)
    rw [seen] at answer' right
    rw [left.renders, right.renders, under_remaining, under_remaining, same]
    refine ⟨answer'.trans answer.symm, rfl, fun e he => ?_⟩
    split at he
    · rcases List.mem_cons.mp he with rfl | he
      · exact here
      · exact List.mem_of_mem_tail (List.mem_of_mem_tail he)
    · exact List.mem_of_mem_tail he

variable {op : Op} (hop : op.Inert) (sticks : ∀ gate, op = .release gate → Sticks old c gate)

include hop sticks

theorem under_step {id : String} (hid : ids id)
    (hstart : ∀ handle name data block, op ≠ .start handle id name data block) :
    (step (hostAt n) v op).2.renders.under id = (step (hostAt n) u op).2.renders.under id ∧
      ∀ e ∈ (step (hostAt n) u op).2.renders.under id, e ∈ u.renders.under id := by
  by_cases hpoll : op = .poll id
  · subst hpoll
    exact (h.poll n hid).2
  by_cases hdrop : op = .drop id
  · subst hdrop
    simp only [step, Entries.under_erase, h.same id hid, true_and]
    exact fun e he => List.mem_of_mem_tail he
  · obtain ⟨renders, left, kept⟩ := step_kept n h.left h.inert_left hop sticks
    obtain ⟨renders', right, kept'⟩ := step_kept n h.right h.inert_right hop sticks
    rw [left.renders, right.renders, kept id hstart hpoll hdrop, kept' id hstart hpoll hdrop,
      h.same id hid]
    exact ⟨rfl, fun e he => he⟩

theorem step (hstart : ∀ id, ids id → ∀ handle name data block,
    op ≠ .start handle id name data block) :
    Abreast old ids (bare c op) (Session.step (hostAt n) u op).2
      (Session.step (hostAt n) v op).2 := by
  obtain ⟨renders, left, -⟩ := step_kept n h.left h.inert_left hop sticks
  obtain ⟨renders', right, -⟩ := step_kept n h.right h.inert_right hop sticks
  refine ⟨left.kept, right.kept, inert_step n h.inert_left hop, inert_step n h.inert_right hop,
    fun id hid => ?_, fun id hid e he => ?_⟩
  · exact (h.under_step n hop sticks hid (hstart id hid)).1
  · exact h.bound id hid e ((h.under_step n hop sticks hid (hstart id hid)).2 e he)

end Abreast

end Session
end Stencil
