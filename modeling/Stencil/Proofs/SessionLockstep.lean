import Stencil.Proofs.Lockstep
import Stencil.Proofs.Snapshot

/-!
# Sessions run in lockstep

A step of a session does the same in two worlds that are alike. Where the likeness is free, the two
steps may even differ: a call may take along other data and another block for its render, and the
callback of a parse call may perform such calls (`Op.Matched`). The answers are the same but for
those of the renders that differ.
-/

namespace Stencil

open World

variable {Ω : Type}

-- ---------------------------------------------------------------------------
-- Kept renders
-- ---------------------------------------------------------------------------

namespace Pending

variable {L : Likeness Ω} {es es' : Entries Pending} {p p' : Pending}

theorem get?_alike (h : List.Forall₂ (KeptTwin L) es es') (id : String) :
    es.get? id = none ∧ es'.get? id = none ∨
      ∃ p p', es.get? id = some p ∧ es'.get? id = some p' ∧ KeptTwin L (id, p) (id, p') := by
  induction h with
  | nil => exact .inl ⟨rfl, rfl⟩
  | @cons e e' _ _ he _ ih =>
    obtain ⟨_, p⟩ := e
    obtain ⟨key, p'⟩ := e'
    obtain ⟨rfl, hp⟩ := he
    by_cases hk : key = id
    · subst hk
      exact .inr ⟨p, p', by simp [Entries.get?], by simp [Entries.get?], rfl, hp⟩
    · simpa [Entries.get?, hk] using ih

theorem insert_alike (h : List.Forall₂ (KeptTwin L) es es') {id : String}
    (hp : KeptTwin L (id, p) (id, p')) :
    List.Forall₂ (KeptTwin L) (es.insert id p) (es'.insert id p') := by
  induction h with
  | nil => exact .cons hp .nil
  | @cons e e' _ _ he rest ih =>
    obtain ⟨_, q⟩ := e
    obtain ⟨key, q'⟩ := e'
    obtain ⟨rfl, hq⟩ := he
    by_cases hk : key = id
    · simp only [Entries.insert, hk, if_true]
      exact .cons hp rest
    · simp only [Entries.insert, hk, if_false]
      exact .cons ⟨rfl, hq⟩ ih

theorem erase_alike (h : List.Forall₂ (KeptTwin L) es es') (id : String) :
    List.Forall₂ (KeptTwin L) (es.erase id) (es'.erase id) := by
  induction h with
  | nil => exact .nil
  | @cons e e' _ _ he rest ih =>
    obtain ⟨_, q⟩ := e
    obtain ⟨key, q'⟩ := e'
    obtain ⟨rfl, hq⟩ := he
    by_cases hk : key = id
    · simp only [Entries.erase, hk, if_true]
      exact rest
    · simp only [Entries.erase, hk, if_false]
      exact .cons ⟨rfl, hq⟩ ih

end Pending

-- ---------------------------------------------------------------------------
-- Renders that differ
-- ---------------------------------------------------------------------------

/-- Two polls that find equally much: nothing yet, a panic, or some result. -/
inductive Polled.Like {α : Type} : Polled α → Polled α → Prop
  | pending : Like .pending .pending
  | panicked : Like .panicked .panicked
  | ready (a b : α) : Like (.ready a) (.ready b)

theorem Polled.Like.refl {α : Type} (x : Polled α) : x.Like x := by
  cases x <;> constructor

namespace World

variable {L : Likeness Ω} {w w' : World Ω} {host : Host Ω (World Ω)}

/-- What completes by a template logs, and does nothing else. Neither what it gives nor what it logs
depends on more of the world than the helpers. -/
theorem complete_mute (hl : host.Logs) (p : Pending) (b : Binding) {t : Option (Template Ω)}
    (ht : LoadResult.Mute (.ok t)) {table : HelperTable Ω} (hm : table.Mute) :
    ∃ out rs, ∀ w : World Ω, w.helpers p.renderer = table →
      complete host p b (.ok t) w = (out, w.logged rs) := by
  have ran {t : Template Ω} (ht : t.Mute) : ∃ out rs, ∀ w : World Ω,
      w.helpers p.renderer = table → runTemplate host p t w = (out, w.logged rs) := by
    have h := Template.run_aside hl ht hm (.object p.context)
    generalize t.run .logging table (.object p.context) [] = x at h
    obtain ⟨text, rs⟩ := x
    cases text with
    | some text =>
      refine ⟨.ok text, rs, fun w hw => ?_⟩
      simp only [World.helpers] at hw
      simp only [runTemplate, hw, h]
    | none =>
      refine ⟨.error (.templateRender p.name), rs ++ [.templatePanicked p.name], fun w hw => ?_⟩
      simp only [World.helpers] at hw
      simp only [runTemplate, hw, h]
      exact congrArg _ (w.logged_logged rs [_])
  unfold complete
  cases t with
  | none => exact ⟨.ok "", [.nothingLoaded p.name], fun w _ => rfl⟩
  | some t =>
    cases p.block with
    | none => exact ran (ht t rfl)
    | some name =>
      simp only
      cases hb : t.block? name with
      | none => exact ⟨.ok "", [.missingBlock p.name name], fun w _ => rfl⟩
      | some block => exact ran ((ht t rfl).of_block? hb)

theorem complete_twin (hh : host.Lockstep L) (free : L.free) {p p' : Pending}
    (hp : p.Twin L.free p') (b : Binding) {result : LoadResult (Template Ω)}
    (hr : LoadResult.Mute result) (hw : Alike L w w') :
    Alike L (complete host p b result w).2 (complete host p' b result w').2 := by
  have same : p'.renderer = p.renderer ∧ p'.name = p.name := by
    rcases hp with rfl | ⟨-, context, block, rfl⟩ <;> exact ⟨rfl, rfl⟩
  match result, hr with
  | .error e, _ =>
    -- eviction does not look at what the two differ in
    have evicted : evictFailed p' b w' = evictFailed p b w' := by
      simp only [evictFailed, same.1, same.2]
    simp only [complete, evicted]
    exact evictFailed_alike p b hw
  | .ok t, hr =>
    obtain ⟨out, rs, h⟩ := complete_mute hh.log p b hr (hw.mute_helpers p.renderer free)
    obtain ⟨out', rs', h'⟩ := complete_mute hh.log p' b hr (hw.mute_helpers p.renderer free)
    have helpers : w'.helpers p'.renderer = w.helpers p.renderer := by
      simp only [World.helpers, hw.renderer?, same.1]
    rw [h w rfl, h' w' helpers]
    exact hw.logged fun bound => absurd free bound

/-- Whether a render that differs finds a result, it finds it at the same time, and the worlds stay
alike. -/
theorem poll_twin (hh : host.Lockstep L) {p p' : Pending} (hp : p.Twin L.free p')
    (hw : Alike L w w') :
    (poll host p w).1.Like (poll host p' w').1 ∧
      Alike L (poll host p w).2 (poll host p' w').2 ∧
      (p' = p → (poll host p' w').1 = (poll host p w).1) := by
  by_cases he : p' = p
  · subst he
    have polled := poll_alike hh p' hw
    rw [polled.fst]
    exact ⟨.refl _, polled.snd, fun _ => rfl⟩
  · have free : L.free := (hp.resolve_left he).1
    have bound : p'.binding = p.binding := by
      rcases hp with rfl | ⟨-, context, block, rfl⟩ <;> rfl
    have name : p'.name = p.name := by
      rcases hp with rfl | ⟨-, context, block, rfl⟩ <;> rfl
    unfold poll
    rw [bound, name]
    cases p.binding with
    | none => exact ⟨.refl _, hw, fun h => absurd h he⟩
    | some b =>
      obtain ⟨polled, good⟩ := pollLoad_alike hh b.load hw
      simp only
      generalize pollLoad host b.load w = x at polled good
      generalize pollLoad host b.load w' = y at polled
      obtain ⟨a, hv⟩ := polled
      cases a with
      | pending => exact ⟨.refl _, hv, fun _ => rfl⟩
      | panicked => exact ⟨.refl _, hv, fun _ => rfl⟩
      | ready result =>
        have received := hv.note (.received hp result)
        exact ⟨.ready _ _, complete_twin hh free hp b (good result rfl free) received,
          fun h => absurd h he⟩

theorem ask_private (host : Host Ω (World Ω)) (i : Nat) (name : String)
    (data data' : Option Value) (block block' : Option String) (w : World Ω) :
    ask host i name data' block' w =
      ((ask host i name data block w).1.map fun p =>
          { p with
            context := ((w.renderer? i).map (·.addGlobals data')).getD []
            block := block'.filter (· != "") },
        (ask host i name data block w).2) := by
  unfold ask
  cases w.renderer? i with
  | none => rfl
  | some r =>
    cases hl : r.loader with
    | none => simp only [hl, Option.map_some, Option.getD_some]
    | some loader =>
      simp only [hl, Option.map_some, Option.getD_some]
      split <;> rfl

end World

-- ---------------------------------------------------------------------------
-- Operations
-- ---------------------------------------------------------------------------

def Op.BringsMute : Op → Prop
  | .registerHelper _ _ helper => helper.helper.Mute
  | .registerLoader _ id (.script s) => (s.loader id).Mute
  | _ => True

/-- Operations that run in lockstep, if those of callbacks that are `twin` do. -/
inductive Op.Matched (free : Prop) (ids : String → Prop) (twin : Op → Op → Prop) : Op → Op → Prop
  | same {op : Op} (h : ∀ handle name args executor, op ≠ .parse handle name args executor) :
      Matched free ids twin op op
  | parse (handle : Nat) (name : String) {args args' : Arguments (Receiver Op)}
      (h : args.Twin twin args') (executor : Bool) :
      Matched free ids twin (.parse handle name args executor) (.parse handle name args' executor)
  | start (hf : free) (handle : Nat) {id : String} (hid : ids id) (name : String)
      (data data' : Option Value) (block block' : Option String) :
      Matched free ids twin (.start handle id name data block) (.start handle id name data' block')
  | render (hf : free) (handle : Nat) (name : String) (data data' : Option Value)
      (block block' : Option String) :
      Matched free ids twin (.render handle name data block) (.render handle name data' block')

def Answer.ofPolled : Polled (Except Error String) → Answer
  | .pending => .pending
  | .panicked => .panicked
  | .ready result => .ofResult result

/-- The same answer, or the answers of two polls of renders that differ. -/
def Answer.Twin (free : Prop) (a a' : Answer) : Prop :=
  a' = a ∨ ∃ n p p' w w', p.Twin free p' ∧ p' ≠ p ∧
    a = ofPolled (World.poll (Session.hostAt n) p w).1 ∧
    a' = ofPolled (World.poll (Session.hostAt n) p' w').1

structure Likeness.Kept (L : Likeness Op) : Prop where
  refl : ¬ L.free → ∀ op, L.op op op
  told : ∀ {a a' : Answer}, a.Twin L.free a' → L.told a a'
  op : ∀ {op op' : Op}, L.op op op' →
    op.Matched L.free L.ids L.op op' ∧ (L.free → op.BringsMute)

namespace Session

variable {L : Likeness Op} {w w' : World Op} {host : SessionHost}

theorem hostAt_logs (n : Nat) : (hostAt n).Logs := by
  cases n <;> exact fun _ _ => rfl

theorem resolve_alike (hw : Alike L w w') (handle : Nat) :
    resolve w' handle = resolve w handle := by
  simp only [resolve, hw.handles, hw.renderers]

theorem view_alike (hw : Alike L w w') (handle : Nat) (f : Renderer Op → Answer) :
    Agree L (view w handle f) (view w' handle f) := by
  simp only [view, resolve_alike hw, hw.renderer?]
  exact .mk _ hw

theorem change_alike (hw : Alike L w w') (handle : Nat) {f : Renderer Op → Renderer Op}
    (mute : L.free → ∀ r, r.Mute → (f r).Mute) :
    Agree L (change w handle f) (change w' handle f) := by
  simp only [change, resolve_alike hw]
  exact .mk _ (hw.update _ mute)

theorem libraries_alike (hw : Alike L w w') (libraries : Entries Markup.Library) :
    Alike L { w with libraries := libraries } { w' with libraries := libraries } :=
  hw.change (f := fun v => { v with libraries := libraries }) (fun _ => rfl)
    fun _ hw => ⟨hw.renderers, hw.loads⟩

theorem registered_alike (hw : Alike L w w') (handle : Nat) {loader : Loader Op}
    (mute : L.free → loader.Mute) :
    Agree L (change w handle fun r => r.registerLoader loader)
      (change w' handle fun r => r.registerLoader loader) := by
  refine change_alike hw handle fun free r hr => ⟨hr.helpers, ?_⟩
  rintro _ ⟨⟩
  exact mute free

theorem registerLoader_alike (hw : Alike L w w') (handle : Nat) (id : String)
    (source : LoaderSource Op) (mute : L.free → (Op.registerLoader handle id source).BringsMute) :
    Agree L (registerLoader w handle id source) (registerLoader w' handle id source) := by
  cases source with
  | script s => exact registered_alike hw handle mute
  | library l =>
    simp only [registerLoader, hw.libraries]
    exact registered_alike (libraries_alike hw _) handle fun _ => l.mute_loader
  | kept env =>
    simp only [registerLoader, World.libraryFor, hw.libraries]
    exact registered_alike (libraries_alike hw _) handle fun _ => Markup.Library.mute_loader _

theorem flush_alike (hw : Alike L w w') (handle : Nat) :
    Agree L (flush w handle) (flush w' handle) := by
  simp only [flush, resolve_alike hw, hw.renderer?]
  split
  · exact .mk _ hw
  · refine change_alike ((hw.note (.refl _)).record _) handle fun _ r hr => ?_
    exact ⟨hr.helpers, hr.loader⟩

theorem created_alike (hw : Alike L w w') (c : Config) :
    Alike L (w.addRenderer (.ofConfig c)) (w'.addRenderer (.ofConfig c)) :=
  hw.change (f := fun v => v.addRenderer (.ofConfig c)) (fun _ => rfl) fun _ hm =>
    ⟨List.forall_mem_append.mpr ⟨hm.renderers, by simpa using Renderer.mute_ofConfig c⟩, hm.loads⟩

theorem release_alike (hw : Alike L w w') (gate : String) :
    Agree L (w.release gate) (w'.release gate) := by
  have woken (loads : List Nat) {v v' : World Op} (hv : Alike L v v') :
      Alike L (loads.foldl wake v) (loads.foldl wake v') := by
    induction loads generalizing v v' with
    | nil => exact hv
    | cons load rest ih => exact ih (hv.wake load)
  simp only [World.release, hw.loads]
  exact .mk _ (woken _ (hw.setLoads fun free => (hw.mute free).loads.release gate))

-- ---------------------------------------------------------------------------
-- Renders
-- ---------------------------------------------------------------------------

/-- Two steps leave worlds alike. Their answers are the same if the operations are, and if these
poll no renders that differ. -/
structure Steps (L : Likeness Op) (op op' : Op) (w w' : World Op) (x y : Answer × World Op) :
    Prop where
  alike : Alike L x.2 y.2
  told : x.1.Twin L.free y.1
  same : op' = op → (∀ id, op = .poll id → w'.renders.get? id = w.renders.get? id) → y.1 = x.1

theorem Steps.of_agree {op op' : Op} {x y : Answer × World Op} (h : Agree L x y) :
    Steps L op op' w w' x y :=
  ⟨h.snd, .inl h.fst, fun _ _ => h.fst⟩

variable (n : Nat) (hh : (hostAt n).Lockstep L)

include hh

theorem ofPolled_twin {p p' : Pending} (hp : p.Twin L.free p') (hw : Alike L w w') :
    (Answer.ofPolled (World.poll (hostAt n) p w).1).Twin L.free
      (Answer.ofPolled (World.poll (hostAt n) p' w').1) := by
  by_cases he : p' = p
  · rw [(poll_twin hh hp hw).2.2 he]
    exact .inl rfl
  · exact .inr ⟨n, p, p', w, w', hp, he, rfl, rfl⟩

theorem poll_steps (id : String) (hw : Alike L w w') :
    Steps L (.poll id) (.poll id) w w' (poll (hostAt n) w id) (poll (hostAt n) w' id) := by
  unfold poll
  rcases Pending.get?_alike hw.renders id with ⟨hn, hn'⟩ | ⟨p, p', hp, hp', kept⟩
  · rw [hn, hn']
    exact .of_agree (.mk _ hw)
  · have twin : p.Twin L.free p' := kept.2.elim .inl (·.2)
    have erased := hw.setRenders (Pending.erase_alike hw.renders id)
    obtain ⟨like, after, same⟩ := poll_twin hh twin erased
    have told := ofPolled_twin n hh twin erased
    rw [hp, hp']
    simp only
    replace same (h : ∀ i, Op.poll id = .poll i → w'.renders.get? i = w.renders.get? i) :=
      same (by simpa [hp, hp'] using h id rfl)
    generalize World.poll (hostAt n) p { w with renders := w.renders.erase id } = x at *
    generalize World.poll (hostAt n) p' { w' with renders := w'.renders.erase id } = y at *
    obtain ⟨a, v⟩ := x
    obtain ⟨a', v'⟩ := y
    cases like with
    | pending =>
      have kept' := after.setRenders (Pending.insert_alike after.renders kept)
      exact ⟨kept', told, fun _ _ => rfl⟩
    | panicked => exact ⟨after, told, fun _ _ => rfl⟩
    | ready r r' => exact ⟨after, told, fun _ h => by cases same h; rfl⟩

theorem ask_twin (handle : Nat) (name : String) (data data' : Option Value)
    (block block' : Option String) (free : L.free) (hw : Alike L w w') :
    Alike L (w.ask (hostAt n) (resolve w handle) name data block).2
        (w'.ask (hostAt n) (resolve w' handle) name data' block').2 ∧
      Option.Rel (Pending.Twin L.free) (w.ask (hostAt n) (resolve w handle) name data block).1
        (w'.ask (hostAt n) (resolve w' handle) name data' block').1 := by
  have asked := ask_alike hh (resolve w handle) name data block hw
  rw [resolve_alike hw, ask_private _ _ _ data data' block block']
  refine ⟨asked.snd, ?_⟩
  rw [asked.fst]
  cases (w.ask (hostAt n) (resolve w handle) name data block).1 with
  | none => exact .none
  | some p => exact .some (.inr ⟨free, _, _, rfl⟩)

theorem start_agree (handle : Nat) (id name : String) (data : Option Value)
    (block : Option String) (hw : Alike L w w') :
    Agree L (start (hostAt n) w handle id name data block)
      (start (hostAt n) w' handle id name data block) := by
  have asked := ask_alike hh (resolve w handle) name data block hw
  unfold start
  rw [resolve_alike hw]
  generalize w.ask (hostAt n) (resolve w handle) name data block = x at asked
  generalize w'.ask (hostAt n) (resolve w handle) name data block = y at asked
  obtain ⟨p, hv⟩ := asked
  cases p with
  | none => exact .mk _ hv
  | some p => exact .mk _ (hv.setRenders (Pending.insert_alike hv.renders ⟨rfl, .inl rfl⟩))

theorem start_steps (free : L.free) (handle : Nat) {id : String} (hid : L.ids id) (name : String)
    (data data' : Option Value) (block block' : Option String) (hw : Alike L w w') :
    Steps L (.start handle id name data block) (.start handle id name data' block') w w'
      (start (hostAt n) w handle id name data block)
      (start (hostAt n) w' handle id name data' block') := by
  obtain ⟨hv, asked⟩ := ask_twin n hh handle name data data' block block' free hw
  unfold start
  generalize w.ask (hostAt n) (resolve w handle) name data block = x at hv asked
  generalize w'.ask (hostAt n) (resolve w' handle) name data' block' = y at hv asked
  obtain ⟨p, v⟩ := x
  obtain ⟨p', v'⟩ := y
  cases asked with
  | none => exact .of_agree (.mk _ hv)
  | @some p p' twin =>
    have kept : Pending.KeptTwin L (id, p) (id, p') := ⟨rfl, .inr ⟨hid, twin⟩⟩
    exact .of_agree (.mk _ (hv.setRenders (Pending.insert_alike hv.renders kept)))

theorem render_agree (handle : Nat) (name : String) (data : Option Value)
    (block : Option String) (hw : Alike L w w') :
    Agree L (render (hostAt n) w handle name data block)
      (render (hostAt n) w' handle name data block) := by
  have asked := ask_alike hh (resolve w handle) name data block hw
  unfold render
  rw [resolve_alike hw]
  generalize w.ask (hostAt n) (resolve w handle) name data block = x at asked
  generalize w'.ask (hostAt n) (resolve w handle) name data block = y at asked
  obtain ⟨p, hv⟩ := asked
  cases p with
  | none => exact .mk _ hv
  | some p =>
    have polled := poll_alike hh p hv
    simp only
    generalize World.poll (hostAt n) p _ = x at polled
    generalize World.poll (hostAt n) p _ = y at polled
    obtain ⟨a, hu⟩ := polled
    cases a <;> exact .mk _ hu

theorem render_steps (free : L.free) (handle : Nat) (name : String) (data data' : Option Value)
    (block block' : Option String) (hw : Alike L w w') :
    Steps L (.render handle name data block) (.render handle name data' block') w w'
      (render (hostAt n) w handle name data block)
      (render (hostAt n) w' handle name data' block') := by
  by_cases he : data' = data ∧ block' = block
  · obtain ⟨rfl, rfl⟩ := he
    exact .of_agree (render_agree n hh handle name data' block' hw)
  · have differ {a a' : Answer} : Op.render handle name data' block' =
        Op.render handle name data block → a' = a := by
      intro h
      cases h
      exact absurd ⟨rfl, rfl⟩ he
    obtain ⟨hv, asked⟩ := ask_twin n hh handle name data data' block block' free hw
    unfold render
    generalize w.ask (hostAt n) (resolve w handle) name data block = x at hv asked
    generalize w'.ask (hostAt n) (resolve w' handle) name data' block' = y at hv asked
    obtain ⟨p, v⟩ := x
    obtain ⟨p', v'⟩ := y
    cases asked with
    | none => exact .of_agree (.mk _ hv)
    | some twin =>
      obtain ⟨like, after, -⟩ := poll_twin hh twin hv
      have told := ofPolled_twin n hh twin hv
      simp only
      generalize World.poll (hostAt n) _ v = x at like after told
      generalize World.poll (hostAt n) _ v' = y at like after told
      obtain ⟨a, u⟩ := x
      obtain ⟨a', u'⟩ := y
      cases like with
      | pending => exact .of_agree (.mk _ after)
      | panicked => exact .of_agree (.mk _ after)
      | ready r r' => exact ⟨after, told, fun h _ => differ h⟩

-- ---------------------------------------------------------------------------
-- Steps
-- ---------------------------------------------------------------------------

theorem step_agree {op : Op}
    (h : ∀ handle name args executor, op ≠ .parse handle name args executor)
    (hp : ∀ id, op ≠ .poll id) (mute : L.free → op.BringsMute) (hw : Alike L w w') :
    Agree L (step (hostAt n) w op) (step (hostAt n) w' op) := by
  cases op with
  | create config =>
    simp only [step, hw.handles]
    cases config.read with
    | error e => exact .mk _ hw
    | ok c => exact .mk _ (created_alike hw c)
  | share handle =>
    simp only [step, hw.handles, resolve_alike hw]
    exact .mk _ (hw.change (f := fun v => v.addHandle (resolve w handle)) (fun _ => rfl)
      fun _ hm => ⟨hm.renderers, hm.loads⟩)
  | helperNames handle => exact view_alike hw handle _
  | hasLoader handle => exact view_alike hw handle _
  | flush handle => exact flush_alike hw handle
  | isCached handle name => exact view_alike hw handle _
  | inspect handle => exact view_alike hw handle _
  | registerHelper handle name helper =>
    refine change_alike hw handle fun free r hr => ⟨?_, hr.loader⟩
    exact hr.helpers.register (mute free) name
  | setGlobal handle key v => exact change_alike hw handle fun _ r hr => ⟨hr.helpers, hr.loader⟩
  | addGlobals handle data => exact view_alike hw handle _
  | callHelper handle name this args =>
    simp only [step, resolve_alike hw, hw.renderer?]
    cases hr : w.renderer? (resolve w handle) with
    | none => exact .mk _ hw
    | some r =>
      have table (free : L.free) : r.helpers.Mute :=
        ((hw.mute free).renderers r (List.mem_of_getElem? hr)).helpers
      have dispatched := HelperTable.dispatch_alike hh table this name args hw
      exact .intro (by simp only [dispatched.fst]) dispatched.snd
  | registerLoader handle id loader => exact registerLoader_alike hw handle id loader mute
  | addSource id name source env =>
    simp only [step, World.libraryFor, hw.libraries]
    exact .mk _ (libraries_alike hw _)
  | calls id name =>
    simp only [step, hw.callCount]
    exact .mk _ hw
  | start handle id name data block => exact start_agree n hh handle id name data block hw
  | poll id => exact absurd rfl (hp id)
  | drop id =>
    have contains : w'.renders.contains id = w.renders.contains id := by
      rcases Pending.get?_alike hw.renders id with ⟨hn, hn'⟩ | ⟨p, p', hp, hp', -⟩
      · simp only [Entries.contains, hn, hn']
      · simp only [Entries.contains, hp, hp', Option.isSome_some]
    simp only [step, contains]
    exact .mk _ (hw.setRenders (Pending.erase_alike hw.renders id))
  | render handle name data block => exact render_agree n hh handle name data block hw
  | release gate =>
    have released := release_alike hw gate
    exact .intro (by simp only [step, released.fst]) released.snd
  | parse handle name args executor => exact absurd rfl (h handle name args executor)
  | drain => exact .mk _ (drain_alike hh turnLimit hw)

theorem step_steps {op op' : Op} (matched : op.Matched L.free L.ids L.op op')
    (mute : L.free → op.BringsMute) (hw : Alike L w w') :
    Steps L op op' w w' (step (hostAt n) w op) (step (hostAt n) w' op') := by
  cases matched with
  | same h =>
    by_cases hp : ∃ id, op = .poll id
    · obtain ⟨id, rfl⟩ := hp
      exact poll_steps n hh id hw
    · exact .of_agree (step_agree n hh h (fun id he => hp ⟨id, he⟩) mute hw)
  | parse handle name twin executor =>
    simp only [step, resolve_alike hw]
    exact .of_agree (parse_alike hh _ name twin executor hw)
  | start free handle hid name data data' block block' =>
    exact start_steps n hh free handle hid name data data' block block' hw
  | render free handle name data data' block block' =>
    exact render_steps n hh free handle name data data' block block' hw

omit hh in
theorem hostAt_lockstep (hL : L.Kept) (n : Nat) : (hostAt n).Lockstep L := by
  induction n with
  | zero => exact ⟨fun _ _ _ _ hw => .mk _ hw, fun _ _ _ hw => hw, hostAt_logs 0⟩
  | succ n ih =>
    have steps {op op' : Op} (h : L.op op op') {w w' : World Op} (hw : Alike L w w') :=
      step_steps n ih (hL.op h).1 (hL.op h).2 hw
    refine ⟨fun bound op w w' hw => ?_, fun h w w' hw => ?_, hostAt_logs (n + 1)⟩
    · have stepped := steps (hL.refl bound op) hw
      refine .intro ?_ (stepped.alike.recordAnswer (hL.told stepped.told))
      rcases stepped.told with he | ⟨_, p, p', _, _, twin, hne, -⟩
      · exact he
      · exact absurd (twin.resolve_left hne).1 bound
    · have stepped := steps h hw
      exact stepped.alike.recordAnswer (hL.told stepped.told)

omit hh in
theorem cleared_alike (h : Alike L w w') : Alike L (cleared w) (cleared w') where
  core := congrArg (fun v : World Op => { v with outputs := [] }) h.core
  renders := h.renders
  ready := h.ready
  yielded := h.yielded
  parked := h.parked
  log _ := rfl
  answers := .nil
  history := h.history
  mute free := ⟨(h.mute free).renderers, (h.mute free).loads⟩

end Session
end Stencil
