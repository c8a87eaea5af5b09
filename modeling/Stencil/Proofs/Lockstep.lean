import Stencil.Proofs.Likeness

/-!
# Operations run in lockstep

Every function that works on a world gives the same in two worlds that are alike, and leaves them
alike. Nothing that it does depends on what the two differ in.
-/

namespace Stencil

open World

variable {Ω α : Type} {L : Likeness Ω} {w w' : World Ω} {host : Host Ω (World Ω)}

/-- A host that keeps worlds alike. Code has to be told the same only if it may perform operations
at all. -/
structure Host.Lockstep (L : Likeness Ω) (host : Host Ω (World Ω)) : Prop where
  perform : ¬ L.free → ∀ op {w w' : World Ω}, Alike L w w' →
    Agree L (host.perform op w) (host.perform op w')
  twin : ∀ {op op'}, L.op op op' → ∀ {w w' : World Ω}, Alike L w w' →
    Alike L (host.perform op w).2 (host.perform op' w').2
  log : host.Logs

-- ---------------------------------------------------------------------------
-- Code
-- ---------------------------------------------------------------------------

def Dispatcher.Lockstep (L : Likeness Ω) (d : Dispatcher (World Ω)) : Prop :=
  ∀ this name args {w w' : World Ω}, Alike L w w' →
    Agree L (d.dispatch this name args w) (d.dispatch this name args w')

theorem Dispatcher.none_lockstep : (Dispatcher.none : Dispatcher (World Ω)).Lockstep L :=
  fun _ _ _ _ _ h => .mk "" h

section

variable (hh : host.Lockstep L)

include hh

theorem Host.Lockstep.logged (hw : Alike L w w') (r : Record) :
    Alike L (host.log r w) (host.log r w') := by
  rw [hh.log r w, hh.log r w']
  exact hw.record r

theorem Code.run_alike {d : Dispatcher (World Ω)} (hd : d.Lockstep L) {good : α → Prop}
    {c : Code Ω α} (hc : L.free → c.Makes Call.IsMute good) (hw : Alike L w w') :
    Agree L (c.run host d w) (c.run host d w') ∧
      ∀ a, (c.run host d w).1 = some a → L.free → good a := by
  induction c generalizing w w' with
  | done a =>
    refine ⟨.mk _ hw, ?_⟩
    rintro _ ⟨⟩
    exact hc
  | panic => exact ⟨.mk _ hw, nofun⟩
  | log r next ih => exact ih (fun free => (hc free).2) (hh.logged hw r)
  | perform op next ih =>
    have bound : ¬ L.free := fun free => (hc free).1
    have performed := hh.perform bound op hw
    simp only [run, performed.fst]
    exact ih _ (fun free => absurd free bound) performed.snd
  | names next ih => exact ih _ (fun free => (hc free).2 _) hw
  | dispatch this name args next ih =>
    have dispatched := hd this name args hw
    simp only [run, dispatched.fst]
    exact ih _ (fun free => (hc free).2 _) dispatched.snd

theorem HelperTable.call_alike {helper : Helper Ω} (hm : L.free → helper.Mute) (this : Value)
    (args : List Value) (hw : Alike L w w') :
    Agree L (call host helper this args w) (call host helper this args w') := by
  obtain ⟨ran, -⟩ := Code.run_alike hh Dispatcher.none_lockstep (fun free => hm free this args) hw
  unfold call
  generalize (helper this args).run host .none w = x at ran
  generalize (helper this args).run host .none w' = y at ran
  obtain ⟨a, hv⟩ := ran
  match a with
  | some (.ok v) => exact .mk _ hv
  | some (.error e) => exact .mk _ hv
  | none => exact .mk _ hv

theorem HelperTable.dispatch_alike {t : HelperTable Ω} (ht : L.free → t.Mute) (this : Value)
    (name : String) (args : List Value) (hw : Alike L w w') :
    Agree L (t.dispatch host this name args w) (t.dispatch host this name args w') := by
  unfold dispatch
  cases hg : t.get? name with
  | none => exact .mk _ hw
  | some helper =>
    have called := call_alike hh (fun free => ht free _ (Entries.mem_of_get? hg)) this args hw
    simp only
    generalize call host helper this args w = x at called
    generalize call host helper this args w' = y at called
    obtain ⟨a, hv⟩ := called
    cases a with
    | value v => exact .mk _ hv
    | error e => exact .mk _ (hh.logged hv _)
    | panic => exact .mk _ (hh.logged hv _)

theorem Template.run_alike {helpers : HelperTable Ω} (hm : L.free → helpers.Mute)
    {t : Template Ω} (ht : L.free → t.Mute) (context : Value) (hw : Alike L w w') :
    Agree L (t.run host helpers context w) (t.run host helpers context w') := by
  obtain ⟨ran, -⟩ := Code.run_alike (d := helpers.dispatcher host) hh
    (fun this name args _ _ h => HelperTable.dispatch_alike hh hm this name args h)
    (fun free => (ht free).body context) hw
  unfold run call
  generalize (t.body context).run host (helpers.dispatcher host) w = x at ran
  generalize (t.body context).run host (helpers.dispatcher host) w' = y at ran
  obtain ⟨a, hv⟩ := ran
  cases a with
  | none => exact .mk _ hv
  | some v => exact .mk _ hv

end

namespace World

-- ---------------------------------------------------------------------------
-- Calls
-- ---------------------------------------------------------------------------

section

variable (hh : host.Lockstep L)

include hh

theorem runLoader_alike {loader : Loader Ω} (hm : L.free → loader.Mute) (load : Nat)
    (name : String) (hw : Alike L w w') :
    Agree L (runLoader host loader load name w) (runLoader host loader load name w') := by
  have before : (loader.counter.map (w'.callCount · name)).getD 0 =
      (loader.counter.map (w.callCount · name)).getD 0 := by
    simp only [hw.callCount]
  obtain ⟨ran, good⟩ := Code.run_alike hh Dispatcher.none_lockstep
    (fun free => hm free ((loader.counter.map (w.callCount · name)).getD 0) name)
    (hw.countCall loader.counter name)
  unfold runLoader
  simp only [before]
  generalize Code.run host .none _ (w.countCall loader.counter name) = x at ran good
  generalize Code.run host .none _ (w'.countCall loader.counter name) = y at ran
  obtain ⟨a, hv⟩ := ran
  cases a with
  | none =>
    simp only [hv.loads]
    refine .mk _ (.wake (hv.setLoads fun free => ?_) load)
    exact (hv.mute free).loads.orphan (LoadResult.mute_error _) load
  | some h =>
    simp only [hv.loads]
    refine .mk _ (.wake (hv.setLoads fun free => ?_) load)
    have mute := good h rfl free
    exact (hv.mute free).loads.start mute.plan mute.work load

omit hh in
theorem opened_alike (hw : Alike L w w') (i : Nat) (r : Renderer Ω) (name : String) :
    Alike L (w.opened i r name) (w'.opened i r name) := by
  have reserved : Alike L (w.reserve i r name).2 (w'.reserve i r name).2 := by
    unfold reserve
    simp only [hw.loads]
    exact (hw.setLoads fun free => (hw.mute free).loads.reserve).setCache i _
  unfold opened invoked
  rw [hw.loads]
  exact (reserved.note (.refl _)).record _

/-- What a call takes along is the same for both, and so is what it is bound to. -/
theorem ask_alike (i : Nat) (name : String) (data : Option Value) (block : Option String)
    (hw : Alike L w w') :
    Agree L (ask host i name data block w) (ask host i name data block w') := by
  cases hr : w.renderer? i with
  | none =>
    have hr' := (hw.renderer? i).trans hr
    simp only [ask, hr, hr']
    exact .mk _ hw
  | some r =>
    have hr' := (hw.renderer? i).trans hr
    cases hl : r.loader with
    | none =>
      simp only [ask_of_no_loader hr hl, ask_of_no_loader hr' hl]
      exact .mk _ hw
    | some loader =>
      cases hn : r.cache.entries.get? name with
      | some a =>
        obtain ⟨g, l⟩ := a
        simp only [ask_of_hit hr hl hn, ask_of_hit hr' hl hn]
        exact .mk _ (hw.record _)
      | none =>
        have mute (free : L.free) : loader.Mute :=
          ((hw.mute free).renderers r (List.mem_of_getElem? hr)).loader loader hl
        have ran := runLoader_alike hh mute w.loads.slots.length name
          (opened_alike hw i r name)
        simp only [ask_of_miss hr hl hn, ask_of_miss hr' hl hn, hw.loads]
        exact .intro (by simp only [ran.fst]) ran.snd

-- ---------------------------------------------------------------------------
-- Polls
-- ---------------------------------------------------------------------------

theorem drive_alike (load : Nat) (hw : Alike L w w') :
    Agree L (drive host load w) (drive host load w') := by
  unfold drive
  simp only [hw.loads]
  cases hk : w.loads.worker load with
  | absent => exact .mk _ hw
  | busy work => exact .mk _ hw
  | poisoned => exact .mk _ hw
  | idle work =>
    have mute (free : L.free) : Work.Mute work := (hw.mute free).loads.of_worker hk
    obtain ⟨ran, good⟩ := Code.run_alike hh Dispatcher.none_lockstep mute
      (hw.setLoads fun free => (hw.mute free).loads.enter load)
    simp only
    generalize work.run host .none { w with loads := w.loads.enter load } = x at ran good
    generalize work.run host .none { w' with loads := w.loads.enter load } = y at ran
    obtain ⟨a, hv⟩ := ran
    cases a with
    | none =>
      simp only [hv.loads]
      exact .mk _ (hv.setLoads fun free => (hv.mute free).loads.poison load)
    | some found =>
      simp only [hv.loads]
      exact .mk _ (hv.setLoads fun free => (hv.mute free).loads.leave (good found rfl free) load)

theorem pollLoad_alike (load : Nat) (hw : Alike L w w') :
    Agree L (pollLoad host load w) (pollLoad host load w') ∧
      ∀ result, (pollLoad host load w).1 = .ready result → L.free → LoadResult.Mute result := by
  have driven := drive_alike hh load hw
  unfold pollLoad
  generalize drive host load w = x at driven
  generalize drive host load w' = y at driven
  obtain ⟨kept, hv⟩ := driven
  cases kept with
  | false => exact ⟨.mk _ hv, nofun⟩
  | true =>
    rename_i v v'
    simp only [hv.loads]
    have looked (free : L.free) : (v.loads.poll load).2.All LoadResult.Mute Work.Mute :=
      (hv.mute free).loads.poll load
    cases hr : (v.loads.poll load).1 with
    | none => exact ⟨.mk _ (hv.setLoads looked), nofun⟩
    | some result =>
      refine ⟨.mk _ ((hv.wake load).setLoads looked), ?_⟩
      rintro _ ⟨⟩ free
      exact (hv.mute free).loads.of_poll hr

omit hh in
theorem evictFailed_alike (p : Pending) (b : Binding) (hw : Alike L w w') :
    Alike L (evictFailed p b w) (evictFailed p b w') := by
  unfold evictFailed
  rw [hw.renderer?]
  split
  · split
    · simp only
      split
      · exact (hw.setCache _ _).record _
      · exact hw
    · exact hw
  · exact hw

theorem runTemplate_alike (p : Pending) {t : Template Ω} (ht : L.free → t.Mute)
    (hw : Alike L w w') : Agree L (runTemplate host p t w) (runTemplate host p t w') := by
  have ran := Template.run_alike hh (hw.mute_helpers p.renderer) ht (.object p.context) hw
  unfold runTemplate
  simp only [hw.renderer?]
  generalize t.run host _ (.object p.context) w = x at ran
  generalize t.run host _ (.object p.context) w' = y at ran
  obtain ⟨a, hv⟩ := ran
  cases a with
  | none => exact .mk _ (hv.record _)
  | some output => exact .mk _ hv

theorem complete_alike (p : Pending) (b : Binding) {result : LoadResult (Template Ω)}
    (hr : L.free → LoadResult.Mute result) (hw : Alike L w w') :
    Agree L (complete host p b result w) (complete host p b result w') := by
  unfold complete
  match result with
  | .error e => exact .mk _ (evictFailed_alike p b hw)
  | .ok none => exact .mk _ (hw.record _)
  | .ok (some t) =>
    have ht (free : L.free) : t.Mute := hr free t rfl
    cases p.block with
    | none => exact runTemplate_alike hh p ht hw
    | some name =>
      simp only
      cases hb : t.block? name with
      | none => exact .mk _ (hw.record _)
      | some block => exact runTemplate_alike hh p (fun free => (ht free).of_block? hb) hw

theorem poll_alike (p : Pending) (hw : Alike L w w') :
    Agree L (poll host p w) (poll host p w') := by
  unfold poll
  cases p.binding with
  | none => exact .mk _ hw
  | some b =>
    obtain ⟨polled, good⟩ := pollLoad_alike hh b.load hw
    simp only
    generalize pollLoad host b.load w = x at polled good
    generalize pollLoad host b.load w' = y at polled
    obtain ⟨a, hv⟩ := polled
    cases a with
    | pending => exact .mk _ hv
    | panicked => exact .mk _ hv
    | ready result =>
      have completed := complete_alike hh p b (good result rfl)
        (hv.note (.refl (.received p result)))
      exact .intro (by simp only [completed.fst]) completed.snd

-- ---------------------------------------------------------------------------
-- Parse calls and tasks
-- ---------------------------------------------------------------------------

theorem performAll_alike {ops ops' : List Ω} (ho : List.Forall₂ L.op ops ops')
    (hw : Alike L w w') : Alike L (performAll host ops w) (performAll host ops' w') := by
  induction ho generalizing w w' with
  | nil => exact hw
  | cons hop rest ih => exact ih (hh.twin hop hw)

theorem receive_alike {r r' : Receiver Ω} (hr : r.Twin L.op r') (output : String)
    (hw : Alike L w w') : Alike L (receive host r output w) (receive host r' output w') := by
  unfold receive
  rw [hr.label]
  exact performAll_alike hh hr.ops (hw.recordOutput _ _)

theorem schedule_alike (i : Nat) (name : String) {args args' : Arguments (Receiver Ω)}
    (ha : args.Twin L.op args') {r r' : Receiver Ω} (hr : r.Twin L.op r') (hw : Alike L w w') :
    Agree L (schedule host i name args r w) (schedule host i name args' r' w') := by
  obtain @⟨b, _, d, _, _, _, hb, hd, -⟩ := ha
  unfold schedule
  simp only [hb.selection, hd.data?]
  cases selection b with
  | none => exact .mk _ (hw.spawn _ hr)
  | some block =>
    have asked := ask_alike hh i name d.data? block hw
    simp only
    generalize ask host i name d.data? block w = x at asked
    generalize ask host i name d.data? block w' = y at asked
    obtain ⟨p, hv⟩ := asked
    cases p with
    | none => exact .mk _ hv
    | some p => exact .mk _ (hv.spawn _ hr)

theorem parseShifted_alike (i : Nat) (name : String) {args args' : Arguments (Receiver Ω)}
    (ha : args.Twin L.op args') (hw : Alike L w w') :
    Agree L (parseShifted host i name args w) (parseShifted host i name args' w') := by
  unfold parseShifted
  rw [hw.inExecutor]
  obtain ⟨hb, hd, hc⟩ := ha
  cases hc with
  | absent => exact .mk _ hw
  | block => exact .mk _ hw
  | data => exact .mk _ hw
  | callback hr =>
    simp only [Argument.callback?]
    split
    · exact .mk _ (receive_alike hh hr "" hw)
    · split
      · exact schedule_alike hh i name ⟨hb, hd, .callback hr⟩ hr hw
      · exact .mk _ hw

theorem parse_alike (i : Nat) (name : String) {args args' : Arguments (Receiver Ω)}
    (ha : args.Twin L.op args') (executor : Bool) (hw : Alike L w w') :
    Agree L (parse host i name args executor w) (parse host i name args' executor w') := by
  have parsed := parseShifted_alike hh i name ha.shift
    (hw.setInExecutor (w.inExecutor || executor))
  unfold parse
  simp only [hw.inExecutor]
  exact .intro parsed.fst (parsed.snd.setInExecutor w.inExecutor)

omit hh in
theorem finish_alike {t t' : Task Ω} (ht : t.Twin L.op t') (result : Except Error String)
    (hw : Alike L w w') : Alike L (finish t result w) (finish t' result w') := by
  unfold finish
  rw [ht.id]
  have hm := hw.mark (.rendered t.id result)
  cases result with
  | error e => exact hm.record _
  | ok output =>
    have next : Task.Twin L.op { t with stage := .yielded output }
        { t' with stage := .yielded output } := ⟨ht.id, rfl, ht.receiver⟩
    exact hm.setTasks hm.ready (List.rel_append hm.yielded (.cons next .nil)) hm.parked

theorem turn_alike {t t' : Task Ω} (ht : t.Twin L.op t') (hw : Alike L w w') :
    Alike L (turn host t w) (turn host t' w') := by
  unfold turn
  rw [ht.stage]
  cases t.stage with
  | settled output => exact finish_alike ht _ hw
  | yielded output =>
    rw [ht.id]
    exact receive_alike hh ht.receiver output (hw.mark _)
  | rendering p =>
    have polled := poll_alike hh p hw
    simp only
    generalize poll host p w = x at polled
    generalize poll host p w' = y at polled
    obtain ⟨a, hv⟩ := polled
    cases a with
    | pending => exact hv.setTasks hv.ready hv.yielded (List.rel_append hv.parked (.cons ht .nil))
    | panicked =>
      simp only [ht.id]
      exact hv.mark _
    | ready result => exact finish_alike ht result hv

theorem turns_alike (n : Nat) (hw : Alike L w w') :
    Alike L (turns host n w) (turns host n w') := by
  induction n generalizing w w' with
  | zero => exact hw
  | succ n ih =>
    have ready := hw.ready
    unfold turns
    generalize w.ready = ts at ready
    generalize w'.ready = ts' at ready
    cases ready with
    | cons ht rest => exact ih (turn_alike hh ht (hw.setTasks rest hw.yielded hw.parked))
    | nil =>
      have empty : w'.yielded.isEmpty = w.yielded.isEmpty := by
        rw [Bool.eq_iff_iff, List.isEmpty_iff_length_eq_zero, List.isEmpty_iff_length_eq_zero,
          hw.yielded.length_eq]
      simp only [empty]
      split
      · exact hw
      · exact ih (hw.setTasks hw.yielded .nil hw.parked)

theorem drain_alike (n : Nat) (hw : Alike L w w') :
    Alike L (drain host n w) (drain host n w') := by
  unfold drain
  rw [hw.inExecutor]
  exact (turns_alike hh n (hw.setInExecutor true)).setInExecutor _

end

end World
end Stencil
