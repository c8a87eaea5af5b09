import Stencil.Proofs.Loads
import Stencil.World

/-!
# Code that is plain

Code is plain if it logs nothing but certain records, and if all code that it hands on is plain in
turn: the templates that a loader loads, the work of a load's future. A world is plain if all code
in it is, be it kept by a renderer, in a load, or in an event that waits behind a gate. Which
records are `ok` is left open.
-/

namespace Stencil

variable {Ω α β : Type} {ok : Record → Prop}

/-- Whether a record is about entries of a cache that come or go. -/
def Record.ofCache : Record → Bool
  | .loading _ | .evicted _ | .flushing _ => true
  | _ => false

-- ---------------------------------------------------------------------------
-- Code
-- ---------------------------------------------------------------------------

def Code.Within (ok : Record → Prop) (good : α → Prop) : Code Ω α → Prop
  | .done a => good a
  | .panic => True
  | .log r next => ok r ∧ next.Within ok good
  | .perform _ next => ∀ a, (next a).Within ok good
  | .names next => ∀ names, (next names).Within ok good
  | .dispatch _ _ _ next => ∀ text, (next text).Within ok good

namespace Code

variable {good : α → Prop} {good' : β → Prop}

theorem Within.bind {c : Code Ω α} (hc : c.Within ok good) {f : α → Code Ω β}
    (hf : ∀ a, good a → (f a).Within ok good') : (c.bind f).Within ok good' := by
  induction c with
  | done a => exact hf a hc
  | panic => trivial
  | log r next ih => exact ⟨hc.1, ih hc.2⟩
  | perform op next ih => exact fun a => ih a (hc a)
  | names next ih => exact fun names => ih names (hc names)
  | dispatch this name args next ih => exact fun text => ih text (hc text)

theorem within_performAll {next : Code Ω α} (h : next.Within ok good) (ops : List Ω) :
    (performAll ops next).Within ok good := by
  induction ops with
  | nil => exact h
  | cons op rest ih => exact fun _ => ih

theorem within_of_forall (hok : ∀ r, ok r) (hg : ∀ a, good a) (c : Code Ω α) :
    c.Within ok good := by
  induction c with
  | done a => exact hg a
  | panic => trivial
  | log r next ih => exact ⟨hok r, ih⟩
  | perform op next ih => exact ih
  | names next ih => exact ih
  | dispatch this name args next ih => exact ih

end Code

def Helper.Plain (ok : Record → Prop) (helper : Helper Ω) : Prop :=
  ∀ this args, (helper this args).Within ok fun _ => True

inductive Template.Plain (ok : Record → Prop) : Template Ω → Prop
  | mk {body : Value → Code Ω Value} {blocks : List (String × Template Ω)}
      (hbody : ∀ context, (body context).Within ok fun _ => True)
      (hblocks : ∀ e ∈ blocks, Plain ok e.2) : Plain ok (.mk body blocks)

namespace Template.Plain

theorem body {t : Template Ω} (h : t.Plain ok) (context : Value) :
    (t.body context).Within ok fun _ => True := by
  cases h with
  | mk hbody _ => exact hbody context

theorem of_block? {t block : Template Ω} (h : t.Plain ok) {name : String}
    (hb : t.block? name = some block) : block.Plain ok := by
  cases h with
  | mk _ hblocks => exact hblocks _ (Entries.mem_of_get? hb)

end Template.Plain

theorem Template.plain_of_forall (hok : ∀ r, ok r) : (t : Template Ω) → t.Plain ok
  | .mk _ blocks => .mk (fun _ => Code.within_of_forall hok (fun _ => trivial) _)
      (go blocks)
where
  go : (blocks : List (String × Template Ω)) → ∀ e ∈ blocks, e.2.Plain ok
    | [], _, h => nomatch h
    | (_, t) :: rest, e, h => by
      rcases List.mem_cons.mp h with rfl | h
      · exact plain_of_forall hok t
      · exact go rest e h

-- ---------------------------------------------------------------------------
-- What loads may give
-- ---------------------------------------------------------------------------

section

variable {ω τ : Type}

def LoadEvent.offer : LoadEvent τ → LoadResult τ
  | .call value => .ok value
  | .drop => .error .abandoned
  | .ready r => r

theorem Outcome.eq_template {o : Outcome τ} {t : τ} (h : o.ready.offer = .ok (some t)) :
    o = .template t := by
  cases o <;> cases h
  rfl

/-- What the sides of a load have settled. -/
def Load.offers : Load τ → List (LoadResult τ)
  | .future f => f.poll.toList
  | .callback c => c.poll.toList
  | .dual c f => c.poll.toList ++ f.poll.toList

def Shared.offers (s : Shared τ) : List (LoadResult τ) := s.load.offers ++ s.result.toList

def Slot.offers : Slot ω τ → List (LoadResult τ)
  | .reserved => []
  | .started s _ => s.offers

def Worker.work? : Worker ω → Option ω
  | .idle work | .busy work => some work
  | .absent | .poisoned => none

def Slot.work? : Slot ω τ → Option ω
  | .reserved => none
  | .started _ worker => worker.work?

def Plan.events : Plan τ → List (LoadEvent τ)
  | .future f => [f.outcome.ready]
  | .callback c => [c.outcome.callback]
  | .dual c f => (c.elim .drop (·.outcome.callback)) :: f.toList.map (·.outcome.ready)

/-- All results that the loads may ever give are `good`, and all work is `fit`. -/
structure Loads.All (good : LoadResult τ → Prop) (fit : ω → Prop) (ls : Loads ω τ) : Prop where
  offers : ∀ s ∈ ls.slots, ∀ r ∈ s.offers, good r
  works : ∀ s ∈ ls.slots, ∀ work, s.work? = some work → fit work
  waiting : ∀ w ∈ ls.waiting, good w.event.offer

theorem Callback.poll_receive (c : Callback τ) (e : LoadEvent τ) :
    (c.receive e).poll = c.poll ∨ (c.receive e).poll = some e.offer := by
  cases c <;> cases e <;> simp [receive, poll, LoadEvent.offer]

theorem Future.poll_receive (f : Future τ) (e : LoadEvent τ) :
    (f.receive e).poll = f.poll ∨ (f.receive e).poll = some e.offer := by
  cases f <;> cases e <;> simp [receive, poll, LoadEvent.offer]

theorem Load.offers_receive {l : Load τ} {e : LoadEvent τ} {r : LoadResult τ}
    (h : r ∈ (l.receive e).offers) : r ∈ l.offers ∨ r = e.offer := by
  have side {o o' : Option (LoadResult τ)} (ho : o' = o ∨ o' = some e.offer)
      (hr : r ∈ o'.toList) : r ∈ o.toList ∨ r = e.offer := by
    rcases ho with rfl | rfl
    · exact .inl hr
    · exact .inr (by simpa using hr)
  cases l with
  | future f => exact side (f.poll_receive e) h
  | callback c => exact side (c.poll_receive e) h
  | dual c f =>
    rcases List.mem_append.mp h with h | h
    · exact (side (c.poll_receive e) h).imp_left (List.mem_append_left _)
    · exact (side (f.poll_receive e) h).imp_left (List.mem_append_right _)

theorem Load.offers_of_poll {l : Load τ} {r : LoadResult τ} (h : l.poll = some r) :
    r ∈ l.offers := by
  cases l with
  | future f => exact Option.mem_toList.mpr h
  | callback c => exact Option.mem_toList.mpr h
  | dual c f =>
    cases f with
    | ready r' =>
      cases h
      simp [offers, Future.poll]
    | pending =>
      cases c with
      | called value =>
        cases h
        simp [offers, Callback.poll]
      | held => cases h
      | dropped => cases h

theorem Shared.offers_poll {s : Shared τ} {r : LoadResult τ}
    (h : r ∈ s.poll.2.offers ∨ s.poll.1 = some r) : r ∈ s.offers := by
  obtain ⟨l, result⟩ := s
  cases result with
  | some r' => simpa [poll, offers, eq_comm] using h
  | none =>
    cases hl : l.poll with
    | none => simpa [poll, hl] using h
    | some r' =>
      -- what is found in a load is one of its offers already
      have hr := Load.offers_of_poll hl
      simp only [poll, hl, offers, List.mem_append, Option.toList_some, List.mem_singleton,
        Option.some.injEq] at h
      rcases h with (h | rfl) | rfl
      · exact List.mem_append_left _ h
      · exact List.mem_append_left _ hr
      · exact List.mem_append_left _ hr

namespace Slot

theorem offers_receive {s : Slot ω τ} {e : LoadEvent τ} {r : LoadResult τ}
    (h : r ∈ (s.receive e).offers) : r ∈ s.offers ∨ r = e.offer := by
  cases s with
  | reserved => exact .inl h
  | started shared k =>
    rcases List.mem_append.mp h with h | h
    · exact (Load.offers_receive h).imp_left (List.mem_append_left _)
    · exact .inl (List.mem_append_right _ h)

@[simp] theorem work?_receive (s : Slot ω τ) (e : LoadEvent τ) : (s.receive e).work? = s.work? := by
  cases s <;> rfl

theorem offers_poll {s : Slot ω τ} {r : LoadResult τ}
    (h : r ∈ s.poll.2.offers ∨ s.poll.1 = some r) : r ∈ s.offers := by
  cases s with
  | reserved => simp [poll, offers] at h
  | started shared k =>
    cases hk : k.isFree with
    | true => exact Shared.offers_poll (by simpa [poll, hk, offers] using h)
    | false =>
      simp only [poll, hk, offers] at h
      rcases h with h | h
      · exact h
      · exact List.mem_append_right _ (by simpa using h)

@[simp] theorem work?_poll (s : Slot ω τ) : s.poll.2.work? = s.work? := by
  cases s with
  | reserved => rfl
  | started shared k => cases hk : k.isFree <;> simp [poll, hk, work?]

@[simp] theorem offers_setWorker (s : Slot ω τ) (f : Worker ω → Worker ω) :
    (s.setWorker f).offers = s.offers := by
  cases s <;> rfl

end Slot

namespace Loads.All

variable {good : LoadResult τ → Prop} {fit : ω → Prop} {ls : Loads ω τ}

theorem update (h : ls.All good fit) {f : Slot ω τ → Slot ω τ}
    (ho : ∀ s, (∀ r ∈ s.offers, good r) → ∀ r ∈ (f s).offers, good r)
    (hw : ∀ s, (∀ work, s.work? = some work → fit work) →
      ∀ work, (f s).work? = some work → fit work) (i : Nat) :
    (ls.update i f).All good fit :=
  ⟨forall_mem_modify h.offers ho i, forall_mem_modify h.works hw i, h.waiting⟩

theorem receive (h : ls.All good fit) {e : LoadEvent τ} (he : good e.offer) (i : Nat) :
    (ls.update i (·.receive e)).All good fit := by
  refine h.update (fun s hs r hr => ?_) (fun s hs => by simpa using hs) i
  rcases Slot.offers_receive hr with hr | rfl
  · exact hs r hr
  · exact he

theorem setWorker (h : ls.All good fit) {f : Worker ω → Worker ω}
    (hf : ∀ k work, (f k).work? = some work → k.work? = some work) (i : Nat) :
    (ls.update i (·.setWorker f)).All good fit := by
  refine h.update (fun s hs => by simpa using hs) (fun s hs work hm => hs work ?_) i
  cases s with
  | reserved => exact hm
  | started shared k => exact hf k work hm

theorem enter (h : ls.All good fit) (i : Nat) : (ls.enter i).All good fit :=
  h.setWorker (fun k _ => by cases k <;> exact id) i

theorem leave (h : ls.All good fit) {found : Option (LoadResult τ)}
    (hf : ∀ r, found = some r → good r) (i : Nat) : (ls.leave i found).All good fit := by
  have left : (ls.update i (·.setWorker .leave)).All good fit :=
    h.setWorker (fun k _ => by cases k <;> exact id) i
  cases found with
  | none => exact left
  | some r => exact left.receive (e := .ready r) (hf r rfl) i

theorem poison (h : ls.All good fit) (i : Nat) : (ls.poison i).All good fit :=
  h.setWorker (fun _ _ h => by cases h) i

theorem poll (h : ls.All good fit) (i : Nat) : (ls.poll i).2.All good fit := by
  unfold Loads.poll
  cases hs : ls.slots[i]? with
  | none => exact h
  | some slot =>
    have hm := List.mem_of_getElem? hs
    refine h.update (fun _ _ r hr => ?_) (fun _ _ work hw => ?_) i
    · exact h.offers slot hm r (Slot.offers_poll (.inl hr))
    · exact h.works slot hm work (by simpa using hw)

theorem of_poll (h : ls.All good fit) {i : Nat} {r : LoadResult τ} (hr : (ls.poll i).1 = some r) :
    good r := by
  unfold Loads.poll at hr
  cases hs : ls.slots[i]? with
  | none => simp [hs] at hr
  | some slot =>
    simp only [hs] at hr
    exact h.offers slot (List.mem_of_getElem? hs) r (Slot.offers_poll (.inr hr))

theorem of_worker (h : ls.All good fit) {i : Nat} {work : ω} (hw : ls.worker i = .idle work) :
    fit work := by
  unfold Loads.worker at hw
  cases hs : ls.slots[i]? with
  | none => simp [hs] at hw
  | some slot =>
    refine h.works slot (List.mem_of_getElem? hs) work ?_
    simp only [hs, Option.map_some, Option.getD_some] at hw
    unfold Slot.worker at hw
    split at hw
    · rw [hw]
      rfl
    · cases hw

theorem reserve (h : ls.All good fit) : ls.reserve.2.All good fit where
  offers := List.forall_mem_append.mpr ⟨h.offers, by simp [Slot.offers]⟩
  works := List.forall_mem_append.mpr ⟨h.works, by simp [Slot.work?]⟩
  waiting := h.waiting

theorem deliver (h : ls.All good fit) (load : Load τ) (hl : ∀ r ∈ load.offers, good r)
    {work : Option ω} (hw : ∀ k, work = some k → fit k) (i : Nat) :
    (ls.deliver i load work).All good fit := by
  refine h.update (fun s hs => ?_) (fun s hs => ?_) i
  · cases s with
    | reserved => simpa [Slot.offers, Shared.offers] using hl
    | started shared k => exact hs
  · cases s with
    | reserved =>
      cases work with
      | none => exact nofun
      | some k => exact hw
    | started shared k => exact hs

theorem orphan (h : ls.All good fit) (ha : good (.error .abandoned)) (i : Nat) :
    (ls.orphan i).All good fit :=
  h.deliver _ (fun r hr => by rwa [List.mem_singleton.mp hr]) (by simp) i

theorem schedule (h : ls.All good fit) {e : LoadEvent τ} (he : good e.offer) (i : Nat)
    (gate : Option String) : (ls.schedule i e gate).All good fit := by
  cases gate with
  | none => exact h.receive he i
  | some gate =>
    exact ⟨h.offers, h.works, List.forall_mem_append.mpr ⟨h.waiting, by simpa using he⟩⟩

theorem start (h : ls.All good fit) {plan : Plan τ} (hp : ∀ e ∈ plan.events, good e.offer)
    {work : Option ω} (hw : ∀ k, work = some k → fit k) (i : Nat) :
    (ls.start i work plan).All good fit := by
  cases plan with
  | future f =>
    have delivered := h.deliver (.future .pending) nofun hw i
    exact delivered.schedule (hp _ (List.mem_singleton_self _)) i f.gate
  | callback c =>
    have delivered := h.deliver (.callback .held) nofun hw i
    exact delivered.schedule (hp _ (List.mem_singleton_self _)) i c.gate
  | dual c f =>
    have delivered := h.deliver (if f.isSome then .dual .held .pending else .callback .held)
      (by cases f <;> simp [Load.offers, Callback.poll, Future.poll]) hw i
    have called := hp _ (List.mem_cons_self ..)
    -- the callback first, then the future if there is one
    cases c <;> cases f <;> simp only [Loads.start]
    · exact delivered.schedule called i _
    · exact (delivered.schedule called i _).schedule (hp _ (by simp [Plan.events])) i _
    · exact delivered.schedule called i _
    · exact (delivered.schedule called i _).schedule (hp _ (by simp [Plan.events])) i _

theorem release (h : ls.All good fit) (gate : String) : (ls.release gate).2.All good fit := by
  unfold Loads.release
  rw [List.partition_eq_filter_filter]
  have opened : ∀ (ws : List (Waiting τ)) {ls : Loads ω τ}, ls.All good fit →
      (∀ w ∈ ws, good w.event.offer) →
      (ws.foldl (fun ls w => ls.update w.load (·.receive w.event)) ls).All good fit := by
    intro ws
    induction ws with
    | nil => exact fun h _ => h
    | cons w rest ih =>
      intro ls h hws
      obtain ⟨hw, hrest⟩ := List.forall_mem_cons.mp hws
      exact ih (h.receive hw w.load) hrest
  refine opened _ ⟨h.offers, h.works, fun w hw => h.waiting w (List.mem_filter.mp hw).1⟩ ?_
  exact fun w hw => h.waiting w (List.mem_filter.mp hw).1

end Loads.All

end

-- ---------------------------------------------------------------------------
-- All code of a world
-- ---------------------------------------------------------------------------

def LoadResult.Plain (ok : Record → Prop) (r : LoadResult (Template Ω)) : Prop :=
  ∀ t, r = .ok (some t) → t.Plain ok

def Work.Plain (ok : Record → Prop) (work : Work Ω) : Prop :=
  work.Within ok fun found => ∀ r, found = some r → LoadResult.Plain ok r

structure Handover.Plain (ok : Record → Prop) (h : Handover Ω) : Prop where
  plan : ∀ e ∈ h.plan.events, LoadResult.Plain ok e.offer
  work : ∀ work, h.work = some work → Work.Plain ok work

def Loader.Plain (ok : Record → Prop) (l : Loader Ω) : Prop :=
  ∀ before name, (l.load before name).Within ok (Handover.Plain ok)

structure Renderer.Plain (ok : Record → Prop) (r : Renderer Ω) : Prop where
  helpers : ∀ e ∈ r.helpers.entries, Helper.Plain ok e.2
  loader : ∀ l, r.loader = some l → l.Plain ok

structure World.Plain (ok : Record → Prop) (w : World Ω) : Prop where
  renderers : ∀ r ∈ w.renderers, r.Plain ok
  loads : w.loads.All (LoadResult.Plain ok) (Work.Plain ok)

theorem LoadResult.plain_error (e : LoadError) :
    LoadResult.Plain ok (.error e : LoadResult (Template Ω)) := by
  rintro t ⟨⟩

theorem World.plain_empty : ({} : World Ω).Plain ok :=
  ⟨by simp, ⟨by simp, by simp, by simp⟩⟩

theorem LoadResult.plain_of_forall (hok : ∀ r, ok r) (r : LoadResult (Template Ω)) :
    LoadResult.Plain ok r :=
  fun t _ => t.plain_of_forall hok

theorem Work.plain_of_forall (hok : ∀ r, ok r) (work : Work Ω) : Work.Plain ok work :=
  Code.within_of_forall hok (fun _ r _ => LoadResult.plain_of_forall hok r) work

theorem Loader.plain_of_forall (hok : ∀ r, ok r) (l : Loader Ω) : l.Plain ok := by
  intro before name
  refine Code.within_of_forall hok (fun h => ?_) _
  exact ⟨fun e _ => LoadResult.plain_of_forall hok e.offer,
    fun work _ => Work.plain_of_forall hok work⟩

theorem World.plain_of_forall (hok : ∀ r, ok r) (w : World Ω) : w.Plain ok where
  renderers r _ := by
    refine ⟨fun e _ this args => ?_, fun l _ => l.plain_of_forall hok⟩
    exact Code.within_of_forall hok (fun _ => trivial) _
  loads := ⟨fun _ _ r _ => LoadResult.plain_of_forall hok r,
    fun _ _ work _ => Work.plain_of_forall hok work,
    fun w _ => LoadResult.plain_of_forall hok w.event.offer⟩

end Stencil
