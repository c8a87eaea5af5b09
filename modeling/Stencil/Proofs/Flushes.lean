import Stencil.Proofs.SessionAhead
import Stencil.Proofs.Unasked

/-!
# Flushes

A flush does not disturb what is in flight. Whatever comes after it, a render that was asked for
before finds in each poll what it would have found without the flush, and so does each poll of it in
a session. This holds as long as no code calls back, callbacks of parse calls included, and as long
as the load of the render is firm: what a poll finds in it is not changed by gates that open
afterwards. A load with two sides need not be firm: a poll after the callback fixes its value, a
later one finds the future.

A name that was flushed is not cached before its loader is called again, whatever else happens.
-/

namespace Stencil

open World Session

-- ---------------------------------------------------------------------------
-- Firm loads
-- ---------------------------------------------------------------------------

variable {ω τ : Type}

namespace Load

def Single : Load τ → Prop
  | .dual _ _ => False
  | _ => True

variable {l : Load τ}

theorem Single.receiveAll (h : l.Single) (es : List (LoadEvent τ)) :
    (es.foldl receive l).Single := by
  induction es generalizing l with
  | nil => exact h
  | cons e rest ih =>
    refine ih ?_
    cases l with
    | future f => trivial
    | callback c => trivial
    | dual c f => exact h

theorem Single.poll_receiveAll (h : l.Single) {r : LoadResult τ} (hr : l.poll = some r)
    (es : List (LoadEvent τ)) : (es.foldl receive l).poll = some r := by
  induction es generalizing l with
  | nil => exact hr
  | cons e rest ih =>
    refine ih (h.receiveAll [e]) ?_
    cases l with
    | future f =>
      cases f with
      | pending => cases hr
      | ready result => exact hr
    | callback c =>
      cases c with
      | held => cases hr
      | called value => exact hr
      | dropped => exact hr
    | dual c f => exact h.elim

end Load

namespace Slot

theorem foldl_receive_started (es : List (LoadEvent τ)) (l : Load τ) (k : Worker ω) :
    es.foldl receive (.started ⟨l, none⟩ k) = .started ⟨es.foldl Load.receive l, none⟩ k := by
  induction es generalizing l with
  | nil => rfl
  | cons e rest ih => exact ih (l.receive e)

theorem visit_absent (finds : ω → Option (Option (LoadResult τ))) (l : Load τ) :
    (visit finds (.started ⟨l, none⟩ .absent)).1 = .ofOption l.poll := by
  cases h : l.poll <;> simp [visit, drive, worker, look, poll, Worker.isFree, Shared.poll, h]

end Slot

namespace Loads

/-- What becomes of loads when gates open, one after the other. -/
def openAll (ls : Loads ω τ) (gates : List String) : Loads ω τ :=
  gates.foldl (fun ls gate => (ls.release gate).2) ls

theorem openAll_concat (ls : Loads ω τ) (gates : List String) (gate : String) :
    ls.openAll (gates ++ [gate]) = ((ls.openAll gates).release gate).2 := by
  simp [openAll]

theorem slots_openAll (ls : Loads ω τ) (gates : List String) (l : Nat) :
    ∃ es : List (LoadEvent τ),
      (ls.openAll gates).slots[l]? = ls.slots[l]?.map fun s => es.foldl Slot.receive s := by
  induction gates generalizing ls with
  | nil => exact ⟨[], by simp [openAll]⟩
  | cons gate rest ih =>
    obtain ⟨es, h⟩ := ih (ls.release gate).2
    refine ⟨ls.behind gate l ++ es, h.trans ?_⟩
    simp only [slots_release, Option.map_map, Function.comp_def, List.foldl_append]

theorem All.openAll {good : LoadResult τ → Prop} {fit : ω → Prop} {ls : Loads ω τ}
    (h : ls.All good fit) (gates : List String) : (ls.openAll gates).All good fit := by
  induction gates generalizing ls with
  | nil => exact h
  | cons gate rest ih => exact ih (h.release gate)

end Loads

theorem World.pollLoad_fst_mute {Ω : Type} {host : Host Ω (World Ω)} (hl : host.Logs) {w : World Ω}
    (mute : w.loads.All LoadResult.Mute Work.Mute) (load : Nat) :
    (pollLoad host load w).1 = (w.loads.visit Work.finds load).1 := by
  rw [pollLoad_mute hl mute, World.visit]
  generalize w.loads.visit Work.finds load = x
  obtain ⟨seen, loads⟩ := x
  cases seen <;> rfl

namespace Session

variable {w c u v : World Op} {load : Nat}

/-- A load whose result does not depend on when it is polled: what a poll finds after some gates
have opened, it would still find after one more. -/
def Firm (w : World Op) (load : Nat) : Prop :=
  let found (gates : List String) :=
    (pollLoad (hostAt depthLimit) load { w with loads := w.loads.openAll gates }).1
  ∀ gates gate r, found gates = .ready r → found (gates ++ [gate]) = .ready r

def Steady (w : World Op) (load : Nat) : Prop := load < w.loads.slots.length ∧ Firm w load

theorem steady_of_asked {p : Pending} (hp : w.Asked p)
    (firm : ∀ l, p.load? = some l → Firm w l) (b : Binding) (hb : p.binding = some b) :
    Steady w b.load := by
  have issued := (hp.bound b hb).load_lt
  rw [Loads.length_results] at issued
  exact ⟨issued, firm b.load (Pending.load?_of_binding hb)⟩

theorem firm_iff (mute : w.Mute) :
    Firm w load ↔ ∀ gates gate r, ((w.loads.openAll gates).visit Work.finds load).1 = .ready r →
      ((w.loads.openAll (gates ++ [gate])).visit Work.finds load).1 = .ready r := by
  have found (gates : List String) :
      (pollLoad (hostAt depthLimit) load { w with loads := w.loads.openAll gates }).1 =
        ((w.loads.openAll gates).visit Work.finds load).1 :=
    pollLoad_fst_mute (w := { w with loads := w.loads.openAll gates }) (hostAt_logs _)
      (mute.loads.openAll gates) load
  simp only [Firm, found]

theorem sticks_of_firm (mute : w.Mute) {gates : List String}
    (hc : c.loads = w.loads.openAll gates) (gate : String) : Sticks (Steady w) c gate := by
  rintro l ⟨-, firm⟩ r hr
  have kept := (firm_iff mute).mp firm gates gate r
  rw [hc] at hr ⊢
  rw [Loads.openAll_concat] at kept
  exact kept hr

/-- A load with one side is firm, unless its future has work to do. -/
theorem firm_of_single (mute : w.Mute) {l : Load (Template Op)} (single : l.Single)
    (hs : w.loads.slots[load]? = some (.started ⟨l, none⟩ .absent)) : Firm w load := by
  rw [firm_iff mute]
  intro gates gate r hr
  obtain ⟨es, opened⟩ := w.loads.slots_openAll gates load
  rw [hs, Option.map_some, Slot.foldl_receive_started] at opened
  have next := (w.loads.openAll gates).slots_release gate load
  rw [opened, Option.map_some, Slot.foldl_receive_started, ← Loads.openAll_concat] at next
  rw [Loads.visit_of_slot opened, Slot.visit_absent] at hr
  rw [Loads.visit_of_slot next, Slot.visit_absent]
  have settled : (es.foldl Load.receive l).poll = some r := by
    cases hp : (es.foldl Load.receive l).poll with
    | none => rw [hp] at hr; cases hr
    | some r' => rw [hp] at hr; cases hr; rfl
  rw [(single.receiveAll es).poll_receiveAll settled]
  rfl

-- ---------------------------------------------------------------------------
-- Runs
-- ---------------------------------------------------------------------------

theorem loads_bare (c : World Op) (op : Op) :
    (bare c op).loads = c.loads ∨ ∃ gate, (bare c op).loads = (c.loads.release gate).2 := by
  cases op with
  | release gate => exact .inr ⟨gate, rfl⟩
  | create config =>
    refine .inl ?_
    simp only [bare]
    split <;> rfl
  | _ => exact .inl rfl

variable {old : Nat → Prop} {ids : String → Prop}

theorem Abreast.cleared (h : Abreast old ids c u v) :
    Abreast old ids c (cleared u) (cleared v) where
  left := h.left.of_eq _ rfl rfl rfl rfl
  right := h.right.of_eq _ rfl rfl rfl rfl
  inert_left := cleared_alike h.inert_left
  inert_right := cleared_alike h.inert_right
  same := h.same
  bound := h.bound

theorem Abreast.after (mute : w.Mute) {ops : List Op} (inert : ∀ op ∈ ops, op.Inert)
    (hstart : ∀ id, ids id → ∀ handle name data block, .start handle id name data block ∉ ops)
    (gates : List String) (hc : c.loads = w.loads.openAll gates)
    (h : Abreast (Steady w) ids c u v) :
    ∃ c, Abreast (Steady w) ids c (after u ops) (after v ops) := by
  induction ops generalizing gates c u v with
  | nil => exact ⟨c, h⟩
  | cons op rest ih =>
    obtain ⟨hop, hrest⟩ := List.forall_mem_cons.mp inert
    have next := h.cleared.step depthLimit hop
      (fun gate _ => sticks_of_firm mute hc gate)
      fun id hid handle name data block he =>
        hstart id hid handle name data block (he ▸ List.mem_cons_self)
    have later (id : String) (hid : ids id) (handle : Nat) (name : String) (data : Option Value)
        (block : Option String) (hm : .start handle id name data block ∈ rest) : False :=
      hstart id hid handle name data block (List.mem_cons_of_mem op hm)
    rcases loads_bare c op with same | ⟨gate, opened⟩
    · exact ih hrest later gates (same.trans hc) next
    · refine ih hrest later (gates ++ [gate]) ?_ next
      rw [opened, hc, Loads.openAll_concat]

/-- Right after a flush nothing else has changed. -/
theorem abreast_flush (inert : w.Inert) (handle : Nat)
    (bound : ∀ id, ids id → ∀ p, (id, p) ∈ w.renders → ∀ b, p.binding = some b →
      Steady w b.load) :
    Abreast (Steady w) ids w w (reportStep w (.flush handle)).2 := by
  have start : World.Ahead (Steady w) w.renders w w := .refl fun _ h => h.1
  have flushed : World.Ahead (Steady w) w.renders w (reportStep w (.flush handle)).2 :=
    flush_ahead (start.of_eq (Session.cleared w) rfl rfl rfl rfl) handle
  have quiet : (Op.flush handle).Inert := ⟨trivial, rfl⟩
  refine ⟨start, flushed.kept, inert.alike, ?_, fun id _ => ?_, fun id hid e he => ?_⟩
  · exact inert_step depthLimit (cleared_alike inert.alike) quiet
  · rw [flushed.renders]
  · obtain ⟨hm, hkey⟩ := List.mem_filter.mp he
    obtain ⟨key, p⟩ := e
    obtain rfl : key = id := by simpa using hkey
    exact bound key hid p hm

/-- A moment before the next operation: right after the last one, or in the middle of a drain that
comes next, when some turns have been taken. -/
inductive Instant (w : World Op) : World Op → Prop
  | between : Instant w w
  | draining (n m : Nat) : Instant w (turns (hostAt n) m { w with inExecutor := true })

theorem Instant.ahead {u' : World Op} (i : Instant u u') {renders : Entries Pending}
    (h : World.Ahead old renders c u) (inert : Alike .inert u u) :
    World.Ahead old renders c u' ∧ u'.Mute := by
  cases i with
  | between => exact ⟨h, inert.mute trivial⟩
  | draining n m =>
    have hh := hostAt_lockstep Likeness.kept_inert n
    have inside := h.of_eq { u with inExecutor := true } rfl rfl rfl rfl
    have inert' := inert.setInExecutor true
    exact ⟨inside.turns hh inert' m, (turns_alike hh m inert').mute trivial⟩

end Session

-- ---------------------------------------------------------------------------
-- What a flush does and does not
-- ---------------------------------------------------------------------------

/-- A flush can be put in at any place of a run without anybody noticing, of those who asked before.
If no code calls back, a poll of a render that was asked for before finds the same after the flush
and any further operations as it does without the flush, in whichever turn of a drain it is polled.
So do polls of it in the session, as long as its name is not given to another render. And in every
run, whatever its code does, a name is not cached from the flush on until the loader is called for
it. That happens in nothing but renders and parse calls of the name, so the name is not cached after
any operations of a session without these, neither its own nor those of code. -/
theorem flush_disturbs_nothing {w : World Op} (hw : w.Reached) (handle : Nat) :
    let i := resolve w handle
    let f := (reportStep w (.flush handle)).2
    (w.Inert → ∀ ops : List Op, (∀ op ∈ ops, op.Inert) →
      (∀ n p, w.Asked p → (∀ l, p.load? = some l → Firm w l) →
        ∀ u v, Instant (after w ops) u → Instant (after f ops) v →
          (World.poll (hostAt n) p v).1 = (World.poll (hostAt n) p u).1) ∧
      ∀ id, (∀ p, (id, p) ∈ w.renders → ∀ l, p.load? = some l → Firm w l) →
        (∀ handle name data block, .start handle id name data block ∉ ops) →
        (reportStep (after f ops) (.poll id)).1.answer =
          (reportStep (after w ops) (.poll id)).1.answer) ∧
    (∀ name es u, Run f es u → (∀ load, .invoked i name load ∉ es) →
      ∀ r, u.renderer? i = some r → r.isCached name = false) ∧
    (∀ name n v op, v.Reached → asks v op ≠ some (i, name) →
      v.Unloaded i name (step (hostBut i name n) v op).2) ∧
    ∀ name ops, Unasked i name f ops →
      ∀ r, (after f ops).renderer? i = some r → r.isCached name = false := by
  intro i f
  have reached : f.Reached := reportStep_reached (.flush handle) hw
  have gone (name : String) : f.cached? i name = none :=
    cached?_flush (Session.cleared w) handle name
  refine ⟨fun inert ops hops => ⟨fun n p hp firm u v hu hv => ?_, fun id firm hstart => ?_⟩,
    fun name es u run he r hr => ?_, fun name n v op hv => step_unloaded (hostBut_akin hv n) hv,
    fun name ops unasked r hr => ?_⟩
  · have flushed : Abreast (Steady w) (fun _ => False) w w f :=
      abreast_flush inert handle fun _ hid => hid.elim
    obtain ⟨c, later⟩ := flushed.after inert.code hops (fun _ hid => hid.elim) [] rfl
    obtain ⟨left, mute⟩ := hu.ahead later.left later.inert_left
    obtain ⟨right, mute'⟩ := hv.ahead later.right later.inert_right
    exact left.poll_fst (hostAt_logs n) right mute mute' (steady_of_asked hp firm)
  · have flushed : Abreast (Steady w) (· = id) w w f := by
      refine abreast_flush inert handle ?_
      rintro _ rfl p hp
      exact steady_of_asked (hw.asked (.inl ⟨_, hp⟩)) (firm p hp)
    have unnamed : ∀ other, other = id → ∀ handle name data block,
        .start handle other name data block ∉ ops := by
      rintro _ rfl
      exact hstart
    obtain ⟨c, later⟩ := flushed.after inert.code hops unnamed [] rfl
    exact (later.cleared.poll depthLimit rfl).1
  · rw [isCached_iff hr, run.cached?_eq_none reached.sound (gone name) he]
    rfl
  · rw [isCached_iff hr, (unasked.unloaded reached).cached? reached (gone name)]
    rfl

-- ---------------------------------------------------------------------------
-- Pages that are in flight
-- ---------------------------------------------------------------------------

namespace Session

def textPage (text : String) : Draft Op := .mk (.lit (.string text)) []

def planned (plans : List (Plan (Draft Op))) : LoaderScript Op where
  attempts := []
  default := plans.map fun plan => ⟨[], some plan⟩

def inFlight (plans : List (Plan (Draft Op))) : List Op :=
  [.create (.given {}), .registerLoader 0 "loader" (.script (planned plans)),
    .start 0 "early" "page" none none]

def delayed : Plan (Draft Op) := .future ⟨.template (textPage "text"), some "gate"⟩

theorem mute_planned {plans : List (Plan (Draft Op))}
    (h : ∀ plan ∈ plans, ∀ e ∈ (plan.map Draft.template).events, LoadResult.Mute e.offer)
    (counter : String) : ((planned plans).loader counter).Mute := by
  have served (as : List (Attempt Op)) (n : Nat) :
      Attempt.choose as n ∈ as ∨ Attempt.choose as n = ⟨[], none⟩ := by
    fun_induction Attempt.choose as n <;> grind
  intro before name
  show (Attempt.code (Attempt.choose (planned plans).default before)).Makes _ _
  rcases served (planned plans).default before with hm | hn
  · obtain ⟨plan, hplan, he⟩ := List.mem_map.mp hm
    rw [← he]
    exact ⟨h plan hplan, nofun⟩
  · rw [hn]
    trivial

theorem inert_inFlight {plans : List (Plan (Draft Op))}
    (h : ∀ plan ∈ plans, ∀ e ∈ (plan.map Draft.template).events, LoadResult.Mute e.offer) :
    ∀ op ∈ inFlight plans, op.Inert := by
  intro op ho
  simp only [inFlight, List.mem_cons, List.not_mem_nil, or_false] at ho
  rcases ho with rfl | rfl | rfl
  · exact ⟨trivial, rfl⟩
  · exact ⟨mute_planned h "loader", rfl⟩
  · exact ⟨trivial, rfl⟩

theorem mute_ready {t : Template Op} (h : t.Mute) : LoadResult.Mute (.ok (some t)) := by
  rintro _ ⟨⟩
  exact h

theorem mute_textPage (text : String) : (textPage text).template.Mute := .ofBody fun _ => trivial

theorem inert_after (inert : w.Inert) {ops : List Op} (h : ∀ op ∈ ops, op.Inert) :
    (after w ops).Inert := by
  induction ops generalizing w with
  | nil => exact inert
  | cons op rest ih =>
    obtain ⟨hop, hrest⟩ := List.forall_mem_cons.mp h
    exact ih (.of_alike (inert_step depthLimit (cleared_alike inert.alike) hop)) hrest

theorem inert_empty : ({} : World Op).Inert := by
  refine ⟨World.mute_empty, ?_⟩
  rintro t (ht | ht | ht) <;> cases ht

theorem mute_delayed : ∀ plan ∈ [delayed], ∀ e ∈ (plan.map Draft.template).events,
    LoadResult.Mute e.offer := by
  intro plan hplan e he
  obtain rfl := List.mem_singleton.mp hplan
  obtain rfl := List.mem_singleton.mp he
  exact mute_ready (mute_textPage "text")

theorem flush_disturbs_nothing_delayed :
    let w := after {} (inFlight [delayed])
    let f := (reportStep w (.flush 0)).2
    let ops : List Op := [.start 0 "late" "page" none none, .release "gate", .poll "late"]
    let done := after f [.release "gate", .poll "early"]
    (reportStep (after w ops) (.poll "early")).1.answer = .output "text" ∧
      (reportStep (after f ops) (.poll "early")).1.answer =
        (reportStep (after w ops) (.poll "early")).1.answer ∧
      (after w ops).loads.slots.length = 1 ∧ (after f ops).loads.slots.length = 2 ∧
      ∀ r, done.renderer? 0 = some r → r.isCached "page" = false := by
  intro w f ops done
  have reached : w.Reached := reached_after _ (.refl {})
  have inert : w.Inert := inert_after inert_empty (inert_inFlight mute_delayed)
  have quiet : ∀ op ∈ ops, op.Inert := by
    intro op ho
    simp only [ops, List.mem_cons, List.not_mem_nil, or_false] at ho
    rcases ho with rfl | rfl | rfl <;> exact ⟨trivial, rfl⟩
  have firm : ∀ p, ("early", p) ∈ w.renders → ∀ l, p.load? = some l → Firm w l := by
    intro p hp l hl
    obtain rfl : p = _ := (Prod.mk.inj (List.mem_singleton.mp hp)).2
    obtain rfl := Option.some.inj hl
    exact firm_of_single (l := .future .pending) inert.code trivial rfl
  obtain ⟨disturbed, -, -, uncached⟩ := flush_disturbs_nothing reached 0
  have early := (disturbed inert ops quiet).2 "early" firm (by simp [ops])
  refine ⟨rfl, by simpa only [f] using early, rfl, rfl, ?_⟩
  exact uncached "page" [.release "gate", .poll "early"]
    ⟨by simp [asks], rfl, by simp [asks], rfl, trivial⟩

-- ---------------------------------------------------------------------------
-- Where a flush is noticed
-- ---------------------------------------------------------------------------

def twoSided : Plan (Draft Op) :=
  .dual (some ⟨.template (textPage "callback"), some "first"⟩)
    (some ⟨.template (textPage "future"), some "second"⟩)

def helped : Plan (Draft Op) := .future ⟨.template (.mk (.help "h" [] none) []), none⟩

def failing : Plan (Draft Op) := .future ⟨.failed "gone", none⟩

theorem mute_twoSided : ∀ plan ∈ [twoSided], ∀ e ∈ (plan.map Draft.template).events,
    LoadResult.Mute e.offer := by
  intro plan hplan e he
  obtain rfl := List.mem_singleton.mp hplan
  obtain rfl | rfl : e = _ ∨ e = _ := by simpa using (show e ∈ [_, _] from he)
  · exact mute_ready (mute_textPage "callback")
  · exact mute_ready (mute_textPage "future")

theorem mute_helped : ∀ plan ∈ [helped, failing], ∀ e ∈ (plan.map Draft.template).events,
    LoadResult.Mute e.offer := by
  intro plan hplan e he
  obtain rfl | rfl : plan = helped ∨ plan = failing := by simpa using hplan
  · obtain rfl := List.mem_singleton.mp he
    exact mute_ready (.ofBody fun _ => ⟨trivial, fun _ => trivial⟩)
  · obtain rfl := List.mem_singleton.mp he
    exact LoadResult.mute_error _

/-- Without a flush the late render has the load looked at before its second side is there; and
without one a parse call hits the load of the page, and its callback registers a helper. -/
theorem flush_changes_outcomes :
    let answer (ops : List Op) := (reportStep (after {} ops) (.poll "early")).1.answer
    let overtaken : List Op := [.start 0 "late" "page" none none, .release "first", .poll "late",
      .release "second"]
    let help : Receiver Op := ⟨"shown", [.registerHelper 0 "h" (.script (.lit (.string "help")))]⟩
    let calledBack : List Op := [.parse 0 "page" ⟨.absent, .absent, .callback help⟩ true, .drain]
    ((∀ op ∈ inFlight [twoSided] ++ overtaken, op.BringsMute) ∧
      answer (inFlight [twoSided] ++ overtaken) = .output "callback" ∧
      answer (inFlight [twoSided] ++ .flush 0 :: overtaken) = .output "future") ∧
    (∀ op ∈ inFlight [helped, failing] ++ calledBack, op.BringsMute) ∧
      answer (inFlight [helped, failing] ++ calledBack) = .output "help" ∧
      answer (inFlight [helped, failing] ++ .flush 0 :: calledBack) = .output "" := by
  refine ⟨⟨List.forall_mem_append.mpr ⟨?_, ?_⟩, rfl, rfl⟩,
    List.forall_mem_append.mpr ⟨?_, ?_⟩, rfl, rfl⟩
  · exact fun op ho => (inert_inFlight mute_twoSided op ho).brings
  · intro op ho
    simp only [List.mem_cons, List.not_mem_nil, or_false] at ho
    rcases ho with rfl | rfl | rfl | rfl <;> exact trivial
  · exact fun op ho => (inert_inFlight mute_helped op ho).brings
  · intro op ho
    simp only [List.mem_cons, List.not_mem_nil, or_false] at ho
    rcases ho with rfl | rfl <;> exact trivial

end Session
end Stencil
