import Stencil.Proofs.Session

/-!
# What a render is made of

A render is made of things of three moments: of the call it takes along the global data under its
own, its block, and the load that it is bound to; the load decides which template it is; the helpers
are those of the poll that completes it. Whatever happens in between, nothing else plays a part.
-/

namespace Stencil

variable {Ω : Type}

/-- What a render with a block name prints of a template; without one it is all of it. -/
def Template.part (t : Template Ω) : Option String → Option (Template Ω)
  | none => some t
  | some name => t.block? name

def Polled.map {α β : Type} (f : α → β) : Polled α → Polled β
  | .pending => .pending
  | .ready a => .ready (f a)
  | .panicked => .panicked

namespace World

variable {w w' : World Ω} {host : Host Ω (World Ω)} {p : Pending} {b : Binding}

/-- The load that a call in this world is bound to: that of the entry for its name, or else the one
that it starts. -/
def boundLoad (w : World Ω) (i : Nat) (name : String) : Nat :=
  ((w.cached? i name).map (·.2)).getD w.loads.slots.length

def helpers (w : World Ω) (i : Nat) : HelperTable Ω :=
  ((w.renderer? i).map (·.helpers)).getD .empty

/-- What a render resolves to by the result of its load, in the world in which that is found. -/
def answer (host : Host Ω (World Ω)) (p : Pending) (w : World Ω)
    (result : LoadResult (Template Ω)) : Except Error String :=
  match result with
  | .error e => .error (.templateLoad p.name e)
  | .ok none => .ok ""
  | .ok (some t) =>
    match t.part p.block with
    | none => .ok ""
    | some t =>
      match (t.run host (w.helpers p.renderer) (.object p.context)
          (w.note (.received p result))).1 with
      | some text => .ok text
      | none => .error (.templateRender p.name)

theorem runTemplate_fst (host : Host Ω (World Ω)) (p : Pending) (t : Template Ω) (w : World Ω) :
    (runTemplate host p t w).1 =
      match (t.run host (w.helpers p.renderer) (.object p.context) w).1 with
      | some text => .ok text
      | none => .error (.templateRender p.name) := by
  unfold runTemplate helpers
  simp only
  split <;> (rename_i h; rw [h])

theorem complete_fst (host : Host Ω (World Ω)) (p : Pending) (b : Binding)
    (result : LoadResult (Template Ω)) (w : World Ω) :
    (complete host p b result (w.note (.received p result))).1 = answer host p w result := by
  have hh : (w.note (.received p result)).helpers p.renderer = w.helpers p.renderer := rfl
  cases result with
  | error e => rfl
  | ok t =>
    cases t with
    | none => rfl
    | some t =>
      cases hb : p.block with
      | none => simp [complete, hb, answer, Template.part, runTemplate_fst, hh]
      | some name =>
        cases ht : t.block? name with
        | none => simp [complete, hb, answer, Template.part, ht]
        | some block => simp [complete, hb, answer, Template.part, ht, runTemplate_fst, hh]

theorem pollLoad_of_result? {load : Nat} {result : LoadResult (Template Ω)}
    (h : w.result? load = some result) (host : Host Ω (World Ω)) :
    pollLoad host load w = (.ready result, (w.wake load).look load) := by
  -- no work is left, so the poll only looks
  have hd : drive host load w = (true, w) := by
    simp [drive, Loads.worker_of_result? (show w.loads.result? load = _ from h)]
  simp only [pollLoad, hd, Loads.poll_of_result? (show w.loads.result? load = _ from h)]
  rfl

theorem binding_of_ask {i : Nat} {r : Renderer Ω} {loader : Loader Ω} {name : String}
    {data : Option Value} {block : Option String} (hr : w.renderer? i = some r)
    (hl : r.loader = some loader) (hp : ask host i name data block w = (some p, w')) :
    ∃ g, p = captured i r name data block (some ⟨g, w.boundLoad i name⟩) := by
  cases hn : r.cache.entries.get? name with
  | some a =>
    obtain ⟨g, l⟩ := a
    rw [ask_of_hit hr hl hn] at hp
    cases hp
    exact ⟨g, by simp [boundLoad, cached?_of_renderer? hr, hn]⟩
  | none =>
    rw [ask_of_miss hr hl hn] at hp
    obtain ⟨hp, -⟩ := Prod.mk.inj hp
    split at hp <;> cases hp
    exact ⟨r.cache.next, by simp [boundLoad, cached?_of_renderer? hr, hn]⟩

theorem poll_fst (hb : p.binding = some b) (host : Host Ω (World Ω)) (w : World Ω) :
    (poll host p w).1 =
      (pollLoad host b.load w).1.map (answer host p (pollLoad host b.load w).2) := by
  cases hr : pollLoad host b.load w with
  | mk polled after =>
    cases polled with
    | pending => simp [poll, hb, hr, Polled.map]
    | panicked => simp [poll, hb, hr, Polled.map]
    | ready result => simp [poll_of_ready hb hr, complete_fst, Polled.map]

theorem ready_of_poll (hb : p.binding = some b) {out : Except Error String}
    (hout : (poll host p w).1 = .ready out) :
    ∃ result, (pollLoad host b.load w).1 = .ready result ∧
      out = answer host p (pollLoad host b.load w).2 result := by
  rw [poll_fst hb] at hout
  cases hr : (pollLoad host b.load w).1 with
  | pending =>
    rw [hr] at hout
    cases hout
  | panicked =>
    rw [hr] at hout
    cases hout
  | ready result =>
    rw [hr] at hout
    cases hout
    exact ⟨result, rfl, rfl⟩

/-- What a bound render resolves to is the answer to a result that it received from its load. -/
theorem answer_of_poll (h : host.Like host) (hw : w.Reached) (hp : w.Asked p) {l : Nat}
    (hl : p.load? = some l) {out : Except Error String}
    (hout : poll host p w = (.ready out, w')) :
    w'.Reached ∧ ∃ result, .received p result ∈ w'.history ∧
      out = answer host p (pollLoad host l w).2 result := by
  obtain ⟨b, hb, rfl⟩ := Option.map_eq_some_iff.mp hl
  obtain ⟨result, hr, rfl⟩ := ready_of_poll hb (congrArg (·.1) hout)
  obtain ⟨hlater, hm⟩ := poll_received h hw hp hb (Prod.ext hr rfl)
  rw [hout] at hlater hm
  exact ⟨hlater.later.reached hw, result, hm, rfl⟩

theorem result?_poll (h : host.Like host) (hw : w.Reached) (hp : w.Asked p)
    (hb : p.binding = some b) {result : LoadResult (Template Ω)}
    (hr : (pollLoad host b.load w).1 = .ready result) :
    (poll host p w).2.result? b.load = some result := by
  obtain ⟨hl, hm⟩ := poll_received h hw hp hb (Prod.ext hr rfl)
  obtain ⟨l, hload, hres⟩ := (hl.later.reached hw).run.received hm
  rw [Pending.load?_of_binding hb, Option.some.injEq] at hload
  rwa [hload]

theorem runLoader_of_ask {i : Nat} {r : Renderer Ω} {loader : Loader Ω} {name : String}
    {data : Option Value} {block : Option String} (hr : w.renderer? i = some r)
    (hl : r.loader = some loader) (hn : w.cached? i name = none)
    (hp : ask host i name data block w = (some p, w')) :
    runLoader host loader (w.boundLoad i name) name (w.opened i r name) = (true, w') := by
  have hb : w.boundLoad i name = w.loads.slots.length := by simp [boundLoad, hn]
  rw [cached?_of_renderer? hr] at hn
  rw [ask_of_miss hr hl hn, ← hb] at hp
  cases hk : runLoader host loader (w.boundLoad i name) name (w.opened i r name) with
  | mk kept after => cases kept <;> simp_all

end World

open World Session

/-- What a call answers in the end, whatever happens after it. If there is no loader at the call, it
changes nothing, and every poll refuses the render. Otherwise the call is bound to a load; one that
it starts is handed to the loader of that moment. A poll then finds what the load yields, and
resolves the render by that, with the global data of the call and the helpers of the poll. -/
theorem render_snapshot (n m : Nat) {w w₁ w₂ : World Op} {i : Nat} {name : String}
    {data : Option Value} {block : Option String} {p : Pending} (hw : w.Reached)
    (call : ask (hostAt n) i name data block w = (some p, w₁)) (later : w₁.Later w₂) :
    ∃ r, w.renderer? i = some r ∧
      (r.loader = none →
        w₁ = w ∧ poll (hostAt m) p w₂ = (.ready (.error (.noLoader name)), w₂)) ∧
      ∀ loader, r.loader = some loader →
        let load := w.boundLoad i name
        let found := pollLoad (hostAt m) load w₂
        (∃ g, p = ⟨i, name, r.addGlobals data, block.filter (· != ""), some ⟨g, load⟩⟩) ∧
        (w.cached? i name = none →
          runLoader (hostAt n) loader load name (w.opened i r name) = (true, w₁)) ∧
        (poll (hostAt m) p w₂).1 = found.1.map (answer (hostAt m) p found.2) ∧
        (∀ result, found.1 = .ready result →
          (poll (hostAt m) p w₂).2.result? load = some result) ∧
        ∀ result, w₂.result? load = some result → found.1 = .ready result := by
  obtain ⟨hl₁, ha⟩ := ask_later n hw call
  have hw₂ := later.reached (hl₁.reached hw)
  have hp := later.asked_of_asked ha
  cases hr : w.renderer? i with
  | none => simp [ask, hr] at call
  | some r =>
    refine ⟨r, rfl, fun hl => ?_, fun loader hl => ?_⟩
    · rw [ask_of_no_loader hr hl] at call
      cases call
      exact ⟨rfl, poll_of_no_binding rfl _ _⟩
    · obtain ⟨g, hg⟩ := binding_of_ask hr hl call
      have hb : p.binding = some ⟨g, w.boundLoad i name⟩ := by rw [hg]; rfl
      refine ⟨⟨g, hg⟩, fun hn => runLoader_of_ask hr hl hn call, poll_fst hb _ _, ?_, ?_⟩
      · exact fun result hres => result?_poll (hostAt_like_self m) hw₂ hp hb hres
      · exact fun result hres => by rw [pollLoad_of_result? hres]

theorem render_snapshot_global :
    ∃ p w₁, ask (hostAt 0) 0 "page" none none (site (.template titlePage) .retain) = (some p, w₁) ∧
      (poll (hostAt 0) p (w₁.update 0 (·.setGlobal "title" (.string "new")))).1 =
        .ready (.ok "old") := by
  have call : ask (hostAt 0) 0 "page" none none (site (.template titlePage) .retain) =
      (some ⟨0, "page", [("title", .string "old")], none, some ⟨0, 0⟩⟩, _) := rfl
  have later := later_update (f := (·.setGlobal "title" (.string "new"))) (fun _ => rfl)
    (fun _ => rfl) (ask (hostAt 0) 0 "page" none none (site (.template titlePage) .retain)).2 0
  obtain ⟨r, hr, -, h⟩ :=
    render_snapshot 0 0 (later_site (.template titlePage) .retain) call later
  cases hr
  exact ⟨_, _, call, (h _ rfl).2.2.1⟩

end Stencil
