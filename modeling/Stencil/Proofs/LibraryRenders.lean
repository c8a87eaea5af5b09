import Stencil.Proofs.Backed
import Stencil.Proofs.UnknownHelper

/-!
# Renders of a library

Where a library is the only loader, a render is ready in its first poll, and the one error that it
can come to is that its source does not compile. All that goes wrong while a template is rendered,
in the template itself or in those that it includes, and in whatever way helpers fail, ends in the
empty output and one warning. This holds of every engine; what compiles, and how a render ends, is
up to the engine.
-/

namespace Stencil

variable {Ω σ : Type}

open Markup

-- ---------------------------------------------------------------------------
-- How the engine ends
-- ---------------------------------------------------------------------------

namespace World

variable {w w' v v' : World Ω} {i : Nat} {l : Library} {host : Host Ω (World Ω)} {p : Pending}

def engineRun (host : Host Ω (World Ω)) (l : Library) (p : Pending) (w : World Ω) :
    Except Failure String × World Ω :=
  (l.rendering (w.helpers p.renderer).names p.name p.block (.object p.context)).run
    ((w.helpers p.renderer).dispatcher host) (.object p.context) w

/-- What a render comes to by how the engine ends. -/
def settledBy (name : String) : Except Failure String → World Ω → Except Error String × World Ω
  | .ok text, w => (.ok text, w)
  | .error f, w => (.ok "", w.record (.engineFailed name f))

def reported (name : String) : Except Failure String → List Record
  | .ok _ => []
  | .error f => [.engineFailed name f]

def faults (w : World Ω) : List Record :=
  w.log.filter fun
    | .engineFailed _ _ => true
    | _ => false

theorem faults_settledBy (name : String) (ended : Except Failure String) (w : World Ω) :
    (settledBy name ended w).2.faults = w.faults ++ reported name ended := by
  cases ended with
  | ok text => exact (List.append_nil _).symm
  | error f => exact List.filter_append ..

/-- The engine itself records nothing, so its failures in the log are those that come of helpers. -/
theorem faults_engineRun (kept : ∀ name args (w' : World Ω),
    ((w.helpers p.renderer).dispatch host (.object p.context) name args w').2.faults = w'.faults) :
    (engineRun host l p w).2.faults = w.faults :=
  Rendering.run_snd faults kept _ w

theorem runTemplate_of_body (logs : host.Logs) {part : Template Ω}
    (hb : part.body = l.bodyOf p.name p.block) :
    runTemplate host p part w =
      settledBy p.name (engineRun host l p w).1 (engineRun host l p w).2 := by
  have printed := Library.run_of_body hb host (.object p.context) w (w.helpers p.renderer)
  simp only [World.helpers] at printed
  simp only [runTemplate, printed, engineRun, World.helpers]
  generalize Rendering.run _ _ _ w = ended
  obtain ⟨r, u⟩ := ended
  cases r with
  | ok text => rfl
  | error f => simp only [settledBy, logs _ _]

theorem complete_of_part (host : Host Ω (World Ω)) (b : Binding) {t part : Template Ω}
    (hpart : t.part p.block = some part) (w : World Ω) :
    complete host p b (.ok (some t)) w = runTemplate host p part w := by
  unfold complete
  cases hb : p.block with
  | none =>
    rw [hb] at hpart
    cases hpart
    rfl
  | some name =>
    rw [hb] at hpart
    simp only [show t.block? name = some part from hpart]

theorem complete_of_no_block (host : Host Ω (World Ω)) (b : Binding) {t : Template Ω}
    {name : String} (hb : p.block = some name) (h : t.block? name = none) (w : World Ω) :
    complete host p b (.ok (some t)) w = (.ok "", w.record (.missingBlock p.name name)) := by
  simp only [complete, hb, h]

-- ---------------------------------------------------------------------------
-- Loads by a library
-- ---------------------------------------------------------------------------

/-- A render that is asked for of a library is bound to a load that is ready. -/
theorem ask_backed (logs : host.Logs) (backed : w.Backed i l) {r : Renderer Ω}
    (hr : w.renderer? i = some r) (hl : r.hasLoader = true) (name : String) (data : Option Value)
    (block : Option String) :
    ∃ b w₁, ask host i name data block w = (some (captured i r name data block (some b)), w₁) ∧
      w₁.Ended b.load (l.found name) := by
  obtain ⟨loader, hl⟩ := Option.isSome_iff_exists.mp hl
  obtain rfl := (backed r hr).loader loader hl
  cases hn : r.cache.entries.get? name with
  | some a =>
    obtain ⟨g, load⟩ := a
    exact ⟨⟨g, load⟩, _, ask_of_hit hr hl hn .., (backed r hr).cached _ (Entries.mem_of_get? hn)⟩
  | none =>
    obtain ⟨rs, ran⟩ := runLoader_library (l := l) logs w.loads.slots.length name
      (w.opened i r name)
    refine ⟨⟨r.cache.next, w.loads.slots.length⟩, _, ?_, ended_handOver (l := l)
      (w := (w.opened i r name).logged rs) (w.reserved_opened i r name) name⟩
    rw [ask_of_miss hr hl hn, ran]
    rfl

/-- What a render comes to whose template a library loads. -/
structure Settles (host : Host Ω (World Ω)) (l : Library) (p : Pending) (v : World Ω)
    (result : Except Error String) (v' : World Ω) : Prop where
  /-- The only failure is that of a source that does not compile. -/
  error_iff : ∀ e, result = .error e ↔ ∃ source f, l.source? p.name = some source ∧
    l.settings.compile p.name source = .error f ∧ e = .templateLoad p.name (.failed f.text)
  /-- Nothing is printed where there is no source, nor for a block that is not there. -/
  absent : l.source? p.name = none → result = .ok ""
  missing : ∀ {source b}, l.source? p.name = some source →
    l.settings.compile p.name source = .ok () → p.block = some b →
    b ∉ Declared.blockNames source → result = .ok ""
  /-- Else the engine renders the template or the block, and what it prints is the output. If it
  fails, nothing is printed and a warning is recorded: the only one of its kind, but for those that
  calls of helpers record. -/
  rendered : ∀ {source}, l.source? p.name = some source →
    l.settings.compile p.name source = .ok () → (∀ b ∈ p.block, b ∈ Declared.blockNames source) →
    ∃ u, u.log = v.log ∧ u.renderers = v.renderers ∧
      (result, v') = settledBy p.name (engineRun host l p u).1 (engineRun host l p u).2 ∧
      ((∀ name args (w : World Ω), ((v.helpers p.renderer).dispatch host (.object p.context) name
          args w).2.faults = w.faults) →
        v'.faults = v.faults ++ reported p.name (engineRun host l p u).1)

section Settles

variable {result : Except Error String} {source : String}

theorem settles_of_no_source (hs : l.source? p.name = none) : Settles host l p v (.ok "") v' where
  error_iff e := by simp [hs]
  absent _ := rfl
  missing h := by simp [hs] at h
  rendered h := by simp [hs] at h

theorem settles_of_error (hs : l.source? p.name = some source) {f : Failure}
    (hf : l.settings.compile p.name source = .error f) :
    Settles host l p v (.error (.templateLoad p.name (.failed f.text))) v' where
  error_iff e := by simp [hs, hf, eq_comm]
  absent h := by simp [hs] at h
  missing h h' := by
    cases hs.symm.trans h
    cases hf.symm.trans h'
  rendered h h' := by
    cases hs.symm.trans h
    cases hf.symm.trans h'

theorem settles_of_hidden (hs : l.source? p.name = some source)
    (hc : l.settings.compile p.name source = .ok ()) {b : String} (hb : p.block = some b)
    (hidden : b ∉ Declared.blockNames source) : Settles host l p v (.ok "") v' where
  error_iff e := by simp [hs, hc]
  absent _ := rfl
  missing _ _ _ _ := rfl
  rendered h _ exposed := by
    cases hs.symm.trans h
    exact absurd (exposed b hb) hidden

theorem settles_of_compiled (hs : l.source? p.name = some source)
    (hc : l.settings.compile p.name source = .ok ())
    (exposed : ∀ b ∈ p.block, b ∈ Declared.blockNames source) {u : World Ω} (log : u.log = v.log)
    (renderers : u.renderers = v.renderers) :
    let settled := settledBy p.name (engineRun host l p u).1 (engineRun host l p u).2
    Settles host l p v settled.1 settled.2 where
  error_iff e := by
    cases (engineRun host l p u).1 <;> simp [hs, hc, settledBy]
  absent h := by simp [hs] at h
  missing h _ hb hidden := by
    cases hs.symm.trans h
    exact absurd (exposed _ hb) hidden
  rendered _ _ _ := by
    refine ⟨u, log, renderers, rfl, fun kept => ?_⟩
    have same : u.helpers p.renderer = v.helpers p.renderer := by
      simp only [World.helpers, renderer?, renderers]
    rw [faults_settledBy, faults_engineRun (same ▸ kept), faults, log, faults]

end Settles

/-- A render whose load is ready by the library is ready in its next poll. -/
theorem poll_of_ended (logs : host.Logs) {b : Binding} (hb : p.binding = some b)
    (ended : v.Ended b.load (l.found p.name)) :
    ∃ result v', poll host p v = (.ready result, v') ∧ Settles host l p v result v' := by
  have polled := poll_of_ready hb (ended.pollLoad host)
  cases hs : l.source? p.name with
  | none =>
    rw [Library.found_of_no_source hs] at polled
    exact ⟨_, _, polled, settles_of_no_source hs⟩
  | some source =>
    cases hc : l.settings.compile p.name source with
    | error f =>
      rw [Library.found_of_error hs hc] at polled
      exact ⟨_, _, polled, settles_of_error hs hc⟩
    | ok _ =>
      rw [Library.found_of_ok hs hc] at polled
      by_cases exposed : ∀ b ∈ p.block, b ∈ Declared.blockNames source
      · obtain ⟨part, hpart, body⟩ := Library.body_of_exposed (Ω := Ω) l p.name source exposed
        rw [complete_of_part host b hpart, runTemplate_of_body logs body] at polled
        exact ⟨_, _, polled, settles_of_compiled hs hc exposed rfl rfl⟩
      · obtain ⟨name, hb', hidden⟩ : ∃ name, p.block = some name ∧
            name ∉ Declared.blockNames source := by simpa using exposed
        have absent : (l.template p.name source : Template Ω).block? name = none := by
          rw [Library.block?_template, if_neg hidden]
        rw [complete_of_no_block host b hb' absent] at polled
        exact ⟨_, _, polled, settles_of_hidden hs hc hb' hidden⟩

end World

open World Session

/-- Where a library is the only loader that was ever registered, asking for a render never panics,
and the render is ready in its first poll, whenever that is. It does not panic either, and the
source may not be readable, but no other failure can come of it: the rest is output, empty if the
engine fails. This is so between the operations of a session (`Served`) and also in the midst of
one, as all that is done there spares the renderer (`step_spares`). -/
theorem library_render_never_fails (n : Nat) {i : Nat} {l : Library} {w w' : World Op}
    (served : Served i l w) (inside : w.Spares i l w') {r : Renderer Op}
    (hr : w'.renderer? i = some r) (hl : r.hasLoader = true) (name : String) (data : Option Value)
    (block : Option String) :
    ∃ p u, ask (hostAt n) i name data block w' = (some p, u) ∧ p.renderer = i ∧ p.name = name ∧
      p.context = r.addGlobals data ∧ p.block = block.filter (· != "") ∧
      (∀ f, (Record.engineFailed name f).level = .warn) ∧
      ∀ m v, u.Goes v → ∃ result v', poll (hostAt m) p v = (.ready result, v') ∧
        Settles (hostAt m) l p v result v' := by
  obtain ⟨b, u, asked, ended⟩ :=
    ask_backed (hostAt_logs n) (inside.backed served.backed) hr hl name data block
  exact ⟨_, u, asked, rfl, rfl, rfl, rfl, fun _ => rfl, fun m v goes =>
    poll_of_ended (hostAt_logs m) rfl (ended.onward goes.loads)⟩

def librarySession (l : Library) : World Op :=
  (reportStep (reportStep {} (.create (.given { escapeHelper := false }))).2
    (.registerLoader 0 "page" (.library l))).2

theorem served_librarySession (l : Library) : Served 0 l (librarySession l) := by
  have created : Served 0 l (reportStep {} (.create (.given { escapeHelper := false }))).2 :=
    .next .start trivial rfl
  exact .next created (fun _ => rfl) rfl

theorem library_render_never_fails_page :
    let asked := ask (hostAt 1) 0 "t" none none (librarySession (callingPage "t"))
    ∃ p, asked.1 = some p ∧ (poll (hostAt 1) p asked.2).1 = .ready (.ok "") ∧
      (poll (hostAt 1) p asked.2).2.faults =
        [.engineFailed "t" ⟨"unknown function", "unknown function"⟩] := by
  obtain ⟨p, u, asked, hi, hn, hc, hb, -, polls⟩ := library_render_never_fails 1
    (served_librarySession (callingPage "t")) (.refl _) rfl rfl "t" none none
  obtain ⟨result, v, polled, settles⟩ := polls 1 u (.refl u)
  have asked' : u = (ask (hostAt 1) 0 "t" none none (librarySession (callingPage "t"))).2 := by
    rw [asked]
  have table : u.helpers 0 = .empty := by
    rw [asked']
    rfl
  have unfaulted : u.faults = [] := by
    rw [asked']
    rfl
  have source : (callingPage "t").source? p.name = some callingSource := by
    rw [hn, source_callingPage]
  have compiles : (callingPage "t").settings.compile p.name callingSource = .ok () := by
    rw [hn, compile_callingPage]
  obtain ⟨u', -, renderers, settled, quiet⟩ :=
    settles.rendered source compiles (by simp [hb])
  have table' : u'.helpers p.renderer = .empty := by
    rw [hi, ← table]
    simp only [World.helpers, renderer?, renderers]
  have lost : (engineRun (hostAt 1) (callingPage "t") p u').1 =
      .error ⟨"unknown function", "unknown function"⟩ := by
    rw [engineRun, table', hn, hb, hc]
    show (Rendering.run _ _ ((callingPage "t").rendering [] "t" none (.object [])) u').1 = _
    rw [rendering_callingPage]
    rfl
  refine ⟨p, by rw [asked], ?_, ?_⟩
  · rw [asked, polled, (Prod.mk.inj settled).1, lost]
  · rw [asked, polled]
    refine (quiet fun name args w => ?_).trans (by rw [unfaulted, hn, lost]; rfl)
    rw [hi, table]
    rfl

end Stencil
