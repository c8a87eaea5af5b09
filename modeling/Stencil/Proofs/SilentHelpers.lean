import Stencil.Proofs.SessionLockstep
import Stencil.Proofs.UnknownHelper

/-!
# Silent helpers

The dispatcher prints nothing for a helper that is not there, and nothing for one that fails, be it
by an error, by a panic or by a value that does not count as true. A template that is discreet
cannot tell these apart, however deep in it the helper is called and whatever it makes of the text
that it gets: it does the same with any of them, and leaves the same world but for warnings.

A session may run while the template does, so this rests on the log making no difference to any
operation (`Session.hostAt_lockstep`).
-/

namespace Stencil

open World

variable {Ω α σ : Type}

/-- A helper whose calls change nothing of what surrounds it. An operation is a change: what it
answers is recorded. -/
def Helper.Harmless (host : Host Ω σ) (helper : Helper Ω) : Prop :=
  ∀ this args s, (HelperTable.call host helper this args s).2 = s

/-- Whether nothing ever comes of calling a name: no helper has it, or one that is harmless and
never gives a value that counts as true. -/
def HelperTable.Silent (host : Host Ω σ) (t : HelperTable Ω) (h : String) : Prop :=
  ∀ helper, t.get? h = some helper → helper.Fails host ∧ helper.Harmless host

/-- The worlds in which nothing but warnings may be different. -/
def Likeness.strict : Likeness Ω where
  free := False
  ids _ := False
  op := Eq
  told := Eq

theorem Likeness.kept_strict : (strict : Likeness Op).Kept where
  refl _ _ := rfl
  told h := by
    rcases h with rfl | ⟨_, p, p', _, _, twin, hne, -⟩
    · rfl
    · exact absurd (twin.resolve_left hne).1 id
  op := by
    rintro op _ rfl
    have same (a : Argument (Receiver Op)) : a.Twin Eq a := .refl fun _ _ _ _ => rfl
    refine ⟨?_, False.elim⟩
    by_cases h : ∃ handle name args executor, op = .parse handle name args executor
    · obtain ⟨handle, name, args, executor, rfl⟩ := h
      exact .parse handle name ⟨same _, same _, same _⟩ executor
    · exact .same fun handle name args executor he => h ⟨handle, name, args, executor, he⟩

theorem Template.Makes.of_part {allow : Call Ω → Prop} {t part : Template Ω} (h : t.Makes allow)
    {block : Option String} (hp : t.part block = some part) : part.Makes allow := by
  cases block with
  | none =>
    cases hp
    exact h
  | some name => exact h.of_block? hp

namespace World

variable {w w' : World Ω}

def calm (w : World Ω) : World Ω := { w with log := w.calmLog }

theorem Alike.strict_refl (w : World Ω) : Alike .strict w w :=
  .refl (fun _ => rfl) (fun _ _ _ _ => rfl) False.elim

theorem Alike.calm (h : Alike .strict w w') : w'.calm = w.calm := by
  have same {α : Type} {R : α → α → Prop} (hR : ∀ a b, R a b → b = a) {l l' : List α}
      (hl : List.Forall₂ R l l') : l' = l := by
    induction hl with
    | nil => rfl
    | cons ha _ ih => rw [hR _ _ ha, ih]
  have renders : w'.renders = w.renders := same (fun e e' he => by
    exact Prod.ext he.1 (he.2.resolve_right fun hf => hf.1)) h.renders
  have tasks (t t' : Task Ω) (ht : t.Twin Eq t') : t' = t := by
    obtain ⟨id, stage, receiver⟩ := t
    obtain ⟨id', stage', receiver'⟩ := t'
    obtain ⟨rfl, rfl, ho⟩ := ht
    obtain ⟨label, ho⟩ := ho
    rw [same (fun _ _ h => h.symm) ho]
  have events (e e' : Event Ω) (he : e.Twin False e') : e' = e := by
    cases he with
    | refl => rfl
    | received hp => rw [hp.resolve_right fun hf => hf.1]
  have log : w'.calmLog = w.calmLog := h.log id
  have rejoined (v : World Ω) : v.calm = { v.core with
      renders := v.renders, ready := v.ready, yielded := v.yielded, parked := v.parked
      log := v.calmLog, answers := v.answers, history := v.history } := rfl
  rw [rejoined w', rejoined w, h.core, renders, same tasks h.ready, same tasks h.yielded,
    same tasks h.parked, log, same (fun _ _ h => h.symm) h.answers, same events h.history]

end World

-- ---------------------------------------------------------------------------
-- The dispatcher
-- ---------------------------------------------------------------------------

section

variable {host : Host Ω (World Ω)} {h : String}

/-- A call of a silent name prints nothing, and does nothing but warn. -/
theorem HelperTable.dispatch_silent (hl : host.Logs) {t : HelperTable Ω} (ht : t.Silent host h)
    (this : Value) (args : List Value) (w : World Ω) :
    ∃ rs, rs.filter (·.level ≠ .warn) = [] ∧
      t.dispatch host this h args w = ("", w.logged rs) := by
  unfold dispatch
  cases hg : t.get? h with
  | none => exact ⟨[], rfl, by rw [w.logged_nil]⟩
  | some helper =>
    obtain ⟨fails, harmless⟩ := ht helper hg
    have left := harmless this args w
    have value := fails this args w
    simp only
    generalize call host helper this args w = x at left value
    obtain ⟨ending, v⟩ := x
    obtain rfl : v = w := left
    cases ending with
    | value a =>
      have falsy : a.isTruthy = false := value a rfl
      exact ⟨[], rfl, by simp [falsy, v.logged_nil]⟩
    | error e => exact ⟨[.helperFailed h e], rfl, by simp only [hl _ v]; rfl⟩
    | panic => exact ⟨[.helperPanicked h], rfl, by simp only [hl _ v]; rfl⟩

variable {helpers helpers' : HelperTable Ω}

/-- Discreet code does the same with two tables that differ in a silent name only. -/
theorem Code.run_silent (hh : host.Lockstep .strict)
    (others : ∀ name, name ≠ h → helpers'.get? name = helpers.get? name)
    (hs : helpers.Silent host h) (hs' : helpers'.Silent host h) {good : α → Prop} {c : Code Ω α}
    (hc : c.Makes Call.IsDiscreet good) {w w' : World Ω} (hw : Alike .strict w w') :
    Agree .strict (c.run host (helpers.dispatcher host) w)
      (c.run host (helpers'.dispatcher host) w') := by
  induction c generalizing w w' with
  | done a => exact .mk _ hw
  | panic => exact .mk _ hw
  | log r next ih => exact ih hc.2 (hh.logged hw r)
  | perform op next ih =>
    have performed := hh.perform id op hw
    simp only [run, performed.fst]
    exact ih _ (hc.2 _) performed.snd
  | names next ih => exact hc.1.elim
  | dispatch this name args next ih =>
    have dispatched : Agree .strict (helpers.dispatch host this name args w)
        (helpers'.dispatch host this name args w') := by
      by_cases hn : name = h
      · subst hn
        obtain ⟨rs, hr, he⟩ := HelperTable.dispatch_silent hh.log hs this args w
        obtain ⟨rs', hr', he'⟩ := HelperTable.dispatch_silent hh.log hs' this args w'
        rw [he, he']
        exact .mk _ (hw.logged fun _ => hr'.trans hr.symm)
      · have same : helpers'.dispatch host this name args w' =
            helpers.dispatch host this name args w' := by
          simp only [HelperTable.dispatch, others name hn]
        rw [same]
        exact HelperTable.dispatch_alike hh False.elim this name args hw
    simp only [run, HelperTable.dispatcher, dispatched.fst]
    exact ih _ (hc.2 _) dispatched.snd

end

/-- Sturdy code does not panic, whatever helpers do. -/
theorem Code.run_sturdy (host : Host Ω σ) (d : Dispatcher σ) {good : α → Prop} {c : Code Ω α}
    (hc : c.Makes Call.IsSturdy good) (s : σ) : (c.run host d s).1 ≠ none := by
  induction c generalizing s with
  | done a => exact nofun
  | panic => exact hc.elim
  | log r next ih => exact ih hc.2 _
  | perform op next ih => exact ih _ (hc.2 _) _
  | names next ih => exact ih _ (hc.2 _) _
  | dispatch this name args next ih => exact ih _ (hc.2 _) _

-- ---------------------------------------------------------------------------
-- Templates
-- ---------------------------------------------------------------------------

open Session

/-- A template that touches the helper table through the dispatcher only, or a block of it, does the
same with two tables that differ at one name, if nothing comes of calling that name with either:
both runs print the same text or both panic, and the worlds they leave differ in warnings alone. A
template whose own code does not panic never panics at all. -/
theorem silent_helper_indistinguishable (n : Nat) (t : Template Op) {block : Option String}
    {part : Template Op} (hpart : t.part block = some part) (context : Value) :
    (t.Discreet → ∀ (h : String) (helpers helpers' : HelperTable Op),
      (∀ name, name ≠ h → helpers'.get? name = helpers.get? name) →
      helpers.Silent (hostAt n) h → helpers'.Silent (hostAt n) h → ∀ w : World Op,
        let one := part.run (hostAt n) helpers context w
        let other := part.run (hostAt n) helpers' context w
        other.1 = one.1 ∧ other.2.calm = one.2.calm) ∧
    (t.Sturdy → ∀ (helpers : HelperTable Op) (w : World Op),
      (part.run (hostAt n) helpers context w).1 ≠ none) := by
  constructor
  · intro discreet h helpers helpers' others silent silent' w
    have ran := Code.run_silent (hostAt_lockstep Likeness.kept_strict n) others silent silent'
      ((discreet.of_part hpart).body context) (Alike.strict_refl w)
    unfold Template.run Template.call
    generalize (part.body context).run (hostAt n) (helpers.dispatcher (hostAt n)) w = x at ran
    generalize (part.body context).run (hostAt n) (helpers'.dispatcher (hostAt n)) w = y at ran
    obtain ⟨a, hv⟩ := ran
    cases a with
    | none => exact ⟨rfl, hv.calm⟩
    | some v => exact ⟨rfl, hv.calm⟩
  · intro sturdy helpers w
    have ended := Code.run_sturdy (hostAt n) (helpers.dispatcher (hostAt n))
      ((sturdy.of_part hpart).body context) w
    unfold Template.run Template.call
    generalize (part.body context).run (hostAt n) (helpers.dispatcher (hostAt n)) w = x at ended
    obtain ⟨a, v⟩ := x
    cases a with
    | none => exact absurd rfl ended
    | some v => exact nofun

-- ---------------------------------------------------------------------------
-- A page to look at
-- ---------------------------------------------------------------------------

/-- A page that calls helpers in two nested walks, one inside of the arguments of the other, and
chooses by what a helper prints. -/
def walkingPage : Draft Op :=
  .mk (.walk (.context [.key "rows"]) (.concat [
    .walk (.visit (.value [])) (.help "wrap" [.help "gone" [.visit (.value [])] none] none),
    .choose (.help "gone" [] none) (.lit (.string "yes")) (.lit (.string "no"))])) []

def wrap : Helper Op := fun _ args =>
  .done (.ok (.string ("<" ++ (args.headD .null).text ++ ">")))

def panicking : Helper Op := fun _ _ => .panic

def callingOut : Template Op :=
  .ofBody fun context => .dispatch context "gone" [] fun text => .done (.string text)

def rows : Value := .object [("rows", .array [.array [.string "a", .string "b"]])]

def wrapping : HelperTable Op := HelperTable.empty.register "wrap" wrap

theorem silent_helper_indistinguishable_page :
    let failing := wrapping.register "gone" panicking
    let one := walkingPage.template.run (hostAt 1) wrapping rows {}
    let other := walkingPage.template.run (hostAt 1) failing rows {}
    one.1 = some "<><>no" ∧ other.2.log.length = 3 ∧ other.1 = one.1 ∧
      other.2.calm = one.2.calm ∧ (callingOut.run (hostAt 1) failing .null {}).1 ≠ none := by
  have text : (walkingPage.template.run (hostAt 1) wrapping rows {}).1 = some "<><>no" := by
    decide +kernel
  have warned : (walkingPage.template.run (hostAt 1) (wrapping.register "gone" panicking) rows
      {}).2.log.length = 3 := by decide +kernel
  intro failing one other
  have others (name : String) (hn : name ≠ "gone") : failing.get? name = wrapping.get? name :=
    HelperTable.get?_register_of_ne wrapping panicking hn
  have silent : wrapping.Silent (hostAt 1) "gone" := by
    intro helper hg
    cases hg
  have silent' : failing.Silent (hostAt 1) "gone" := by
    intro helper hg
    cases hg
    exact ⟨fun _ _ _ _ hv => (nomatch hv), fun _ _ _ => rfl⟩
  have whole {t : Template Op} : t.part none = some t := rfl
  obtain ⟨same, calm⟩ := (silent_helper_indistinguishable 1 walkingPage.template whole rows).1
    walkingPage.discreet "gone" wrapping failing others silent silent' {}
  have sturdy : callingOut.Sturdy := .ofBody fun _ => ⟨trivial, fun _ => trivial⟩
  have ended := (silent_helper_indistinguishable 1 callingOut whole .null).2 sturdy failing {}
  exact ⟨text, warned, same, calm, ended⟩

end Stencil
