import Stencil.Proofs.Operations
import Stencil.Proofs.Scripts

/-!
# Sessions follow relations

Every operation of a session stays in a relation that all changes are in, at every depth
(`step_follows`, `hostAt_akin`). So every operation is a run of its world, and every world between
two operations of a session is reached (`reached_after`). So is every world in which code gets
control in the middle of an operation: a host that does something else in all other worlds makes no
difference (`step_eq_of_reached`).
-/

namespace Stencil.Session

open World

variable {ok : Record → Prop} {new : Nat → String → Prop} {S : World Op → World Op → Prop}
  {w₀ w : World Op}
  {host host' : SessionHost}

theorem change_follows (hS : Tracks ok new S w₀) {f : Renderer Op → Renderer Op}
    (hc : ∀ r, (f r).cache = r.cache) (hp : ∀ r, (f r).policy = r.policy)
    (plain : ∀ r, r.Plain ok → (f r).Plain ok) (w : World Op) (handle : Nat) :
    S w (change w handle f).2 :=
  hS.change (.update w _ hc hp plain)

theorem follows_registered (hS : Tracks ok new S w₀) {loader : Loader Op} (hl : loader.Plain ok)
    (w : World Op) (handle : Nat) : S w (change w handle fun r => r.registerLoader loader).2 := by
  refine change_follows hS (f := fun r => r.registerLoader loader) (fun _ => rfl) (fun _ => rfl)
    (fun r hr => ⟨hr.helpers, ?_⟩) w handle
  rintro _ ⟨⟩
  exact hl

theorem follows_libraries (hS : Tracks ok new S w₀) (w : World Op)
    (libraries : Entries Markup.Library) :
    S w { w with libraries := libraries } :=
  hS.still (Quiet.later ⟨rfl, rfl, rfl⟩ fun _ h => h) rfl rfl rfl

theorem registerLoader_follows (hS : Tracks ok new S w₀) (w : World Op) (handle : Nat) (id : String)
    (source : LoaderSource Op) : S w (registerLoader w handle id source).2 := by
  have library (l : Markup.Library) : (l.loader : Loader Op).Plain ok := l.plain_loader hS.ok_of
  cases source with
  | script s => exact follows_registered hS (s.plain_loader id) w handle
  | library l =>
    exact hS.trans (follows_libraries hS w _) (follows_registered hS (library l) _ handle)
  | kept env =>
    exact hS.trans (follows_libraries hS w _) (follows_registered hS (library _) _ handle)

theorem flush_follows (hS : Tracks ok new S w₀) (w : World Op) (handle : Nat) :
    S w (flush w handle).2 := by
  unfold flush
  split
  · exact hS.refl w
  · rename_i r hr
    exact hS.change (.flush hr)

theorem cached?_flush (w : World Op) (handle : Nat) (name : String) :
    (flush w handle).2.cached? (resolve w handle) name = none := by
  unfold flush
  split
  · rename_i hr
    simp [cached?, caches, show w.renderers[resolve w handle]? = none from hr]
  · exact (cached?_flushed w _ _ name).trans (if_pos rfl)

theorem follows_keep (hS : Tracks ok new S w₀) {p : Pending} (hp : w.Asked p) (id : String) :
    S w { w with renders := w.renders.insert id p } :=
  hS.still (later_keep hp id) rfl rfl rfl

theorem start_follows (hS : Tracks ok new S w₀) (h : host.Akin ok S w₀ host') {handle : Nat}
    {name : String} (may : new (resolve w handle) name) (id : String) (data : Option Value)
    (block : Option String) (hw : S w₀ w) :
    Follows S w (start host w handle id name data block)
      (start host' w handle id name data block) := by
  obtain ⟨⟨he, hl⟩, hb⟩ := ask_follows hS h may data block hw
  unfold start
  rw [he]
  split <;> (rename_i hx; rw [hx] at hl hb)
  · exact .of_step (hS.trans hl (follows_keep hS (hb _ rfl) id))
  · exact .of_step hl

theorem poll_follows (hS : Tracks ok new S w₀) (h : host.Akin ok S w₀ host') (id : String)
    (hw : S w₀ w) :
    Follows S w (poll host w id) (poll host' w id) := by
  unfold poll
  split
  · exact .refl hS w _
  · rename_i p hp
    have hl : S w { w with renders := w.renders.erase id } :=
      hS.still (later_erase w id) rfl rfl rfl
    -- the render is out of reach while it is polled
    have ha := (hS.reached hw).asked (.inl ⟨id, Entries.mem_of_get? hp⟩)
    replace ha := (hS.later hl).asked_of_asked ha
    obtain ⟨he, hl'⟩ := World.poll_follows hS h (hS.trans hw hl) ha
    rw [he]
    split <;> (rename_i hx; rw [hx] at hl'; refine .of_step (hS.trans hl (hS.trans hl' ?_)))
    · exact follows_keep hS ((hS.later hl').asked_of_asked ha) id
    · exact hS.refl _
    · exact hS.refl _

theorem render_follows (hS : Tracks ok new S w₀) (h : host.Akin ok S w₀ host') {handle : Nat}
    {name : String} (may : new (resolve w handle) name) (data : Option Value)
    (block : Option String) (hw : S w₀ w) :
    Follows S w (render host w handle name data block) (render host' w handle name data block) := by
  obtain ⟨⟨he, hl⟩, hb⟩ := ask_follows hS h may data block hw
  unfold render
  rw [he]
  split <;> (rename_i hx; simp only [hx] at hl hb)
  · exact .of_step hl
  · obtain ⟨he', hl'⟩ := World.poll_follows hS h (hS.trans hw hl) (hb _ rfl)
    rw [he']
    split <;> (rename_i hy; rw [hy] at hl'; exact .of_step (hS.trans hl hl'))

theorem release_follows (hS : Tracks ok new S w₀) (w : World Op) (gate : String) :
    S w (w.release gate).2 := by
  have opened (woken : List Nat) (v : World Op) : S v (woken.foldl wake v) := by
    induction woken generalizing v with
    | nil => exact hS.refl v
    | cons load rest ih => exact hS.trans (hS.wake v load) (ih _)
  exact hS.trans (hS.change (.release w gate)) (opened _ _)

def asks (w : World Op) : Op → Option (Nat × String)
  | .start handle _ name _ _ => some (resolve w handle, name)
  | .render handle name _ _ => some (resolve w handle, name)
  | .parse handle name _ _ => some (resolve w handle, name)
  | _ => none

theorem step_follows (hS : Tracks ok new S w₀) (h : host.Akin ok S w₀ host') (op : Op)
    (may : ∀ i name, asks w op = some (i, name) → new i name) (hw : S w₀ w) :
    Follows S w (step host w op) (step host' w op) := by
  cases op with
  | create config =>
    simp only [step]
    split
    · exact .of_step (hS.change (.create w rfl (Renderer.plain_ofConfig _)))
    · exact .refl hS w _
  | share handle =>
    exact .of_step (hS.still (Quiet.later ⟨rfl, rfl, rfl⟩ fun _ h => h) rfl rfl rfl)
  | helperNames handle => exact .refl hS w _
  | hasLoader handle => exact .refl hS w _
  | flush handle => exact .of_step (flush_follows hS w handle)
  | isCached handle name => exact .refl hS w _
  | inspect handle => exact .refl hS w _
  | registerHelper handle name helper =>
    exact .of_step (change_follows hS (f := fun r => r.registerHelper name helper.helper)
      (fun _ => rfl) (fun _ => rfl) (fun _ hr => hr.registerHelper helper.plain_helper name) w
      handle)
  | setGlobal handle key v =>
    exact .of_step (change_follows hS (f := fun r => r.setGlobal key v)
      (fun _ => rfl) (fun _ => rfl) (fun _ hr => ⟨hr.helpers, hr.loader⟩) w handle)
  | addGlobals handle data => exact .refl hS w _
  | callHelper handle name this args =>
    simp only [step]
    split
    · exact .refl hS w _
    · rename_i r hr
      have plain := ((hS.plain hw).renderers r (List.mem_of_getElem? hr)).helpers
      exact (HelperTable.dispatch_follows hS h plain this name args hw).map hS
        (f := fun x => (Answer.output x.1, x.2)) (hS.refl _)
  | registerLoader handle id loader => exact .of_step (registerLoader_follows hS w handle id loader)
  | addSource id name source env => exact .of_step (follows_libraries hS w _)
  | calls id name => exact .refl hS w _
  | start handle id name data block => exact start_follows hS h (may _ _ rfl) id data block hw
  | poll id => exact poll_follows hS h id hw
  | drop id => exact .of_step (hS.still (later_erase w id) rfl rfl rfl)
  | render handle name data block => exact render_follows hS h (may _ _ rfl) data block hw
  | release gate => exact .of_step (release_follows hS w gate)
  | parse handle name args executor => exact parse_follows hS h (may _ _ rfl) args executor hw
  | drain =>
    obtain ⟨he, hl⟩ := drain_follows hS h turnLimit hw
    simp only [step, he]
    exact .of_step hl

/-- A host that does what that of a depth does, in all worlds that the relation leads to. -/
theorem hostAt_akin (hS : Tracks ok new S w₀) (may : ∀ i name, new i name) (n : Nat)
    {host' : SessionHost}
    (hp : ∀ op {w : World Op}, S w₀ w → host'.perform op w = (hostAt n).perform op w)
    (hl : ∀ r {w : World Op}, S w₀ w → host'.log r w = (hostAt n).log r w) :
    (hostAt n).Akin ok S w₀ host' := by
  have logged (m : Nat) (r : Record) (hr : ok r) (w : World Op) : S w ((hostAt m).log r w) := by
    cases m <;> exact hS.change (.record w hr)
  induction n generalizing host' with
  | zero =>
    exact ⟨fun op w hw => ⟨hp op hw, hS.refl w⟩,
      fun r hr w hw => ⟨by rw [hl r hw], logged 0 r hr w⟩⟩
  | succ n ih =>
    have hn := ih (fun _ _ _ => rfl) fun _ _ _ => rfl
    refine ⟨fun op w hw => ⟨hp op hw, ?_⟩,
      fun r hr w hw => ⟨by rw [hl r hw], logged (n + 1) r hr w⟩⟩
    exact hS.trans (step_follows hS hn op (fun i name _ => may i name) hw).step
      (hS.still (later_recordAnswer ..) rfl rfl rfl)

theorem hostAt_akin_self (hS : Tracks ok new S w₀) (may : ∀ i name, new i name) (n : Nat) :
    (hostAt n).Akin ok S w₀ (hostAt n) :=
  hostAt_akin hS may n (fun _ _ _ => rfl) fun _ _ _ => rfl

/-- Code gets control only in worlds that the relation leads to: what a host does in others makes no
difference. -/
theorem step_eq_of_follows (hS : Tracks ok new S w₀) (may : ∀ i name, new i name) (n : Nat)
    (hp : ∀ op {w : World Op}, S w₀ w → host.perform op w = (hostAt n).perform op w)
    (hl : ∀ r {w : World Op}, S w₀ w → host.log r w = (hostAt n).log r w) (op : Op)
    (hw : S w₀ w) : step host w op = step (hostAt n) w op :=
  (step_follows hS (hostAt_akin hS may n hp hl) op (fun i name _ => may i name) hw).eq

theorem hostAt_like_self (n : Nat) : (hostAt n).Like (hostAt n) :=
  hostAt_akin_self tracks_run (fun _ _ => trivial) n

theorem step_eq_of_reached (n : Nat)
    (hp : ∀ op {w : World Op}, w.Reached → host.perform op w = (hostAt n).perform op w)
    (hl : ∀ r {w : World Op}, w.Reached → host.log r w = (hostAt n).log r w) (op : Op)
    (hw : w.Reached) : step host w op = step (hostAt n) w op :=
  step_eq_of_follows tracks_run (fun _ _ => trivial) n hp hl op hw

theorem ask_later (n : Nat) {i : Nat} {name : String} {data : Option Value}
    {block : Option String} {p : Pending} {w' : World Op} (hw : w.Reached)
    (call : ask (hostAt n) i name data block w = (some p, w')) : w.Later w' ∧ w'.Asked p := by
  obtain ⟨⟨-, hl⟩, ha⟩ := ask_leads (hostAt_like_self n) i name data block hw
  rw [call] at hl ha
  exact ⟨hl, ha p rfl⟩

theorem poll_later (n : Nat) {p : Pending} (hw : w.Reached) (hp : w.Asked p) :
    w.Later (World.poll (hostAt n) p w).2 :=
  (World.poll_follows tracks_run (hostAt_like_self n) hw hp).later

/-- What a step of a session starts from: what was recorded before is not in its report. -/
def cleared (w : World Op) : World Op := { w with log := [], outputs := [], answers := [] }

theorem later_cleared (w : World Op) : w.Later (cleared w) :=
  Quiet.later ⟨rfl, rfl, rfl⟩ fun _ h => h

theorem log_reportStep (w : World Op) (op : Op) :
    (reportStep w op).1.log = (reportStep w op).2.log :=
  rfl

theorem reportStep_later (op : Op) (hw : w.Reached) : w.Later (reportStep w op).2 := by
  have hc := (later_cleared w).reached hw
  have stepped := step_follows tracks_run (hostAt_like_self depthLimit) op (fun _ _ _ => trivial) hc
  exact (later_cleared w).trans stepped.later

theorem reportStep_reached (op : Op) (hw : w.Reached) : (reportStep w op).2.Reached :=
  (reportStep_later op hw).reached hw

def after (w : World Op) (ops : List Op) : World Op :=
  ops.foldl (fun w op => (reportStep w op).2) w

theorem later_after (ops : List Op) (hw : w.Reached) : w.Later (after w ops) := by
  induction ops generalizing w with
  | nil => exact .refl w
  | cons op rest ih => exact (reportStep_later op hw).trans (ih (reportStep_reached op hw))

theorem reached_after (ops : List Op) (hw : w.Reached) : (after w ops).Reached :=
  (later_after ops hw).reached hw

-- ---------------------------------------------------------------------------
-- A world to look at
-- ---------------------------------------------------------------------------

def titlePage : Template Op := .ofBody fun context => .done ((context.field? "title").getD .null)

def loaderOf (outcome : Outcome (Template Op)) : Loader Op where
  load _ _ := .done ⟨.future ⟨outcome, none⟩, none⟩

def site (outcome : Outcome (Template Op)) (policy : CachePolicy) : World Op :=
  World.addRenderer {} {
    globals := [("title", .string "old")]
    loader := some (loaderOf outcome)
    policy := policy }

theorem later_site (outcome : Outcome (Template Op)) (policy : CachePolicy) :
    World.Later {} (site outcome policy) :=
  (Move.create {} rfl).later fun _ h => h

end Stencil.Session
