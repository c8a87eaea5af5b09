import Stencil.Proofs.Effects

/-!
# Completion order

Any renders of a reached world may be polled in any order: each gets what it would get if it were
polled first, and the worlds that come out are the same but for the order of what was logged, noted
and woken. Any number of renders may be bound to one load, and loads may fail under either policy.

The reason is that what a poll goes by is left alone by the polls of others. So the effects of all
polls are given beforehand, and effects can change places.
-/

namespace Stencil

namespace World

variable {Ω : Type} {host : Host Ω (World Ω)} {w v : World Ω}

def pollAll (host : Host Ω (World Ω)) :
    List Pending → World Ω → List (Polled (Except Error String)) × World Ω
  | [], w => ([], w)
  | p :: rest, w =>
    let (seen, w) := poll host p w
    let (others, w) := pollAll host rest w
    (seen :: others, w)

/-- The load of the render can settle now. A render that has none fails at once. -/
def CanSettle (host : Host Ω (World Ω)) (w : World Ω) (p : Pending) : Prop :=
  ∀ b, p.binding = some b → ∃ result, (pollLoad host b.load w).1 = .ready result

variable (hl : host.Logs)

include hl

/-- All polls at once: each finds what it would find as the first one, and the effects of all are
given beforehand. -/
theorem pollAll_effects (helpers : ∀ r ∈ w.renderers, r.helpers.Mute)
    (loads : w.loads.All LoadResult.Mute Work.Mute) :
    ∃ es : Pending → List (Effect Ω), ∀ ps,
      pollAll host ps w = (ps.map fun p => (poll host p w).1, w.undergoAll (ps.flatMap es)) := by
  choose seen es polled using poll_effects hl helpers loads
  have here (p : Pending) : w.SameSight p w := ⟨fun _ _ => rfl, rfl, loads⟩
  have first (p : Pending) : (poll host p w).1 = seen p := by rw [polled p w (here p)]
  have all (ps : List Pending) {v : World Ω} (hv : ∀ p, w.SameSight p v) :
      pollAll host ps v = (ps.map seen, v.undergoAll (ps.flatMap es)) := by
    induction ps generalizing v with
    | nil => rfl
    | cons p rest ih =>
      have later (q : Pending) : w.SameSight q (v.undergoAll (es p)) := (hv q).undergoAll (es p)
      simp only [pollAll, polled p v (hv p), ih later, List.map_cons, List.flatMap_cons,
        undergoAll_append]
  refine ⟨es, fun ps => ?_⟩
  rw [all ps here, List.map_congr_left fun p _ => first p]

omit hl in
theorem ready_of_canSettle {p : Pending} (h : CanSettle host w p) :
    ∃ result, (poll host p w).1 = .ready result := by
  unfold poll
  cases hb : p.binding with
  | none => exact ⟨_, rfl⟩
  | some b =>
    obtain ⟨result, hr⟩ := h b hb
    simp only
    split
    · rename_i hp
      simp [hp] at hr
    · rename_i hp
      simp [hp] at hr
    · exact ⟨_, rfl⟩

end World

open World Session

/-- Renders whose loads can settle may be polled in any two orders: each has the same result in
both, and only the order of what is logged, noted and woken differs afterwards. -/
theorem completion_order_immaterial (n : Nat) {w : World Op} (hw : w.Reached)
    (helpers : ∀ r ∈ w.renderers, r.helpers.Mute)
    (loads : w.loads.All LoadResult.Mute Work.Mute) {ps qs : List Pending}
    (settle : ∀ p ∈ ps, CanSettle (hostAt n) w p) (order : qs.Perm ps) :
    let u := pollAll (hostAt n) ps w
    let v := pollAll (hostAt n) qs w
    (∃ result : Pending → Except Error String,
      u.1 = ps.map (fun p => .ready (result p)) ∧ v.1 = qs.map (fun p => .ready (result p))) ∧
    v.2.renderers = u.2.renderers ∧ u.2.Shuffled v.2 := by
  obtain ⟨es, all⟩ := pollAll_effects (hostAt_logs n) helpers loads
  have tidy : w.Tidy := fun r hr => hw.sound.nodup _ (List.mem_map.mpr ⟨r, hr, rfl⟩)
  have shuffled : (pollAll (hostAt n) ps w).2.Shuffled (pollAll (hostAt n) qs w).2 := by
    rw [all ps, all qs]
    exact undergoAll_perm (order.symm.flatMap_right es) tidy
  have ready (p : Pending) : ∃ result, p ∈ ps → (World.poll (hostAt n) p w).1 = .ready result := by
    by_cases hp : p ∈ ps
    · obtain ⟨result, h⟩ := ready_of_canSettle (settle p hp)
      exact ⟨result, fun _ => h⟩
    · exact ⟨.ok "", fun h => absurd h hp⟩
  choose result hr using ready
  refine ⟨⟨result, ?_, ?_⟩, shuffled.renderers, shuffled⟩
  · rw [all ps]
    exact List.map_congr_left fun p hp => hr p hp
  · rw [all qs]
    exact List.map_congr_left fun p hp => hr p (order.mem_iff.mp hp)

/-- Three renders of a page that cannot be loaded: one was asked for before the cache was flushed,
the other two share the load that came after. In either order the entry goes once. -/
theorem completion_order_immaterial_page :
    let w := after (site (.failed "gone") .evictOnError) [.start 0 "stale" "page" none none,
      .flush 0, .start 0 "fresh" "page" none none, .start 0 "joined" "page" none none]
    let ps := w.renders.map (·.2)
    let u := pollAll (hostAt 0) ps w
    let v := pollAll (hostAt 0) ps.reverse w
    ps.map (·.binding) = [some ⟨0, 0⟩, some ⟨1, 1⟩, some ⟨1, 1⟩] ∧
    (∃ result : Pending → Except Error String,
      u.1 = ps.map (fun p => .ready (result p)) ∧
      v.1 = ps.reverse.map (fun p => .ready (result p))) ∧
    u.2.renderers.map (·.isCached "page") = [false] ∧
    v.2.renderers = u.2.renderers ∧ u.2.Shuffled v.2 := by
  intro w ps u v
  have reached : w.Reached := reached_after _ (later_site ..)
  have helpers : ∀ r ∈ w.renderers, r.helpers.Mute := by
    intro r hr
    obtain rfl := List.mem_singleton.mp hr
    exact HelperTable.mute_empty
  have loads : w.loads.All LoadResult.Mute Work.Mute := by
    have slots (s : Slot (Work Op) (Template Op)) (hs : s ∈ w.loads.slots) :
        s = .started ⟨.future (.ready (.error (.failed "gone"))), none⟩ .absent :=
      List.mem_replicate.mp (show s ∈ List.replicate 2 _ from hs) |>.2
    refine ⟨fun s hs r hr => ?_, fun s hs work h => ?_, nofun⟩
    · obtain rfl := slots s hs
      obtain rfl := List.mem_singleton.mp hr
      exact LoadResult.mute_error _
    · obtain rfl := slots s hs
      cases h
  have settle : ∀ p ∈ ps, CanSettle (hostAt 0) w p := by
    intro p hp b hb
    obtain rfl | rfl | rfl : p = _ ∨ p = _ ∨ p = _ := by
      simpa using (show p ∈ [_, _, _] from hp)
    · cases hb
      exact ⟨_, rfl⟩
    · cases hb
      exact ⟨_, rfl⟩
    · cases hb
      exact ⟨_, rfl⟩
  obtain ⟨results, renderers, shuffled⟩ :=
    completion_order_immaterial 0 reached helpers loads settle ps.reverse_perm
  exact ⟨rfl, results, rfl, renderers, shuffled⟩

end Stencil
