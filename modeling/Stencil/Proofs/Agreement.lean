import Stencil.Proofs.Snapshot

/-!
# All who wait for a load agree

A load is fixed to one result by the poll that finds it, and whoever completes by that load does so
by this result. It does not matter who polls, in what order and how often, who is dropped before,
and what has become of the cache meanwhile.
-/

namespace Stencil

namespace World

variable {Ω : Type} {w w' : World Ω} {host : Host Ω (World Ω)} {p q : Pending}

theorem Reached.received_unique (hw : w.Reached) {x y : LoadResult (Template Ω)}
    (hx : .received p x ∈ w.history) (hy : .received q y ∈ w.history) (hl : p.load? = q.load?) :
    x = y := by
  obtain ⟨l, hp, hrx⟩ := hw.run.received hx
  obtain ⟨l', hq, hry⟩ := hw.run.received hy
  obtain rfl : l = l' := Option.some.inj (hp.symm.trans (hl.trans hq))
  exact Option.some.inj (hrx.symm.trans hry)

theorem Later.received (h : w.Later w') {x : LoadResult (Template Ω)}
    (hx : .received p x ∈ w.history) : .received p x ∈ w'.history := by
  obtain ⟨es, run⟩ := h.run
  rw [run.history]
  exact List.mem_append_left es hx

end World

open World Session

/-- Two renders that were asked for, wait for one load, and complete in whatever worlds, do so by
one and the same result, which the load is fixed to from then on. So they both fail with one cause,
both print nothing, or are both rendered from one template. -/
theorem waiters_agree (n m : Nat) {v v' u u' w : World Op} {p q : Pending} {l : Nat}
    {out out' : Except Error String} (hv : v.Reached) (hp : v.Asked p) (hpl : p.load? = some l)
    (first : poll (hostAt n) p v = (.ready out, v')) (hu : u.Reached) (hq : u.Asked q)
    (hql : q.load? = some l) (second : poll (hostAt m) q u = (.ready out', u'))
    (hvw : v'.Later w) (huw : u'.Later w) :
    ∃ result, w.result? l = some result ∧
      out = answer (hostAt n) p (pollLoad (hostAt n) l v).2 result ∧
      out' = answer (hostAt m) q (pollLoad (hostAt m) l u).2 result := by
  obtain ⟨hv', x, hx, rfl⟩ := answer_of_poll (hostAt_like_self n) hv hp hpl first
  obtain ⟨-, y, hy, rfl⟩ := answer_of_poll (hostAt_like_self m) hu hq hql second
  have hw := hvw.reached hv'
  obtain rfl := hw.received_unique (hvw.received hx) (huw.received hy) (hpl.trans hql.symm)
  obtain ⟨l', hl', hres⟩ := hw.run.received (hvw.received hx)
  cases hpl.symm.trans hl'
  exact ⟨x, hres, rfl, rfl⟩

/-- The second waiter completes after the load is out of the cache, and a newer one is in. -/
theorem waiters_agree_page :
    let asked := ask (hostAt 0) 0 "page" none none (site (.failed "gone") .evictOnError)
    let joined := ask (hostAt 0) 0 "page" none (some "head") asked.2
    ∃ p q v' u', asked.1 = some p ∧ joined.1 = some q ∧ ∃ out out',
      World.poll (hostAt 0) p joined.2 = (.ready out, v') ∧
      World.poll (hostAt 0) q (ask (hostAt 0) 0 "page" none none v').2 = (.ready out', u') ∧
      ∃ e, out = .error (.templateLoad "page" e) ∧ out' = .error (.templateLoad "page" e) := by
  intro asked joined
  have hs : (site (.failed "gone") .evictOnError).Reached := later_site _ _
  obtain ⟨hl₁, hp⟩ := ask_later 0 hs (show asked = (some _, _) from rfl)
  have hr₁ := hl₁.reached hs
  obtain ⟨hl₂, hq⟩ := ask_later 0 hr₁ (show joined = (some _, _) from rfl)
  have hr₂ := hl₂.reached hr₁
  have hl₃ := poll_later 0 hr₂ (hl₂.asked_of_asked hp)
  have hr₃ := hl₃.reached hr₂
  have hl₄ := (ask_leads (hostAt_like_self 0) 0 "page" none none hr₃).1.later
  have hr₄ := hl₄.reached hr₃
  have hq₄ := hl₄.asked_of_asked (hl₃.asked_of_asked hq)
  have hl₅ := poll_later 0 hr₄ hq₄
  obtain ⟨result, hres, hout, hout'⟩ := waiters_agree 0 0 hr₂ (hl₂.asked_of_asked hp) rfl rfl hr₄
    hq₄ rfl rfl (hl₄.trans hl₅) (.refl _)
  refine ⟨_, _, _, _, rfl, rfl, _, _, rfl, rfl, ?_⟩
  cases hres
  exact ⟨_, hout, hout'⟩

end Stencil
