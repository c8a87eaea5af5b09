import Stencil.Proofs.Snapshot

/-!
# What becomes of failed loads

Under the evicting policy a load that failed is not cached any more, in no world in which code gets
control. The entry goes in the same move in which the failure shows, and it is the entry of that
load: generations are given out once, so a late waiter does not hit what was cached after its load.
Under the other policy nothing goes but by a flush.
-/

namespace Stencil.World

variable {Ω : Type} {w w' : World Ω} {es : List (Event Ω)} {host : Host Ω (World Ω)} {p : Pending}

/-- No cache under the evicting policy holds a load that has failed. -/
def Clean (w : World Ω) : Prop :=
  ∀ {i name g l}, w.policy? i = some .evictOnError → w.cached? i name = some (g, l) →
    ∀ err, w.result? l ≠ some (.error err)

theorem Reached.clean (hw : w.Reached) : w.Clean := hw.sound.not_failed

/-- A load that failed is not cached; what is cached in its place is newer. -/
theorem Reached.newer (hw : w.Reached) {err : LoadError}
    (h : .received p (.error err) ∈ w.history) (hp : w.policy? p.renderer = some .evictOnError)
    {g l : Nat} (hc : w.cached? p.renderer p.name = some (g, l)) :
    ∃ b, p.binding = some b ∧ b.generation < g ∧ b.load < l := by
  obtain ⟨b, hb, hi⟩ := hw.run.issued_of_received sound_empty h
  obtain ⟨l', hl', hr⟩ := hw.run.received h
  obtain rfl : b.load = l' := Option.some.inj ((Pending.load?_of_binding hb).symm.trans hl')
  obtain ⟨hg, hl⟩ := hi.newest hc
  have hne : l ≠ b.load := by
    rintro rfl
    exact hw.clean hp hc err hr
  have hng : g ≠ b.generation := fun h => hne ((hi.load_iff hc).mpr ⟨rfl, rfl, h⟩)
  exact ⟨b, hb, by omega, by omega⟩

theorem Reached.load?_of_ask (hw : w.Reached) {err : LoadError}
    (h : .received p (.error err) ∈ w.history) (hp : w.policy? p.renderer = some .evictOnError)
    {j : Nat} {name : String} {data : Option Value} {block : Option String} {q : Pending}
    (hq : ask host j name data block w = (some q, w')) : q.load? ≠ p.load? := by
  obtain ⟨b, hb, hi⟩ := hw.run.issued_of_received sound_empty h
  rw [Pending.load?_of_binding hb]
  cases hr : w.renderer? j with
  | none => simp [ask, hr] at hq
  | some r =>
    cases hl : r.loader with
    | none =>
      rw [ask_of_no_loader hr hl] at hq
      cases hq
      simp [Pending.load?, captured]
    | some loader =>
      obtain ⟨g, rfl⟩ := binding_of_ask hr hl hq
      intro hqb
      have hbl : w.boundLoad j name = b.load := by
        simpa [Pending.load?, captured] using hqb
      cases hc : w.cached? j name with
      | none =>
        -- the call starts a load of its own
        have hlt := hi.load_lt
        rw [Loads.length_results] at hlt
        simp only [boundLoad, hc, Option.map_none, Option.getD_none] at hbl
        omega
      | some a =>
        obtain ⟨g', l⟩ := a
        simp only [boundLoad, hc, Option.map_some, Option.getD_some] at hbl
        -- an entry with that load would be the one that the render was bound to
        obtain ⟨rfl, rfl, -⟩ := (hi.load_iff hc).mp hbl
        obtain ⟨b', hb', -, hlt⟩ := hw.newer h hp hc
        cases hb.symm.trans hb'
        omega

theorem ask_of_not_cached {i : Nat} {r : Renderer Ω} {loader : Loader Ω} {name : String}
    (hr : w.renderer? i = some r) (hl : r.loader = some loader) (hc : w.cached? i name = none)
    (host : Host Ω (World Ω)) (data : Option Value) (block : Option String) :
    (ask host i name data block w).2 =
      (runLoader host loader w.loads.slots.length name (w.opened i r name)).2 := by
  rw [cached?_of_renderer? hr] at hc
  rw [ask_of_miss hr hl hc]

-- ---------------------------------------------------------------------------
-- Entries that go
-- ---------------------------------------------------------------------------

/-- A waiter that gets the failure of its load leaves the entries of all other loads alone. -/
theorem cached?_complete_error (hw : w.Sound) {b : Binding}
    (hi : w.Issued p.renderer p.name b) {j : Nat} {name : String} {g l : Nat}
    (hc : w.cached? j name = some (g, l)) (hl : l ≠ b.load) (host : Host Ω (World Ω))
    (err : LoadError) :
    (complete host p b (.error err) w).2.cached? j name = some (g, l) := by
  show (evictFailed p b w).cached? j name = _
  rw [cached?_evictFailed hw.nodup, if_neg, hc]
  rintro ⟨rfl, rfl, -, hg⟩
  rw [hc] at hg
  exact hl ((hi.load_iff hc).mpr ⟨rfl, rfl, Option.some.inj hg⟩)

theorem Run.gone (run : Run w es w') (hw : w.Sound) {i : Nat} {name : String} {g l : Nat}
    (hc : w.cached? i name = some (g, l)) (hgone : w'.cached? i name ≠ some (g, l)) :
    .flushed i ∈ es ∨ w.policy? i = some .evictOnError ∧ ∃ p err,
      .received p (.error err) ∈ es ∧ p.renderer = i ∧ p.name = name ∧ p.load? = some l ∧
        w'.result? l = some (.error err) := by
  rcases run.kept hw hc with h | hf | ⟨hp, p, err, he, hi, hn, hl⟩
  · exact absurd h hgone
  · exact .inl hf
  · obtain ⟨l', hl', hr⟩ := run.received he
    cases hl.symm.trans hl'
    exact .inr ⟨hp, p, err, he, hi, hn, hl, hr⟩

theorem Run.kept_of_ok (run : Run w es w') (hw : w.Sound) {i : Nat} {name : String} {g l : Nat}
    (hc : w.cached? i name = some (g, l)) {t : Option (Template Ω)}
    (hr : w'.result? l = some (.ok t)) (hf : .flushed i ∉ es) :
    w'.cached? i name = some (g, l) := by
  apply Classical.byContradiction
  intro hgone
  rcases run.gone hw hc hgone with h | ⟨-, p, err, -, -, -, -, herr⟩
  · exact hf h
  · cases hr.symm.trans herr

theorem evictFailed_of_retain (hp : w.policy? p.renderer = some .retain) (b : Binding) :
    (evictFailed p b w).caches = w.caches := by
  rw [caches_evictFailed]
  refine (modify_congr ?_).trans (List.modify_id _ _)
  rintro ⟨cache, policy⟩ hc
  cases (policy?_of_caches hc).symm.trans hp
  rfl

/-- Under the retaining policy a render that completes changes no cache, unless its template does
so itself. -/
theorem caches_complete_of_retain (hp : w.policy? p.renderer = some .retain)
    (host : Host Ω (World Ω)) (b : Binding) (result : LoadResult (Template Ω)) :
    (complete host p b result w).2.caches = w.caches ∨
      ∃ t part, result = .ok (some t) ∧ t.part p.block = some part ∧
        (complete host p b result w).2.caches =
          (part.run host (w.helpers p.renderer) (.object p.context) w).2.caches := by
  have ran (t : Template Ω) : (runTemplate host p t w).2.caches =
      (t.run host (w.helpers p.renderer) (.object p.context) w).2.caches := by
    unfold runTemplate helpers
    simp only
    split <;> (rename_i h; rw [h])
    rfl
  cases result with
  | error err => exact .inl (evictFailed_of_retain hp b)
  | ok t =>
    cases t with
    | none => exact .inl rfl
    | some t =>
      unfold complete
      simp only
      split
      · rename_i hb
        exact .inr ⟨t, t, rfl, by rw [hb]; rfl, ran t⟩
      · rename_i name hb
        split
        · rename_i block ht
          exact .inr ⟨t, block, rfl, by rw [hb]; exact ht, ran block⟩
        · exact .inl rfl

-- ---------------------------------------------------------------------------
-- Sessions
-- ---------------------------------------------------------------------------

theorem templateLoad_of_answer {name : String} {e : LoadError} {result : LoadResult (Template Ω)}
    (h : answer host p w result = .error (.templateLoad name e)) :
    p.name = name ∧ result = .error e := by
  unfold answer at h
  split at h
  · cases h
    exact ⟨rfl, rfl⟩
  · cases h
  · split at h
    · cases h
    · split at h <;> cases h

theorem received_of_templateLoad (h : host.Like host) (hw : w.Reached) (hp : w.Asked p)
    {name : String} {e : LoadError}
    (hout : poll host p w = (.ready (.error (.templateLoad name e)), w')) :
    p.name = name ∧ .received p (.error e) ∈ w'.history := by
  cases hb : p.binding with
  | none =>
    rw [poll_of_no_binding hb] at hout
    cases hout
  | some b =>
    obtain ⟨-, result, hm, hanswer⟩ := answer_of_poll h hw hp (Pending.load?_of_binding hb) hout
    obtain ⟨hn, rfl⟩ := templateLoad_of_answer hanswer.symm
    exact ⟨hn, hm⟩

end Stencil.World

namespace Stencil

open World Session

/-- What becomes of failed loads, as seen from a world of a session. -/
structure Evicting (n : Nat) (w : World Op) : Prop where
  clean : w.Clean
  /-- Code gets control in clean worlds only: what a host does in others makes no difference. -/
  observed : ∀ host', (∀ op {v}, v.Clean → host'.perform op v = (hostAt n).perform op v) →
    (∀ r {v}, v.Clean → host'.log r v = (hostAt n).log r v) →
    ∀ op, step host' w op = step (hostAt n) w op
  told : ∀ {p name e w'}, w.Asked p →
    poll (hostAt n) p w = (.ready (.error (.templateLoad name e)), w') →
    p.name = name ∧ .received p (.error e) ∈ w'.history
  /-- Whoever calls after a failure was received is not bound to the load that failed. -/
  forgotten : ∀ {p err}, .received p (.error err) ∈ w.history →
    w.policy? p.renderer = some .evictOnError → ∀ {j name data block q w'},
      ask (hostAt n) j name data block w = (some q, w') → q.load? ≠ p.load?
  newer : ∀ {p err}, .received p (.error err) ∈ w.history →
    w.policy? p.renderer = some .evictOnError → ∀ {g l},
      w.cached? p.renderer p.name = some (g, l) →
        ∃ b, p.binding = some b ∧ b.generation < g ∧ b.load < l
  again : ∀ {i name r loader}, w.cached? i name = none → w.renderer? i = some r →
    r.loader = some loader → ∀ data block,
      (ask (hostAt n) i name data block w).2 =
        (runLoader (hostAt n) loader w.loads.slots.length name (w.opened i r name)).2
  /-- A waiter that gets a failure leaves the entries of all other loads alone. -/
  spared : ∀ {p b}, w.Asked p → p.binding = some b → ∀ err {j name g l},
    w.cached? j name = some (g, l) → l ≠ b.load →
      (complete (hostAt n) p b (.error err) w).2.cached? j name = some (g, l)
  /-- An entry goes by a flush, or because its own load failed. -/
  gone : ∀ {es w'}, Run w es w' → ∀ {i name g l}, w.cached? i name = some (g, l) →
    w'.cached? i name ≠ some (g, l) →
      .flushed i ∈ es ∨ w.policy? i = some .evictOnError ∧ ∃ p err,
        .received p (.error err) ∈ es ∧ p.renderer = i ∧ p.name = name ∧ p.load? = some l ∧
          w'.result? l = some (.error err)
  kept : ∀ {es w'}, Run w es w' → ∀ {i name g l t}, w.cached? i name = some (g, l) →
    w'.result? l = some (.ok t) → .flushed i ∉ es → w'.cached? i name = some (g, l)
  retained : ∀ {p}, w.policy? p.renderer = some .retain → ∀ b result,
    (complete (hostAt n) p b result w).2.caches = w.caches ∨
      ∃ t part, result = .ok (some t) ∧ t.part p.block = some part ∧
        (complete (hostAt n) p b result w).2.caches =
          (part.run (hostAt n) (w.helpers p.renderer) (.object p.context) w).2.caches

/-- Failed loads are taken out of the cache, and only they. -/
theorem failed_loads_evicted (n : Nat) {w : World Op} (hw : w.Reached) : Evicting n w where
  clean := hw.clean
  observed _ hperform hlog op :=
    step_eq_of_reached n (fun op _ hv => hperform op hv.clean) (fun r _ hv => hlog r hv.clean) op hw
  told hp hpoll := received_of_templateLoad (hostAt_like_self n) hw hp hpoll
  forgotten h hp _ _ _ _ _ _ hq := hw.load?_of_ask h hp hq
  newer h hp _ _ hc := hw.newer h hp hc
  again hc hr hl data block := ask_of_not_cached hr hl hc _ data block
  spared hp hb err _ _ _ _ hc hl := cached?_complete_error hw.sound (hp.bound _ hb) hc hl _ err
  gone run _ _ _ _ hc hgone := run.gone hw.sound hc hgone
  kept run _ _ _ _ _ hc hr hf := run.kept_of_ok hw.sound hc hr hf
  retained hp b result := caches_complete_of_retain hp _ b result

theorem failed_loads_evicted_page :
    let asked := ask (hostAt 0) 0 "page" none none (site (.failed "gone") .evictOnError)
    ∃ p w, asked.1 = some p ∧
      World.poll (hostAt 0) p asked.2 =
        (.ready (.error (.templateLoad "page" (.failed "gone"))), w) ∧
      .received p (.error (.failed "gone")) ∈ w.history ∧
      ∀ q w', ask (hostAt 0) 0 "page" none none w = (some q, w') → q.load? ≠ p.load? := by
  intro asked
  have hs : (site (.failed "gone") .evictOnError).Reached := later_site _ _
  obtain ⟨hl₁, hp⟩ := ask_later 0 hs (show asked = (some _, _) from rfl)
  have hr₁ := hl₁.reached hs
  have hr₂ := (poll_later 0 hr₁ hp).reached hr₁
  obtain ⟨-, hm⟩ := (failed_loads_evicted 0 hr₁).told hp rfl
  exact ⟨_, _, rfl, rfl, hm, fun _ _ hq => (failed_loads_evicted 0 hr₂).forgotten hm rfl hq⟩

end Stencil
