import Stencil.Proofs.Moves

/-!
# What holds in every world of a run

First what a single move can do: to the counters of caches, to an entry that is there, to an entry
that comes up, to a result (`Move.caches_mono`, `Move.kept`, `Move.entry_inv`, `Move.result`). From
these `Sound` follows for all worlds that a run leads to (`Run.sound`): each entry stands for a
binding that was given out once, and under the evicting policy none of them is that of a load which
has already failed.
-/

namespace Stencil.World

variable {Ω : Type} {w w' : World Ω} {e es : List (Event Ω)}

structure Sound (w : World Ω) : Prop where
  nodup : ∀ c ∈ w.caches, c.1.entries.keys.Nodup
  issued : ∀ {i name g l}, w.cached? i name = some (g, l) → w.Issued i name ⟨g, l⟩
  not_failed : ∀ {i name g l}, w.policy? i = some .evictOnError →
    w.cached? i name = some (g, l) → ∀ err, w.result? l ≠ some (.error err)

-- ---------------------------------------------------------------------------
-- Entries and results after a move
-- ---------------------------------------------------------------------------

theorem result?_eq (w : World Ω) (l : Nat) : w.result? l = w.loads.results[l]?.join :=
  w.loads.result?_eq l

theorem lt_of_result? {l : Nat} {result : LoadResult (Template Ω)}
    (h : w.result? l = some result) : l < w.loads.results.length := by
  rw [result?_eq, Option.join_eq_some_iff] at h
  exact (List.getElem?_eq_some_iff.mp h).1

theorem cached?_eq_some_iff {i : Nat} {name : String} {a : Nat × Nat} :
    w.cached? i name = some a ↔
      ∃ c, w.caches[i]? = some c ∧ c.1.entries.get? name = some a :=
  Option.bind_eq_some_iff

theorem policy?_of_caches {i : Nat} {c : Cache Nat × CachePolicy} (hc : w.caches[i]? = some c) :
    w.policy? i = some c.2 := by
  simp [policy?, hc]

theorem caches_addRenderer_cases {r : Renderer Ω} (h : r.cache = {}) (w : World Ω) (i : Nat) :
    (w.addRenderer r).caches[i]? = w.caches[i]? ∨
      w.caches[i]? = none ∧ (w.addRenderer r).caches[i]? = some ({}, r.policy) := by
  rw [caches_addRenderer, List.getElem?_append]
  split
  · exact .inl rfl
  · rename_i hi
    rw [List.getElem?_eq_none (Nat.le_of_not_lt hi)]
    cases i - w.caches.length with
    | zero => exact .inr ⟨rfl, by simp [h]⟩
    | succ n => exact .inl (by simp)

theorem cached?_addRenderer {r : Renderer Ω} (h : r.cache = {}) (i : Nat) (name : String) :
    (w.addRenderer r).cached? i name = w.cached? i name := by
  rcases caches_addRenderer_cases h w i with he | ⟨hn, he⟩
  · rw [cached?, cached?, he]
  · simp [cached?, he, hn, Entries.get?]

theorem cached?_flushed (w : World Ω) (i j : Nat) (name : String) :
    (w.flushed i).cached? j name = if i = j then none else w.cached? j name := by
  rw [cached?_of_modify (caches_flushed w i)]
  split
  · cases w.caches[i]? <;> rfl
  · rfl

theorem cached?_invoked {i : Nat} {r : Renderer Ω} {name : String} (hr : w.renderer? i = some r)
    (hn : r.cache.entries.get? name = none) (j : Nat) (other : String) :
    (w.invoked i r name).cached? j other =
      if i = j ∧ name = other then some (r.cache.next, w.loads.slots.length)
      else w.cached? j other := by
  rw [cached?_of_modify (caches_invoked w i r name)]
  by_cases hij : i = j
  · subst hij
    simp only [caches_getElem? hr, Option.bind_some, Cache.getOrInsert_of_miss hn, if_true,
      Entries.get?_insert, true_and]
    by_cases ho : name = other <;> simp [ho, cached?, caches_getElem? hr]
  · simp [hij]

@[simp] theorem loads_evictFailed (p : Pending) (b : Binding) (w : World Ω) :
    (evictFailed p b w).loads = w.loads := by
  rcases evictFailed_cases p b w with ⟨h, -⟩ | ⟨r, -, -, -, h⟩
  · rw [h]
  · rw [h]
    rfl

theorem loads_settle (w : World Ω) (p : Pending) (b : Binding)
    (result : LoadResult (Template Ω)) :
    (w.settle p b result).loads = (w.loads.poll b.load).2 := by
  cases result with
  | error err => exact loads_evictFailed ..
  | ok t => rfl

theorem caches_settle_error (w : World Ω) (p : Pending) (b : Binding) (err : LoadError) :
    (w.settle p b (.error err)).caches = w.caches.modify p.renderer fun c =>
      (if c.2 = .evictOnError then (c.1.evict p.name b.generation).2 else c.1, c.2) :=
  caches_evictFailed ..

theorem cached?_evictFailed (hw : ∀ c ∈ w.caches, c.1.entries.keys.Nodup) (p : Pending)
    (b : Binding) (j : Nat) (name : String) :
    (evictFailed p b w).cached? j name =
      if p.renderer = j ∧ p.name = name ∧ w.policy? j = some .evictOnError ∧
          (w.cached? j name).map (·.1) = some b.generation then none
      else w.cached? j name := by
  rw [cached?_of_modify (caches_evictFailed p b w)]
  by_cases hj : p.renderer = j
  · subst hj
    cases hc : w.caches[p.renderer]? with
    | none => simp [cached?, hc]
    | some c =>
      have hn := hw c (List.mem_of_getElem? hc)
      have he (other : String) : w.cached? p.renderer other = c.1.entries.get? other := by
        simp [cached?, hc]
      have hp := policy?_of_caches hc
      simp only [he, hp, Option.bind_some, if_true, true_and, Option.some.injEq]
      by_cases hc : c.2 = .evictOnError
      · by_cases ho : p.name = name
        · subst ho
          simp only [hc, if_true, true_and, Cache.get?_evict hn]
        · simp [hc, ho, Cache.get?_evict hn]
      · simp [hc]
  · simp [hj]

theorem cached?_settle_error (hw : ∀ c ∈ w.caches, c.1.entries.keys.Nodup) (p : Pending)
    (b : Binding) (err : LoadError) (j : Nat) (name : String) :
    (w.settle p b (.error err)).cached? j name =
      if p.renderer = j ∧ p.name = name ∧ w.policy? j = some .evictOnError ∧
          (w.cached? j name).map (·.1) = some b.generation then none
      else w.cached? j name :=
  cached?_evictFailed (w := (w.look b.load).note (.received p (.error err))) hw p b j name

-- ---------------------------------------------------------------------------
-- What a move can do
-- ---------------------------------------------------------------------------

theorem Move.caches_mono (m : Move w e w') {i : Nat} {c : Cache Nat × CachePolicy}
    (h : w.caches[i]? = some c) :
    ∃ c', w'.caches[i]? = some c' ∧ c.1.next ≤ c'.1.next ∧ c'.2 = c.2 := by
  have modified {j : Nat} {w' : World Ω} {f : Cache Nat × CachePolicy → Cache Nat × CachePolicy}
      (hf : w'.caches = w.caches.modify j f)
      (hn : i = j → c.1.next ≤ (f c).1.next ∧ (f c).2 = c.2) :
      ∃ c', w'.caches[i]? = some c' ∧ c.1.next ≤ c'.1.next ∧ c'.2 = c.2 := by
    rw [hf, List.getElem?_modify, h]
    by_cases hj : j = i
    · simpa [hj] using hn hj.symm
    · simp [hj]
  cases m with
  | quiet hq => exact ⟨c, by rw [hq.caches, h], Nat.le_refl _, rfl⟩
  | create hc =>
    have hi : i < w.caches.length := (List.getElem?_eq_some_iff.mp h).1
    exact ⟨c, by rw [caches_addRenderer, List.getElem?_append_left hi, h], Nat.le_refl _, rfl⟩
  | flush j => exact modified (caches_flushed w j) fun _ => ⟨Nat.le_refl _, rfl⟩
  | @invoke j r name hr hn =>
    refine modified (caches_invoked w j r name) ?_
    rintro rfl
    cases (caches_getElem? hr).symm.trans h
    simp [Cache.getOrInsert_of_miss hn]
  | @receive p b result _ _ hr =>
    cases result with
    | ok t => exact ⟨c, h, Nat.le_refl _, rfl⟩
    | error err =>
      refine modified (caches_settle_error w p b err) fun _ => ⟨?_, rfl⟩
      simp only
      split <;> simp

theorem Move.length_results (m : Move w e w') :
    w.loads.results.length ≤ w'.loads.results.length := by
  cases m with
  | quiet hq => exact Nat.le_of_eq (congrArg List.length hq.results.symm)
  | create hc => exact Nat.le_refl _
  | flush i => exact Nat.le_refl _
  | invoke hr hn =>
    show _ ≤ w.loads.reserve.2.results.length
    simp
  | receive hb hi hr => simp [loads_settle, Loads.results_poll]

theorem Move.result (m : Move w e w') {l : Nat} {result : LoadResult (Template Ω)}
    (h : w.result? l = some result) : w'.result? l = some result := by
  cases m with
  | quiet hq => rw [result?_eq, hq.results, ← result?_eq, h]
  | create hc => exact h
  | flush i => exact h
  | invoke hr hn =>
    show w.loads.reserve.2.result? l = _
    rw [Loads.result?_eq, Loads.results_reserve, List.getElem?_append_left (lt_of_result? h),
      ← result?_eq, h]
  | @receive p b _ _ _ hr =>
    rw [World.result?, loads_settle, Loads.result?_poll]
    split
    · rename_i hl
      exact Loads.poll_of_result? (hl ▸ h)
    · exact h

theorem Move.receive_inv (m : Move w e w') {p : Pending} {result : LoadResult (Template Ω)}
    (h : .received p result ∈ e) :
    ∃ b, p.binding = some b ∧ w.Issued p.renderer p.name b ∧
      (w.loads.poll b.load).1 = some result ∧ w' = w.settle p b result := by
  cases m with
  | quiet hq => cases h
  | create hc => cases h
  | flush i => simp at h
  | invoke hr hn => simp at h
  | @receive q b _ hb hi hr =>
    cases List.mem_singleton.mp h
    exact ⟨b, hb, hi, hr, rfl⟩

theorem Move.received (m : Move w e w') {p : Pending} {result : LoadResult (Template Ω)}
    (h : .received p result ∈ e) : ∃ l, p.load? = some l ∧ w'.result? l = some result := by
  obtain ⟨b, hb, -, hr, rfl⟩ := m.receive_inv h
  refine ⟨b.load, Pending.load?_of_binding hb, ?_⟩
  rw [World.result?, loads_settle, Loads.result?_poll, if_pos rfl, hr]

theorem Move.result_inv (m : Move w e w') {l : Nat} {result : LoadResult (Template Ω)}
    (h : w'.result? l = some result) :
    w.result? l = some result ∨ ∃ p, .received p result ∈ e ∧ p.load? = some l := by
  cases m with
  | quiet hq => exact .inl (by rwa [result?_eq, hq.results, ← result?_eq] at h)
  | create hc => exact .inl h
  | flush i => exact .inl h
  | invoke hr hn =>
    -- the new place in the list of results is empty
    left
    replace h : w.loads.reserve.2.result? l = some result := h
    rw [Loads.result?_eq, Loads.results_reserve, List.getElem?_append] at h
    split at h
    · rwa [result?_eq]
    · cases hk : l - w.loads.results.length <;> simp [hk] at h
  | @receive p b r hb hi hr =>
    rw [World.result?, loads_settle, Loads.result?_poll] at h
    split at h
    · rename_i hl
      cases hr.symm.trans h
      exact .inr ⟨p, List.mem_singleton_self _, hl ▸ Pending.load?_of_binding hb⟩
    · exact .inl h

/-- An entry that a move made, for a name without one. -/
structure Fresh (w w' : World Ω) (i : Nat) (name : String) (g l : Nat) : Prop where
  missing : w.cached? i name = none
  generation : ∃ c, w.caches[i]? = some c ∧ c.1.next = g
  generation_lt : ∃ c, w'.caches[i]? = some c ∧ g < c.1.next
  load : w.loads.results.length = l
  load_lt : l < w'.loads.results.length

/-- An entry is there because it was there before, or because a load was just reserved for it. -/
theorem Move.entry_inv (m : Move w e w') (hw : w.Sound) {i : Nat} {name : String} {g l : Nat}
    (h : w'.cached? i name = some (g, l)) :
    w.cached? i name = some (g, l) ∨ .invoked i name l ∈ e ∧ Fresh w w' i name g l := by
  cases m with
  | quiet hq => exact .inl (by rwa [cached?, hq.caches] at h)
  | create hc => exact .inl (by rwa [cached?_addRenderer hc] at h)
  | flush j =>
    rw [cached?_flushed] at h
    split at h
    · cases h
    · exact .inl h
  | @invoke j r other hr hn =>
    rw [cached?_invoked hr hn] at h
    split at h
    · rename_i hj
      obtain ⟨rfl, rfl⟩ := hj
      cases h
      -- the entry of this very call: generation and load are the next ones
      have hc := caches_getElem? hr
      have hc' : (w.invoked j r other).caches[j]? =
          some (((r.cache.getOrInsert other w.loads.slots.length).2), r.policy) := by
        rw [caches_invoked, List.getElem?_modify_eq, hc]
        rfl
      refine .inr ⟨List.mem_singleton_self _, ?_, ⟨_, hc, rfl⟩, ⟨_, hc', ?_⟩,
        w.loads.length_results, ?_⟩
      · simp [cached?, hc, hn]
      · simp [Cache.getOrInsert_of_miss hn]
      · show _ < w.loads.reserve.2.results.length
        simp [Loads.length_results]
    · exact .inl h
  | @receive p b result hb hi hr =>
    cases result with
    | ok t => exact .inl h
    | error err =>
      rw [cached?_settle_error hw.nodup] at h
      split at h
      · cases h
      · exact .inl h

/-- An entry stays, unless its cache is flushed or, under the evicting policy, a render that got the
failure of its own load takes it away. -/
theorem Move.kept (m : Move w e w') (hw : w.Sound) {i : Nat} {name : String} {g l : Nat}
    (h : w.cached? i name = some (g, l)) :
    w'.cached? i name = some (g, l) ∨ .flushed i ∈ e ∨
      w.policy? i = some .evictOnError ∧ ∃ p err,
        .received p (.error err) ∈ e ∧ p.renderer = i ∧ p.name = name ∧ p.load? = some l := by
  cases m with
  | quiet hq => exact .inl (by rwa [cached?, hq.caches])
  | create hc => exact .inl (by rwa [cached?_addRenderer hc])
  | flush j =>
    by_cases hj : j = i
    · exact .inr (.inl (by simp [hj]))
    · exact .inl (by rw [cached?_flushed, if_neg hj, h])
  | @invoke j r other hr hn =>
    rw [cached?_invoked hr hn]
    split
    · -- a loader is called only for a name without entry
      rename_i hj
      obtain ⟨rfl, rfl⟩ := hj
      simp [cached?, caches_getElem? hr, hn] at h
    · exact .inl h
  | @receive p b result hb hi hr =>
    cases result with
    | ok t => exact .inl h
    | error err =>
      rw [cached?_settle_error hw.nodup]
      split
      · -- the entry has the generation of the render, so it has its load
        rename_i hc
        obtain ⟨rfl, rfl, hp, hg⟩ := hc
        rw [h] at hg
        have hl := (hi.load_iff h).mpr ⟨rfl, rfl, Option.some.inj hg⟩
        refine .inr (.inr ⟨hp, p, err, List.mem_singleton_self _, rfl, rfl, ?_⟩)
        exact hl ▸ Pending.load?_of_binding hb
      · exact .inl h

theorem Move.gone (m : Move w e w') (hw : w.Sound) {p : Pending} {err : LoadError}
    (he : .received p (.error err) ∈ e) (hp : w.policy? p.renderer = some .evictOnError) {i : Nat}
    {name : String} {g l : Nat} (h : w'.cached? i name = some (g, l)) : p.load? ≠ some l := by
  obtain ⟨b, hb, hi, hr, rfl⟩ := m.receive_inv he
  rw [cached?_settle_error hw.nodup] at h
  split at h
  · cases h
  · rename_i hc
    intro hl
    rw [Pending.load?_of_binding hb, Option.some.injEq] at hl
    -- an entry with the load of the render would have been evicted
    obtain ⟨rfl, rfl, rfl⟩ := (hi.load_iff h).mp hl.symm
    exact hc ⟨rfl, rfl, hp, by rw [h]; rfl⟩

theorem Move.renderer_of_received (m : Move w e w') {p : Pending} {result : LoadResult (Template Ω)}
    (he : .received p result ∈ e) {i : Nat} {name : String} {g l : Nat}
    (h : w.cached? i name = some (g, l)) (hl : p.load? = some l) : i = p.renderer := by
  obtain ⟨b, hb, hi, -, -⟩ := m.receive_inv he
  rw [Pending.load?_of_binding hb, Option.some.injEq] at hl
  exact ((hi.load_iff h).mp hl.symm).1

-- ---------------------------------------------------------------------------
-- What a run keeps
-- ---------------------------------------------------------------------------

theorem Move.issued (m : Move w e w') (hw : w.Sound) {i : Nat} {name : String} {b : Binding}
    (hb : w.Issued i name b) : w'.Issued i name b := by
  obtain ⟨c, hc, hg⟩ := hb.generation_lt
  obtain ⟨c', hc', hmono, -⟩ := m.caches_mono hc
  have hlt := hb.load_lt
  refine ⟨⟨c', hc', Nat.lt_of_lt_of_le hg hmono⟩, Nat.lt_of_lt_of_le hlt m.length_results, ?_, ?_⟩
  · intro j other g l h
    rcases m.entry_inv hw h with h | ⟨-, fresh⟩
    · exact hb.load_iff h
    · -- a fresh entry has a load and a generation of its own
      have hl := fresh.load
      refine ⟨fun hlb => by omega, ?_⟩
      rintro ⟨rfl, rfl, rfl⟩
      obtain ⟨d, hd, hnext⟩ := fresh.generation
      cases hc.symm.trans hd
      omega
  · intro g l h
    rcases m.entry_inv hw h with h | ⟨-, fresh⟩
    · exact hb.newest h
    · have hl := fresh.load
      obtain ⟨d, hd, hnext⟩ := fresh.generation
      cases hc.symm.trans hd
      omega

theorem nodup_of_modify {i : Nat} {f : Cache Nat × CachePolicy → Cache Nat × CachePolicy}
    (hw : ∀ c ∈ w.caches, c.1.entries.keys.Nodup) (h : w'.caches = w.caches.modify i f)
    (hf : ∀ c, w.caches[i]? = some c → (f c).1.entries.keys.Nodup) :
    ∀ c ∈ w'.caches, c.1.entries.keys.Nodup := by
  intro c hc
  obtain ⟨j, hj⟩ := List.getElem?_of_mem hc
  rw [h, List.getElem?_modify] at hj
  split at hj
  · rename_i hij
    subst hij
    obtain ⟨c', hc', rfl⟩ := Option.map_eq_some_iff.mp hj
    exact hf c' hc'
  · exact hw c (List.mem_of_getElem? (by simpa using hj))

theorem Move.nodup (m : Move w e w') (hw : w.Sound) :
    ∀ c ∈ w'.caches, c.1.entries.keys.Nodup := by
  cases m with
  | quiet hq => exact hq.caches ▸ hw.nodup
  | create hc =>
    intro c hm
    rw [caches_addRenderer, List.mem_append, List.mem_singleton] at hm
    rcases hm with hm | rfl
    · exact hw.nodup c hm
    · simp [hc, Entries.keys]
  | flush i => exact nodup_of_modify hw.nodup (caches_flushed w i) fun c _ => List.nodup_nil
  | @invoke i r name hr hn =>
    refine nodup_of_modify hw.nodup (caches_invoked w i r name) fun c _ => ?_
    rw [Cache.getOrInsert_of_miss hn]
    exact Entries.nodup_keys_insert
      (hw.nodup _ (List.mem_of_getElem? (caches_getElem? hr))) _ _
  | @receive p b result hb hi hr =>
    cases result with
    | ok t => exact hw.nodup
    | error err =>
      refine nodup_of_modify hw.nodup (caches_settle_error w p b err) fun c hc => ?_
      have hn := hw.nodup c (List.mem_of_getElem? hc)
      simp only
      split
      · exact Cache.nodup_keys_evict hn _ _
      · exact hn

theorem Fresh.load_iff (m : Move w e w') (hw : w.Sound) {i : Nat} {name : String} {g l : Nat}
    (he : .invoked i name l ∈ e) (fresh : Fresh w w' i name g l) {j : Nat} {other : String}
    {g' l' : Nat} (h : w'.cached? j other = some (g', l')) :
    l' = l ↔ j = i ∧ other = name ∧ g' = g := by
  rcases m.entry_inv hw h with h' | ⟨he', fresh'⟩
  · -- an entry from before: its load is older, and it stands elsewhere
    have hl : l' < w.loads.results.length := (hw.issued h').load_lt
    have hl' := fresh.load
    refine ⟨fun hll => by omega, ?_⟩
    rintro ⟨rfl, rfl, -⟩
    rw [fresh.missing] at h'
    cases h'
  · cases m.event_unique he he'
    obtain ⟨c, hc, hg⟩ := fresh.generation
    obtain ⟨c', hc', hg'⟩ := fresh'.generation
    cases hc.symm.trans hc'
    simp [← hg, ← hg']

theorem Move.issued_of_cached? (m : Move w e w') (hw : w.Sound) {i : Nat} {name : String}
    {g l : Nat} (h : w'.cached? i name = some (g, l)) : w'.Issued i name ⟨g, l⟩ := by
  rcases m.entry_inv hw h with h' | ⟨he, fresh⟩
  · exact m.issued hw (hw.issued h')
  · refine ⟨fresh.generation_lt, fresh.load_lt, fun h' => fresh.load_iff m hw he h', ?_⟩
    intro g' l' h'
    cases h.symm.trans h'
    exact ⟨Nat.le_refl _, Nat.le_refl _⟩

/-- A load fails by the move in which its failure is received, and with that its entry goes. -/
theorem Move.not_failed (m : Move w e w') (hw : w.Sound) {i : Nat} {name : String} {g l : Nat}
    (hp : w'.policy? i = some .evictOnError) (h : w'.cached? i name = some (g, l))
    (err : LoadError) : w'.result? l ≠ some (.error err) := by
  intro hr
  rcases m.entry_inv hw h with h' | ⟨he, fresh⟩
  · obtain ⟨c, hc, -⟩ := cached?_eq_some_iff.mp h'
    obtain ⟨c', hc', -, hpol⟩ := m.caches_mono hc
    replace hp : w.policy? i = some .evictOnError := by
      rwa [policy?_of_caches hc', hpol, ← policy?_of_caches hc] at hp
    rcases m.result_inv hr with hr | ⟨p, he, hl⟩
    · exact hw.not_failed hp h' err hr
    · obtain rfl := m.renderer_of_received he h' hl
      exact m.gone hw he hp h hl
  · -- the load of a fresh entry has no result yet
    rcases m.result_inv hr with hr | ⟨p, he', -⟩
    · have := lt_of_result? hr
      have := fresh.load
      omega
    · cases m.event_unique he he'

theorem Move.sound (m : Move w e w') (hw : w.Sound) : w'.Sound where
  nodup := m.nodup hw
  issued := m.issued_of_cached? hw
  not_failed hp h := m.not_failed hw hp h

-- ---------------------------------------------------------------------------
-- Runs
-- ---------------------------------------------------------------------------

theorem sound_empty : ({} : World Ω).Sound where
  nodup := by simp [caches]
  issued h := by simp [cached?, caches] at h
  not_failed _ h := by simp [cached?, caches] at h

theorem Run.sound (run : Run w es w') (hw : w.Sound) : w'.Sound := by
  induction run with
  | refl w => exact hw
  | head m rest ih => exact ih (m.sound hw)

theorem Run.issued (run : Run w es w') (hw : w.Sound) {i : Nat} {name : String} {b : Binding}
    (hb : w.Issued i name b) : w'.Issued i name b := by
  induction run with
  | refl w => exact hb
  | head m rest ih => exact ih (m.sound hw) (m.issued hw hb)

theorem Run.bound (run : Run w es w') (hw : w.Sound) {p : Pending} (hp : w.Bound p) :
    w'.Bound p :=
  fun b hb => run.issued hw (hp b hb)

theorem Run.result (run : Run w es w') {l : Nat} {result : LoadResult (Template Ω)}
    (h : w.result? l = some result) : w'.result? l = some result := by
  induction run with
  | refl w => exact h
  | head m rest ih => exact ih (m.result h)

theorem Run.received (run : Run w es w') {p : Pending} {result : LoadResult (Template Ω)}
    (h : .received p result ∈ es) : ∃ l, p.load? = some l ∧ w'.result? l = some result := by
  induction run with
  | refl w => cases h
  | head m rest ih =>
    rcases List.mem_append.mp h with h | h
    · obtain ⟨l, hl, hr⟩ := m.received h
      exact ⟨l, hl, rest.result hr⟩
    · exact ih h

theorem Run.length_results (run : Run w es w') :
    w.loads.results.length ≤ w'.loads.results.length := by
  induction run with
  | refl w => exact Nat.le_refl _
  | head m rest ih => exact Nat.le_trans m.length_results ih

theorem Run.caches_mono (run : Run w es w') {i : Nat} {c : Cache Nat × CachePolicy}
    (h : w.caches[i]? = some c) :
    ∃ c', w'.caches[i]? = some c' ∧ c.1.next ≤ c'.1.next ∧ c'.2 = c.2 := by
  induction run generalizing c with
  | refl w => exact ⟨c, h, Nat.le_refl _, rfl⟩
  | head m rest ih =>
    obtain ⟨c₁, h₁, hn₁, hp₁⟩ := m.caches_mono h
    obtain ⟨c', h', hn', hp'⟩ := ih h₁
    exact ⟨c', h', Nat.le_trans hn₁ hn', hp'.trans hp₁⟩

theorem Run.policy? (run : Run w es w') {i : Nat} {policy : CachePolicy}
    (h : w.policy? i = some policy) : w'.policy? i = some policy := by
  obtain ⟨c, hc, rfl⟩ := Option.map_eq_some_iff.mp h
  obtain ⟨c', hc', -, hp⟩ := run.caches_mono hc
  rw [policy?_of_caches hc', hp]

theorem Run.issued_of_received (run : Run w es w') (hw : w.Sound) {p : Pending}
    {result : LoadResult (Template Ω)} (h : .received p result ∈ es) :
    ∃ b, p.binding = some b ∧ w'.Issued p.renderer p.name b := by
  induction run with
  | refl w => cases h
  | head m rest ih =>
    rcases List.mem_append.mp h with h | h
    · obtain ⟨b, hb, hi, -⟩ := m.receive_inv h
      exact ⟨b, hb, rest.issued (m.sound hw) (m.issued hw hi)⟩
    · exact ih (m.sound hw) h

/-- How an entry can go: by a flush of its cache, or because a render that was bound to its load
received the failure of that load, under the evicting policy. -/
theorem Run.kept (run : Run w es w') (hw : w.Sound) {i : Nat} {name : String} {g l : Nat}
    (h : w.cached? i name = some (g, l)) :
    w'.cached? i name = some (g, l) ∨ .flushed i ∈ es ∨
      w.policy? i = some .evictOnError ∧ ∃ p err,
        .received p (.error err) ∈ es ∧ p.renderer = i ∧ p.name = name ∧ p.load? = some l := by
  induction run with
  | refl w => exact .inl h
  | @head w w₁ w' e es m rest ih =>
    rcases m.kept hw h with h₁ | hf | ⟨hp, p, err, hm, hr⟩
    · rcases ih (m.sound hw) h₁ with h' | hf | ⟨hp, p, err, hm, hr⟩
      · exact .inl h'
      · exact .inr (.inl (List.mem_append_right _ hf))
      · refine .inr (.inr ⟨?_, p, err, List.mem_append_right _ hm, hr⟩)
        obtain ⟨c, hc, -⟩ := cached?_eq_some_iff.mp h
        have hpol := (Run.single m).policy? (policy?_of_caches hc)
        rw [← Option.some.inj (hpol.symm.trans hp)]
        exact policy?_of_caches hc
    · exact .inr (.inl (List.mem_append_left _ hf))
    · exact .inr (.inr ⟨hp, p, err, List.mem_append_left _ hm, hr⟩)

end Stencil.World
