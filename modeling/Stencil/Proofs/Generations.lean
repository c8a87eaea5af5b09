import Stencil.Cache.Trace
import Stencil.Proofs.Loads

/-!
# Generations stand for loads

What a cache that is used on its own shows of itself over a whole history. An entry is there at the
end of a row of uses if it was there before and nothing took it away, or if it was made on the way,
and then its generation is one that had not been given out yet (`cached?_after`). So a generation
stands for one load of one name, and an eviction that comes late takes away no other.
-/

namespace Stencil.Cache.Trace

variable {Ω : Type} {t : Trace Ω} {name other : String} {g handle : Nat} {u : Use Ω}
  {us : List (Use Ω)}

def after (t : Trace Ω) (us : List (Use Ω)) : Trace Ω := us.foldl (fun t u => (t.step u).2) t

def cached? (t : Trace Ω) (name : String) : Option (Nat × Nat) := t.cache.entries.get? name

inductive Removes (t : Trace Ω) (name : String) : Use Ω → Prop
  | clear : Removes t name .clear
  | evict {generation : Nat} (h : (t.step (.evict name generation)).1 = .evicted true) :
      Removes t name (.evict name generation)

def Removed (t : Trace Ω) (name : String) (us : List (Use Ω)) : Prop :=
  ∃ before u rest, us = before ++ u :: rest ∧ (t.after before).Removes name u

theorem after_append (t : Trace Ω) (us vs : List (Use Ω)) :
    t.after (us ++ vs) = (t.after us).after vs :=
  List.foldl_append

theorem not_removed_nil (t : Trace Ω) (name : String) : ¬ t.Removed name [] := by
  rintro ⟨before, u, rest, h, -⟩
  simp at h

theorem removed_cons :
    t.Removed name (u :: us) ↔ t.Removes name u ∨ (t.step u).2.Removed name us := by
  constructor
  · rintro ⟨before, x, rest, h, hx⟩
    cases before with
    | nil =>
      obtain ⟨rfl, rfl⟩ := List.cons_eq_cons.mp h
      exact .inl hx
    | cons y before =>
      obtain ⟨rfl, rfl⟩ := List.cons_eq_cons.mp h
      exact .inr ⟨before, x, rest, rfl, hx⟩
  · rintro (h | ⟨before, x, rest, rfl, hx⟩)
    · exact ⟨[], u, us, rfl, h⟩
    · exact ⟨u :: before, x, rest, rfl, hx⟩

-- ---------------------------------------------------------------------------
-- Single uses
-- ---------------------------------------------------------------------------

theorem step_get_of_hit (h : t.cached? name = some (g, handle)) (load : Gated (Template Ω)) :
    t.step (.get name load) =
      (.lookup g true t.loads.slots.length, { t with lookups := t.lookups ++ [handle] }) := by
  simp [step, Cache.getOrInsert_of_hit h]

theorem step_get_of_miss (h : t.cached? name = none) (load : Gated (Template Ω)) :
    t.step (.get name load) =
      (.lookup t.cache.next false (t.loads.slots.length + 1),
        { cache := ⟨t.cache.entries.insert name (t.cache.next, t.loads.slots.length),
            t.cache.next + 1⟩
          loads := t.loads.reserve.2.start t.loads.slots.length none (.future load)
          lookups := t.lookups ++ [t.loads.slots.length] }) := by
  have hlen := congrArg List.length
    (t.loads.reserve.2.results_start t.loads.slots.length none (.future load))
  simp only [Loads.length_results, Loads.results_reserve, List.length_append,
    List.length_singleton] at hlen
  simp [step, Cache.getOrInsert_of_miss h, Loads.reserve, ← hlen]

theorem cached?_step_get (t : Trace Ω) (name : String) (load : Gated (Template Ω)) :
    ∃ g hit n handle, (t.step (.get name load)).1 = .lookup g hit n ∧
      (t.step (.get name load)).2.cached? name = some (g, handle) ∧
      (t.step (.get name load)).2.lookups = t.lookups ++ [handle] := by
  cases h : t.cached? name with
  | none =>
    rw [step_get_of_miss h]
    exact ⟨_, _, _, _, rfl, by simp [cached?, Entries.get?_insert], rfl⟩
  | some e =>
    rw [step_get_of_hit h]
    exact ⟨_, _, _, _, rfl, h, rfl⟩

theorem step_evict_of_entry (h : t.cached? name = some (g, handle)) :
    t.step (.evict name g) =
      (.evicted true,
        { t with cache := { t.cache with entries := t.cache.entries.erase name } }) := by
  simp [step, Cache.evict, show t.cache.entries.get? name = _ from h]

theorem step_evict_of_no_entry (h : ∀ handle, t.cached? name ≠ some (g, handle)) :
    t.step (.evict name g) = (.evicted false, t) := by
  cases he : t.cache.entries.get? name with
  | none => simp [step, Cache.evict, he]
  | some e =>
    have hg : e.1 ≠ g := fun hg => h e.2 (by rw [cached?, he, ← hg])
    simp [step, Cache.evict, he, hg]

theorem evicted_iff :
    (t.step (.evict name g)).1 = .evicted true ↔ ∃ handle, t.cached? name = some (g, handle) := by
  by_cases h : ∃ handle, t.cached? name = some (g, handle)
  · obtain ⟨handle, he⟩ := h
    simp [step_evict_of_entry he, he]
  · rw [step_evict_of_no_entry fun handle he => h ⟨handle, he⟩]
    simp [h]

-- ---------------------------------------------------------------------------
-- What holds after every row of uses
-- ---------------------------------------------------------------------------

/-- Every generation was given out, and to one name. -/
structure Sound (t : Trace Ω) : Prop where
  nodup : t.cache.entries.keys.Nodup
  issued : ∀ {name g handle}, t.cached? name = some (g, handle) → g < t.cache.next
  unique : ∀ {name other g handle handle'}, t.cached? name = some (g, handle) →
    t.cached? other = some (g, handle') → name = other

theorem sound_empty : ({} : Trace Ω).Sound where
  nodup := List.nodup_nil
  issued h := by cases h
  unique h := by cases h

/-- What a use makes of the entry for a name. -/
inductive Fate (t : Trace Ω) (name : String) (u : Use Ω) (e : Option (Nat × Nat)) : Prop
  | removed (h : t.Removes name u) (gone : e = none)
  | kept (h : ¬ t.Removes name u) (same : e = t.cached? name)
  | made {load : Gated (Template Ω)} (hu : u = .get name load) (hn : t.cached? name = none)
      (new : e = some (t.cache.next, t.loads.slots.length))

theorem fate (ht : t.Sound) (u : Use Ω) (name : String) :
    Fate t name u ((t.step u).2.cached? name) := by
  cases u with
  | get other load =>
    cases he : t.cached? other with
    | some e => exact .kept nofun (by rw [step_get_of_hit he]; rfl)
    | none =>
      by_cases hn : other = name
      · subst hn
        exact .made rfl he (by rw [step_get_of_miss he]; simp [cached?, Entries.get?_insert])
      · exact .kept nofun (by rw [step_get_of_miss he]; simp [cached?, Entries.get?_insert, hn])
  | evict other generation =>
    by_cases hev : ∃ handle, t.cached? other = some (generation, handle)
    · obtain ⟨handle, he⟩ := hev
      have hgone : (t.step (.evict other generation)).2.cached? name =
          if other = name then none else t.cached? name := by
        rw [step_evict_of_entry he]
        exact Entries.get?_erase ht.nodup ..
      by_cases hn : other = name
      · subst hn
        exact .removed (.evict (evicted_iff.mpr ⟨handle, he⟩)) (hgone.trans (if_pos rfl))
      · refine .kept ?_ (hgone.trans (if_neg hn))
        rintro ⟨⟩
        exact hn rfl
    · refine .kept ?_ (by rw [step_evict_of_no_entry fun handle he => hev ⟨handle, he⟩])
      rintro (_ | hr)
      exact hev (evicted_iff.mp hr)
  | clear => exact .removed .clear rfl
  | contains other => exact .kept nofun rfl
  | release gate => exact .kept nofun rfl
  | resolve lookup =>
    refine .kept nofun ?_
    simp only [step]
    split <;> rfl
  | inspect => exact .kept nofun rfl

theorem next_le_step (t : Trace Ω) (u : Use Ω) : t.cache.next ≤ (t.step u).2.cache.next := by
  cases u with
  | get name load =>
    cases he : t.cached? name with
    | none => simp [step_get_of_miss he]
    | some e => simp [step_get_of_hit he]
  | resolve lookup =>
    simp only [step]
    split <;> exact Nat.le_refl _
  | _ => simp [step, Cache.clear]

theorem nodup_step (h : t.cache.entries.keys.Nodup) (u : Use Ω) :
    (t.step u).2.cache.entries.keys.Nodup := by
  cases u with
  | get name load =>
    cases he : t.cached? name with
    | none =>
      rw [step_get_of_miss he]
      exact Entries.nodup_keys_insert h ..
    | some e => rwa [step_get_of_hit he]
  | evict name generation => exact Cache.nodup_keys_evict h name generation
  | clear => exact List.nodup_nil
  | resolve lookup =>
    simp only [step]
    split <;> exact h
  | _ => exact h

theorem Sound.step (ht : t.Sound) (u : Use Ω) : (t.step u).2.Sound where
  nodup := nodup_step ht.nodup u
  issued {name g handle} h := by
    cases fate ht u name with
    | removed _ gone => cases h.symm.trans gone
    | kept _ same => exact Nat.lt_of_lt_of_le (ht.issued (same ▸ h)) (next_le_step t u)
    | made hu hn new =>
      cases h.symm.trans new
      simp [hu, step_get_of_miss hn]
  unique {name other g handle handle'} h h' := by
    cases fate ht u name with
    | removed _ gone => cases h.symm.trans gone
    | kept _ same =>
      cases fate ht u other with
      | removed _ gone => cases h'.symm.trans gone
      | kept _ same' => exact ht.unique (same ▸ h) (same' ▸ h')
      | made _ _ new =>
        -- the generation of a new entry has not been given out before
        cases h'.symm.trans new
        exact absurd (ht.issued (same ▸ h)) (Nat.lt_irrefl _)
    | made hu _ new =>
      cases h.symm.trans new
      cases fate ht u other with
      | removed _ gone => cases h'.symm.trans gone
      | kept _ same => exact absurd (ht.issued (same ▸ h')) (Nat.lt_irrefl _)
      | made hu' => exact (Use.get.inj (hu.symm.trans hu')).1

theorem Sound.after (ht : t.Sound) (us : List (Use Ω)) : (t.after us).Sound := by
  induction us generalizing t with
  | nil => exact ht
  | cons u rest ih => exact ih (ht.step u)

theorem next_le_after (t : Trace Ω) (us : List (Use Ω)) :
    t.cache.next ≤ (t.after us).cache.next := by
  induction us generalizing t with
  | nil => exact Nat.le_refl _
  | cons u rest ih => exact Nat.le_trans (next_le_step t u) (ih _)

-- ---------------------------------------------------------------------------
-- Entries over a row of uses
-- ---------------------------------------------------------------------------

theorem cached?_after_of_not_removed (ht : t.Sound) {e : Nat × Nat} (h : t.cached? name = some e)
    (hr : ¬ t.Removed name us) : (t.after us).cached? name = some e := by
  induction us generalizing t with
  | nil => exact h
  | cons u rest ih =>
    rw [removed_cons, not_or] at hr
    refine ih (ht.step u) ?_ hr.2
    cases fate ht u name with
    | removed hrem => exact absurd hrem hr.1
    | kept _ same => exact same.trans h
    | made _ hn => cases h.symm.trans hn

/-- An entry at the end was there at the start and was not taken away, or it was made on the way by
a lookup. -/
theorem cached?_after (ht : t.Sound) (h : (t.after us).cached? name = some (g, handle)) :
    t.cached? name = some (g, handle) ∧ ¬ t.Removed name us ∨
      t.cache.next ≤ g ∧ ∃ before load rest, us = before ++ .get name load :: rest ∧
        ¬ (t.after (before ++ [.get name load])).Removed name rest := by
  induction us generalizing t with
  | nil => exact .inl ⟨h, not_removed_nil t name⟩
  | cons u rest ih =>
    rcases ih (ht.step u) h with ⟨he, hr⟩ | ⟨hg, before, load, rest, rfl, hr⟩
    · cases fate ht u name with
      | removed _ gone => cases he.symm.trans gone
      | kept hu same =>
        refine .inl ⟨same ▸ he, fun hrem => ?_⟩
        exact (removed_cons.mp hrem).elim hu hr
      | @made load hu _ new =>
        cases he.symm.trans new
        exact .inr ⟨Nat.le_refl _, [], load, rest, by rw [hu]; rfl, hu ▸ hr⟩
    · exact .inr ⟨Nat.le_trans (next_le_step t u) hg, u :: before, load, rest, rfl, hr⟩

theorem generation_eq_iff (ht : t.Sound) (h : t.cached? name = some (g, handle)) {g' handle' : Nat}
    (h' : (t.after us).cached? other = some (g', handle')) :
    (g = g' ↔ name = other ∧ ¬ t.Removed name us) ∧ (g = g' → handle = handle') := by
  have kept (hn : name = other) (hr : ¬ t.Removed name us) : (g, handle) = (g', handle') := by
    subst hn
    exact Option.some.inj ((cached?_after_of_not_removed ht h hr).symm.trans h')
  rcases cached?_after ht h' with ⟨he, hr⟩ | ⟨hg, -⟩
  · have same (hg : g = g') : name = other := ht.unique h (hg ▸ he)
    refine ⟨⟨fun hg => ⟨same hg, same hg ▸ hr⟩, fun ⟨hn, hr⟩ => ?_⟩, fun hg => ?_⟩
    · exact congrArg Prod.fst (kept hn hr)
    · obtain rfl := same hg
      exact congrArg Prod.snd (kept rfl hr)
  · have hlt := ht.issued h
    have hne : g ≠ g' := by omega
    exact ⟨⟨fun hg => absurd hg hne, fun ⟨hn, hr⟩ => congrArg Prod.fst (kept hn hr)⟩,
      fun hg => absurd hg hne⟩

-- ---------------------------------------------------------------------------
-- Histories
-- ---------------------------------------------------------------------------

def ofUses (us : List (Use Ω)) : Trace Ω := ({} : Trace Ω).after us

theorem sound_ofUses (us : List (Use Ω)) : (ofUses us).Sound := sound_empty.after us

theorem cached?_ofUses_isSome_iff (us : List (Use Ω)) (name : String) :
    ((ofUses us).cached? name).isSome = true ↔
      ∃ before load rest, us = before ++ .get name load :: rest ∧
        ¬ (ofUses (before ++ [.get name load])).Removed name rest := by
  constructor
  · intro h
    obtain ⟨⟨g, handle⟩, he⟩ := Option.isSome_iff_exists.mp h
    rcases cached?_after sound_empty he with ⟨h, -⟩ | ⟨-, made⟩
    · cases h
    · exact made
  · rintro ⟨before, load, rest, rfl, hr⟩
    obtain ⟨g, hit, n, handle, -, he, -⟩ := cached?_step_get (ofUses before) name load
    have hc : (ofUses (before ++ [.get name load])).cached? name = some (g, handle) := by
      rwa [ofUses, after_append]
    have hk := cached?_after_of_not_removed (sound_ofUses _) hc hr
    rw [ofUses, ← after_append, List.append_assoc, List.singleton_append] at hk
    simp [ofUses, hk]

theorem evicted_iff_hit (t : Trace Ω) (name : String) (g : Nat) (load : Gated (Template Ω)) :
    (t.step (.evict name g)).1 = .evicted true ↔
      ∃ n, (t.step (.get name load)).1 = .lookup g true n := by
  rw [evicted_iff]
  constructor
  · rintro ⟨handle, h⟩
    exact ⟨_, by rw [step_get_of_hit h]⟩
  · rintro ⟨n, h⟩
    cases he : t.cached? name with
    | none =>
      rw [step_get_of_miss he] at h
      cases h
    | some e =>
      rw [step_get_of_hit he] at h
      cases h
      exact ⟨e.2, rfl⟩

/-- Two lookups, with other uses between them. -/
theorem lookups_agree_iff (ht : t.Sound) (name other : String) (load load' : Gated (Template Ω))
    (between : List (Use Ω)) :
    let first := t.step (.get name load)
    let second := (first.2.after between).step (.get other load')
    ∃ g hit n g' hit' n', first.1 = .lookup g hit n ∧ second.1 = .lookup g' hit' n' ∧
      (g = g' ↔ name = other ∧ ¬ first.2.Removed name between) ∧
      (g = g' → second.2.lookups.getLast? = first.2.lookups.getLast?) ∧
      (hit' = false → g < g') := by
  intro first second
  have hs : first.2.Sound := ht.step _
  obtain ⟨g, hit, n, handle, hfirst, he, hl⟩ := cached?_step_get t name load
  cases hc : (first.2.after between).cached? other with
  | some e =>
    obtain ⟨g', handle'⟩ := e
    obtain ⟨hiff, hh⟩ := generation_eq_iff hs he hc
    have hsecond : second = _ := step_get_of_hit hc load'
    refine ⟨g, hit, n, g', true, _, hfirst, by rw [hsecond], hiff, fun hg => ?_, nofun⟩
    simp [hsecond, hl, first, hh hg]
  | none =>
    have hsecond : second = _ := step_get_of_miss hc load'
    have hlt : g < (first.2.after between).cache.next :=
      Nat.lt_of_lt_of_le (hs.issued he) (next_le_after ..)
    refine ⟨g, hit, n, _, false, _, hfirst, by rw [hsecond], ⟨fun hg => by omega, ?_⟩,
      fun hg => by omega, fun _ => hlt⟩
    rintro ⟨rfl, hr⟩
    cases hc.symm.trans (cached?_after_of_not_removed hs he hr)

/-- A lookup hits exactly if an earlier lookup of the name made the entry and nothing took it away
since. Only a lookup that misses starts a load. -/
theorem hit_iff (us : List (Use Ω)) (name : String) (load : Gated (Template Ω)) :
    let t := ofUses us
    ∃ g hit n, (t.step (.get name load)).1 = .lookup g hit n ∧
      (hit = true ↔ ∃ before load' rest, us = before ++ .get name load' :: rest ∧
        ¬ (ofUses (before ++ [.get name load'])).Removed name rest) ∧
      (t.step (.get name load)).2.loads = if hit then t.loads else
        t.loads.reserve.2.start t.loads.slots.length none (.future load) := by
  intro t
  have hmade := cached?_ofUses_isSome_iff us name
  cases he : t.cached? name with
  | none =>
    rw [step_get_of_miss he]
    exact ⟨_, _, _, rfl, by simp [← hmade, show (ofUses us).cached? name = none from he], rfl⟩
  | some e =>
    rw [step_get_of_hit he]
    exact ⟨_, _, _, rfl, by simp [← hmade, show (ofUses us).cached? name = some e from he], rfl⟩

theorem evict_only (ht : t.Sound) (name : String) (g : Nat) :
    ((t.step (.evict name g)).1 = .evicted true ∧ ∃ entries,
      (t.step (.evict name g)).2 = { t with cache := { t.cache with entries := entries } } ∧
        ∀ other, entries.get? other = if name = other then none else t.cache.entries.get? other) ∨
      t.step (.evict name g) = (.evicted false, t) := by
  by_cases h : ∃ handle, t.cached? name = some (g, handle)
  · obtain ⟨handle, he⟩ := h
    rw [step_evict_of_entry he]
    exact .inl ⟨rfl, _, rfl, Entries.get?_erase ht.nodup name⟩
  · exact .inr (step_evict_of_no_entry fun handle he => h ⟨handle, he⟩)

/-- Over every history: lookups have one generation exactly if they have one load, which is that of
one name with no removal between them; a miss gets a new generation and starts the load; and an
eviction works on the entry that is cached with its generation, and on nothing else. -/
theorem generations_identify_loads :
    (∀ (before between : List (Use Ω)) (name other : String) (load load' : Gated (Template Ω)),
      let first := (ofUses before).step (.get name load)
      let second := (first.2.after between).step (.get other load')
      ∃ g hit n g' hit' n', first.1 = .lookup g hit n ∧ second.1 = .lookup g' hit' n' ∧
        (g = g' ↔ name = other ∧ ¬ first.2.Removed name between) ∧
        (g = g' → second.2.lookups.getLast? = first.2.lookups.getLast?) ∧
        (hit' = false → g < g')) ∧
    (∀ (us : List (Use Ω)) (name : String) (load : Gated (Template Ω)),
      let t := ofUses us
      ∃ g hit n, (t.step (.get name load)).1 = .lookup g hit n ∧
        (hit = true ↔ ∃ before load' rest, us = before ++ .get name load' :: rest ∧
          ¬ (ofUses (before ++ [.get name load'])).Removed name rest) ∧
        (t.step (.get name load)).2.loads = if hit then t.loads else
          t.loads.reserve.2.start t.loads.slots.length none (.future load)) ∧
    ∀ (us : List (Use Ω)) (name : String) (g : Nat) (load : Gated (Template Ω)),
      let t := ofUses us
      ((t.step (.evict name g)).1 = .evicted true ↔
        ∃ n, (t.step (.get name load)).1 = .lookup g true n) ∧
      (((t.step (.evict name g)).1 = .evicted true ∧ ∃ entries,
        (t.step (.evict name g)).2 = { t with cache := { t.cache with entries := entries } } ∧
          ∀ other, entries.get? other =
            if name = other then none else t.cache.entries.get? other) ∨
        t.step (.evict name g) = (.evicted false, t)) := by
  refine ⟨?_, hit_iff, ?_⟩
  · intro before between name other load load'
    exact lookups_agree_iff (sound_ofUses before) name other load load' between
  · intro us name g load
    exact ⟨evicted_iff_hit _ name g load, evict_only (sound_ofUses us) name g⟩

/-- A second lookup after the entry was evicted is a miss and starts a second load. -/
theorem generations_identify_loads_page :
    let load : Gated (Template Empty) := ⟨.nothing, none⟩
    let first := (ofUses []).step (.get "page" load)
    let second := (first.2.after [.evict "page" 0]).step (.get "page" load)
    first.1 = .lookup 0 false 1 ∧ second.1 = .lookup 1 false 2 ∧
      first.2.Removed "page" [.evict "page" 0] ∧ 0 < 1 := by
  intro load first second
  obtain ⟨g, hit, n, g', hit', n', h, h', hiff, -, hlt⟩ :=
    generations_identify_loads.1 [] [.evict "page" 0] "page" "page" load load
  cases h
  cases h'
  refine ⟨rfl, rfl, Classical.byContradiction fun hr => ?_, hlt rfl⟩
  cases hiff.mpr ⟨rfl, hr⟩

/-- The generation that a lookup would return is not always one that can be evicted: if the name is
not cached, that generation is a new one. -/
theorem not_evicted_of_lookup :
    ¬ ∀ (us : List (Use Empty)) (name : String) (g : Nat) (load : Gated (Template Empty)),
      ((ofUses us).step (.evict name g)).1 = .evicted true ↔
        ∃ hit n, ((ofUses us).step (.get name load)).1 = .lookup g hit n := by
  intro h
  cases (h [] "a" 0 ⟨.nothing, none⟩).mpr ⟨false, 1, rfl⟩

end Stencil.Cache.Trace
