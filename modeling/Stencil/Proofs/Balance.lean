import Mathlib
import Stencil.Proofs.Session

/-!
# Entries and records balance

Every entry of a cache is made with a record of its load, and goes with a record of its eviction or
is counted in the record of a flush. So the records so far account for the names that are cached, in
each renderer, whenever code is given control. An entry goes once, by one event, and its load is not
cached again.

The log does not say which renderer a record is from, so the records are put into a ledger here,
each next to its renderer.
-/

namespace Stencil

variable {Ω : Type}

-- ---------------------------------------------------------------------------
-- Records about entries
-- ---------------------------------------------------------------------------

namespace Record

def loadings : Record → Nat
  | .loading _ => 1
  | _ => 0

def evictions : Record → Nat
  | .evicted _ => 1
  | _ => 0

def flushings : Record → Nat
  | .flushing count => count
  | _ => 0

theorem eq_zero_of_not_ofCache {r : Record} (h : r.ofCache = false) :
    r.loadings = 0 ∧ r.evictions = 0 ∧ r.flushings = 0 := by
  cases r <;> simp_all [ofCache, loadings, evictions, flushings]

end Record

def tally (f : Record → Nat) (rs : List Record) : Nat := (rs.map f).sum

@[simp] theorem tally_nil (f : Record → Nat) : tally f [] = 0 := rfl

@[simp] theorem tally_cons (f : Record → Nat) (r : Record) (rs : List Record) :
    tally f (r :: rs) = f r + tally f rs :=
  rfl

@[simp] theorem tally_append (f : Record → Nat) (rs rs' : List Record) :
    tally f (rs ++ rs') = tally f rs + tally f rs' := by
  simp [tally]

/-- By the records, `n` entries became `n'`. -/
def Accounts (n : Nat) (rs : List Record) (n' : Nat) : Prop :=
  n + tally Record.loadings rs = n' + tally Record.evictions rs + tally Record.flushings rs

namespace Accounts

variable {n n' n'' : Nat} {rs rs' : List Record}

theorem append (h : Accounts n rs n') (h' : Accounts n' rs' n'') : Accounts n (rs ++ rs') n'' := by
  simp only [Accounts, tally_append] at *
  omega

theorem of_other (h : ∀ r ∈ rs, r.ofCache = false) : Accounts n rs n := by
  induction rs with
  | nil => exact rfl
  | cons r rest ih =>
    obtain ⟨hl, he, hf⟩ := Record.eq_zero_of_not_ofCache (h r (List.mem_cons_self ..))
    have hr := ih fun r hr => h r (List.mem_cons_of_mem _ hr)
    simp only [Accounts, tally_cons, hl, he, hf, Nat.zero_add] at *
    exact hr

end Accounts

-- ---------------------------------------------------------------------------
-- Ledgers
-- ---------------------------------------------------------------------------

abbrev Ledger := List (Nat × Record)

namespace Ledger

def records (ledger : Ledger) : List Record := ledger.map (·.2)

def of (ledger : Ledger) (i : Nat) : List Record := (ledger.filter (·.1 == i)).map (·.2)

@[simp] theorem of_append (ledger more : Ledger) (i : Nat) :
    (ledger ++ more).of i = ledger.of i ++ more.of i := by
  simp [of]

theorem sum_tally {f : Record → Nat} {n : Nat} {ledger : Ledger}
    (h : ∀ x ∈ ledger, f x.2 ≠ 0 → x.1 < n) :
    ∑ i ∈ Finset.range n, tally f (ledger.of i) = tally f ledger.records := by
  induction ledger with
  | nil => simp [of, records]
  | cons x rest ih =>
    have first (i : Nat) :
        tally f (of (x :: rest) i) = (if x.1 = i then f x.2 else 0) + tally f (of rest i) := by
      by_cases hi : x.1 = i <;> simp [of, hi]
    have own : ∑ i ∈ Finset.range n, (if x.1 = i then f x.2 else 0) = f x.2 := by
      rw [Finset.sum_ite_eq]
      split
      · rfl
      · rename_i hx
        exact (not_imp_comm.mp (h x (List.mem_cons_self ..)) (by simpa using hx)).symm
    simp only [first, Finset.sum_add_distrib, own, ih fun y hy => h y (List.mem_cons_of_mem _ hy)]
    rfl

end Ledger

namespace World

variable {w w' u u' : World Ω}

def cachedNames (w : World Ω) (i : Nat) : List String :=
  ((w.caches[i]?).map (·.1.entries.keys)).getD []

/-- From one world to the other, the ledger has what was recorded, and accounts for the entries. -/
structure Booked (w : World Ω) (ledger : Ledger) (w' : World Ω) : Prop where
  log : w'.log = w.log ++ ledger.records
  owned : ∀ x ∈ ledger, x.2.ofCache = true → x.1 < w'.caches.length
  entries : ∀ i, Accounts (w.cachedNames i).length (ledger.of i) (w'.cachedNames i).length

theorem Later.length_caches (h : w.Later w') : w.caches.length ≤ w'.caches.length := by
  obtain ⟨es, run⟩ := h.run
  refine Nat.le_of_not_lt fun hlt => ?_
  obtain ⟨c, hc, -⟩ := run.caches_mono (List.getElem?_eq_getElem hlt)
  exact Nat.lt_irrefl _ (List.getElem?_eq_some_iff.mp hc).1

theorem Booked.append {ledger more : Ledger} (h : w.Booked ledger w') (h' : w'.Booked more u)
    (later : w'.Later u) : w.Booked (ledger ++ more) u where
  log := by simp [h'.log, h.log, Ledger.records]
  owned := by
    rintro x hx hc
    rcases List.mem_append.mp hx with hx | hx
    · exact Nat.lt_of_lt_of_le (h.owned x hx hc) later.length_caches
    · exact h'.owned x hx hc
  entries i := by
    rw [Ledger.of_append]
    exact (h.entries i).append (h'.entries i)

theorem booked_other {rs : List Record} (caches : w'.caches = w.caches)
    (log : w'.log = w.log ++ rs) (other : ∀ r ∈ rs, r.ofCache = false) :
    ∃ ledger, w.Booked ledger w' := by
  refine ⟨rs.map fun r => (0, r), ⟨?_, ?_, ?_⟩⟩
  · simp [log, Ledger.records, Function.comp_def]
  · intro x hx hc
    obtain ⟨r, hr, rfl⟩ := List.mem_map.mp hx
    simp [other r hr] at hc
  · intro i
    rw [cachedNames, cachedNames, caches]
    refine .of_other fun r hr => ?_
    obtain ⟨x, hx, rfl⟩ := List.mem_map.mp hr
    obtain ⟨r, hrs, rfl⟩ := List.mem_map.mp (List.mem_filter.mp hx).1
    exact other r hrs

theorem booked_still (caches : w'.caches = w.caches) (log : w'.log = w.log) :
    ∃ ledger, w.Booked ledger w' :=
  booked_other caches (by simp [log]) (List.forall_mem_nil _)

theorem booked_modify {i : Nat} {c : Cache Nat × CachePolicy} (hc : w.caches[i]? = some c)
    {f : Cache Nat × CachePolicy → Cache Nat × CachePolicy}
    (caches : w'.caches = w.caches.modify i f) {r : Record} (log : w'.log = w.log ++ [r])
    (size : Accounts c.1.size [r] (f c).1.size) : ∃ ledger, w.Booked ledger w' := by
  refine ⟨[(i, r)], ⟨log, ?_, ?_⟩⟩
  · rintro x hx -
    rw [List.mem_singleton.mp hx, caches, List.length_modify]
    exact (List.getElem?_eq_some_iff.mp hc).1
  · intro j
    rw [cachedNames, cachedNames, caches, List.getElem?_modify]
    by_cases hj : i = j
    · subst hj
      simpa [Ledger.of, hc, Cache.size, Entries.keys] using size
    · simpa [Ledger.of, hj] using Accounts.of_other (List.forall_mem_nil _)

theorem cachedNames_addRenderer {r : Renderer Ω} (h : r.cache = {}) (w : World Ω) (i : Nat) :
    (w.addRenderer r).cachedNames i = w.cachedNames i := by
  rcases caches_addRenderer_cases h w i with he | ⟨hn, he⟩
  · rw [cachedNames, cachedNames, he]
  · simp [cachedNames, he, hn, Entries.keys]

-- ---------------------------------------------------------------------------
-- What operations change
-- ---------------------------------------------------------------------------

def Other (r : Record) : Prop := r.ofCache = false

theorem booked_evictFailed (p : Pending) (b : Binding) (w : World Ω) :
    ∃ ledger, w.Booked ledger (evictFailed p b w) := by
  rcases evictFailed_cases p b w with ⟨h, -⟩ | ⟨r, hr, -, he, h⟩ <;> rw [h]
  · exact booked_still rfl rfl
  · refine booked_modify (caches_getElem? hr) (caches_setCache w p.renderer _) rfl ?_
    have size := Cache.size_evict_of_fst he
    simp only [Accounts, tally_cons, tally_nil, Record.loadings, Record.evictions,
      Record.flushings]
    omega

theorem booked_of_change (c : Change Other (fun _ _ => True) w w') :
    ∃ ledger, w.Booked ledger w' := by
  cases c with
  | still _ renderers _ log => exact booked_still (by simp only [caches, renderers]) log
  | record hr => exact booked_other rfl rfl (by simpa [Other] using hr)
  | update i cache policy =>
    refine booked_still ?_ rfl
    exact (caches_update (g := fun c => c) (fun r => by simp [cache, policy]) w i).trans
      (List.modify_id _ _)
  | create cache =>
    refine ⟨[], ⟨by simp [addRenderer, Ledger.records], by simp, fun i => ?_⟩⟩
    rw [cachedNames_addRenderer cache]
    exact .of_other (by simp [Ledger.of])
  | @flush i r hr =>
    refine booked_modify (caches_getElem? hr) (caches_flushed w i) rfl ?_
    simp [Accounts, Cache.size, Cache.clear, Record.loadings, Record.evictions, Record.flushings]
  | @opened i r name hr hn =>
    refine booked_modify (caches_getElem? hr) (caches_invoked w i r name) rfl ?_
    simp [Accounts, Cache.size, Cache.getOrInsert_of_miss hn, Entries.insert_of_get?_eq_none hn,
      Record.loadings, Record.evictions, Record.flushings]
  | enter => exact booked_still rfl rfl
  | leave => exact booked_still rfl rfl
  | look => exact booked_still rfl rfl
  | release => exact booked_still rfl rfl
  | @settle p b result =>
    cases result with
    | ok t => exact booked_still rfl rfl
    | error err =>
      let received := (w.look b.load).note (.received p (.error err))
      obtain ⟨ledger, booked⟩ := booked_evictFailed p b received
      exact ⟨ledger, booked.log, booked.owned, booked.entries⟩

/-- A run that is booked, and in which no code comes up that makes records about entries. -/
structure Balanced (w w' : World Ω) : Prop where
  later : w.Later w'
  plain : w.Plain Other → w'.Plain Other
  booked : ∃ ledger, w.Booked ledger w'

theorem Balanced.trans (h : w.Balanced w') (h' : w'.Balanced u) : w.Balanced u := by
  obtain ⟨ledger, booked⟩ := h.booked
  obtain ⟨more, booked'⟩ := h'.booked
  exact ⟨h.later.trans h'.later, h'.plain ∘ h.plain, _, booked.append booked' h'.later⟩

theorem balanced_of_late (l : Late Other w u u') : u.Balanced u' :=
  ⟨l.later, l.plain, by cases l <;> exact booked_still rfl rfl⟩

theorem tracks_balanced {w₀ : World Ω} (h₀ : w₀.Reached) (plain : w₀.Plain Other) :
    Tracks Other (fun _ _ => True) Balanced w₀ where
  refl w := ⟨.refl w, id, booked_still rfl rfl⟩
  trans := .trans
  later h := h.later
  change c := ⟨c.later, c.plain, booked_of_change c⟩
  late h l := h.trans (balanced_of_late l)
  ok_of _ hr := hr
  reached h := h.later.reached h₀
  plain h := h.plain plain

-- ---------------------------------------------------------------------------
-- Entries go once
-- ---------------------------------------------------------------------------

def Uncached (w : World Ω) (l : Nat) : Prop := ∀ i name g, w.cached? i name ≠ some (g, l)

theorem Run.uncached {es : List (Event Ω)} (run : Run w es w') (hw : w.Sound) {l : Nat}
    (hl : l < w.loads.results.length) (h : w.Uncached l) : w'.Uncached l := by
  induction run with
  | refl w => exact h
  | head m rest ih =>
    refine ih (m.sound hw) (Nat.lt_of_lt_of_le hl m.length_results) fun i name g hc => ?_
    rcases m.entry_inv hw hc with hc | ⟨-, fresh⟩
    · exact h i name g hc
    · have hl' := fresh.load
      omega

def Takes (w : World Ω) (i : Nat) (name : String) (l : Nat) (x : Event Ω) : Prop :=
  x = .flushed i ∨ w.policy? i = some .evictOnError ∧ ∃ p err,
    x = .received p (.error err) ∧ p.renderer = i ∧ p.name = name ∧ p.load? = some l

theorem Move.takes {e : List (Event Ω)} (m : Move w e w') (hw : w.Sound) {i : Nat} {name : String}
    {g l : Nat} (h : w.cached? i name = some (g, l)) (gone : w'.cached? i name ≠ some (g, l)) :
    ∃ x, e = [x] ∧ w.Takes i name l x := by
  have only {x : Event Ω} (hx : x ∈ e) : e = [x] := by
    rcases m.label with rfl | ⟨y, rfl⟩
    · cases hx
    · rw [List.mem_singleton.mp hx]
  rcases m.kept hw h with h' | hf | ⟨hp, p, err, hm, hr⟩
  · exact absurd h' gone
  · exact ⟨_, only hf, .inl rfl⟩
  · exact ⟨_, only hm, .inr ⟨hp, p, err, rfl, hr⟩⟩

/-- When an entry goes, its load is cached nowhere. -/
theorem Move.uncached {e : List (Event Ω)} (m : Move w e w') (hw : w.Sound) {i : Nat}
    {name : String} {g l : Nat} (h : w.cached? i name = some (g, l))
    (gone : w'.cached? i name ≠ some (g, l)) : w'.Uncached l := by
  intro j other g' hc
  have issued := hw.issued h
  rcases m.entry_inv hw hc with hc' | ⟨-, fresh⟩
  · obtain ⟨rfl, rfl, rfl⟩ := (issued.load_iff hc').mp rfl
    exact gone hc
  · have hl := issued.load_lt
    have hl' := fresh.load
    exact absurd hl (by simp [hl'])

/-- The run takes the entry of a load away, by one event, and the load is not cached again. -/
def TakenOnce (w : World Ω) (i : Nat) (name : String) (l : Nat) (es : List (Event Ω))
    (w' : World Ω) : Prop :=
  ∃ before x after v v', es = before ++ x :: after ∧ Run w before v ∧ Move v [x] v' ∧
    Run v' after w' ∧ (∃ g, v.cached? i name = some (g, l)) ∧ v.Takes i name l x ∧
    ∀ {fs u}, Run v' fs u → u.Uncached l

theorem Run.takenOnce {es : List (Event Ω)} (run : Run w es w') (hw : w.Sound) {i : Nat}
    {name : String} {g l : Nat} (h : w.cached? i name = some (g, l))
    (gone : w'.cached? i name ≠ some (g, l)) : w.TakenOnce i name l es w' := by
  induction run with
  | refl w => exact absurd h gone
  | @head w w₁ w' e es m rest ih =>
    by_cases h₁ : w₁.cached? i name = some (g, l)
    · obtain ⟨before, x, after, v, v', rfl, run, taken⟩ := ih (m.sound hw) h₁ gone
      exact ⟨e ++ before, x, after, v, v', by simp, .head m run, taken⟩
    · obtain ⟨x, rfl, takes⟩ := m.takes hw h h₁
      refine ⟨[], x, es, w, w₁, rfl, .refl w, m, rest, ⟨g, h⟩, takes, fun run => ?_⟩
      have hl := Nat.lt_of_lt_of_le (hw.issued h).load_lt m.length_results
      exact run.uncached (m.sound hw) hl (m.uncached hw h h₁)

end World

-- ---------------------------------------------------------------------------
-- Sessions
-- ---------------------------------------------------------------------------

open World Session

/-- What was recorded accounts for the names that are cached: in each renderer, when the records are
put down to the renderers that they are from, and in all of them together. -/
structure Conserved (log : List Record) (w : World Ω) : Prop where
  each : ∃ ledger : Ledger, ledger.records = log ∧
    (∀ x ∈ ledger, x.2.ofCache = true → x.1 < w.renderers.length) ∧
    ∀ i, tally Record.loadings (ledger.of i) = (w.cachedNames i).length +
      tally Record.evictions (ledger.of i) + tally Record.flushings (ledger.of i)
  all : tally Record.loadings log =
    (∑ i ∈ Finset.range w.renderers.length, (w.cachedNames i).length) +
      tally Record.evictions log + tally Record.flushings log
  distinct : ∀ i, (w.cachedNames i).Nodup

theorem World.nodup_cachedNames {w : World Ω} (hw : w.Sound) (i : Nat) :
    (w.cachedNames i).Nodup := by
  cases hc : w.caches[i]? with
  | none => simp [cachedNames, hc]
  | some c => simpa [cachedNames, hc] using hw.nodup c (List.mem_of_getElem? hc)

theorem Conserved.of_each {w : World Ω} (hw : w.Sound) {ledger : Ledger}
    (owned : ∀ x ∈ ledger, x.2.ofCache = true → x.1 < w.renderers.length)
    (entries : ∀ i, Accounts 0 (ledger.of i) (w.cachedNames i).length) :
    Conserved ledger.records w := by
  simp only [Accounts, Nat.zero_add] at entries
  refine ⟨⟨ledger, rfl, owned, entries⟩, ?_, nodup_cachedNames hw⟩
  have total {f : Record → Nat} (hf : ∀ r : Record, r.ofCache = false → f r = 0) :
      tally f ledger.records = ∑ i ∈ Finset.range w.renderers.length, tally f (ledger.of i) := by
    refine (Ledger.sum_tally fun x hx hne => owned x hx ?_).symm
    exact (Bool.not_eq_false _).mp fun h => hne (hf _ h)
  rw [total fun _ h => (Record.eq_zero_of_not_ofCache h).1,
    total fun _ h => (Record.eq_zero_of_not_ofCache h).2.1,
    total fun _ h => (Record.eq_zero_of_not_ofCache h).2.2, ← Finset.sum_add_distrib,
    ← Finset.sum_add_distrib]
  exact Finset.sum_congr rfl fun i _ => entries i

theorem Conserved.step {log : List Record} {w v : World Op} (h : Conserved log w)
    (hw : w.Reached) (balanced : (cleared w).Balanced v) : Conserved (log ++ v.log) v := by
  obtain ⟨ledger, rfl, owned, entries⟩ := h.each
  obtain ⟨more, booked⟩ := balanced.booked
  have later := (later_cleared w).trans balanced.later
  rw [show v.log = more.records from booked.log]
  have records : ledger.records ++ more.records = Ledger.records (ledger ++ more) := by
    simp [Ledger.records]
  rw [records]
  refine .of_each (later.reached hw).sound ?_ fun i => ?_
  · intro x hx hc
    have grown : w.renderers.length ≤ v.renderers.length := by
      simpa [caches] using later.length_caches
    rcases List.mem_append.mp hx with hx | hx
    · exact Nat.lt_of_lt_of_le (owned x hx hc) grown
    · simpa [caches] using booked.owned x hx hc
  · rw [Ledger.of_append]
    have first : Accounts 0 (ledger.of i) (w.cachedNames i).length := by
      simpa [Accounts] using entries i
    exact first.append (booked.entries i)

theorem conserved_after {log : List Record} {w : World Op} (hw : w.Reached)
    (plain : w.Plain Other) (h : Conserved log w) (ops : List Op) :
    Conserved (log ++ (run w ops).flatMap Report.log) (after w ops) ∧
      (after w ops).Plain Other := by
  induction ops generalizing log w with
  | nil => simpa [run, after] using ⟨h, plain⟩
  | cons op rest ih =>
    have hc := (later_cleared w).reached hw
    have tracks : Tracks Other (fun _ _ => True) Balanced (cleared w) :=
      tracks_balanced hc ⟨plain.renderers, plain.loads⟩
    have balanced :=
      (step_follows tracks (hostAt_akin_self tracks (fun _ _ => trivial) depthLimit) op
        (fun _ _ _ => trivial) (tracks.refl _)).step
    have stepped := ih (w := (reportStep w op).2) (tracks.reached balanced) (tracks.plain balanced)
      (h.step hw balanced)
    simpa [run, after, log_reportStep] using stepped

/-- At every moment at which code is given control, the entries that were made are those that are
there, those that were evicted, and those that were flushed. An entry that is gone went once, by a
flush or by an eviction, whatever failures were received before or after. -/
theorem entries_conserved (ops : List Op) :
    let log := (run {} ops).flatMap Report.log
    let w := after {} ops
    Conserved log w ∧
      (∀ n host, (∀ op v, Conserved (log ++ v.log) v →
          host.perform op v = (hostAt n).perform op v) →
        (∀ r v, Conserved (log ++ v.log) v → host.log r v = (hostAt n).log r v) →
        ∀ op, step host (cleared w) op = step (hostAt n) (cleared w) op) ∧
      ∀ {v v' : World Op} {es}, v.Reached → Run v es v' → ∀ {i name g l},
        v.cached? i name = some (g, l) → v'.cached? i name ≠ some (g, l) →
          v.TakenOnce i name l es v' := by
  intro log w
  have empty : Conserved [] ({} : World Op) :=
    .of_each sound_empty (List.forall_mem_nil _) fun i => .of_other (List.forall_mem_nil _)
  obtain ⟨conserved, plain⟩ := conserved_after (.refl _) plain_empty empty ops
  have reached : w.Reached := reached_after ops (.refl _)
  refine ⟨conserved, fun n host hp hl op => ?_, fun hv run _ _ _ _ hc gone => ?_⟩
  · have tracks : Tracks Other (fun _ _ => True) Balanced (cleared w) :=
      tracks_balanced ((later_cleared w).reached reached) ⟨plain.renderers, plain.loads⟩
    exact step_eq_of_follows tracks (fun _ _ => trivial) n
      (fun op v hv => hp op v (conserved.step reached hv))
      (fun r v hv => hl r v (conserved.step reached hv)) op (tracks.refl _)
  · exact run.takenOnce hv.sound hc gone

/-- The first render takes its failed load away, and a flush takes that of the second. -/
def failingVisits : List Op := [
  .create (.given {}),
  .registerLoader 0 "pages"
    (.script { default := [⟨[], some (.future ⟨.failed "gone", none⟩)⟩] }),
  .render 0 "page" none none,
  .start 0 "second" "page" none none,
  .flush 0]

theorem entries_conserved_page :
    let log : List Record := [.loading "page", .evicted "page", .loading "page", .flushing 1]
    (run {} failingVisits).flatMap Report.log = log ∧ Conserved log (after {} failingVisits) :=
  ⟨rfl, (entries_conserved failingVisits).1⟩

end Stencil
