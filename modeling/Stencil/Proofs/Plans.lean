import Stencil.Proofs.Settling

/-!
# One kind of load for every plan

A loader may hand over a future, a callback, or both. What any of these loads is fixed to is what
its sides have settled at the first look that finds something (`result_after_iff`), and each side
settles by the first event that is its own. So a plan with a callback alone is a callback, whoever
made it; a plan with a future whose callback is never called is that future; and of two sides that
have settled at a look the future counts.
-/

namespace Stencil

variable {τ : Type}

namespace LoadEvent

/-- What the callback of a load settles by its first use: it is called, or dropped instead. -/
def callback? : LoadEvent τ → Option (LoadResult τ)
  | .call value => some (.ok value)
  | .drop => some (.error .abandoned)
  | .ready _ => none

def future? : LoadEvent τ → Option (LoadResult τ)
  | .ready r => some r
  | _ => none

/-- What the events leave a look with if a load has both sides: the result of the future, or else
the value that the callback was called with. -/
def decision (es : List (LoadEvent τ)) : Option (LoadResult τ) :=
  (es.findSome? future?).or ((es.findSome? callback?).filter (·.isOk))

end LoadEvent

def Moment.events (ms : List (Moment τ)) : List (LoadEvent τ) :=
  ms.filterMap fun
    | .event e => some e
    | .look => none

theorem Moment.mem_events {e : LoadEvent τ} {ms : List (Moment τ)} :
    e ∈ events ms ↔ .event e ∈ ms := by
  simp only [events, List.mem_filterMap]
  constructor
  · rintro ⟨m, hm, he⟩
    cases m with
    | event x =>
      cases he
      exact hm
    | look => cases he
  · intro h
    exact ⟨_, h, rfl⟩

theorem Moment.events_append (ms ns : List (Moment τ)) :
    events (ms ++ ns) = events ms ++ events ns :=
  List.filterMap_append

/-- A callback that is not called settles nothing beside a future. -/
theorem LoadEvent.decision_of_uncalled {es : List (LoadEvent τ)} (h : ∀ value, .call value ∉ es) :
    decision es = es.findSome? future? := by
  have uncalled : (es.findSome? callback?).filter (·.isOk) = none := by
    rw [Option.filter_eq_none_iff]
    intro r hr
    obtain ⟨e, he, her⟩ := List.exists_of_findSome?_eq_some hr
    cases e with
    | call value => exact absurd he (h value)
    | drop =>
      cases her
      simp [Except.isOk, Except.toBool]
    | ready r => cases her
  rw [decision, uncalled, Option.or_none]

-- ---------------------------------------------------------------------------
-- Sides
-- ---------------------------------------------------------------------------

theorem Callback.poll_foldl_receive (es : List (LoadEvent τ)) (c : Callback τ) :
    (es.foldl Callback.receive c).poll = c.poll.or (es.findSome? LoadEvent.callback?) := by
  induction es generalizing c with
  | nil => simp
  | cons e rest ih =>
    rw [List.foldl_cons, ih]
    cases c <;> cases e <;> rfl

theorem Future.poll_foldl_receive (es : List (LoadEvent τ)) (f : Future τ) :
    (es.foldl Future.receive f).poll = f.poll.or (es.findSome? LoadEvent.future?) := by
  induction es generalizing f with
  | nil => simp
  | cons e rest ih =>
    rw [List.foldl_cons, ih]
    cases f <;> cases e <;> rfl

namespace Load

def after (l : Load τ) (ms : List (Moment τ)) : Load τ := (Moment.events ms).foldl receive l

theorem after_look (l : Load τ) (ms : List (Moment τ)) : l.after (.look :: ms) = l.after ms := rfl

theorem foldl_receive_callback (es : List (LoadEvent τ)) (c : Callback τ) :
    es.foldl receive (.callback c) = .callback (es.foldl Callback.receive c) := by
  induction es generalizing c with
  | nil => rfl
  | cons e rest ih => exact ih _

theorem foldl_receive_future (es : List (LoadEvent τ)) (f : Future τ) :
    es.foldl receive (.future f) = .future (es.foldl Future.receive f) := by
  induction es generalizing f with
  | nil => rfl
  | cons e rest ih => exact ih _

theorem foldl_receive_dual (es : List (LoadEvent τ)) (c : Callback τ) (f : Future τ) :
    es.foldl receive (.dual c f) =
      .dual (es.foldl Callback.receive c) (es.foldl Future.receive f) := by
  induction es generalizing c f with
  | nil => rfl
  | cons e rest ih => exact ih _ _

theorem poll_dual (c : Callback τ) (f : Future τ) :
    (Load.dual c f).poll = f.poll.or (c.poll.filter (·.isOk)) := by
  cases f <;> cases c <;> rfl

theorem poll_callback_after (ms : List (Moment τ)) :
    ((Load.callback .held).after ms).poll = (Moment.events ms).findSome? LoadEvent.callback? := by
  rw [after, foldl_receive_callback]
  exact Callback.poll_foldl_receive ..

theorem poll_future_after (ms : List (Moment τ)) :
    ((Load.future .pending).after ms).poll = (Moment.events ms).findSome? LoadEvent.future? := by
  rw [after, foldl_receive_future]
  exact Future.poll_foldl_receive ..

theorem poll_dual_after (ms : List (Moment τ)) :
    ((Load.dual .held .pending).after ms).poll = LoadEvent.decision (Moment.events ms) := by
  rw [after, foldl_receive_dual, poll_dual, Future.poll_foldl_receive, Callback.poll_foldl_receive]
  rfl

end Load

-- ---------------------------------------------------------------------------
-- What a load is fixed to
-- ---------------------------------------------------------------------------

/-- The first look that finds a load settled finds this. -/
def Load.Settles (l : Load τ) (ms : List (Moment τ)) (r : LoadResult τ) : Prop :=
  ∃ before rest, ms = before ++ .look :: rest ∧ (l.after before).poll = some r ∧
    ∀ a b, before = a ++ .look :: b → (l.after a).poll = none

namespace Load

variable {l : Load τ} {ms : List (Moment τ)} {r : LoadResult τ}

theorem not_settles_nil : ¬ l.Settles [] r := by
  rintro ⟨before, rest, h, -⟩
  simp at h

theorem settles_event (e : LoadEvent τ) :
    l.Settles (.event e :: ms) r ↔ (l.receive e).Settles ms r := by
  constructor
  · rintro ⟨before, rest, h, hr, hb⟩
    cases before with
    | nil => cases h
    | cons m before =>
      obtain ⟨rfl, rfl⟩ := List.cons_eq_cons.mp h
      exact ⟨before, rest, rfl, hr, fun a b hab => hb (.event e :: a) b (by rw [hab]; rfl)⟩
  · rintro ⟨before, rest, rfl, hr, hb⟩
    refine ⟨.event e :: before, rest, rfl, hr, fun a b hab => ?_⟩
    cases a with
    | nil => cases hab
    | cons m a =>
      obtain ⟨rfl, rfl⟩ := List.cons_eq_cons.mp hab
      exact hb a b rfl

theorem settles_look_of_some {found : LoadResult τ} (h : l.poll = some found) :
    l.Settles (.look :: ms) r ↔ found = r := by
  constructor
  · rintro ⟨before, rest, hms, hr, hb⟩
    cases before with
    | nil => exact Option.some.inj (h.symm.trans hr)
    | cons m before =>
      obtain ⟨rfl, -⟩ := List.cons_eq_cons.mp hms
      cases h.symm.trans (hb [] before rfl)
  · rintro rfl
    exact ⟨[], ms, rfl, h, fun a b hab => by simp at hab⟩

theorem settles_look_of_none (h : l.poll = none) :
    l.Settles (.look :: ms) r ↔ l.Settles ms r := by
  constructor
  · rintro ⟨before, rest, hms, hr, hb⟩
    cases before with
    | nil => cases h.symm.trans hr
    | cons m before =>
      obtain ⟨rfl, rfl⟩ := List.cons_eq_cons.mp hms
      exact ⟨before, rest, rfl, hr, fun a b hab => hb (.look :: a) b (by rw [hab]; rfl)⟩
  · rintro ⟨before, rest, rfl, hr, hb⟩
    refine ⟨.look :: before, rest, rfl, hr, fun a b hab => ?_⟩
    cases a with
    | nil => exact h
    | cons m a =>
      obtain ⟨rfl, rfl⟩ := List.cons_eq_cons.mp hab
      exact hb a b rfl

end Load

namespace Shared

def callback : Shared τ := ⟨.callback .held, none⟩

def future : Shared τ := ⟨.future .pending, none⟩

theorem poll_of_none (l : Load τ) : (⟨l, none⟩ : Shared τ).poll.2 = ⟨l, l.poll⟩ := by
  cases h : l.poll <;> simp [poll, h]

theorem result_after_iff (ms : List (Moment τ)) (l : Load τ) (r : LoadResult τ) :
    ((⟨l, none⟩ : Shared τ).after ms).result = some r ↔ l.Settles ms r := by
  induction ms generalizing l with
  | nil => simp [after, Load.not_settles_nil]
  | cons m rest ih =>
    rw [after_cons]
    cases m with
    | event e => rw [Load.settles_event, ← ih]; rfl
    | look =>
      rw [pass, poll_of_none]
      cases h : l.poll with
      | none => rw [Load.settles_look_of_none h, ih]
      | some found => rw [Load.settles_look_of_some h, result_after rfl, Option.some_inj]

theorem load_after (s : Shared τ) (ms : List (Moment τ)) : (s.after ms).load = s.load.after ms := by
  induction ms generalizing s with
  | nil => rfl
  | cons m rest ih =>
    rw [after_cons, ih]
    cases m with
    | event e => rfl
    | look =>
      obtain ⟨l, result⟩ := s
      cases result with
      | some r => rfl
      | none => rw [pass, poll_of_none, Load.after_look]

/-- A look gives what the load is fixed to, or else what its sides have settled. -/
theorem poll_eq (s : Shared τ) : s.poll.1 = s.result.or s.load.poll := by
  obtain ⟨l, result⟩ := s
  cases result with
  | some r => rfl
  | none => cases h : l.poll <;> simp [poll, h]

theorem result_poll (s : Shared τ) : s.poll.2.result = s.poll.1 := by
  obtain ⟨l, result⟩ := s
  cases result with
  | some r => rfl
  | none => rw [poll_of_none, poll_eq, Option.none_or]

theorem result_congr {l l' : Load τ} {ms : List (Moment τ)}
    (h : ∀ a b, ms = a ++ b → (l.after a).poll = (l'.after a).poll) :
    ((⟨l, none⟩ : Shared τ).after ms).result = ((⟨l', none⟩ : Shared τ).after ms).result := by
  have settles {r : LoadResult τ} : l.Settles ms r ↔ l'.Settles ms r := by
    constructor
    · rintro ⟨before, rest, rfl, hr, hb⟩
      exact ⟨before, rest, rfl, (h _ _ rfl).symm.trans hr, fun a b hab =>
        (h a (.look :: b ++ .look :: rest) (by simp [hab])).symm.trans (hb a b hab)⟩
    · rintro ⟨before, rest, rfl, hr, hb⟩
      exact ⟨before, rest, rfl, (h _ _ rfl).trans hr, fun a b hab =>
        (h a (.look :: b ++ .look :: rest) (by simp [hab])).trans (hb a b hab)⟩
  ext r
  rw [result_after_iff, result_after_iff, settles]

/-- A look finds what the first look finds that finds anything, and that may be itself. -/
theorem poll_after_iff (ms : List (Moment τ)) (l : Load τ) (r : LoadResult τ) :
    ((⟨l, none⟩ : Shared τ).after ms).poll.1 = some r ↔ l.Settles (ms ++ [.look]) r := by
  rw [← result_after_iff, after_append, ← result_poll]
  rfl

theorem poll_after_of_stable {l : Load τ}
    (h : ∀ a b r, (l.after a).poll = some r → (l.after (a ++ b)).poll = some r)
    (ms : List (Moment τ)) : ((⟨l, none⟩ : Shared τ).after ms).poll.1 = (l.after ms).poll := by
  rw [poll_eq, load_after]
  cases hr : ((⟨l, none⟩ : Shared τ).after ms).result with
  | none => rfl
  | some r =>
    obtain ⟨before, rest, rfl, hb, -⟩ := (result_after_iff ms l r).mp hr
    exact (h before (.look :: rest) r hb).symm

theorem poll_callback_after (ms : List (Moment τ)) :
    (callback.after ms).poll.1 = (Moment.events ms).findSome? LoadEvent.callback? := by
  rw [← Load.poll_callback_after]
  refine poll_after_of_stable (fun a b r h => ?_) ms
  rw [Load.poll_callback_after] at h ⊢
  rw [Moment.events_append, List.findSome?_append, h, Option.some_or]

theorem poll_future_after (ms : List (Moment τ)) :
    (future.after ms).poll.1 = (Moment.events ms).findSome? LoadEvent.future? := by
  rw [← Load.poll_future_after]
  refine poll_after_of_stable (fun a b r h => ?_) ms
  rw [Load.poll_future_after] at h ⊢
  rw [Moment.events_append, List.findSome?_append, h, Option.some_or]

theorem both_after_of_uncalled {ms : List (Moment τ)} (h : ∀ value, .event (.call value) ∉ ms) :
    (both.after ms).result = (future.after ms).result ∧
      (both.after ms).poll.1 = (future.after ms).poll.1 := by
  have same (a b : List (Moment τ)) (hab : ms = a ++ b) :
      ((Load.dual .held .pending).after a).poll = ((Load.future .pending).after a).poll := by
    rw [Load.poll_dual_after, Load.poll_future_after]
    refine LoadEvent.decision_of_uncalled fun value hv => h value ?_
    exact hab ▸ List.mem_append_left b (Moment.mem_events.mp hv)
  have result : (both.after ms).result = (future.after ms).result := result_congr same
  refine ⟨result, ?_⟩
  rw [poll_eq, poll_eq, result, load_after, load_after]
  exact congrArg _ (same ms [] (by simp))

end Shared

-- ---------------------------------------------------------------------------
-- Plans
-- ---------------------------------------------------------------------------

namespace Loads

variable {ω : Type} {ls : Loads ω τ} {i : Nat}

theorem slots_start_future (h : ls.slots[i]? = some .reserved) (work : Option ω) (f : Gated τ) :
    (ls.start i work (.future f)).slots[i]? = some (.started
      (Shared.future.after (Moment.atOnce f.outcome.ready f.gate)) (.ofOption work)) :=
  slots_schedule (slots_deliver h (.future .pending) work) f.outcome.ready f.gate

theorem slots_start_callback (h : ls.slots[i]? = some .reserved) (work : Option ω) (c : Gated τ) :
    (ls.start i work (.callback c)).slots[i]? = some (.started
      (Shared.callback.after (Moment.atOnce c.outcome.callback c.gate)) (.ofOption work)) :=
  slots_schedule (slots_deliver h (.callback .held) work) c.outcome.callback c.gate

/-- A dual loader that returns no future hands over a callback. One that it did not keep was
dropped. -/
theorem start_dual_without_future (ls : Loads ω τ) (i : Nat) (work : Option ω)
    (c : Option (Gated τ)) :
    ls.start i work (.dual c none) = ls.start i work (.callback (c.getD ⟨.abandoned, none⟩)) := by
  cases c <;> rfl

end Loads

open Shared in
/-- Every plan makes the same kind of load. A callback alone gives what its first use settles, and
so does that of a dual loader without a future. With both sides, and no call of the callback, a load
is the load of its future. In general the first look that finds a side settled decides, and finds
the future first. -/
theorem plans_agree :
    (∀ ms : List (Moment τ),
      (callback.after ms).poll.1 = (Moment.events ms).findSome? LoadEvent.callback?) ∧
    (∀ ms : List (Moment τ), (∀ value, .event (.call value) ∉ ms) →
      (both.after ms).result = (future.after ms).result ∧
        (both.after ms).poll.1 = (future.after ms).poll.1 ∧
        (future.after ms).poll.1 = (Moment.events ms).findSome? LoadEvent.future?) ∧
    (∀ (ms : List (Moment τ)) (r : LoadResult τ), (both.after ms).poll.1 = some r ↔
      ∃ before rest, ms ++ [.look] = before ++ .look :: rest ∧
        LoadEvent.decision (Moment.events before) = some r ∧
        ∀ a b, before = a ++ .look :: b → LoadEvent.decision (Moment.events a) = none) ∧
    ∀ {ω : Type} {ls : Loads ω τ} {i : Nat}, ls.slots[i]? = some .reserved → ∀ work : Option ω,
      (∀ c, (ls.start i work (.callback c)).slots[i]? = some (.started
        (callback.after (Moment.atOnce c.outcome.callback c.gate)) (.ofOption work))) ∧
      (∀ f, (ls.start i work (.future f)).slots[i]? = some (.started
        (future.after (Moment.atOnce f.outcome.ready f.gate)) (.ofOption work))) ∧
      (∀ c f, (ls.start i work (.dual c (some f))).slots[i]? = some (.started
        (both.after (Plan.atOnce c f)) (.ofOption work))) ∧
      ∀ c, ls.start i work (.dual c none) =
        ls.start i work (.callback (c.getD ⟨.abandoned, none⟩)) := by
  refine ⟨poll_callback_after, ?_, ?_, ?_⟩
  · intro ms h
    obtain ⟨result, look⟩ := both_after_of_uncalled h
    exact ⟨result, look, poll_future_after ms⟩
  · intro ms r
    rw [both, poll_after_iff]
    simp only [Load.Settles, Load.poll_dual_after]
  · intro ω ls i h work
    exact ⟨Loads.slots_start_callback h work, Loads.slots_start_future h work,
      Loads.slots_start_both h work, ls.start_dual_without_future i work⟩

/-- A dual loader drops its callback, and the future gets ready after a look. -/
theorem plans_agree_dropped :
    let ls : Loads Unit Nat := { slots := [.reserved] }
    let ms : List (Moment Nat) := [.event .drop, .look, .event (.ready (.ok (some 2)))]
    (ls.start 0 none (.dual none (some ⟨.template 2, some "gate"⟩))).slots[0]? =
        some (.started (Shared.both.after [.event .drop]) .absent) ∧
      (Shared.both.after ms).poll.1 = (Shared.future.after ms).poll.1 ∧
      (Shared.future.after ms).poll.1 = some (.ok (some 2)) := by
  intro ls ms
  obtain ⟨-, uncalled, -, started⟩ := plans_agree (τ := Nat)
  obtain ⟨-, look, found⟩ := uncalled ms (by simp [ms])
  obtain ⟨-, -, both, -⟩ := @started Unit ls 0 rfl none
  exact ⟨both none ⟨.template 2, some "gate"⟩, look, found⟩

end Stencil
