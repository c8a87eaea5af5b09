import Stencil.Loads

/-!
# Which side settles a load

A load with two sides is decided by the first look that finds one of them settled. So the side that
settles first wins if there is a look before the other one settles, and a future that is ready first
wins in any case. Of two sides that settle between two looks it is the future that counts, in
whatever order they did.
-/

namespace Stencil

variable {τ : Type}

/-- What happens to a load, one thing after the other: an event of a side, or a look at it. -/
inductive Moment (τ : Type)
  | event (e : LoadEvent τ)
  | look

namespace Moment

def delivers : Moment τ → Bool
  | .event (.call _) | .event (.ready _) => true
  | _ => false

def isReady : Moment τ → Bool
  | .event (.ready _) => true
  | _ => false

def isLook : Moment τ → Bool
  | .look => true
  | _ => false

end Moment

namespace Shared

def pass (s : Shared τ) : Moment τ → Shared τ
  | .event e => s.receive e
  | .look => s.poll.2

def after (s : Shared τ) (ms : List (Moment τ)) : Shared τ := ms.foldl pass s

def both : Shared τ := ⟨.dual .held .pending, none⟩

theorem after_append (s : Shared τ) (ms ns : List (Moment τ)) :
    s.after (ms ++ ns) = (s.after ms).after ns :=
  List.foldl_append

theorem after_cons (s : Shared τ) (m : Moment τ) (ms : List (Moment τ)) :
    s.after (m :: ms) = (s.pass m).after ms :=
  rfl

theorem result_after {s : Shared τ} {r : LoadResult τ} (h : s.result = some r)
    (ms : List (Moment τ)) : (s.after ms).result = some r := by
  induction ms generalizing s with
  | nil => exact h
  | cons m rest ih =>
    refine ih ?_
    cases m with
    | event e => exact h
    | look => simp [pass, poll, h]

-- ---------------------------------------------------------------------------
-- What a load stays like
-- ---------------------------------------------------------------------------

/-- Neither side has delivered; the callback may have been dropped. -/
inductive Open : Shared τ → Prop
  | held : Open ⟨.dual .held .pending, none⟩
  | dropped : Open ⟨.dual .dropped .pending, none⟩

/-- The callback was called, the future is not ready, and no look found anything else. -/
inductive Called (value : Option τ) : Shared τ → Prop
  | unseen : Called value ⟨.dual (.called value) .pending, none⟩
  | seen : Called value ⟨.dual (.called value) .pending, some (.ok value)⟩

/-- The future is ready, and no look found anything else. -/
inductive Ready (r : LoadResult τ) : Shared τ → Prop
  | unseen (c : Callback τ) : Ready r ⟨.dual c (.ready r), none⟩
  | seen (c : Callback τ) : Ready r ⟨.dual c (.ready r), some r⟩

theorem Open.after {s : Shared τ} (hs : s.Open) {ms : List (Moment τ)}
    (h : ∀ m ∈ ms, m.delivers = false) : (s.after ms).Open := by
  induction ms generalizing s with
  | nil => exact hs
  | cons m rest ih =>
    obtain ⟨hm, hr⟩ := List.forall_mem_cons.mp h
    refine ih ?_ hr
    cases m with
    | look => cases hs <;> constructor
    | event e =>
      cases e with
      | call value => cases hm
      | drop => cases hs <;> exact .dropped
      | ready r => cases hm

theorem Open.ready {s : Shared τ} (hs : s.Open) (r : LoadResult τ) :
    (s.pass (.event (.ready r))).Ready r := by
  cases hs <;> exact .unseen _

theorem both_after {ms : List (Moment τ)} (h : ∀ m ∈ ms, m.isLook = true) :
    both.after ms = both := by
  induction ms with
  | nil => rfl
  | cons m rest ih =>
    obtain ⟨hm, hr⟩ := List.forall_mem_cons.mp h
    cases m with
    | look => exact ih hr
    | event e => cases hm

theorem Called.after {s : Shared τ} {value : Option τ} (hs : s.Called value) {ms : List (Moment τ)}
    (h : ∀ m ∈ ms, m.isReady = false) : (s.after ms).Called value := by
  induction ms generalizing s with
  | nil => exact hs
  | cons m rest ih =>
    obtain ⟨hm, hr⟩ := List.forall_mem_cons.mp h
    refine ih ?_ hr
    cases m with
    | look => cases hs <;> exact .seen
    | event e =>
      cases e with
      | call value => cases hs <;> constructor
      | drop => cases hs <;> constructor
      | ready r => cases hm

theorem Ready.after {s : Shared τ} {r : LoadResult τ} (hs : s.Ready r) (ms : List (Moment τ)) :
    (s.after ms).Ready r := by
  induction ms generalizing s with
  | nil => exact hs
  | cons m rest ih =>
    refine ih ?_
    cases m with
    | look => cases hs <;> exact .seen _
    | event e => cases hs <;> constructor

theorem Called.look {s : Shared τ} {value : Option τ} (hs : s.Called value)
    (rest : List (Moment τ)) : (s.after (.look :: rest)).result = some (.ok value) :=
  result_after (by cases hs <;> rfl) rest

theorem Ready.look {s : Shared τ} {r : LoadResult τ} (hs : s.Ready r) (rest : List (Moment τ)) :
    (s.after (.look :: rest)).result = some r :=
  result_after (by cases hs <;> rfl) rest

/-- Between two looks a call of the callback is all that there is of it. -/
theorem called_after {value : Option τ} {ms : List (Moment τ)}
    (h : ∀ m ∈ ms, m.isLook = false ∧ m.isReady = false) :
    (⟨.dual (.called value) .pending, none⟩ : Shared τ).after ms =
      ⟨.dual (.called value) .pending, none⟩ := by
  induction ms with
  | nil => rfl
  | cons m rest ih =>
    obtain ⟨⟨hl, hm⟩, hr⟩ := List.forall_mem_cons.mp h
    cases m with
    | look => cases hl
    | event e =>
      cases e with
      | call other => exact ih hr
      | drop => exact ih hr
      | ready r => cases hm

end Shared

-- ---------------------------------------------------------------------------
-- Loads with both sides
-- ---------------------------------------------------------------------------

def Moment.atOnce (e : LoadEvent τ) : Option String → List (Moment τ)
  | none => [.event e]
  | some _ => []

/-- What happens to a load with both sides when it is handed over: first to its callback, which is
dropped if the loader does not keep it, and then to its future. -/
def Plan.atOnce (c : Option (Gated τ)) (f : Gated τ) : List (Moment τ) :=
  (match c with
    | some c => Moment.atOnce c.outcome.callback c.gate
    | none => [.event .drop]) ++ Moment.atOnce f.outcome.ready f.gate

namespace Loads

variable {ω : Type} {ls : Loads ω τ} {i : Nat}

theorem slots_deliver (h : ls.slots[i]? = some .reserved) (load : Load τ) (work : Option ω) :
    (ls.deliver i load work).slots[i]? = some (.started ⟨load, none⟩ (.ofOption work)) := by
  simp [deliver, update, h]

theorem slots_schedule {s : Shared τ} {k : Worker ω} (h : ls.slots[i]? = some (.started s k))
    (e : LoadEvent τ) (gate : Option String) :
    (ls.schedule i e gate).slots[i]? = some (.started (s.after (Moment.atOnce e gate)) k) := by
  cases gate with
  | none =>
    simp only [schedule, update, List.getElem?_modify_eq, h]
    rfl
  | some gate => exact h

theorem slots_start_both (h : ls.slots[i]? = some .reserved) (work : Option ω)
    (c : Option (Gated τ)) (f : Gated τ) :
    (ls.start i work (.dual c (some f))).slots[i]? =
      some (.started (Shared.both.after (Plan.atOnce c f)) (.ofOption work)) := by
  have hd := slots_deliver h (.dual .held .pending) work
  cases c with
  | none =>
    rw [Plan.atOnce, Shared.after_append]
    exact slots_schedule (slots_schedule hd .drop none) f.outcome.ready f.gate
  | some c =>
    rw [Plan.atOnce, Shared.after_append]
    exact slots_schedule (slots_schedule hd c.outcome.callback c.gate) f.outcome.ready f.gate

end Loads

-- ---------------------------------------------------------------------------
-- Who wins
-- ---------------------------------------------------------------------------

open Shared

/-- Which side of a load decides it. A callback that is called first wins as soon as it is looked at
before the future is ready, and a future that is ready first wins. If the callback is called and the
future gets ready without a look between them, the future decides. -/
theorem first_side_decides :
    (∀ (looks : List (Moment τ)) (value : Option τ) (between rest : List (Moment τ)),
      (∀ m ∈ looks, m.isLook = true) → (∀ m ∈ between, m.isReady = false) →
        (both.after (looks ++ .event (.call value) :: (between ++ .look :: rest))).result =
          some (.ok value)) ∧
    (∀ (before : List (Moment τ)) (r : LoadResult τ) (between rest : List (Moment τ)),
      (∀ m ∈ before, m.delivers = false) →
        (both.after (before ++ .event (.ready r) :: (between ++ .look :: rest))).result = some r) ∧
    (∀ (looks : List (Moment τ)) (value : Option τ) (unseen : List (Moment τ)) (r : LoadResult τ)
      (between rest : List (Moment τ)), (∀ m ∈ looks, m.isLook = true) →
      (∀ m ∈ unseen, m.isLook = false ∧ m.isReady = false) →
        (both.after (looks ++ .event (.call value) ::
          (unseen ++ .event (.ready r) :: (between ++ .look :: rest)))).result = some r) ∧
    ∀ {ω : Type} {ls : Loads ω τ} {i : Nat}, ls.slots[i]? = some .reserved →
      ∀ (work : Option ω) (c : Option (Gated τ)) (f : Gated τ),
        (ls.start i work (.dual c (some f))).slots[i]? =
          some (.started (both.after (Plan.atOnce c f)) (.ofOption work)) := by
  refine ⟨?_, ?_, ?_, fun h work c f => Loads.slots_start_both h work c f⟩
  · intro looks value between rest hlooks hbetween
    rw [after_append, both_after hlooks, after_cons, after_append]
    exact (Called.unseen.after hbetween).look rest
  · intro before r between rest hbefore
    have ready := (Open.held.after hbefore).ready r
    rw [after_append, after_cons, after_append]
    exact (ready.after between).look rest
  · intro looks value unseen r between rest hlooks hunseen
    rw [after_append, both_after hlooks, after_cons, after_append]
    rw [show both.pass (.event (.call value)) = ⟨.dual (.called value) .pending, none⟩ from rfl,
      called_after hunseen, after_cons, after_append]
    exact ((Ready.unseen _).after between).look rest

/-- A callback that is called first, and looked at before the future is ready. -/
theorem first_side_decides_seen :
    ((both : Shared Nat).after [.look, .event (.call (some 1)), .look,
      .event (.ready (.ok (some 2))), .look]).result = some (.ok (some 1)) :=
  first_side_decides.1 [.look] (some 1) [] [.event (.ready (.ok (some 2))), .look]
    (by simp [Moment.isLook]) (by simp)

/-- A callback that is called first may lose all the same. -/
theorem called_first_overruled :
    ¬ ∀ (looks : List (Moment Nat)) (value : Option Nat) (later : List (Moment Nat)),
      (∀ m ∈ looks, m.isLook = true) →
        (both.after (looks ++ .event (.call value) :: (later ++ [.look]))).result =
          some (.ok value) := by
  intro h
  cases h [] (some 1) [.event (.ready (.ok (some 2)))] (by simp)

end Stencil
