import Mathlib
import Stencil.Code
import Stencil.Collection
import Stencil.Proofs.Overlay

/-!
# Walks

A walk calls at its stops one after the other, in the state that the call before left, until a call
panics or the stops are done (`Served`). It goes by keys and values alone: an array is walked like
the object that holds its elements under their decimal indices, and as no two indices are written
alike, that object holds all of them (`walk_as_mapping`). This holds for calls of every kind, so
also for the code of templates (`run_walk_code`).
-/

namespace Stencil.Value

-- ---------------------------------------------------------------------------
-- Elements under their indices
-- ---------------------------------------------------------------------------

theorem keys_indexed (items : List Value) :
    (indexed items).keys = (List.range items.length).map toString := by
  apply List.ext_getElem
  · simp [indexed, Entries.keys]
  · intro i _ _
    simp [indexed, Entries.keys]

theorem nodup_keys_indexed (items : List Value) : (indexed items).keys.Nodup := by
  rw [keys_indexed]
  exact List.nodup_range.map fun _ _ h => Nat.repr_inj.mp h

def WellKeyed : Value → Prop
  | .object entries => (Entries.keys entries).Nodup
  | _ => True

instance (v : Value) : Decidable v.WellKeyed :=
  match v with
  | .object entries => inferInstanceAs (Decidable (Entries.keys entries).Nodup)
  | .array _ | .null | .bool _ | .number _ | .string _ => .isTrue trivial

theorem WellKeyed.nodup_keys {v : Value} (h : v.WellKeyed) : v.entries.keys.Nodup := by
  cases v with
  | object entries => exact h
  | array items => exact nodup_keys_indexed items
  | null => exact List.nodup_nil
  | bool b => exact List.nodup_nil
  | number n => exact List.nodup_nil
  | string s => exact List.nodup_nil

-- ---------------------------------------------------------------------------
-- Calls at stops
-- ---------------------------------------------------------------------------

variable {σ : Type}

/-- One call at each stop, in order, each in the state that the one before it left. It ends with the
last stop, and then there are the texts that the calls gave; or with the first call that panics. -/
inductive Served (each : Visit → σ → Option String × σ) :
    List Visit → σ → List (Visit × σ) → Option (List String) → σ → Prop
  | done (s : σ) : Served each [] s [] (some []) s
  | panics {visit : Visit} {rest : List Visit} {s s' : σ} (h : each visit s = (none, s')) :
      Served each (visit :: rest) s [(visit, s)] none s'
  | goes {visit : Visit} {rest : List Visit} {s s' s'' : σ} {text : String}
      {calls : List (Visit × σ)} {texts : Option (List String)} (h : each visit s = (some text, s'))
      (left : Served each rest s' calls texts s'') :
      Served each (visit :: rest) s ((visit, s) :: calls) (texts.map (text :: ·)) s''

theorem exists_served (each : Visit → σ → Option String × σ) (stops : List Visit) (s : σ) :
    ∃ calls texts s', Served each stops s calls texts s' := by
  induction stops generalizing s with
  | nil => exact ⟨_, _, _, .done s⟩
  | cons visit rest ih =>
    rcases h : each visit s with ⟨_ | text, s'⟩
    · exact ⟨_, _, _, .panics h⟩
    · obtain ⟨calls, texts, s'', left⟩ := ih s'
      exact ⟨_, _, _, .goes h left⟩

def recorded (each : Visit → σ → Option String × σ) (visit : Visit) :
    List (Visit × σ) × σ → Option String × List (Visit × σ) × σ :=
  fun (calls, s) => ((each visit s).1, calls ++ [(visit, s)], (each visit s).2)

namespace Served

variable {each : Visit → σ → Option String × σ} {stops : List Visit} {s s' : σ}
  {calls : List (Visit × σ)} {texts : Option (List String)}

theorem calls_prefix_stops (h : Served each stops s calls texts s') :
    calls.map Prod.fst <+: stops := by
  induction h with
  | done => exact List.prefix_rfl
  | panics => exact ⟨_, rfl⟩
  | goes _ _ ih => exact List.cons_prefix_cons.mpr ⟨rfl, ih⟩

theorem calls_eq (h : Served each stops s calls texts s') (ht : texts.isSome) :
    calls.map Prod.fst = stops := by
  induction h with
  | done => rfl
  | panics => cases ht
  | goes _ _ ih =>
    rw [Option.isSome_map] at ht
    rw [List.map_cons, ih ht]

/-- Writing calls down makes no difference to them. -/
theorem written (h : Served each stops s calls texts s') (before : List (Visit × σ)) :
    ∃ taken, Served (recorded each) stops (before, s) taken texts (before ++ calls, s') := by
  induction h generalizing before with
  | done s =>
    rw [List.append_nil]
    exact ⟨_, .done _⟩
  | panics hv => exact ⟨_, .panics (by rw [recorded, hv])⟩
  | @goes visit _ s _ _ _ _ _ hv _ ih =>
    obtain ⟨taken, left⟩ := ih (before ++ [(visit, s)])
    rw [List.append_assoc, List.singleton_append] at left
    exact ⟨_, .goes (by rw [recorded, hv]) left⟩

end Served

-- ---------------------------------------------------------------------------
-- A walk serves its stops
-- ---------------------------------------------------------------------------

def stopsFrom (total index : Nat) (entries : Entries Value) : List Visit :=
  entries.mapIdx fun j e => ⟨e.1, index + j, total, e.2⟩

theorem stopsFrom_cons (total index : Nat) (e : String × Value) (rest : Entries Value) :
    stopsFrom total index (e :: rest) =
      ⟨e.1, index, total, e.2⟩ :: stopsFrom total (index + 1) rest := by
  have shift (j : Nat) : index + 1 + j = index + (j + 1) := by omega
  simp only [stopsFrom, List.mapIdx_cons, Nat.add_zero, shift]

theorem visits_eq_stopsFrom (v : Value) : v.visits = stopsFrom v.entries.length 0 v.entries := by
  simp only [visits, stopsFrom, Nat.zero_add]

section

variable {m : Type → Type} [Monad m] (run : m String → σ → Option String × σ)
  (done : ∀ out s, run (pure out) s = (some out, s))
  (goes : ∀ (c : m String) f s text s', run c s = (some text, s') →
    run (c >>= f) s = run (f text) s')
  (panics : ∀ (c : m String) f s s', run c s = (none, s') → run (c >>= f) s = (none, s'))
  {each : Visit → m String} {s s' : σ} {calls : List (Visit × σ)} {texts : Option (List String)}

include done goes panics

theorem run_walkEntries {entries : Entries Value} {total index : Nat}
    (h : Served (fun visit => run (each visit)) (stopsFrom total index entries) s calls texts s')
    (out : String) :
    run (walkEntries each total index out entries) s = (texts.map (out ++ String.join ·), s') := by
  induction entries generalizing index s calls texts out with
  | nil =>
    cases h
    rw [walkEntries, done, Option.map_some, String.join_nil, String.append_empty]
  | cons e rest ih =>
    obtain ⟨key, v⟩ := e
    rw [stopsFrom_cons] at h
    cases h with
    | panics hv => rw [walkEntries, panics _ _ _ _ hv, Option.map_none]
    | goes hv left =>
      rw [walkEntries, goes _ _ _ _ _ hv, ih left]
      simp only [Option.map_map, Function.comp_def, String.join_cons, String.append_assoc]

/-- Wherever calls run in a state and may panic, a walk serves its stops and gives their texts. -/
theorem run_walk {v : Value}
    (h : Served (fun visit => run (each visit)) v.visits s calls texts s') :
    run (v.walk each) s = (texts.map String.join, s') := by
  rw [visits_eq_stopsFrom] at h
  rw [walk_eq_walkEntries, run_walkEntries run done goes panics h]
  simp only [String.empty_append]

end

theorem run_walk_code {Ω : Type} (host : Host Ω σ) (helpers : Dispatcher σ)
    {each : Visit → Code Ω String} {v : Value} {s s' : σ} {calls : List (Visit × σ)}
    {texts : Option (List String)}
    (h : Served (fun visit => (each visit).run host helpers) v.visits s calls texts s') :
    (v.walk each).run host helpers s = (texts.map String.join, s') := by
  refine run_walk (Code.run host helpers) (fun _ _ => rfl) ?_ ?_ h
  · intro c f s text s' hc
    exact (c.run_bind host helpers f s).trans (by rw [hc])
  · intro c f s s' hc
    exact (c.run_bind host helpers f s).trans (by rw [hc])

-- ---------------------------------------------------------------------------
-- What is seen of a walk
-- ---------------------------------------------------------------------------

/-- The calls of a walk in order, each with the state in which it is made; what the walk gives,
which is nothing if a call panicked; and the state that it leaves. -/
structure Tour (σ : Type) where
  calls : List (Visit × σ)
  output : Option String
  state : σ

/-- Runs calls that may change a state and may panic. What they did before stays. -/
def running {τ α : Type} (c : OptionT (StateM τ) α) (t : τ) : Option α × τ := c.run.run t

theorem running_bind {τ α β : Type} (c : OptionT (StateM τ) α) (f : α → OptionT (StateM τ) β)
    (t : τ) : running (c >>= f) t =
      match running c t with
      | (some a, t) => running (f a) t
      | (none, t) => (none, t) := by
  unfold running
  rw [OptionT.run_bind, Option.elimM, StateT.run_bind]
  rcases c.run.run t with ⟨_ | a, t⟩ <;> rfl

def tour (v : Value) (each : Visit → σ → Option String × σ) (s : σ) : Tour σ :=
  let (output, calls, state) :=
    running (v.walk fun visit => OptionT.mk (recorded each visit)) ([], s)
  ⟨calls, output, state⟩

theorem tour_eq {v : Value} {each : Visit → σ → Option String × σ} {s s' : σ}
    {calls : List (Visit × σ)} {texts : Option (List String)}
    (h : Served each v.visits s calls texts s') :
    v.tour each s = ⟨calls, texts.map String.join, s'⟩ := by
  obtain ⟨_, served⟩ := h.written []
  have ran : running (v.walk fun visit => OptionT.mk (recorded each visit)) ([], s) =
      (texts.map String.join, [] ++ calls, s') := by
    refine run_walk running (fun _ _ => rfl) ?_ ?_ served
    · intro c f t text t' hc
      rw [running_bind, hc]
    · intro c f t t' hc
      rw [running_bind, hc]
  unfold tour
  simp only [ran, List.nil_append]

/-- An array is walked like the object that holds its elements, in order, under their decimal
indices: the calls are the same, in the same states, and so is what comes of them, also when one of
them panics. A walk calls at its stops in order: the stop of an entry has its key and value, its
index, and how many entries there are; no two stops have one key. It ends with the first call that
panics; if none does, all stops were called at, and the output is what the calls gave, in order. -/
theorem walk_as_mapping (each : Visit → σ → Option String × σ) (s : σ) :
    (∀ items : List Value, Entries.ofList (indexed items) = indexed items ∧
      (Value.array items).tour each s =
        (Value.object (Entries.ofList (indexed items))).tour each s) ∧
    ∀ v : Value, v.WellKeyed →
      let stops := v.entries.mapIdx fun i e => (⟨e.1, i, v.entries.length, e.2⟩ : Visit)
      let seen := v.tour each s
      (stops.map (·.key)).Nodup ∧
      (∃ texts, Served each stops s seen.calls texts seen.state ∧
        seen.output = texts.map String.join) ∧
      seen.calls.map Prod.fst <+: stops ∧
      (seen.output.isSome → seen.calls.map Prod.fst = stops) := by
  refine ⟨fun items => ?_, fun v hv => ?_⟩
  · have built := Entries.ofList_of_nodup (nodup_keys_indexed items)
    refine ⟨built, ?_⟩
    rw [built]
    obtain ⟨calls, texts, s', h⟩ := exists_served each (Value.array items).visits s
    rw [tour_eq h, tour_eq (v := .object (indexed items)) h]
  · intro stops seen
    obtain ⟨calls, texts, s', h⟩ := exists_served each v.visits s
    have seen_eq : seen = ⟨calls, texts.map String.join, s'⟩ := tour_eq h
    have keys : stops.map (·.key) = v.entries.keys := by
      apply List.ext_getElem
      · simp [stops, Entries.keys]
      · intro i _ _
        simp [stops, Entries.keys]
    rw [seen_eq, keys]
    refine ⟨hv.nodup_keys, ⟨texts, h, rfl⟩, h.calls_prefix_stops, fun ht => h.calls_eq ?_⟩
    rwa [Option.isSome_map] at ht

def thirdPanics (visit : Visit) (n : Nat) : Option String × Nat :=
  (if n = 2 then none else some (visit.key ++ ";"), n + 1)

theorem walk_as_mapping_page :
    let short := Value.object [("b", .null), ("a", .bool true)]
    let long := Value.array [.null, .null, .null, .null]
    let keyed := Value.object [("0", .null), ("1", .null), ("2", .null), ("3", .null)]
    short.WellKeyed ∧ (short.tour thirdPanics 0).output = some "b;a;" ∧
      (short.tour thirdPanics 0).calls.map Prod.fst =
        [⟨"b", 0, 2, .null⟩, ⟨"a", 1, 2, .bool true⟩] ∧
      (long.tour thirdPanics 0).output = none ∧ (long.tour thirdPanics 0).state = 3 ∧
      long.tour thirdPanics 0 = keyed.tour thirdPanics 0 := by
  intro short long keyed
  have distinct : short.WellKeyed := by decide
  obtain ⟨-, -, -, all⟩ := (walk_as_mapping thirdPanics 0).2 short distinct
  have same := ((walk_as_mapping thirdPanics 0).1 [.null, .null, .null, .null]).2
  exact ⟨distinct, by rfl, all (by rfl), by rfl, by rfl, same⟩

end Stencil.Value
