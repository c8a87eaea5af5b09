import Stencil.Markup.Filter

/-!
# Values that refer to no hidden helper

A value may hold a function, and with it the name of a helper. Operators, filters and all else that
makes values out of values takes over what they refer to and adds nothing.
-/

namespace Stencil.Markup

variable {hidden : String → Prop}

theorem bind_eq_ok {α β ε : Type} {x : Except ε α} {f : α → Except ε β} {b : β} :
    x >>= f = .ok b ↔ ∃ a, x = .ok a ∧ f a = .ok b := by
  cases x <;> simp [bind, Except.bind]

/-- No part of a value is a helper of a hidden name. -/
inductive Datum.Free (hidden : String → Prop) : Datum → Prop
  | undefined (quiet : Bool) : Free hidden (.undefined quiet)
  | none : Free hidden .none
  | bool (b : Bool) : Free hidden (.bool b)
  | int (i : Int) : Free hidden (.int i)
  | float (x : Extended) : Free hidden (.float x)
  | string (safe : Bool) (s : String) : Free hidden (.string safe s)
  | list {computed : Bool} {items : List Datum} (h : ∀ d ∈ items, Free hidden d) :
      Free hidden (.list computed items)
  | map {label : Option String} {entries : List (Datum × Datum)}
      (hk : ∀ e ∈ entries, Free hidden e.1) (hv : ∀ e ∈ entries, Free hidden e.2) :
      Free hidden (.map label entries)
  | helper {name : String} (h : ¬ hidden name) : Free hidden (.function (.helper name))
  | range : Free hidden (.function .range)

namespace Datum

theorem free_text (s : String) : (text s).Free hidden := .string _ _

theorem free_missing : missing.Free hidden := .undefined _

theorem free_list_iff {computed : Bool} {items : List Datum} :
    (list computed items).Free hidden ↔ ∀ d ∈ items, d.Free hidden :=
  ⟨fun h => by cases h with | list h => exact h, .list⟩

theorem free_map_iff {label : Option String} {entries : List (Datum × Datum)} :
    (map label entries).Free hidden ↔ ∀ e ∈ entries, e.1.Free hidden ∧ e.2.Free hidden :=
  ⟨fun h e he => by cases h with | map hk hv => exact ⟨hk e he, hv e he⟩,
    fun h => .map (fun e he => (h e he).1) fun e he => (h e he).2⟩

theorem mem_insertEntry {key v : Datum} {entries : List (Datum × Datum)} {e : Datum × Datum}
    (h : e ∈ insertEntry key v entries) :
    e = (key, v) ∨ e ∈ entries ∨ ∃ w, (e.1, w) ∈ entries ∧ e.2 = v := by
  induction entries with
  | nil => exact .inl (List.mem_singleton.mp h)
  | cons first rest ih =>
    obtain ⟨k, w⟩ := first
    simp only [insertEntry] at h
    split at h
    · rcases List.mem_cons.mp h with rfl | h
      · exact .inl rfl
      · exact .inr (.inl h)
    · rcases List.mem_cons.mp h with rfl | h
      · exact .inr (.inr ⟨w, List.mem_cons_self .., rfl⟩)
      · exact .inr (.inl (List.mem_cons_of_mem _ h))
    · rcases List.mem_cons.mp h with rfl | h
      · exact .inr (.inl (List.mem_cons_self ..))
      · rcases ih h with rfl | h | ⟨w', h, hv⟩
        · exact .inl rfl
        · exact .inr (.inl (List.mem_cons_of_mem _ h))
        · exact .inr (.inr ⟨w', List.mem_cons_of_mem _ h, hv⟩)

theorem free_insertEntry {key v : Datum} {entries : List (Datum × Datum)}
    (hk : key.Free hidden) (hv : v.Free hidden)
    (h : ∀ e ∈ entries, e.1.Free hidden ∧ e.2.Free hidden) :
    ∀ e ∈ insertEntry key v entries, e.1.Free hidden ∧ e.2.Free hidden := by
  intro e he
  rcases mem_insertEntry he with rfl | he | ⟨w, he, hev⟩
  · exact ⟨hk, hv⟩
  · exact h e he
  · exact ⟨(h _ he).1, hev ▸ hv⟩

theorem free_ofEntries {entries : List (Datum × Datum)}
    (h : ∀ e ∈ entries, e.1.Free hidden ∧ e.2.Free hidden) : (ofEntries entries).Free hidden := by
  have kept (acc : List (Datum × Datum)) (hacc : ∀ e ∈ acc, e.1.Free hidden ∧ e.2.Free hidden) :
      ∀ e ∈ entries.foldl (fun es e => insertEntry e.1 e.2 es) acc,
        e.1.Free hidden ∧ e.2.Free hidden := by
    induction entries generalizing acc with
    | nil => exact hacc
    | cons e rest ih =>
      obtain ⟨he, hr⟩ := List.forall_mem_cons.mp h
      exact ih hr _ (free_insertEntry he.1 he.2 hacc)
  exact free_map_iff.mpr (kept [] (by simp))

theorem free_of_entry? {key d : Datum} {entries : List (Datum × Datum)}
    (h : ∀ e ∈ entries, e.1.Free hidden ∧ e.2.Free hidden) (hd : entry? key entries = some d) :
    d.Free hidden := by
  induction entries with
  | nil => cases hd
  | cons first rest ih =>
    obtain ⟨k, v⟩ := first
    obtain ⟨he, hr⟩ := List.forall_mem_cons.mp h
    simp only [ entry?] at hd
    split at hd
    · cases hd
      exact he.2
    · exact ih hr hd

mutual

theorem free_ofValue : ∀ v : Value, (ofValue v).Free hidden
  | .null => .none
  | .bool b => .bool b
  | .number (.int i) => .int i
  | .number (.float x) => .float _
  | .string s => free_text s
  | .array items => .list (free_ofValues items)
  | .object entries => free_map_iff.mpr (free_insertValues [] entries (by simp))

theorem free_ofValues : ∀ vs : List Value, ∀ d ∈ ofValues vs, d.Free hidden
  | [] => by simp [ofValues]
  | v :: rest => by
    rw [ofValues, List.forall_mem_cons]
    exact ⟨free_ofValue v, free_ofValues rest⟩

theorem free_insertValues : ∀ (acc : List (Datum × Datum)) (entries : List (String × Value)),
    (∀ e ∈ acc, e.1.Free hidden ∧ e.2.Free hidden) →
      ∀ e ∈ insertValues acc entries, e.1.Free hidden ∧ e.2.Free hidden
  | acc, [], h => by rwa [insertValues]
  | acc, (key, v) :: rest, h => by
    rw [insertValues]
    exact free_insertValues _ rest (free_insertEntry (free_text key) (free_ofValue v) h)

end

end Datum

open Datum

-- ---------------------------------------------------------------------------
-- Operators
-- ---------------------------------------------------------------------------

namespace Operator

variable {a b d : Datum}

theorem free_attribute? (ha : a.Free hidden) {name : String} (h : attribute? a name = some d) :
    d.Free hidden := by
  unfold attribute? at h
  split at h
  · exact free_of_entry? (free_map_iff.mp ha) h
  · cases h

theorem free_item? (ha : a.Free hidden) {key : Datum} (h : item? a key = some d) :
    d.Free hidden := by
  unfold item? at h
  split at h
  · obtain ⟨i, -, hi⟩ := Option.bind_eq_some_iff.mp h
    exact free_list_iff.mp ha d (List.mem_of_getElem? hi)
  · obtain ⟨i, -, hi⟩ := Option.bind_eq_some_iff.mp h
    obtain ⟨c, -, rfl⟩ := Option.map_eq_some_iff.mp hi
    exact free_text _
  · exact free_of_entry? (free_map_iff.mp ha) h
  · cases h

theorem free_whole {i : Int} (h : whole i = .ok d) : d.Free hidden := by
  unfold whole at h
  split at h
  · cases h
    exact .int i
  · cases h

theorem free_floats {f : Extended → Extended → Extended} {x y : Extended}
    (h : floats f x y = .ok d) : d.Free hidden := by
  cases h
  exact .float _

theorem free_arithmetic {ints : Int → Int → Result} {floats : Extended → Extended → Result}
    (hi : ∀ i j d, ints i j = .ok d → d.Free hidden)
    (hf : ∀ x y d, floats x y = .ok d → d.Free hidden) (h : arithmetic ints floats a b = .ok d) :
    d.Free hidden := by
  unfold arithmetic at h
  split at h
  · split at h
    · split at h
      · exact hi _ _ _ h
      · exact hf _ _ _ h
    · cases h
  · cases h

theorem free_add (ha : a.Free hidden) (hb : b.Free hidden) (h : add a b = .ok d) :
    d.Free hidden := by
  unfold add at h
  split at h
  · cases h
    exact .list (List.forall_mem_append.mpr ⟨free_list_iff.mp ha, free_list_iff.mp hb⟩)
  · cases h
    exact free_text _
  · exact free_arithmetic (fun _ _ _ => free_whole) (fun _ _ _ => free_floats) h

theorem free_repeated {f : Nat → Datum} (hf : ∀ n, (f n).Free hidden) (h : repeated a f = .ok d) :
    d.Free hidden := by
  unfold repeated at h
  split at h
  · cases h
    exact hf _
  · cases h

theorem free_multiply (ha : a.Free hidden) (hb : b.Free hidden) (h : multiply a b = .ok d) :
    d.Free hidden := by
  have copies {items : List Datum} (hi : ∀ d ∈ items, d.Free hidden) (n : Nat) :
      (Datum.list true (List.replicate n items).flatten).Free hidden := by
    refine .list fun d hd => ?_
    obtain ⟨l, hl, hd⟩ := List.mem_flatten.mp hd
    exact hi d (List.eq_of_mem_replicate hl ▸ hd)
  unfold multiply at h
  simp only at h
  split at h
  · cases h
  · exact free_repeated (fun n => free_text _) h
  · exact free_repeated (fun n => free_text _) h
  · exact free_repeated (copies (free_list_iff.mp ha)) h
  · exact free_repeated (copies (free_list_iff.mp hb)) h
  · exact free_arithmetic (fun _ _ _ => free_whole) (fun _ _ _ => free_floats) h

theorem free_ite_whole {i : Int} (c : Prop) [Decidable c]
    (h : (if c then invalid else whole i : Result) = .ok d) : d.Free hidden := by
  split at h
  · cases h
  · exact free_whole h

theorem free_powerWhole {i j : Int} (h : powerWhole i j = .ok d) : d.Free hidden := by
  unfold powerWhole at h
  split at h
  · cases h
  · split at h
    · exact free_whole h
    · split at h
      · cases h
      · exact free_whole h

theorem free_power (h : power a b = .ok d) : d.Free hidden := by
  refine free_arithmetic (fun _ _ _ => free_powerWhole) (fun x y d h => ?_) h
  split at h
  · split at h
    · cases h
      exact .float _
    · cases h
  · cases h

theorem free_binary {op : Binary} (ha : a.Free hidden) (hb : b.Free hidden)
    (h : binary op a b = .ok d) : d.Free hidden := by
  cases op <;> simp only [binary] at h
  case add => exact free_add ha hb h
  case subtract => exact free_arithmetic (fun _ _ _ => free_whole) (fun _ _ _ => free_floats) h
  case multiply => exact free_multiply ha hb h
  case divide =>
    refine free_arithmetic (fun _ _ _ h => ?_) (fun _ _ _ => free_floats) h
    cases h
    exact .float _
  case floorDivide =>
    exact free_arithmetic (fun _ _ _ => free_ite_whole _) (fun _ _ _ => free_floats) h
  case remainder =>
    exact free_arithmetic (fun _ _ _ => free_ite_whole _) (fun _ _ _ => free_floats) h
  case power => exact free_power h
  case concat =>
    cases h
    exact free_text _

theorem free_negate (h : negate a = .ok d) : d.Free hidden := by
  unfold negate at h
  split at h
  · exact free_whole h
  · cases h
    exact .float _
  · cases h

theorem mem_of_mem_everyNth {α : Type} {step : Nat} {items : List α} {i : Nat} {x : α}
    (h : x ∈ everyNth step i items) : x ∈ items := by
  induction items generalizing i with
  | nil => cases i <;> exact h
  | cons y rest ih =>
    cases i with
    | zero =>
      rcases List.mem_cons.mp h with rfl | h
      · exact List.mem_cons_self ..
      · exact List.mem_cons_of_mem _ (ih h)
    | succ n => exact List.mem_cons_of_mem _ (ih h)

theorem mem_of_mem_sliced {α : Type} {items : List α} {start stop : Option Int} {step : Int} {x : α}
    (h : x ∈ sliced items start stop step) : x ∈ items := by
  unfold sliced at h
  split at h
  · exact List.mem_of_mem_take (List.mem_of_mem_drop (mem_of_mem_everyNth h))
  · have h := List.mem_reverse.mp (mem_of_mem_everyNth h)
    exact List.mem_of_mem_take (List.mem_of_mem_drop h)

theorem free_slice {start stop step : Datum} (ha : a.Free hidden)
    (h : slice a start stop step = .ok d) : d.Free hidden := by
  unfold slice at h
  obtain ⟨low, -, h⟩ := bind_eq_ok.mp h
  obtain ⟨high, -, h⟩ := bind_eq_ok.mp h
  obtain ⟨stride, -, h⟩ := bind_eq_ok.mp h
  simp only at h
  split at h
  · cases h
  · split at h
    · cases h
      exact .list (by simp)
    · cases h
      exact .list (by simp)
    · cases h
      exact free_text _
    · cases h
      exact .list fun x hx => free_list_iff.mp ha x (mem_of_mem_sliced hx)
    · cases h

end Operator

-- ---------------------------------------------------------------------------
-- Filters and the function `range`
-- ---------------------------------------------------------------------------

theorem Rules.free_elements {d : Datum} (hd : d.Free hidden) {items : List Datum}
    (h : Rules.elements d = .ok items) : ∀ item ∈ items, item.Free hidden := by
  unfold Rules.elements at h
  split at h
  · cases h
    simp
  · cases h
    simp
  · cases h
    exact free_list_iff.mp hd
  · cases h
    intro item hi
    obtain ⟨e, he, rfl⟩ := List.mem_map.mp hi
    exact (free_map_iff.mp hd e he).1
  · cases h
    intro item hi
    obtain ⟨c, -, rfl⟩ := List.mem_map.mp hi
    exact free_text _
  · cases h

theorem Rules.free_items {r : Rules} {d : Datum} (hd : d.Free hidden) {items : List Datum}
    (h : r.items d = .ok items) : ∀ item ∈ items, item.Free hidden := by
  obtain ⟨-, -, h⟩ := bind_eq_ok.mp h
  exact free_elements hd h

namespace Filter

variable {r : Rules} {d result : Datum} {args : List Datum}

theorem free_limited {n : Nat} {rest : Except Fault Datum}
    (h : (limited n args >>= fun _ => rest) = .ok result) : rest = .ok result :=
  (bind_eq_ok.mp h).choose_spec.2

theorem free_escape (hd : d.Free hidden) (h : escape r d = .ok result) : result.Free hidden := by
  unfold escape at h
  split at h
  · cases h
    exact hd
  · obtain ⟨s, -, h⟩ := bind_eq_ok.mp h
    cases h
    exact .string _ _

theorem free_length (h : length d = .ok result) : result.Free hidden := by
  unfold length at h
  split at h <;> cases h <;> exact .int _

theorem free_rewritten {form : String → String} (h : rewritten r form d = .ok result) :
    result.Free hidden := by
  obtain ⟨s, -, h⟩ := bind_eq_ok.mp h
  cases h
  exact .string _ _

theorem free_headD (ha : ∀ a ∈ args, a.Free hidden) (s : String) :
    (args.headD (.text s)).Free hidden := by
  cases args with
  | nil => exact free_text s
  | cons a rest => exact ha a (List.mem_cons_self ..)

theorem free_default (hd : d.Free hidden) (ha : ∀ a ∈ args, a.Free hidden)
    (h : default r d args = .ok result) : result.Free hidden := by
  unfold default at h
  simp only at h
  split at h
  · cases h
    exact free_headD ha ""
  · split at h
    · cases h
      exact hd
    · obtain ⟨lax, -, h⟩ := bind_eq_ok.mp h
      cases h
      split
      · exact free_headD ha ""
      · exact hd

theorem free_join (h : join r d args = .ok result) : result.Free hidden := by
  obtain ⟨parts, -, h⟩ := bind_eq_ok.mp h
  split at h <;> cases h <;> exact .string _ _

theorem free_apply {name : String} (hd : d.Free hidden) (ha : ∀ a ∈ args, a.Free hidden)
    (h : apply r name d args = .ok result) : result.Free hidden := by
  unfold apply at h
  split at h
  · obtain ⟨s, -, h⟩ := bind_eq_ok.mp (free_limited h)
    cases h
    exact .string _ _
  · exact free_escape hd (free_limited h)
  · exact free_escape hd (free_limited h)
  · exact free_rewritten (free_limited h)
  · exact free_rewritten (free_limited h)
  · exact free_length (free_limited h)
  · exact free_length (free_limited h)
  · exact free_default hd ha (free_limited h)
  · exact free_default hd ha (free_limited h)
  · exact free_join (free_limited h)
  · cases h

theorem free_counted {start stop step : Int}
    (h : (do
      if step = 0 then throw .invalidOperation
      let count := stepCount start stop step
      if rangeLimit < count then throw .invalidOperation
      return .list true ((List.range count).map fun (i : Nat) => .int (start + i * step)) :
        Except Fault Datum) = .ok result) : result.Free hidden := by
  split at h
  · cases h
  · simp only at h
    split at h
    · cases h
    · cases h
      refine .list fun d hd => ?_
      obtain ⟨i, -, rfl⟩ := List.mem_map.mp hd
      exact .int _

theorem free_range (h : range args = .ok result) : result.Free hidden := by
  unfold range at h
  split at h
  · cases h
  · obtain ⟨first, -, h⟩ := bind_eq_ok.mp h
    obtain ⟨second, -, h⟩ := bind_eq_ok.mp h
    obtain ⟨step, -, h⟩ := bind_eq_ok.mp h
    replace h := free_limited h
    cases second with
    | none => exact free_counted h
    | some second => exact free_counted h

end Filter
end Stencil.Markup
