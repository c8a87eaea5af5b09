import Stencil.Entries

/-!
# Entries over entries

Setting entries over others keeps what is there in its place and puts what is new behind it: the
position of a name goes by its first setting (`keys_overlay`), and what it holds by its last
(`get?_overlay`). So entries that hold each name once may be set over one another in any grouping
(`overlay_overlay`).
-/

namespace Stencil.Entries

variable {α : Type} {es base mid upper : Entries α} {name other : String}

theorem overlay_cons (base : Entries α) (e : String × α) (rest : Entries α) :
    overlay base (e :: rest) = overlay (insert base e.1 e.2) rest := rfl

theorem keys_cons (e : String × α) (rest : Entries α) : keys (e :: rest) = e.1 :: keys rest := rfl

-- ---------------------------------------------------------------------------
-- Names
-- ---------------------------------------------------------------------------

/-- What is there stays in its place; new names stand behind it as they first come. -/
theorem keys_overlay (base upper : Entries α) : (overlay base upper).keys =
    base.keys ++ (upper.keys.filter fun name => name ∉ base.keys).eraseDups := by
  induction upper generalizing base with
  | nil => simp [overlay, keys]
  | cons e rest ih =>
    rw [overlay_cons, ih, keys_insert, keys_cons]
    by_cases he : e.1 ∈ base.keys
    · rw [if_pos he, List.filter_cons_of_neg (by simpa using he)]
    · rw [if_neg he, List.filter_cons_of_pos (by simpa using he), List.eraseDups_cons,
        List.filter_filter, List.append_assoc, List.singleton_append]
      congr 3
      apply List.filter_congr
      intro name _
      by_cases hn : name = e.1 <;> simp [hn]

theorem eraseDups_of_nodup {names : List String} (h : names.Nodup) : names.eraseDups = names := by
  induction names with
  | nil => rfl
  | cons name rest ih =>
    obtain ⟨hn, hr⟩ := List.nodup_cons.mp h
    have others : rest.filter (fun b => !b == name) = rest := by
      rw [List.filter_eq_self]
      intro b hb
      have : b ≠ name := ne_of_mem_of_not_mem hb hn
      simpa using this
    rw [List.eraseDups_cons, others, ih hr]

theorem keys_overlay_eq_eraseDups (hb : base.keys.Nodup) (upper : Entries α) :
    (overlay base upper).keys = (base.keys ++ upper.keys).eraseDups := by
  rw [keys_overlay, List.eraseDups_append, eraseDups_of_nodup hb]
  congr 2
  simp [List.removeAll]

theorem keys_overlay_of_nodup (base : Entries α) (hu : upper.keys.Nodup) :
    (overlay base upper).keys = base.keys ++ upper.keys.filter fun name => name ∉ base.keys := by
  rw [keys_overlay, eraseDups_of_nodup (hu.filter _)]

theorem nodup_keys_overlay (hb : base.keys.Nodup) (upper : Entries α) :
    (overlay base upper).keys.Nodup := by
  induction upper generalizing base with
  | nil => exact hb
  | cons e rest ih => exact ih (nodup_keys_insert hb e.1 e.2)

theorem mem_keys_overlay (base upper : Entries α) :
    name ∈ (overlay base upper).keys ↔ name ∈ base.keys ∨ name ∈ upper.keys := by
  rw [keys_overlay, List.mem_append, List.mem_eraseDups, List.mem_filter]
  by_cases h : name ∈ base.keys <;> simp [h]

-- ---------------------------------------------------------------------------
-- What is held under a name
-- ---------------------------------------------------------------------------

theorem get?_append (es upper : Entries α) (name : String) :
    get? (es ++ upper) name = (get? es name).or (get? upper name) := by
  induction es with
  | nil => rfl
  | cons e rest ih =>
    obtain ⟨k, a⟩ := e
    by_cases hk : k = name
    · simp [get?, hk]
    · simp [get?, hk, ih]

/-- What is set last under a name counts. -/
theorem get?_overlay (base upper : Entries α) (name : String) :
    get? (overlay base upper) name = (get? upper.reverse name).or (get? base name) := by
  induction upper generalizing base with
  | nil => rfl
  | cons e rest ih =>
    obtain ⟨k, a⟩ := e
    rw [overlay_cons, ih, get?_insert, List.reverse_cons, get?_append,
      Option.or_assoc]
    by_cases hk : k = name <;> simp [get?, hk]

theorem get?_reverse (h : es.keys.Nodup) (name : String) : get? es.reverse name = get? es name := by
  induction es with
  | nil => rfl
  | cons e rest ih =>
    obtain ⟨k, a⟩ := e
    obtain ⟨hk, hr⟩ := List.nodup_cons.mp h
    rw [List.reverse_cons, get?_append, ih hr]
    by_cases hn : k = name
    · have missed : get? rest k = none := (get?_eq_none_iff rest k).mpr hk
      subst hn
      simp [get?, missed]
    · simp [get?, hn]

theorem get?_eq_some_iff {a : α} : get? es name = some a ↔
    ∃ before after, es = before ++ (name, a) :: after ∧ name ∉ keys before := by
  induction es with
  | nil => simp [get?]
  | cons e rest ih =>
    obtain ⟨k, b⟩ := e
    constructor
    · intro h
      by_cases hk : k = name
      · subst hk
        obtain rfl : b = a := by simpa [get?] using h
        exact ⟨[], rest, rfl, List.not_mem_nil⟩
      · rw [get?, if_neg hk] at h
        obtain ⟨before, after, rfl, hn⟩ := ih.mp h
        refine ⟨(k, b) :: before, after, rfl, ?_⟩
        rw [keys_cons, List.mem_cons]
        exact fun hm => hm.elim (fun h => hk h.symm) hn
    · rintro ⟨before, after, he, hn⟩
      cases before with
      | nil =>
        cases he
        exact if_pos rfl
      | cons e before =>
        cases he
        rw [keys_cons, List.mem_cons, not_or] at hn
        rw [get?, if_neg (Ne.symm hn.1)]
        exact ih.mpr ⟨before, after, rfl, hn.2⟩

theorem get?_ofList_eq_some_iff {a : α} : get? (ofList es) name = some a ↔
    ∃ before after, es = before ++ (name, a) :: after ∧ name ∉ keys after := by
  have around (before after : Entries α) :
      es.reverse = before ++ (name, a) :: after ↔
        es = after.reverse ++ (name, a) :: before.reverse := by
    rw [List.reverse_eq_iff]
    simp
  have missing (before : Entries α) : name ∉ keys before ↔ name ∉ keys before.reverse := by
    simp [keys]
  rw [ofList, get?_overlay, get?, Option.or_none, get?_eq_some_iff]
  constructor
  · rintro ⟨before, after, he, hn⟩
    exact ⟨_, _, (around before after).mp he, (missing before).mp hn⟩
  · rintro ⟨before, after, he, hn⟩
    refine ⟨after.reverse, before.reverse, (around _ _).mpr ?_, (missing after).mp hn⟩
    rw [List.reverse_reverse, List.reverse_reverse, he]

theorem keys_ofList (es : List (String × α)) : (ofList es).keys = (keys es).eraseDups := by
  have none : (keys ([] : Entries α)).Nodup := List.nodup_nil
  exact keys_overlay_eq_eraseDups none es

/-- What is seen of things that are held by name, when `es` was put there: their names as they
first came, and under each of these, and no other, the thing that came last. -/
structure Shows (names : List String) (get? : String → Option α) (es : List (String × α)) :
    Prop where
  order : names = (es.map Prod.fst).eraseDups
  present : ∀ name, (get? name).isSome ↔ name ∈ names
  last : ∀ name a, get? name = some a ↔
    ∃ before after, es = before ++ (name, a) :: after ∧ name ∉ after.map Prod.fst

theorem shows_ofList (es : List (String × α)) : Shows (ofList es).keys (ofList es).get? es :=
  ⟨keys_ofList es, get?_isSome_iff _, fun _ _ => get?_ofList_eq_some_iff⟩

theorem eq_of_get? {es' : Entries α} (once : es.keys.Nodup) (names : es.keys = es'.keys)
    (h : ∀ name, es.get? name = es'.get? name) : es = es' := by
  induction es generalizing es' with
  | nil => exact (List.map_eq_nil_iff.mp names.symm).symm
  | cons e rest ih =>
    obtain ⟨k, a⟩ := e
    cases es' with
    | nil => cases names
    | cons e' rest' =>
      obtain ⟨k', a'⟩ := e'
      obtain ⟨rfl, others⟩ : k = k' ∧ keys rest = keys rest' := List.cons.inj names
      obtain ⟨new, once⟩ := List.nodup_cons.mp once
      obtain rfl : a = a' := by simpa [get?] using h k
      rw [ih once others fun name => ?_]
      by_cases hn : k = name
      · subst hn
        rw [(get?_eq_none_iff rest k).mpr new, (get?_eq_none_iff rest' k).mpr (others ▸ new)]
      · simpa [get?, hn] using h name

theorem eq_ofList_of_shows {held : Entries α} (h : Shows held.keys held.get? es) :
    held = ofList es := by
  have names : held.keys = (ofList es).keys := h.order.trans (keys_ofList es).symm
  refine eq_of_get? ?_ names fun name => Option.ext fun a => ?_
  · have none : (keys ([] : Entries α)).Nodup := List.nodup_nil
    rw [names]
    exact nodup_keys_overlay none es
  · rw [h.last, get?_ofList_eq_some_iff]
    rfl

-- ---------------------------------------------------------------------------
-- Overlays of overlays
-- ---------------------------------------------------------------------------

theorem insert_insert_self (es : Entries α) (name : String) (a b : α) :
    insert (insert es name a) name b = insert es name b := by
  induction es with
  | nil => simp [insert]
  | cons e rest ih =>
    obtain ⟨k, c⟩ := e
    by_cases hk : k = name <;> simp [insert, hk, ih]

/-- A name that is there has its place already. -/
theorem insert_insert_comm (h : name ∈ es.keys) (hn : name ≠ other) (a b : α) :
    insert (insert es other b) name a = insert (insert es name a) other b := by
  induction es with
  | nil => cases h
  | cons e rest ih =>
    obtain ⟨k, c⟩ := e
    by_cases hk : k = name
    · subst hk
      simp [insert, hn]
    · have hr : name ∈ keys rest := (List.mem_cons.mp h).resolve_left (Ne.symm hk)
      by_cases ho : k = other
      · subst ho
        simp [insert, hk]
      · simp [insert, hk, ho, ih hr]

theorem insert_overlay (hb : name ∈ base.keys) (hu : name ∉ upper.keys) (a : α) :
    insert (overlay base upper) name a = overlay (insert base name a) upper := by
  induction upper generalizing base with
  | nil => rfl
  | cons e rest ih =>
    obtain ⟨hn, hr⟩ := List.ne_and_not_mem_of_not_mem_cons hu
    have kept : name ∈ (insert base e.1 e.2).keys := by
      rw [keys_insert]
      split
      · exact hb
      · exact List.mem_append_left _ hb
    rw [overlay_cons, ih kept hr, insert_insert_comm hb hn]
    rfl

theorem overlay_insert (base : Entries α) (hm : mid.keys.Nodup) (name : String) (a : α) :
    overlay base (insert mid name a) = insert (overlay base mid) name a := by
  induction mid generalizing base with
  | nil => rfl
  | cons e rest ih =>
    obtain ⟨k, b⟩ := e
    obtain ⟨hk, hr⟩ := List.nodup_cons.mp hm
    by_cases hn : k = name
    · subst hn
      have there : k ∈ (insert base k b).keys := by
        rw [← get?_isSome_iff, get?_insert, if_pos rfl]
        rfl
      have moved := insert_overlay there hk a
      rw [insert_insert_self] at moved
      simpa [insert, overlay] using moved.symm
    · simpa [insert, hn, overlay] using ih (insert base k b) hr

/-- Overlays may be grouped in any way. -/
theorem overlay_overlay (base : Entries α) (hm : mid.keys.Nodup) (upper : Entries α) :
    overlay base (overlay mid upper) = overlay (overlay base mid) upper := by
  induction upper generalizing mid with
  | nil => rfl
  | cons e rest ih =>
    rw [overlay_cons, ih (nodup_keys_insert hm e.1 e.2),
      overlay_insert base hm]
    rfl

theorem overlay_eq_append (h : (base.keys ++ upper.keys).Nodup) :
    overlay base upper = base ++ upper := by
  induction upper generalizing base with
  | nil => exact (List.append_nil base).symm
  | cons e rest ih =>
    obtain ⟨k, a⟩ := e
    have new : get? base k = none := by
      rw [get?_eq_none_iff]
      intro hk
      exact (List.nodup_append.mp h).2.2 k hk k List.mem_cons_self rfl
    rw [overlay_cons, insert_of_get?_eq_none new, ih, List.append_assoc, List.singleton_append]
    rw [keys_cons] at h
    simpa [keys] using h

theorem ofList_of_nodup (h : es.keys.Nodup) : ofList es = es :=
  overlay_eq_append h

end Stencil.Entries
