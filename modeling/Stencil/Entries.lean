/-!
Things held by name, in the order in which the names first came. Setting a name that is present
replaces the thing in place, so position follows the first setting and content the last.
-/

namespace Stencil

/-- Named things in order. Each operation reads the list from the front, so a name that stands
twice is seen at its first place only. -/
abbrev Entries (α : Type) := List (String × α)

namespace Entries

variable {α : Type}

def keys (es : Entries α) : List String := es.map Prod.fst

def get? : Entries α → String → Option α
  | [], _ => none
  | (k, a) :: rest, name => if k = name then some a else get? rest name

def contains (es : Entries α) (name : String) : Bool := (get? es name).isSome

def insert : Entries α → String → α → Entries α
  | [], name, a => [(name, a)]
  | (k, b) :: rest, name, a => if k = name then (name, a) :: rest else (k, b) :: insert rest name a

def erase : Entries α → String → Entries α
  | [], _ => []
  | (k, a) :: rest, name => if k = name then rest else (k, a) :: erase rest name

/-- Sets every entry of `upper` over `base`, in order. -/
def overlay (base upper : Entries α) : Entries α :=
  upper.foldl (fun es e => insert es e.1 e.2) base

def ofList (es : List (String × α)) : Entries α := overlay [] es

theorem get?_insert (es : Entries α) (name other : String) (a : α) :
    get? (insert es name a) other = if name = other then some a else get? es other := by
  induction es with
  | nil => simp [insert, get?]
  | cons e rest ih =>
    obtain ⟨k, b⟩ := e
    by_cases hk : k = name
    · subst hk; by_cases ho : k = other <;> simp [insert, get?, ho]
    · by_cases ho : k = other
      · subst ho; simp [insert, get?, hk, Ne.symm hk]
      · simp [insert, get?, hk, ho, ih]

theorem keys_insert (es : Entries α) (name : String) (a : α) :
    keys (insert es name a) = if name ∈ keys es then keys es else keys es ++ [name] := by
  induction es with
  | nil => simp [insert, keys]
  | cons e rest ih =>
    obtain ⟨k, b⟩ := e
    by_cases hk : k = name
    · subst hk; simp [insert, keys]
    · simp only [keys] at ih
      by_cases hm : name ∈ rest.map Prod.fst <;>
        simp_all [insert, keys, Ne.symm hk]

theorem nodup_keys_insert {es : Entries α} (h : (keys es).Nodup) (name : String) (a : α) :
    (keys (insert es name a)).Nodup := by
  rw [keys_insert]
  split
  · exact h
  · rename_i hm
    exact List.nodup_append.mpr ⟨h, by simp, by
      intro x hx y hy hxy
      rw [List.mem_singleton] at hy
      exact hm (hy ▸ hxy ▸ hx)⟩

theorem keys_erase (es : Entries α) (name : String) :
    keys (erase es name) = (keys es).erase name := by
  induction es with
  | nil => rfl
  | cons e rest ih =>
    obtain ⟨k, a⟩ := e
    by_cases hk : k = name
    · simp [erase, keys, hk]
    · simp only [keys] at ih
      simp [erase, keys, hk, ih]

theorem nodup_keys_erase {es : Entries α} (h : (keys es).Nodup) (name : String) :
    (keys (erase es name)).Nodup := by
  rw [keys_erase]
  exact h.erase name

theorem get?_isSome_iff (es : Entries α) (name : String) :
    (get? es name).isSome = true ↔ name ∈ keys es := by
  induction es with
  | nil => simp [get?, keys]
  | cons e rest ih =>
    obtain ⟨k, b⟩ := e
    by_cases hk : k = name
    · simp [get?, keys, hk]
    · simp only [keys] at ih
      simp [get?, keys, hk, ih, Ne.symm hk]

theorem get?_eq_none_iff (es : Entries α) (name : String) :
    get? es name = none ↔ name ∉ keys es := by
  rw [← get?_isSome_iff, Option.not_isSome_iff_eq_none]

/-- A name may stand only once for all of it to be gone. -/
theorem get?_erase {es : Entries α} (h : (keys es).Nodup) (name other : String) :
    get? (erase es name) other = if name = other then none else get? es other := by
  induction es with
  | nil => simp [erase, get?]
  | cons e rest ih =>
    obtain ⟨k, a⟩ := e
    obtain ⟨hk, hr⟩ := List.nodup_cons.mp h
    by_cases hn : k = name
    · subst hn
      by_cases ho : k = other
      · subst ho
        simpa [erase] using (get?_eq_none_iff rest k).mpr hk
      · simp [erase, get?, ho]
    · by_cases ho : k = other
      · subst ho; simp [erase, get?, hn, Ne.symm hn]
      · simp [erase, get?, hn, ho, ih hr]

theorem mem_of_get? {es : Entries α} {name : String} {a : α} (h : get? es name = some a) :
    (name, a) ∈ es := by
  induction es with
  | nil => simp [get?] at h
  | cons e rest ih =>
    obtain ⟨k, b⟩ := e
    by_cases hk : k = name
    · simp_all [get?]
    · simp only [get?, hk, if_false] at h
      exact List.mem_cons_of_mem _ (ih h)

theorem mem_insert {es : Entries α} {name : String} {a : α} {e : String × α}
    (h : e ∈ insert es name a) : e = (name, a) ∨ e ∈ es := by
  induction es with
  | nil => simpa [insert] using h
  | cons b rest ih =>
    obtain ⟨k, b⟩ := b
    by_cases hk : k = name
    · simp only [insert, hk, if_true, List.mem_cons] at h
      exact h.imp_right (List.mem_cons_of_mem _)
    · simp only [insert, hk, if_false, List.mem_cons] at h
      rcases h with rfl | h
      · exact .inr (List.mem_cons_self ..)
      · exact (ih h).imp_right (List.mem_cons_of_mem _)

theorem mem_of_mem_erase {es : Entries α} {name : String} {e : String × α}
    (h : e ∈ erase es name) : e ∈ es := by
  induction es with
  | nil => exact h
  | cons b rest ih =>
    obtain ⟨k, b⟩ := b
    by_cases hk : k = name
    · simp only [erase, hk, if_true] at h
      exact List.mem_cons_of_mem _ h
    · simp only [erase, hk, if_false, List.mem_cons] at h
      rcases h with rfl | h
      · exact List.mem_cons_self ..
      · exact List.mem_cons_of_mem _ (ih h)

theorem insert_of_get?_eq_none {es : Entries α} {name : String} (h : get? es name = none) (a : α) :
    insert es name a = es ++ [(name, a)] := by
  induction es with
  | nil => rfl
  | cons e rest ih =>
    obtain ⟨k, b⟩ := e
    by_cases hk : k = name
    · simp [get?, hk] at h
    · simp [get?, hk] at h
      simp [insert, hk, ih h]

end Entries
end Stencil
