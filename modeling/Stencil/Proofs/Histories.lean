import Mathlib
import Stencil.Helper.Family
import Stencil.Proofs.Overlay
import Stencil.Template

/-!
# Histories of registrations

What a member of a family holds is decided by its history: what was put into the member itself,
behind the history that its source had when it was copied (`held_of_history`). Nothing else counts,
so members do not show in one another (`getElem?_changeAll`). Tables of helpers and templates with
their blocks are such families.
-/

namespace Stencil

namespace Family

variable {τ α : Type}

-- ---------------------------------------------------------------------------
-- What is put into one member
-- ---------------------------------------------------------------------------

def Change.registered? (k : Nat) : Change α → Option (String × α)
  | .register member name a => if member = k then some (name, a) else none
  | .copy _ => none

/-- What the changes put into member `k` itself, in order. -/
def own (k : Nat) (changes : List (Change α)) : List (String × α) :=
  changes.filterMap (Change.registered? k)

def putAll (put : τ → String → α → τ) (t : τ) (es : List (String × α)) : τ :=
  es.foldl (fun t e => put t e.1 e.2) t

variable (put : τ → String → α → τ) {f : Family τ} {k : Nat}

theorem changeAll_append (f : Family τ) (before after : List (Change α)) :
    changeAll put f (before ++ after) = changeAll put (changeAll put f before) after :=
  List.foldl_append

theorem changeAll_concat (f : Family τ) (before : List (Change α)) (c : Change α) :
    changeAll put f (before ++ [c]) = change put (changeAll put f before) c :=
  changeAll_append put f before [c]

theorem length_le_change (f : Family τ) (c : Change α) : f.length ≤ (change put f c).length := by
  cases c with
  | register member name a => simp [change]
  | copy member =>
    rw [change]
    split
    · simp
    · exact Nat.le_refl _

/-- A change puts into the member that it names, and leaves all others alone. -/
theorem getElem?_change (h : k < f.length) (c : Change α) :
    (change put f c)[k]? = f[k]?.map fun t => putAll put t (own k [c]) := by
  cases c with
  | register member name a =>
    rw [change, List.getElem?_modify]
    by_cases hm : member = k
    · simp [hm, own, putAll, Change.registered?]
    · simp [hm, own, putAll, Change.registered?]
  | copy member =>
    have kept : f[k]?.map (fun t => putAll put t (own k [Change.copy member])) = f[k]? :=
      Option.map_id'
    rw [change, kept]
    split
    · exact List.getElem?_append_left h
    · rfl

/-- What becomes of a member is decided by what is put into it. -/
theorem getElem?_changeAll (h : k < f.length) (changes : List (Change α)) :
    (changeAll put f changes)[k]? = f[k]?.map fun t => putAll put t (own k changes) := by
  induction changes generalizing f with
  | nil => simp [changeAll, own, putAll]
  | cons c rest ih =>
    have hc := Nat.lt_of_lt_of_le h (length_le_change put f c)
    have split : own k (c :: rest) = own k [c] ++ own k rest :=
      List.filterMap_append (l := [c]) ..
    rw [changeAll, List.foldl_cons, ← changeAll, ih hc, getElem?_change put h, Option.map_map,
      split]
    simp only [Function.comp_def, putAll, List.foldl_append]

-- ---------------------------------------------------------------------------
-- Histories
-- ---------------------------------------------------------------------------

/-- The history of a member after some changes to `f`: for a member of `f`, what was put into it;
for a copy, that behind what was the history of its source when it was made. -/
inductive History (f : Family τ) : List (Change α) → Nat → List (String × α) → Prop
  | first {changes : List (Change α)} {k : Nat} (h : k < f.length) :
    History f changes k (own k changes)
  | copied {before after : List (Change α)} {source : Nat} {es : List (String × α)}
    (h : History f before source es) :
    History f (before ++ .copy source :: after) (changeAll put f before).length
      (es ++ own (changeAll put f before).length after)

variable {put} {changes : List (Change α)} {es : List (String × α)}

theorem History.concat (h : History put f changes k es) (c : Change α) :
    History put f (changes ++ [c]) k (es ++ own k [c]) := by
  cases h with
  | first h =>
    rw [own, own, ← List.filterMap_append]
    exact .first h
  | copied h =>
    rw [List.append_assoc, List.append_assoc, own, own, ← List.filterMap_append]
    exact .copied h

theorem exists_history (f : Family τ) (changes : List (Change α))
    (h : k < (changeAll put f changes).length) : ∃ es, History put f changes k es := by
  induction changes using List.reverseRecOn generalizing k with
  | nil => exact ⟨_, .first h⟩
  | append_singleton before c ih =>
    by_cases hk : k < (changeAll put f before).length
    · obtain ⟨es, he⟩ := ih hk
      exact ⟨_, he.concat c⟩
    · rw [changeAll_concat] at h
      cases c with
      | register member name a =>
        rw [change, List.length_modify] at h
        exact absurd h hk
      | copy source =>
        rw [change] at h
        split at h
        · rename_i t hs
          obtain ⟨es, he⟩ := ih (List.getElem?_eq_some_iff.mp hs).1
          rw [List.length_append, List.length_singleton] at h
          obtain rfl : k = (changeAll put f before).length := by omega
          exact ⟨_, .copied he⟩
        · exact absurd h hk

section

variable (held : τ → Entries α)
  (held_put : ∀ t name a, held (put t name a) = (held t).insert name a)

include held_put

theorem held_putAll (t : τ) (es : List (String × α)) :
    held (putAll put t es) = Entries.overlay (held t) es := by
  induction es generalizing t with
  | nil => rfl
  | cons e rest ih =>
    rw [putAll, List.foldl_cons, ← putAll, ih, held_put]
    rfl

/-- A member holds its history, if all that is copied in the end held nothing. -/
theorem held_of_history (empty : ∀ t ∈ f, held t = []) (h : History put f changes k es) :
    ∃ t, (changeAll put f changes)[k]? = some t ∧ held t = Entries.ofList es := by
  induction h with
  | first h =>
    refine ⟨_, (getElem?_changeAll put h _).trans (by rw [List.getElem?_eq_getElem h]; rfl), ?_⟩
    rw [held_putAll held held_put, empty _ (List.getElem_mem h)]
    rfl
  | copied _ ih =>
    rename_i before after source es _
    obtain ⟨t, hs, he⟩ := ih
    have copied : change put (changeAll put f before) (.copy source) =
        changeAll put f before ++ [t] := by
      rw [change, hs]
    have there : (changeAll put f before).length < (changeAll put f before ++ [t]).length := by simp
    refine ⟨putAll put t (own (changeAll put f before).length after), ?_, ?_⟩
    · rw [changeAll_append, changeAll, List.foldl_cons, ← changeAll, copied,
        getElem?_changeAll put there]
      simp
    · rw [held_putAll held held_put, he, Entries.ofList, Entries.ofList, Entries.overlay,
        Entries.overlay, Entries.overlay, List.foldl_append]

end

-- ---------------------------------------------------------------------------
-- Tables and templates
-- ---------------------------------------------------------------------------

theorem shows_of_history (held : τ → Entries α)
    (held_put : ∀ t name a, held (put t name a) = (held t).insert name a)
    (empty : ∀ t ∈ f, held t = []) (h : History put f changes k es) :
    ∃ t, (changeAll put f changes)[k]? = some t ∧ Entries.Shows (held t).keys (held t).get? es := by
  obtain ⟨t, ht, he⟩ := held_of_history held held_put empty h
  refine ⟨t, ht, ?_⟩
  rw [he]
  exact Entries.shows_ofList es

theorem getElem?_changeAll_of_own_eq_nil (h : k < f.length) (none : own k changes = []) :
    (changeAll put f changes)[k]? = f[k]? := by
  rw [getElem?_changeAll put h, none]
  exact Option.map_id'

end Family

open Family

/-- Each table shows its history and nothing else: what was registered in it, behind the history
that the table it was copied from had then. A table stays as it is whatever is registered in other
tables and copied, be they its copies or what it was copied from. The same goes for templates and
the blocks that are attached to them; a block stays the template that was attached, with the blocks
that it had. -/
theorem history_decides {Ω : Type} (n : Nat) (bodies : List (Value → Code Ω Value))
    (changes : List (Change (Helper Ω))) (attachments : List (Change (Template Ω))) :
    let empty : HelperFamily Ω := List.replicate n .empty
    let tables := changes.foldl HelperFamily.change empty
    let bare := bodies.map Template.ofBody
    let templates := changeAll Template.withBlock bare attachments
    ((∀ k < tables.length, ∃ es, History HelperTable.register empty changes k es) ∧
      (∀ k es, History HelperTable.register empty changes k es →
        ∃ t, tables[k]? = some t ∧ Entries.Shows t.names t.get? es ∧ t.size = t.names.length ∧
          ∀ name, t.contains name = true ↔ name ∈ t.names) ∧
      ∀ k < tables.length, ∀ later, own k later = [] →
        (later.foldl HelperFamily.change tables)[k]? = tables[k]?) ∧
    (∀ k < templates.length, ∃ es, History Template.withBlock bare attachments k es) ∧
    (∀ k es, History Template.withBlock bare attachments k es →
      ∃ t, templates[k]? = some t ∧ Entries.Shows t.blockNames t.block? es) ∧
    ∀ k < templates.length, ∀ later, own k later = [] →
      (changeAll Template.withBlock templates later)[k]? = templates[k]? := by
  intro empty tables bare templates
  have emptied : ∀ t ∈ empty, t.entries = [] := by
    intro t ht
    rw [List.eq_of_mem_replicate ht]
    rfl
  have bared : ∀ t ∈ bare, t.blocks = [] := by
    intro t ht
    obtain ⟨body, -, rfl⟩ := List.mem_map.mp ht
    rfl
  refine ⟨⟨fun k hk => exists_history empty changes hk, fun k es h => ?_,
      fun k hk later none => getElem?_changeAll_of_own_eq_nil hk none⟩,
    fun k hk => exists_history bare attachments hk,
    fun k es h => shows_of_history Template.blocks (fun _ _ _ => rfl) bared h,
    fun k hk later none => getElem?_changeAll_of_own_eq_nil hk none⟩
  obtain ⟨t, ht, shows⟩ :=
    shows_of_history HelperTable.entries (fun _ _ _ => rfl) emptied h
  exact ⟨t, ht, shows, (List.length_map ..).symm, Entries.get?_isSome_iff _⟩

-- ---------------------------------------------------------------------------
-- A table and its copy
-- ---------------------------------------------------------------------------

def constant (v : Value) : Helper Empty := fun _ _ => .done (.ok v)

def bar : Template Empty := (Template.ofBody fun _ => .done .null).withBlock "top" default

/-- The table `b a b` is copied before its last two registrations; the copy gets an `a` of its
own. -/
def forked : List (Change (Helper Empty)) :=
  [.register 0 "b" (constant .null), .copy 0, .register 0 "a" (constant .null),
    .register 1 "a" (constant (.bool true)), .register 0 "b" (constant (.bool false))]

theorem history_decides_forked :
    let tables := forked.foldl HelperFamily.change HelperFamily.initial
    (∃ t : HelperTable Empty, tables[0]? = some t ∧ t.names = ["b", "a"] ∧
      t.get? "b" = some (constant (.bool false))) ∧
    (∃ t : HelperTable Empty, tables[1]? = some t ∧ t.names = ["b", "a"] ∧
      t.get? "b" = some (constant .null) ∧ t.get? "a" = some (constant (.bool true))) ∧
    (tables.change (.register 1 "c" (constant .null)))[0]? = tables[0]? ∧
    ∃ t : Template Empty, t.block? "nav" = some bar ∧
      (changeAll Template.withBlock [default] [.register 0 "nav" bar])[0]? = some t := by
  intro tables
  obtain ⟨⟨-, held, apart⟩, -, attached, -⟩ := history_decides 1 [fun _ => .done .null] forked
    [.register 0 "nav" bar]
  obtain ⟨t₀, there₀, shows₀, -⟩ := held 0 _ (.first (by decide))
  have source : History HelperTable.register [.empty] (forked.take 1) 0 _ := .first (by decide)
  obtain ⟨t₁, there₁, shows₁, -⟩ := held 1 _ source.copied
  obtain ⟨t, there, shows⟩ := attached 0 _ (.first (by decide))
  refine ⟨⟨t₀, there₀, shows₀.order.trans (by decide), (shows₀.last ..).mpr ?_⟩,
    ⟨t₁, there₁, shows₁.order.trans (by decide), (shows₁.last ..).mpr ?_, (shows₁.last ..).mpr ?_⟩,
    apart 0 (List.getElem?_eq_some_iff.mp there₀).1 [.register 1 "c" _] rfl,
    t, (shows.last ..).mpr ?_, there⟩
  · exact ⟨[("b", constant .null), ("a", constant .null)], [], rfl, List.not_mem_nil⟩
  · exact ⟨[], [("a", constant (.bool true))], rfl, by decide⟩
  · exact ⟨[("b", constant .null)], [], rfl, List.not_mem_nil⟩
  · exact ⟨[], [], rfl, List.not_mem_nil⟩

end Stencil
