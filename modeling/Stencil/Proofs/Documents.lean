import Mathlib.Tactic.MkIffOfInductiveProp
import Mathlib.Tactic.SplitIfs
import Stencil.Config
import Stencil.Json.Syntax
import Stencil.Proofs.Overlay

/-!
# Documents of settings

What a JSON document says the settings are, apart from how it is read. A document offers values
under names, and each field is settled by what is offered under its own name (`Stated`): the other
values do not matter, nor does their order. A reader takes the values one after another as they
come; this ends with the same settings (`giveAll?_eq_some_iff`).
-/

namespace Stencil.Config

open Json Json.Reader

variable {α : Type} {t : Tree} {given given' given'' : Given}

-- ---------------------------------------------------------------------------
-- What a document says
-- ---------------------------------------------------------------------------

def fieldNames : List String := ["escape_helper", "cache_policy", "globals"]

def named? : List (Quoted × Tree) → Option (List (String × Tree))
  | [] => some []
  | (k, t) :: rest => k.string?.bind fun name => (named? rest).map ((name, t) :: ·)

/-- The values that a document has, and under which names: those of its keys, or in an array those
of the fields in their fixed order. -/
inductive Offers : Tree → List (String × Tree) → Prop
  | object {members : List (Quoted × Tree)} {offers : List (String × Tree)}
    (h : named? members = some offers) : Offers (.object members) offers
  | array {items : List Tree} (h : items.length ≤ fieldNames.length) :
    Offers (.array items) (fieldNames.zip items)

def under (name : String) (offers : List (String × Tree)) : List Tree :=
  offers.filterMap fun o => if o.1 = name then some o.2 else none

/-- A policy is written as its name, or as an object with the name over null. -/
inductive NamesPolicy : Tree → CachePolicy → Prop
  | plain {s : Quoted} {name : String} {policy : CachePolicy} (h : s.string? = some name)
    (known : policies.lookup name = some policy) : NamesPolicy (.string s) policy
  | tagged {s : Quoted} {name : String} {policy : CachePolicy} (h : s.string? = some name)
    (known : policies.lookup name = some policy) : NamesPolicy (.object [(s, .null)]) policy

/-- Globals are written as an object, whose keys may come again. -/
inductive ListsGlobals : Tree → Context → Prop
  | object {members : List (Quoted × Tree)} {es : List (String × Value)} {globals : Context}
    (h : Tree.entries? (depthLimit - 2) members = some es)
    (shows : Entries.Shows globals.keys globals.get? es) : ListsGlobals (.object members) globals

inductive Settled (means : Tree → α → Prop) (default : α) : List Tree → α → Prop
  | missing : Settled means default [] default
  | given {t : Tree} {a : α} (h : means t a) : Settled means default [t] a

structure Stated (offers : List (String × Tree)) (c : Config) : Prop where
  escapeHelper : Settled (fun t b => t = .bool b) true (under "escape_helper" offers) c.escapeHelper
  cachePolicy : Settled NamesPolicy .evictOnError (under "cache_policy" offers) c.cachePolicy
  globals : Settled ListsGlobals [] (under "globals" offers) c.globals

inductive Mistyped : String → Tree → Prop
  | escapeHelper {t : Tree} (h : ∀ b, t ≠ .bool b) : Mistyped "escape_helper" t
  | cachePolicy {t : Tree} (h : ∀ policy, ¬NamesPolicy t policy) : Mistyped "cache_policy" t
  | globals {t : Tree} (h : ∀ members, t ≠ .object members) : Mistyped "globals" t

theorem Settled.length_le {means : Tree → α → Prop} {default a : α} {ts : List Tree}
    (h : Settled means default ts a) : ts.length ≤ 1 := by
  cases h with
  | missing => exact Nat.zero_le _
  | given => exact Nat.le_refl _

theorem Settled.means_of_mem {means : Tree → α → Prop} {default a : α} {ts : List Tree}
    (h : Settled means default ts a) (ht : t ∈ ts) : means t a := by
  cases h with
  | missing => cases ht
  | given h =>
    obtain rfl := List.mem_singleton.mp ht
    exact h

variable {offers : List (String × Tree)} {name : String} {c : Config}

theorem mem_under_of_mem (h : (name, t) ∈ offers) : t ∈ under name offers :=
  List.mem_filterMap.mpr ⟨_, h, if_pos rfl⟩

theorem Stated.length_under_le (h : Stated offers c) (hn : name ∈ fieldNames) :
    (under name offers).length ≤ 1 := by
  simp only [fieldNames, List.mem_cons, List.not_mem_nil, or_false] at hn
  rcases hn with rfl | rfl | rfl
  · exact h.escapeHelper.length_le
  · exact h.cachePolicy.length_le
  · exact h.globals.length_le

theorem Stated.not_mistyped (h : Stated offers c) (ht : (name, t) ∈ offers) :
    ¬Mistyped name t := by
  have ht := mem_under_of_mem ht
  rintro (other | other | other)
  · exact other _ (h.escapeHelper.means_of_mem ht)
  · exact other _ (h.cachePolicy.means_of_mem ht)
  · obtain ⟨-, -⟩ := h.globals.means_of_mem ht
    exact other _ rfl

-- ---------------------------------------------------------------------------
-- One value after another
-- ---------------------------------------------------------------------------

def switch? : Tree → Option Bool
  | .bool b => some b
  | _ => none

def policy? : Tree → Option CachePolicy
  | .string s => s.string?.bind fun name => policies.lookup name
  | .object [(s, .null)] => s.string?.bind fun name => policies.lookup name
  | _ => none

def globals? : Tree → Option Context
  | .object members => (Tree.entries? (depthLimit - 2) members).map Entries.ofList
  | _ => none

theorem switch?_eq_some_iff {b : Bool} : switch? t = some b ↔ t = .bool b := by
  cases t <;> simp [switch?]

theorem policy?_eq_some_iff {policy : CachePolicy} :
    policy? t = some policy ↔ NamesPolicy t policy := by
  constructor
  · intro h
    rw [policy?.eq_def] at h
    split at h
    · obtain ⟨name, hs, known⟩ := Option.bind_eq_some_iff.mp h
      exact .plain hs known
    · obtain ⟨name, hs, known⟩ := Option.bind_eq_some_iff.mp h
      exact .tagged hs known
    · cases h
  · rintro (⟨hs, known⟩ | ⟨hs, known⟩)
    all_goals exact Option.bind_eq_some_iff.mpr ⟨_, hs, known⟩

theorem globals?_eq_some_iff {globals : Context} :
    globals? t = some globals ↔ ListsGlobals t globals := by
  constructor
  · intro h
    cases t with
    | object members =>
      obtain ⟨es, hes, rfl⟩ := Option.map_eq_some_iff.mp h
      exact .object hes (Entries.shows_ofList es)
    | _ => cases h
  · rintro ⟨hes, shows⟩
    rw [globals?, hes, Entries.eq_ofList_of_shows shows]
    rfl

def fill (value? : Tree → Option α) (o : Option α) (t : Tree) : Option (Option α) :=
  if o.isSome then none else (value? t).map some

theorem fill_none (value? : Tree → Option α) (t : Tree) :
    fill value? none t = (value? t).map some := rfl

def give? (given : Given) (name : String) (t : Tree) : Option Given :=
  if name = "escape_helper" then
    (fill switch? given.escapeHelper t).map fun o => { given with escapeHelper := o }
  else if name = "cache_policy" then
    (fill policy? given.cachePolicy t).map fun o => { given with cachePolicy := o }
  else if name = "globals" then
    (fill globals? given.globals t).map fun o => { given with globals := o }
  else some given

theorem give?_escapeHelper (given : Given) (t : Tree) : give? given "escape_helper" t =
    (fill switch? given.escapeHelper t).map fun o => { given with escapeHelper := o } :=
  if_pos rfl

theorem give?_cachePolicy (given : Given) (t : Tree) : give? given "cache_policy" t =
    (fill policy? given.cachePolicy t).map fun o => { given with cachePolicy := o } :=
  (if_neg (by decide)).trans (if_pos rfl)

theorem give?_globals (given : Given) (t : Tree) : give? given "globals" t =
    (fill globals? given.globals t).map fun o => { given with globals := o } :=
  (if_neg (by decide)).trans ((if_neg (by decide)).trans (if_pos rfl))

def giveAll? : Given → List (String × Tree) → Option Given
  | given, [] => some given
  | given, (name, t) :: rest => (give? given name t).bind fun given => giveAll? given rest

/-- What a field has after some values, if that is not too many. -/
inductive Filled (means : Tree → α → Prop) : Option α → List Tree → Option α → Prop
  | kept (o : Option α) : Filled means o [] o
  | given {t : Tree} {a : α} (h : means t a) : Filled means none [t] (some a)

@[mk_iff]
structure Given.Takes (given : Given) (offers : List (String × Tree)) (given' : Given) : Prop where
  escapeHelper : Filled (fun t b => t = .bool b) given.escapeHelper (under "escape_helper" offers)
    given'.escapeHelper
  cachePolicy : Filled NamesPolicy given.cachePolicy (under "cache_policy" offers)
    given'.cachePolicy
  globals : Filled ListsGlobals given.globals (under "globals" offers) given'.globals

section

variable {means : Tree → α → Prop} {o o' o'' : Option α} {ts us : List Tree}

theorem filled_nil_iff : Filled means o [] o' ↔ o = o' := by
  constructor
  · rintro ⟨⟩
    rfl
  · rintro rfl
    exact .kept o

theorem filled_cons_iff :
    Filled means o (t :: ts) o'' ↔ ∃ o', Filled means o [t] o' ∧ Filled means o' ts o'' := by
  constructor
  · rintro ⟨⟩
    rename_i a h
    exact ⟨_, .given h, .kept _⟩
  · rintro ⟨o', first, others⟩
    cases first with
    | given h =>
      cases others
      exact .given h

theorem fill_eq_some_iff {value? : Tree → Option α} (h : ∀ t a, value? t = some a ↔ means t a) :
    fill value? o t = some o' ↔ Filled means o [t] o' := by
  cases o with
  | some a => exact ⟨nofun, nofun⟩
  | none =>
    refine Option.map_eq_some_iff.trans ⟨?_, ?_⟩
    · rintro ⟨a, ha, rfl⟩
      exact .given ((h t a).mp ha)
    · rintro ⟨⟩
      rename_i a means
      exact ⟨a, (h t a).mpr means, rfl⟩

theorem settled_iff {default a : α} :
    Settled means default ts a ↔ ∃ o, Filled means none ts o ∧ o.getD default = a := by
  constructor
  · rintro (_ | h)
    · exact ⟨none, .kept none, rfl⟩
    · exact ⟨_, .given h, rfl⟩
  · rintro ⟨-, _ | h, rfl⟩
    · exact .missing
    · exact .given h

end

theorem under_cons (name other : String) (t : Tree) (offers : List (String × Tree)) :
    under name ((other, t) :: offers) =
      if other = name then t :: under name offers else under name offers := by
  by_cases h : other = name
  · simp [under, h]
  · simp [under, h]

theorem filled_under_cons_iff {means : Tree → α → Prop} {o o'' : Option α} (field : String) :
    Filled means o (under field ((name, t) :: offers)) o'' ↔
      ∃ o', Filled means o (under field [(name, t)]) o' ∧
        Filled means o' (under field offers) o'' := by
  by_cases h : name = field
  · rw [under_cons, if_pos h, under_cons, if_pos h]
    exact filled_cons_iff
  · rw [under_cons, if_neg h, under_cons, if_neg h]
    show _ ↔ ∃ o', Filled means o [] o' ∧ _
    simp [filled_nil_iff]

theorem takes_nil_iff : given.Takes [] given' ↔ given = given' := by
  constructor
  · rintro ⟨h, h', h''⟩
    cases given
    cases given'
    obtain rfl := filled_nil_iff.mp h
    obtain rfl := filled_nil_iff.mp h'
    obtain rfl := filled_nil_iff.mp h''
    rfl
  · rintro rfl
    exact ⟨.kept _, .kept _, .kept _⟩

theorem takes_cons_iff : given.Takes ((name, t) :: offers) given'' ↔
    ∃ given', given.Takes [(name, t)] given' ∧ given'.Takes offers given'' := by
  constructor
  · rintro ⟨h, h', h''⟩
    obtain ⟨o, before, behind⟩ := (filled_under_cons_iff _).mp h
    obtain ⟨o', before', behind'⟩ := (filled_under_cons_iff _).mp h'
    obtain ⟨o'', before'', behind''⟩ := (filled_under_cons_iff _).mp h''
    exact ⟨⟨o, o', o''⟩, ⟨before, before', before''⟩, ⟨behind, behind', behind''⟩⟩
  · rintro ⟨given', h, h'⟩
    exact ⟨(filled_under_cons_iff _).mpr ⟨_, h.escapeHelper, h'.escapeHelper⟩,
      (filled_under_cons_iff _).mpr ⟨_, h.cachePolicy, h'.cachePolicy⟩,
      (filled_under_cons_iff _).mpr ⟨_, h.globals, h'.globals⟩⟩

theorem under_self (name : String) (t : Tree) : under name [(name, t)] = [t] := by
  rw [under_cons, if_pos rfl]
  rfl

theorem under_other {field : String} (h : name ≠ field) : under field [(name, t)] = [] := by
  rw [under_cons, if_neg h]
  rfl

theorem give?_eq_some_iff : give? given name t = some given' ↔ given.Takes [(name, t)] given' := by
  obtain ⟨o, o', o''⟩ := given
  obtain ⟨u, u', u''⟩ := given'
  rw [give?, Given.takes_iff]
  split_ifs with h h' h''
  · subst h
    rw [under_self, under_other (by decide), under_other (by decide), Option.map_eq_some_iff]
    simp only [fill_eq_some_iff fun _ _ => switch?_eq_some_iff, filled_nil_iff, Given.mk.injEq]
    exact ⟨fun ⟨_, h, e, kept⟩ => ⟨e ▸ h, kept⟩, fun ⟨h, kept⟩ => ⟨_, h, rfl, kept⟩⟩
  · subst h'
    rw [under_self, under_other (by decide), under_other (by decide), Option.map_eq_some_iff]
    simp only [fill_eq_some_iff fun _ _ => policy?_eq_some_iff, filled_nil_iff, Given.mk.injEq]
    exact ⟨fun ⟨_, h, kept, e, kept'⟩ => ⟨kept, e ▸ h, kept'⟩,
      fun ⟨kept, h, kept'⟩ => ⟨_, h, kept, rfl, kept'⟩⟩
  · subst h''
    rw [under_self, under_other (by decide), under_other (by decide), Option.map_eq_some_iff]
    simp only [fill_eq_some_iff fun _ _ => globals?_eq_some_iff, filled_nil_iff, Given.mk.injEq]
    exact ⟨fun ⟨_, h, kept, kept', e⟩ => ⟨kept, kept', e ▸ h⟩,
      fun ⟨kept, kept', h⟩ => ⟨_, h, kept, kept', rfl⟩⟩
  · rw [under_other h, under_other h', under_other h'', Option.some_inj]
    simp only [filled_nil_iff, Given.mk.injEq]

theorem giveAll?_eq_some_iff :
    giveAll? given offers = some given' ↔ given.Takes offers given' := by
  induction offers generalizing given with
  | nil => rw [giveAll?, takes_nil_iff, Option.some_inj]
  | cons o rest ih =>
    obtain ⟨name, t⟩ := o
    rw [giveAll?, takes_cons_iff, Option.bind_eq_some_iff]
    simp only [give?_eq_some_iff, ih]

/-- The values as they come settle each field by its own. -/
theorem complete_giveAll?_eq_some_iff :
    (giveAll? {} offers).map Given.complete = some c ↔ Stated offers c := by
  rw [Option.map_eq_some_iff]
  constructor
  · rintro ⟨given, h, rfl⟩
    obtain ⟨h, h', h''⟩ := giveAll?_eq_some_iff.mp h
    exact ⟨settled_iff.mpr ⟨_, h, rfl⟩, settled_iff.mpr ⟨_, h', rfl⟩, settled_iff.mpr ⟨_, h'', rfl⟩⟩
  · rintro ⟨h, h', h''⟩
    obtain ⟨o, filled, he⟩ := settled_iff.mp h
    obtain ⟨o', filled', he'⟩ := settled_iff.mp h'
    obtain ⟨o'', filled'', he''⟩ := settled_iff.mp h''
    refine ⟨⟨o, o', o''⟩, giveAll?_eq_some_iff.mpr ⟨filled, filled', filled''⟩, ?_⟩
    rw [Given.complete, he, he', he'']

end Stencil.Config
