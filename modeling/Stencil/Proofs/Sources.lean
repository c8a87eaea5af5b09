import Mathlib.Data.List.Induction
import Stencil.Markup.Loader
import Stencil.Markup.Render

/-!
# Sources under their names

The last source that was added under a name is the one that is loaded, where names count as the same
if their normal forms are. It is kept under the normal form of the name, and only there: a name with
a backslash is not its own normal form, so nothing is ever loaded under it.
-/

namespace Stencil.Markup.Library

variable {Ω : Type}

def ofAdded (env : Environment) (added : List (String × String)) : Library :=
  added.foldl (fun l e => l.add e.1 e.2) { settings := env }

/-- The source that was added last under a name that has the normal form of this one. -/
def lastAdded? (added : List (String × String)) (name : String) : Option String :=
  (added.filter fun e => normalize e.1 = normalize name).getLast?.map Prod.snd

def compiled (l : Library) (name source : String) : Outcome (Template Ω) :=
  match l.settings.compile name source with
  | .ok _ => .template (l.template name source)
  | .error f => .failed f.text

def absent (name : String) : Code Ω (Outcome (Template Ω)) := .log (.noSource name) (.done .nothing)

-- ---------------------------------------------------------------------------
-- Normal forms
-- ---------------------------------------------------------------------------

theorem toList_normalize (name : String) :
    (normalize name).toList = name.toList.map fun c => if c = '\\' then '/' else c := by
  simp [normalize]

theorem backslash_notMem_normalize (name : String) : '\\' ∉ (normalize name).toList := by
  rw [toList_normalize, List.mem_map]
  rintro ⟨c, -, hc⟩
  split at hc
  · cases hc
  · contradiction

theorem normalize_of_notMem {name : String} (h : '\\' ∉ name.toList) : normalize name = name := by
  apply String.ext
  rw [toList_normalize]
  refine (List.map_congr_left fun c hc => if_neg ?_).trans (List.map_id _)
  rintro rfl
  exact h hc

theorem normalize_normalize (name : String) : normalize (normalize name) = normalize name :=
  normalize_of_notMem (backslash_notMem_normalize name)

-- ---------------------------------------------------------------------------
-- What a library holds
-- ---------------------------------------------------------------------------

theorem settings_ofAdded (env : Environment) (added : List (String × String)) :
    (ofAdded env added).settings = env := by
  induction added using List.reverseRecOn with
  | nil => rfl
  | append_singleton added e ih =>
    rw [ofAdded, List.foldl_append]
    exact ih

theorem source?_ofAdded (env : Environment) (added : List (String × String)) (name : String) :
    (ofAdded env added).source? name =
      (added.filter fun e => normalize e.1 = name).getLast?.map Prod.snd := by
  -- the last source is the one that counts, so the induction is from the end
  induction added using List.reverseRecOn with
  | nil => rfl
  | append_singleton added e ih =>
    have hadd : (ofAdded env (added ++ [e])).source? name =
        if normalize e.1 = name then some e.2 else (ofAdded env added).source? name := by
      rw [ofAdded, List.foldl_append]
      exact Entries.get?_insert ..
    rw [hadd, List.filter_append]
    by_cases he : normalize e.1 = name
    · simp [he]
    · simp [he, ih]

theorem source?_normalize (env : Environment) (added : List (String × String)) (name : String) :
    (ofAdded env added).source? (normalize name) = lastAdded? added name :=
  source?_ofAdded env added (normalize name)

theorem source?_of_backslash {name : String} (h : '\\' ∈ name.toList) (env : Environment)
    (added : List (String × String)) : (ofAdded env added).source? name = none := by
  rw [source?_ofAdded, List.filter_eq_nil_iff.mpr]
  · rfl
  · intro e _ he
    exact backslash_notMem_normalize e.1 (of_decide_eq_true he ▸ h)

-- ---------------------------------------------------------------------------
-- Loading
-- ---------------------------------------------------------------------------

theorem load_of_source {l : Library} {name source : String} (h : l.source? name = some source) :
    (l.load name : Code Ω (Outcome (Template Ω))) = .done (l.compiled name source) := by
  unfold load compiled
  simp only [h]
  cases l.settings.compile name source <;> rfl

theorem compiled_of_error {l : Library} {name source : String} {f : Failure}
    (h : l.settings.compile name source = .error f) :
    (l.compiled name source : Outcome (Template Ω)) = .failed f.text := by
  unfold compiled
  simp only [h]

theorem compiled_of_ok {l : Library} {name source : String}
    (h : l.settings.compile name source = .ok ()) :
    (l.compiled name source : Outcome (Template Ω)) = .template (l.template name source) := by
  unfold compiled
  simp only [h]

theorem load_of_no_source {l : Library} {name : String} (h : l.source? name = none) :
    (l.load name : Code Ω (Outcome (Template Ω))) = absent name := by
  unfold load absent
  simp only [h]

theorem body_template (l : Library) (name source : String) :
    (l.template name source : Template Ω).body = l.bodyOf name none := by
  have kept (blocks : List String) (whole : Template Ω) :
      (blocks.foldl (fun whole block =>
        whole.withBlock block (.ofBody (l.bodyOf name (some block)))) whole).body =
        whole.body := by
    induction blocks generalizing whole with
    | nil => rfl
    | cons block rest ih => rw [List.foldl_cons, ih, Template.withBlock, Template.body]
  rw [template, kept, Template.ofBody, Template.body]

theorem load_normalize (env : Environment) {added : List (String × String)}
    {name source : String} (h : lastAdded? added name = some source) :
    ((ofAdded env added).load (normalize name) : Code Ω (Outcome (Template Ω))) =
      .done ((ofAdded env added).compiled (normalize name) source) :=
  load_of_source ((source?_normalize env added name).trans h)

theorem lastAdded?_of_mem {added : List (String × String)} {name : String}
    (h : ∃ e ∈ added, normalize e.1 = normalize name) :
    ∃ source, lastAdded? added name = some source := by
  obtain ⟨e, he, hn⟩ := h
  have hne : (added.filter fun e => normalize e.1 = normalize name) ≠ [] :=
    List.ne_nil_of_mem (List.mem_filter.mpr ⟨he, decide_eq_true hn⟩)
  exact ⟨_, by rw [lastAdded?, List.getLast?_eq_some_getLast hne, Option.map_some]⟩

theorem load_of_not_added (env : Environment) {added : List (String × String)} {name : String}
    (h : ∀ e ∈ added, normalize e.1 ≠ normalize name) :
    ((ofAdded env added).load name : Code Ω (Outcome (Template Ω))) = absent name := by
  refine load_of_no_source ?_
  rw [source?_ofAdded, List.filter_eq_nil_iff.mpr]
  · rfl
  · intro e he hn
    -- a normal form that is the name itself is that of the name as well
    have hn := of_decide_eq_true hn
    exact h e he (by rw [← hn, normalize_normalize])

/-- What is loaded under a name, whatever the engine is. Under the normal form of a name that was
added, it is the source that came last under a name with this normal form: it fails to load if it
does not compile, and is rendered otherwise. A name without a backslash is its own normal form.
Under a name with one, added or not, there is nothing, and neither is there under a name whose
normal form was never added. -/
theorem load_last_added (env : Environment) (added : List (String × String)) (name : String) :
    let l := ofAdded env added
    ((∃ e ∈ added, normalize e.1 = normalize name) →
      ∃ source, lastAdded? added name = some source ∧
        l.source? (normalize name) = some source ∧ l.settings = env ∧
        (∀ f, env.compile (normalize name) source = .error f →
          (l.load (normalize name) : Code Ω (Outcome (Template Ω))) = .done (.failed f.text)) ∧
        (env.compile (normalize name) source = .ok () → ∃ whole : Template Ω,
          l.load (normalize name) = .done (.template whole) ∧
            whole.body = l.bodyOf (normalize name) none)) ∧
    ('\\' ∉ name.toList → normalize name = name) ∧
    ('\\' ∈ name.toList → (l.load name : Code Ω (Outcome (Template Ω))) = absent name) ∧
    ((∀ e ∈ added, normalize e.1 ≠ normalize name) →
      (l.load name : Code Ω (Outcome (Template Ω))) = absent name) := by
  intro l
  have hs : l.settings = env := settings_ofAdded env added
  refine ⟨fun h => ?_, normalize_of_notMem,
    fun h => load_of_no_source (source?_of_backslash h env added), load_of_not_added env⟩
  obtain ⟨source, hsource⟩ := lastAdded?_of_mem h
  have hload := load_normalize (Ω := Ω) env hsource
  refine ⟨source, hsource, (source?_normalize env added name).trans hsource, hs, fun f hf => ?_,
    fun ok => ⟨_, ?_, body_template l _ source⟩⟩
  · rw [hload, compiled_of_error (f := f) (by rwa [hs])]
  · rw [hload, compiled_of_ok (by rwa [hs])]

theorem load_last_added_page :
    let l := ofAdded ({} : Settings) [("a\\b", "old"), ("a/b", "new")]
    ∃ whole : Template Unit, l.load "a/b" = .done (.template whole) ∧
      l.source? "a/b" = some "new" ∧
      l.load "a\\b" = (absent "a\\b" : Code Unit (Outcome (Template Unit))) := by
  intro l
  obtain ⟨source, hsource, held, -, -, h⟩ := (load_last_added (Ω := Unit) ({} : Settings)
    [("a\\b", "old"), ("a/b", "new")] "a/b").1 ⟨("a/b", "new"), by decide⟩
  cases hsource
  obtain ⟨whole, hload, -⟩ := h (by rfl)
  exact ⟨whole, hload, held, (load_last_added (Ω := Unit) ({} : Settings)
    [("a\\b", "old"), ("a/b", "new")] "a\\b").2.2.1 (by decide)⟩

/-- A source that is added under a name with a backslash is not there under that name. -/
theorem added_name_lost :
    ¬ ∀ (added : List (String × String)) (name : String), name ∈ added.map Prod.fst →
      ((ofAdded ({} : Settings) added).load name : Code Unit (Outcome (Template Unit))) ≠
        absent name :=
  fun h => h [("a\\b", "hi")] "a\\b" (by decide) rfl

end Stencil.Markup.Library
