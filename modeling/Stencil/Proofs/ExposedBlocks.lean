import Stencil.Proofs.Markup.OpenTags
import Stencil.Proofs.Markup.Steady
import Stencil.Proofs.Renders

/-!
# The blocks that a template exposes

A loaded template exposes the blocks whose tags the text of its source shows, whereas the engine has
those that its tags declare. The two differ in the tags in comments, raw sections and quoted texts,
and in nothing else (`exposed_blocks`). A block that the source declares is found when it is
selected. One that it does not may be unknown then, as no check is made before
(`covered_block_exposed`).
-/

namespace Stencil

variable {Ω σ : Type}

namespace Markup

-- ---------------------------------------------------------------------------
-- Names in order
-- ---------------------------------------------------------------------------

namespace Declared

theorem mem_firstOnly {names : List String} {name : String} :
    name ∈ firstOnly names ↔ name ∈ names := by
  induction names with
  | nil => rfl
  | cons first rest ih =>
    by_cases h : name = first
    · simp [firstOnly, h]
    · simp [firstOnly, h, ih]

theorem nodup_firstOnly (names : List String) : (firstOnly names).Nodup := by
  induction names with
  | nil => exact List.nodup_nil
  | cons first rest ih =>
    refine List.nodup_cons.mpr ⟨?_, ih.filter _⟩
    simp

theorem firstOnly_of_nodup {names : List String} (h : names.Nodup) : firstOnly names = names := by
  induction names with
  | nil => rfl
  | cons first rest ih =>
    obtain ⟨hf, hr⟩ := List.nodup_cons.mp h
    rw [firstOnly, ih hr, List.filter_eq_self.mpr]
    rintro name hn
    simpa using fun he : name = first => hf (he ▸ hn)

end Declared

theorem mem_openNames {s : List Spot} {name : String} :
    name ∈ openNames s ↔ ⟨name, false⟩ ∈ sightings s := by
  simp only [openNames, List.mem_map, List.mem_filter, Bool.not_eq_true']
  constructor
  · rintro ⟨⟨n, b⟩, ⟨hm, rfl⟩, rfl⟩
    exact hm
  · exact fun h => ⟨_, ⟨h, rfl⟩, rfl⟩

theorem openNames_of_none_covered {s : List Spot} (h : ∀ x ∈ sightings s, x.covered = false) :
    openNames s = (sightings s).map (·.name) := by
  rw [openNames, List.filter_eq_self.mpr]
  simpa using h

theorem blockNames_eq (source : String) :
    Declared.blockNames source = Declared.firstOnly ((sightings (places source)).map (·.name)) := by
  rw [names_sightings_places]
  rfl

/-- What the text of a source shows is what its tags name, at open places or at covered ones. -/
theorem mem_blockNames {source name : String} : name ∈ Declared.blockNames source ↔
    name ∈ openNames (places source) ∨ ⟨name, true⟩ ∈ sightings (places source) := by
  rw [blockNames_eq, Declared.mem_firstOnly, mem_openNames, List.mem_map]
  constructor
  · rintro ⟨⟨n, b⟩, hm, rfl⟩
    cases b with
    | false => exact .inl hm
    | true => exact .inr hm
  · rintro (hm | hm) <;> exact ⟨_, hm, rfl⟩

/-- A loaded template has its blocks in the order in which the text shows them. -/
theorem Library.blockNames_template (l : Library) (name source : String) :
    (l.template name source : Template Ω).blockNames = Declared.blockNames source := by
  have added (names : List String) (whole : Template Ω) (hn : names.Nodup)
      (apart : ∀ b ∈ names, b ∉ whole.blockNames) :
      (names.foldl (fun whole block =>
        whole.withBlock block (.ofBody (l.bodyOf name (some block)))) whole).blockNames =
          whole.blockNames ++ names := by
    induction names generalizing whole with
    | nil => exact (List.append_nil _).symm
    | cons b rest ih =>
      obtain ⟨hb, hr⟩ := List.nodup_cons.mp hn
      obtain ⟨new, others⟩ := List.forall_mem_cons.mp apart
      have one : (whole.withBlock b (.ofBody (l.bodyOf name (some b)))).blockNames =
          whole.blockNames ++ [b] := (Entries.keys_insert ..).trans (if_neg new)
      rw [List.foldl_cons, ih _ hr, one, List.append_assoc]
      · rfl
      · intro c hc
        rw [one, List.mem_append, List.mem_singleton]
        rintro (h | rfl)
        · exact others c hc h
        · exact hb hc
  exact added _ _ (Declared.nodup_firstOnly _) (fun _ _ => List.not_mem_nil)

-- ---------------------------------------------------------------------------
-- Engines that read blocks
-- ---------------------------------------------------------------------------

/-- How an engine reads the blocks of sources: where a source compiles, its tags keep to the syntax,
and its blocks are those that they declare, each under a name of its own. A template that was
rendered has the blocks of its source, and no block is rendered that it does not have. -/
structure Environment.ReadsBlocks (env : Environment) (blocksOf : String → List String) :
    Prop where
  proper : ∀ {name source}, env.compile name source = .ok () → Proper (places source)
  declared : ∀ {name source}, env.compile name source = .ok () →
    blocksOf source = declaredNames (places source)
  once : ∀ {name source}, env.compile name source = .ok () → (blocksOf source).Nodup
  kept : ∀ (scene : Scene) {source}, scene.sources.get? scene.name = some source →
    env.compile scene.name source = .ok () →
    (env.capture scene).Gives fun captured => ∀ b ∈ blocksOf source, b ∈ captured.blocks
  unknown : ∀ scene, (env.capture scene).Gives fun captured => ∀ b ∉ captured.blocks,
    ∃ f : Failure, f.kind = "unknown block" ∧ captured.renderBlock b = .done (.error f)

/-- How the render of a whole template ends, before a block of it is rendered. -/
def Library.ended (l : Library) (host : Host Ω σ) (helpers : HelperTable Ω) (name : String)
    (context : Value) (s : σ) : Except Failure Captured × σ :=
  (l.settings.capture ⟨l.sources, helpers.names, name, context⟩).run (helpers.dispatcher host)
    context s

/-- What the selection of a block comes to, by how the render of the whole template ends. -/
structure Selected (host : Host Ω σ) (helpers : HelperTable Ω) (l : Library)
    (blocksOf : String → List String) (name source : String) (context : Value) (s : σ) (b : String)
    (part : Template Ω) : Prop where
  failed : ∀ {f s'}, l.ended host helpers name context s = (.error f, s') →
    part.run host helpers context s = (some "", host.log (.engineFailed name f) s')
  /-- A block that the source declares is there. -/
  found : ∀ {captured s'}, l.ended host helpers name context s = (.ok captured, s') →
    b ∈ blocksOf source → b ∈ captured.blocks
  rendered : ∀ {captured s'}, l.ended host helpers name context s = (.ok captured, s') →
    part.run host helpers context s =
      match (captured.renderBlock b).run (helpers.dispatcher host) context s' with
      | (.ok text, s) => (some text, s)
      | (.error f, s) => (some "", host.log (.engineFailed name f) s)
  /-- A block that is not there is unknown. -/
  unknown : ∀ {captured s'}, l.ended host helpers name context s = (.ok captured, s') →
    b ∉ captured.blocks → ∃ f : Failure, f.kind = "unknown block" ∧
      part.run host helpers context s = (some "", host.log (.engineFailed name f) s')

theorem Environment.ReadsBlocks.selects {l : Library} {blocksOf : String → List String}
    (engine : l.settings.ReadsBlocks blocksOf) {name source : String}
    (hs : l.source? name = some source) (hc : l.settings.compile name source = .ok ()) {b : String}
    {part : Template Ω} (hb : part.body = l.bodyOf name (some b)) (host : Host Ω σ)
    (helpers : HelperTable Ω) (context : Value) (s : σ) :
    Selected host helpers l blocksOf name source context s b part := by
  let scene : Scene := ⟨l.sources, helpers.names, name, context⟩
  have ran : part.run host helpers context s = match l.ended host helpers name context s with
      | (.error f, s) => (some "", host.log (.engineFailed name f) s)
      | (.ok captured, s) =>
        match (captured.renderBlock b).run (helpers.dispatcher host) context s with
        | (.ok text, s) => (some text, s)
        | (.error f, s) => (some "", host.log (.engineFailed name f) s) := by
    rw [Library.run_of_body hb, Library.rendering, renderPart, Rendering.run_bind, Library.ended]
    generalize Rendering.run _ _ _ s = ended
    obtain ⟨r, s⟩ := ended
    cases r <;> rfl
  refine ⟨fun hr => ?_, fun hr => (engine.kept scene hs hc).run hr b, fun hr => ?_,
    fun hr absent => ?_⟩
  · rwa [hr] at ran
  · rwa [hr] at ran
  · obtain ⟨f, kind, ends⟩ := (engine.unknown scene).run hr b absent
    simp only [hr, ends, Rendering.run] at ran
    exact ⟨f, kind, ran⟩

-- ---------------------------------------------------------------------------
-- The engine that is written out
-- ---------------------------------------------------------------------------

namespace Settings

def blocksOf (settings : Settings) (source : String) : List String :=
  match Syntax.read settings source with
  | .ok t => t.blocks.map Prod.fst
  | .error _ => []

variable {settings : Settings} {source : String} {t : Syntax}

theorem blocksOf_of_read (ht : Syntax.read settings source = .ok t) :
    settings.blocksOf source = t.blocks.map Prod.fst := by
  unfold blocksOf
  rw [ht]

theorem capture_eq (settings : Settings) (scene : Scene) : settings.environment.capture scene =
    (Engine.whole ⟨scene, settings⟩).bind fun
      | .ok (text, m) => .done (.ok (Engine.captured ⟨scene, settings⟩ text m))
      | .error f => .done (.error f.failure) :=
  rfl

end Settings

theorem Engine.printedBy_of_unknown {again : List Statement → Engine String} {b : String}
    {setup : Setup} {m : Machine} (h : m.blocks.get? b = none) :
    printedBy (renderBlock again b setup m) = .done (.error Fault.unknownBlock.failure) := by
  have failed : renderBlock again b setup m = .done (.error .unknownBlock) := by
    unfold renderBlock
    rw [run_get, h]
    rfl
  rw [failed]
  rfl

namespace Settings

theorem readsBlocks (settings : Settings) :
    settings.environment.ReadsBlocks settings.blocksOf where
  proper h := by
    obtain ⟨t, ht⟩ := compile_eq_ok_iff.mp h
    exact (blocks_of_read ht).2.2
  declared h := by
    obtain ⟨t, ht⟩ := compile_eq_ok_iff.mp h
    exact (blocksOf_of_read ht).trans (blocks_of_read ht).1
  once h := by
    obtain ⟨t, ht⟩ := compile_eq_ok_iff.mp h
    exact blocksOf_of_read ht ▸ (blocks_of_read ht).2.1
  kept scene source hs h := by
    obtain ⟨t, ht⟩ := compile_eq_ok_iff.mp h
    rw [capture_eq, blocksOf_of_read ht]
    refine (Engine.whole_keeps ⟨scene, settings⟩ hs ht).bind (fun f => trivial) ?_
    rintro ⟨text, m⟩ kept
    exact kept
  unknown scene := by
    have anything (c : Rendering (Except Fault (String × Machine))) : c.Gives fun _ => True := by
      induction c with
      | done r => cases r <;> trivial
      | call name args next ih => exact ih
    rw [capture_eq]
    refine (anything _).bind (fun f => trivial) ?_
    rintro ⟨text, m⟩ -
    intro b absent
    refine ⟨Fault.unknownBlock.failure, rfl, ?_⟩
    have none : m.blocks.get? b = none :=
      Option.not_isSome_iff_eq_none.mp (mt (Entries.get?_isSome_iff ..).mp absent)
    exact Engine.printedBy_of_unknown none

end Settings

/-- With the engine that is written out, a block is rendered so. -/
theorem Library.rendering_block {settings : Settings} {sources : Entries String}
    {name source : String} {t : Syntax} (hs : sources.get? name = some source)
    (ht : Syntax.read settings source = .ok t) (functions : List String) (context : Value)
    (b : String) :
    let setup : Setup := ⟨⟨sources, functions, name, context⟩, settings⟩
    rendering { settings := settings, sources } functions name (some b) context =
      Rendering.bind (Engine.render (Engine.levels setup) t.body setup (Engine.start setup t)) fun
        | .ok (_, m) => Engine.printedBy
            (Engine.renderBlock (Engine.render (Engine.levels setup)) b setup m)
        | .error f => .done (.error f.failure) := by
  intro setup
  have whole := Engine.whole_of_read setup hs ht
  show ((Settings.environment settings).capture setup.toScene).bind _ = _
  rw [Settings.capture_eq, whole, Rendering.bind_assoc]
  refine congrArg _ (funext fun r => ?_)
  cases r <;> rfl

-- ---------------------------------------------------------------------------
-- A page with a comment
-- ---------------------------------------------------------------------------

def coveredSource : String :=
  "\x7b# \x7b% block fake %\x7d #\x7d\x7b% block real %\x7dhi\x7b% endblock %\x7d"

def coveredPage : Library := { settings := ({} : Settings), sources := [("t", coveredSource)] }

def coveredSyntax : Syntax := ⟨[.block "real" [.text "hi"]], [("real", [.text "hi"])]⟩

set_option maxRecDepth 100000 in
theorem read_coveredSource : Syntax.read {} coveredSource = .ok coveredSyntax := by
  have tokens : Token.ofSource {} coveredSource =
      [.openBlock, .name "block", .name "real", .closeBlock, .text ['h', 'i'], .openBlock,
        .name "endblock", .closeBlock] := by decide +kernel
  unfold Syntax.read
  rw [tokens]
  cbv

theorem compile_coveredPage : coveredPage.settings.compile "t" coveredSource = .ok () := by
  rw [show coveredPage.settings = Settings.environment {} from rfl, Settings.compile_eq_ok_iff]
  exact ⟨_, read_coveredSource⟩

theorem sightings_coveredSource :
    sightings (places coveredSource) = [⟨"fake", true⟩, ⟨"real", false⟩] := by
  decide +kernel

-- ---------------------------------------------------------------------------
-- Blocks that are exposed
-- ---------------------------------------------------------------------------

/-- The search comes upon the blocks of a source that compiles, once and in the order of their tags,
and if there are no other block tags, these are the blocks that the loaded template exposes.
Otherwise it exposes those that tags in comments, raw sections and quoted texts name as well. A
block of the source is always there when it is selected. -/
theorem exposed_blocks (l : Library) {blocksOf : String → List String}
    (engine : l.settings.ReadsBlocks blocksOf) {name source : String}
    (hs : l.source? name = some source) (hc : l.settings.compile name source = .ok ()) :
    let tmpl : Template Ω := l.template name source
    let seen := sightings (places source)
    l.load name = .done (.template tmpl) ∧
    blocksOf source = openNames (places source) ∧ (blocksOf source).Nodup ∧
    tmpl.blockNames = Declared.firstOnly (seen.map (·.name)) ∧ tmpl.blockNames.Nodup ∧
    (∀ b, b ∈ tmpl.blockNames ↔ b ∈ blocksOf source ∨ ⟨b, true⟩ ∈ seen) ∧
    ((∀ x ∈ seen, x.covered = false) → tmpl.blockNames = blocksOf source) ∧
    ∀ b ∈ tmpl.blockNames, ∃ part, tmpl.block? b = some part ∧
      ∀ (host : Host Ω σ) (helpers : HelperTable Ω) (context : Value) (s : σ),
        Selected host helpers l blocksOf name source context s b part := by
  intro tmpl seen
  have exposed : tmpl.blockNames = Declared.blockNames source := l.blockNames_template name source
  have declared : blocksOf source = openNames (places source) :=
    (engine.declared hc).trans
      (openNames_eq_declaredNames (Nat.lt_succ_self _) (engine.proper hc)).symm
  have once := engine.once hc
  refine ⟨?_, declared, once, exposed.trans (blockNames_eq source), ?_, fun b => ?_, fun h => ?_,
    fun b hb => ?_⟩
  · rw [Library.load_of_source hs, Library.compiled_of_ok hc]
  · rw [exposed]
    exact Declared.nodup_firstOnly _
  · rw [exposed, declared]
    exact mem_blockNames
  · rw [exposed, blockNames_eq, ← openNames_of_none_covered h, ← declared]
    exact Declared.firstOnly_of_nodup once
  · refine ⟨.ofBody (l.bodyOf name (some b)), ?_, engine.selects hs hc rfl⟩
    rw [l.block?_template name source b, if_pos (exposed ▸ hb)]

theorem exposed_blocks_page :
    let tmpl : Template Unit := coveredPage.template "t" coveredSource
    tmpl.blockNames = ["fake", "real"] ∧ Settings.blocksOf {} coveredSource = ["real"] ∧
      ∃ part, tmpl.block? "real" = some part ∧
        Selected Host.logging (HelperTable.empty : HelperTable Unit) coveredPage
          (Settings.blocksOf {}) "t" coveredSource .null [] "real" part := by
  obtain ⟨-, declared, -, exposed, -, -, -, selects⟩ := exposed_blocks (Ω := Unit)
    (σ := List Record) coveredPage (Settings.readsBlocks {})
    (show coveredPage.source? "t" = some coveredSource from rfl) compile_coveredPage
  have names : (coveredPage.template "t" coveredSource : Template Unit).blockNames =
      ["fake", "real"] := by
    rw [exposed, sightings_coveredSource]
    decide
  obtain ⟨part, hpart, selected⟩ := selects "real" (by simp [names])
  refine ⟨names, ?_, part, hpart, selected ..⟩
  rw [declared, openNames, sightings_coveredSource]
  decide

/-- A block tag in a comment counts as one of the template, and its block is unknown when it is
selected. -/
theorem covered_block_exposed :
    (¬ ∀ (source : String), coveredPage.settings.compile "t" source = .ok () →
      Declared.blockNames source = declaredNames (places source)) ∧
    ∃ part, (coveredPage.template "t" coveredSource : Template Unit).block? "fake" = some part ∧
      part.run Host.logging .empty .null [] =
        (some "", [.engineFailed "t" Fault.unknownBlock.failure]) := by
  refine ⟨fun h => ?_, ?_⟩
  · have same := h coveredSource compile_coveredPage
    rw [blockNames_eq, sightings_coveredSource] at same
    exact absurd same (by decide +kernel)
  · refine ⟨.ofBody (coveredPage.bodyOf "t" (some "fake")), ?_, ?_⟩
    · rw [Library.block?_template, if_pos]
      rw [blockNames_eq, sightings_coveredSource]
      decide
    · have hs : Entries.get? [("t", coveredSource)] "t" = some coveredSource := rfl
      rw [Library.run_of_body rfl, coveredPage, Library.rendering_block hs read_coveredSource]
      decide +kernel

end Markup
end Stencil
