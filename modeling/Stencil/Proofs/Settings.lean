import Stencil.Config.Source
import Stencil.Proofs.Documents
import Stencil.Proofs.Json.Skipping

/-!
# Reading settings

The settings are read from every layout of a document, and they are what the document says
(`gives_config`). Whatever a reader finds in place of the value that is due, it ends with an error.
-/

namespace Stencil.Config

open Json Json.Reader

variable {α : Type} {t : Tree} {text rest : List Char}

-- ---------------------------------------------------------------------------
-- Refusals
-- ---------------------------------------------------------------------------

theorem refuse_fails (expected : String) (s : List Char) :
    ∃ e, (refuse expected : Reader α) s = .error e := by
  have named (found : Reader Found) (s : List Char) :
      ∃ e, (found >>= fun found => (fail (.invalidType found expected) : Reader α)) s = .error e :=
    bind_fails fun _ _ => ⟨_, rfl⟩
  unfold refuse
  refine bind_fails fun c s => ?_
  split
  · exact bind_fails fun _ s => bind_fails fun _ s => named _ s
  · exact bind_fails fun _ s => bind_fails fun _ s => named _ s
  · exact bind_fails fun _ s => bind_fails fun _ s => named _ s
  · exact bind_fails fun _ s => bind_fails fun _ s => named _ s
  · exact named _ s
  · exact named _ s
  · split
    · refine bind_fails fun n s => ?_
      cases n with
      | int i => exact named _ s
      | float x => exact named _ s
    · exact named _ s
  · exact named _ s

theorem duplicate_fails (name : String) (s : List Char) :
    ∃ e, (duplicate name : Reader α) s = .error e := by
  unfold duplicate
  refine bind_fails fun c s => ?_
  split
  · exact bind_fails fun _ _ => ⟨_, rfl⟩
  · exact ⟨_, rfl⟩

/-- What the character that a value starts with tells of the value. -/
structure Opens (c : Char) (t : Tree) : Prop where
  null : c = 'n' → t = .null
  bool : c = 't' ∨ c = 'f' → ∃ b, t = .bool b
  string : c = '"' → ∃ s, t = .string s
  array : c = '[' → ∃ items, t = .array items
  object : c = '\x7b' → ∃ members, t = .object members

theorem opens_numeral (n : Numeral) {c : Char} (hc : c = '-' ∨ c.isDigit = true) :
    Opens c (.number n) := by
  obtain ⟨hn, ht, hf, quote, bracket, brace⟩ := ne_of_numeral hc
  exact {
    null := fun h => absurd h hn
    bool := fun h => absurd h (not_or.mpr ⟨ht, hf⟩)
    string := fun h => absurd h quote
    array := fun h => absurd h bracket
    object := fun h => absurd h brace }

theorem peek_tree (h : Laid t.tokens text rest) :
    ∃ c s, peek? text = .ok (some c, s) ∧ Opens c t := by
  have found {c : Char} {s : List Char} {us : List Token} (h : Laid ((c :: s) :: us) text rest)
      (blank : isBlank c = false) (opens : Opens c t) :
      ∃ c s, peek? text = .ok (some c, s) ∧ Opens c t := by
    obtain ⟨text', hp, -⟩ := h.peek blank
    exact ⟨c, _, hp, opens⟩
  cases t with
  | null => exact found (c := 'n') h (by decide) (by constructor <;> simp)
  | bool b =>
    cases b with
    | true => exact found (c := 't') h (by decide) (by constructor <;> simp)
    | false => exact found (c := 'f') h (by decide) (by constructor <;> simp)
  | number n =>
    obtain ⟨c, s, hs, hc⟩ := n.exists_token_eq
    rw [Tree.tokens, hs] at h
    refine found h ?_ (opens_numeral n hc)
    rcases hc with rfl | hc
    · decide
    · exact isBlank_of_isDigit hc
  | string s => exact found (c := '"') h (by decide) (by constructor <;> simp)
  | array items => exact found (c := '[') h (by decide) (by constructor <;> simp)
  | object members => exact found (c := '\x7b') h (by decide) (by constructor <;> simp)

-- ---------------------------------------------------------------------------
-- Values of fields
-- ---------------------------------------------------------------------------

theorem gives_switch (h : Laid t.tokens text rest) : Gives (readBool text) (switch? t) rest := by
  obtain ⟨c, s, hp, opens⟩ := peek_tree h
  by_cases hb : ∃ b, t = .bool b
  · obtain ⟨b, rfl⟩ := hb
    cases b with
    | true =>
      obtain ⟨text', hp, h⟩ := Laid.peek h (by decide)
      rw [readBool, bind_of_ok hp, h.eq_of_nil]
      exact .reads _ _
    | false =>
      obtain ⟨text', hp, h⟩ := Laid.peek h (by decide)
      rw [readBool, bind_of_ok hp, h.eq_of_nil]
      exact .reads _ _
  · have none : switch? t = none := by
      rw [Option.eq_none_iff_forall_ne_some]
      exact fun b h => hb ⟨b, switch?_eq_some_iff.mp h⟩
    have ht : c ≠ 't' := fun hc => hb (opens.bool (.inl hc))
    have hf : c ≠ 'f' := fun hc => hb (opens.bool (.inr hc))
    rw [none, Gives.none_iff, readBool, bind_of_ok hp]
    simp only
    exact refuse_fails ..

theorem readUnit_null (h : Laid Tree.null.tokens text rest) : readUnit text = .ok ((), rest) := by
  obtain ⟨text', hp, h⟩ := Laid.peek h (by decide)
  rw [readUnit, bind_of_ok hp, h.eq_of_nil]
  rfl

theorem readUnit_other (h : Laid t.tokens text rest) (ht : t ≠ .null) :
    ∃ e, readUnit text = .error e := by
  obtain ⟨c, s, hp, opens⟩ := peek_tree h
  have hn : c ≠ 'n' := fun hc => ht (opens.null hc)
  rw [readUnit, bind_of_ok hp]
  simp only
  exact refuse_fails ..

theorem gives_globals (h : Laid t.tokens text rest) :
    Gives (readGlobals text) (globals? t) rest := by
  obtain ⟨c, s, hp, opens⟩ := peek_tree h
  by_cases hm : ∃ members, t = .object members
  · obtain ⟨members, rfl⟩ := hm
    obtain ⟨text', hp, h⟩ := Laid.peek_mark h (by decide)
    rw [readGlobals, bind_of_ok hp]
    show Gives ((advance >>= _) _) _ _
    rw [bind_of_ok (advance_cons ..), bind_get]
    exact gives_members _ members [] (Nat.lt_succ_of_lt (Tree.members_lt_length h)) h
  · have none : globals? t = none := by
      cases t with
      | object members => exact absurd ⟨members, rfl⟩ hm
      | _ => rfl
    have ho : c ≠ '\x7b' := fun hc => hm (opens.object hc)
    rw [none, Gives.none_iff, readGlobals, bind_of_ok hp]
    simp only
    exact refuse_fails ..

theorem gives_policyName (s : Quoted) (rest : List Char) :
    Gives (readPolicyName (s.token ++ rest)) (s.string?.bind fun name => policies.lookup name)
      rest := by
  rw [readPolicyName, Quoted.token, List.cons_append, List.append_assoc,
    bind_of_ok (advance_cons ..)]
  refine (gives_string s rest).bind fun name _ => ?_
  cases policies.lookup name with
  | some policy => exact .reads policy rest
  | none => exact .refuses _ rest

def closed? (policy : CachePolicy) : Tree → List (Quoted × Tree) → Option CachePolicy
  | .null, [] => some policy
  | _, _ => none

theorem policy?_object (k : Quoted) (t : Tree) (members : List (Quoted × Tree)) :
    policy? (.object ((k, t) :: members)) =
      (k.string?.bind fun name => policies.lookup name).bind fun policy =>
        closed? policy t members := by
  have refused {t : Tree} {members : List (Quoted × Tree)}
      (h : policy? (.object ((k, t) :: members)) = none) (h' : ∀ p, closed? p t members = none) :
      policy? (.object ((k, t) :: members)) =
        (k.string?.bind fun name => policies.lookup name).bind fun policy =>
          closed? policy t members := by
    simp [h, h']
  cases members with
  | cons m members => cases t <;> exact refused rfl fun _ => rfl
  | nil =>
    cases t with
    | null => exact (Option.bind_fun_some _).symm
    | _ => exact refused rfl fun _ => rfl

theorem gives_tagged {members : List (Quoted × Tree)}
    (h : Laid (Tree.object members).tokens text rest) :
    Gives (readPolicy text) (policy? (.object members)) rest := by
  obtain ⟨text, hp, h⟩ := Laid.peek_mark h (by decide)
  rw [readPolicy, bind_of_ok hp]
  show Gives ((advance >>= _) _) _ _
  rw [bind_of_ok (advance_cons ..)]
  cases members with
  | nil =>
    obtain ⟨text', hp, h⟩ := Laid.peek_mark h (by decide)
    rw [bind_of_ok hp]
    exact .refuses _ _
  | cons m members =>
    obtain ⟨k, t⟩ := m
    obtain ⟨text', hp, h⟩ := Laid.peek h (by decide)
    obtain ⟨behind, hc, h⟩ := colon_laid h
    obtain ⟨mid, value, others⟩ := h.split
    rw [bind_of_ok hp, policy?_object]
    refine (gives_policyName k text').bind fun policy _ => ?_
    show Gives ((colon >>= _) _) _ _
    rw [bind_of_ok hc]
    by_cases ht : t = .null
    · subst ht
      rw [bind_of_ok (readUnit_null value)]
      cases members with
      | nil =>
        obtain ⟨text'', hp, h⟩ := Laid.peek_mark others (by decide)
        rw [bind_of_ok hp, h.eq_of_nil]
        exact .reads policy rest
      | cons m members =>
        obtain ⟨text'', hp, -⟩ := Laid.peek_mark others (by decide)
        rw [bind_of_ok hp]
        exact .refuses _ rest
    · have none : closed? policy t members = none := by
        cases t with
        | null => exact absurd rfl ht
        | _ => rfl
      obtain ⟨e, he⟩ := readUnit_other value ht
      rw [none, bind_of_error he]
      exact .refuses e rest

theorem gives_policy (h : Laid t.tokens text rest) : Gives (readPolicy text) (policy? t) rest := by
  obtain ⟨c, s, hp, opens⟩ := peek_tree h
  by_cases hs : ∃ s, t = .string s
  · obtain ⟨s, rfl⟩ := hs
    obtain ⟨text', hp, h⟩ := Laid.peek h (by decide)
    rw [readPolicy, bind_of_ok hp, h.eq_of_nil]
    exact gives_policyName s rest
  by_cases hm : ∃ members, t = .object members
  · obtain ⟨members, rfl⟩ := hm
    exact gives_tagged h
  · have none : policy? t = none := by
      cases t with
      | string s => exact absurd ⟨s, rfl⟩ hs
      | object members => exact absurd ⟨members, rfl⟩ hm
      | _ => rfl
    have hq : c ≠ '"' := fun hc => hs (opens.string hc)
    have ho : c ≠ '\x7b' := fun hc => hm (opens.object hc)
    rw [none, Gives.none_iff, readPolicy, bind_of_ok hp]
    simp only
    exact ⟨_, rfl⟩

-- ---------------------------------------------------------------------------
-- Fields of an object
-- ---------------------------------------------------------------------------

variable {given : Given}

theorem gives_slot {read : Reader α} {value? : Tree → Option α} (o : Option α) (name : String)
    (set : Option α → Given) (h : Laid ([':'] :: t.tokens) text rest)
    (gives : ∀ {text}, Laid t.tokens text rest → Gives (read text) (value? t) rest) :
    let slot : Reader Given := colon >>= fun _ => read >>= fun a => pure (set (some a))
    Gives ((if o.isSome then duplicate name >>= fun _ : Unit => slot else slot) text)
      ((fill value? o t).map set) rest := by
  intro slot
  rw [fill]
  split
  · obtain ⟨e, he⟩ : ∃ e, (duplicate name : Reader Unit) text = .error e := duplicate_fails ..
    rw [bind_of_error he]
    exact .refuses e rest
  · obtain ⟨text', hc, h⟩ := colon_laid h
    rw [show slot text = _ from bind_of_ok hc, Option.map_map]
    exact (gives h).map _

theorem gives_field (given : Given) (name : String) (h : Laid ([':'] :: t.tokens) text rest)
    (ended : Ended rest) : Gives (readField given name text) (give? given name t) rest := by
  rw [give?]
  split_ifs with h₁ h₂ h₃
  · rw [h₁, readField.eq_1]
    exact gives_slot given.escapeHelper _ (fun o => { given with escapeHelper := o }) h gives_switch
  · rw [h₂, readField.eq_2]
    exact gives_slot given.cachePolicy _ (fun o => { given with cachePolicy := o }) h gives_policy
  · rw [h₃, readField.eq_3]
    exact gives_slot given.globals _ (fun o => { given with globals := o }) h gives_globals
  · obtain ⟨text', hc, h⟩ := colon_laid h
    rw [readField.eq_4 _ _ h₁ h₂ h₃, bind_of_ok hc, bind_of_ok (skipValue_tree t h ended)]
    exact .reads _ _

theorem gives_fields (members : List (Quoted × Tree)) {n : Nat} {first : Bool}
    (enough : members.length < n) (h : Laid (Tree.memberTokens first members) text rest) :
    Gives (readFields n first given text) ((named? members).bind (giveAll? given)) rest := by
  induction members generalizing n first given text with
  | nil =>
    obtain ⟨n, rfl⟩ := Nat.exists_eq_succ_of_ne_zero (Nat.ne_zero_of_lt enough)
    obtain ⟨text', he, h⟩ := hasKey_end first h
    rw [readFields, bind_of_ok he, h.eq_of_nil]
    exact .reads _ _
  | cons m members ih =>
    obtain ⟨k, t⟩ := m
    obtain ⟨n, rfl⟩ := Nat.exists_eq_succ_of_ne_zero (Nat.ne_zero_of_lt enough)
    obtain ⟨text', hk, h⟩ := hasKey_member h
    have parts : Laid (([':'] :: t.tokens) ++ Tree.memberTokens false members) text' rest := h
    obtain ⟨mid, field, others⟩ := parts.split
    have order : (named? ((k, t) :: members)).bind (giveAll? given) =
        k.string?.bind fun name => (give? given name t).bind fun given =>
          (named? members).bind (giveAll? given) := by
      rw [named?, Option.bind_assoc]
      congr 1
      funext name
      rw [Option.bind_map, Option.bind_comm]
      rfl
    rw [order, readFields, bind_of_ok hk]
    refine (gives_key k text').bind fun name _ => ?_
    refine (gives_field given name field (Tree.ended_memberTokens others)).bind fun given _ => ?_
    exact ih (Nat.lt_of_succ_lt_succ enough) others

-- ---------------------------------------------------------------------------
-- Fields of an array
-- ---------------------------------------------------------------------------

def place (first : Bool) (given : Given) (more : Reader Given) : Reader Given := do
  if ← hasElement first then more else return given

theorem place_end {first : Bool} (given : Given) (more : Reader Given)
    (h : Laid (Tree.itemTokens first []) text rest) :
    place first given more text = .ok (given, ']' :: rest) := by
  obtain ⟨text', he, h⟩ := hasElement_end first h
  rw [place, bind_of_ok he, h.eq_of_nil]
  rfl

theorem place_item {first : Bool} {items : List Tree}
    (h : Laid (Tree.itemTokens first (t :: items)) text rest) :
    ∃ text' mid, (∀ given more, place first given more text = more text') ∧
      Laid t.tokens text' mid ∧ Laid (Tree.itemTokens false items) mid rest := by
  obtain ⟨text', he, h⟩ := hasElement_item h
  obtain ⟨mid, item, others⟩ := h.split
  refine ⟨text', mid, fun given more => ?_, item, others⟩
  rw [place, bind_of_ok he]
  rfl

/-- The reader takes an item for each name, as long as there are any, if the fields are ready. -/
def ReadsInOrder (names : List String) (first : Bool) (ready : Given → Prop)
    (r : Given → Reader Given) : Prop :=
  ∀ {items text rest}, Laid (Tree.itemTokens first items) text rest →
    ∃ mid, (∀ given, ready given → Gives (r given text) (giveAll? given (names.zip items)) mid) ∧
      Laid (Tree.itemTokens false (items.drop names.length)) mid rest

theorem readsInOrder_nil (ready : Given → Prop) : ReadsInOrder [] false ready pure :=
  fun {_ text _} h => ⟨text, fun given _ => .reads given text, h⟩

theorem readsInOrder_cons {name : String} {names : List String} {first : Bool}
    {ready ready' : Given → Prop} {next : Given → Reader Given} {read : Reader α}
    {value? : Tree → Option α} {slot : Given → Option α} (set : Given → Option α → Given)
    (gives : ∀ {t text rest}, Laid t.tokens text rest → Gives (read text) (value? t) rest)
    (gave : ∀ given t, give? given name t = (fill value? (slot given) t).map (set given))
    (free : ∀ given, ready given → slot given = none)
    (onward : ∀ given, ready given → ∀ a, ready' (set given (some a)))
    (later : ReadsInOrder names false ready' next) :
    ReadsInOrder (name :: names) first ready fun given =>
      place first given (read >>= fun a => next (set given (some a))) := by
  intro items text rest h
  cases items with
  | nil =>
    refine ⟨']' :: rest, fun given _ => ?_, .cons [] [']'] nofun (.nil rest)⟩
    show Gives (place ..) _ _
    rw [place_end _ _ h]
    exact .reads _ _
  | cons t items =>
    obtain ⟨text', behind, placed, item, others⟩ := place_item h
    obtain ⟨mid, reads, left⟩ := later others
    refine ⟨mid, fun given hg => ?_, left⟩
    show Gives (place ..) _ _
    rw [placed, List.zip_cons_cons, giveAll?, gave, free given hg,
      fill_none, Option.map_map, Option.bind_map]
    exact (gives item).bind fun a _ => reads _ (onward given hg a)

theorem readsInOrder_positional :
    ReadsInOrder fieldNames true (· = {}) fun _ => readPositional := by
  have third : ReadsInOrder ["globals"] false (fun given => given.globals = none) _ :=
    readsInOrder_cons (fun given o => { given with globals := o }) gives_globals give?_globals
      (fun _ h => h) (fun _ _ _ => trivial) (readsInOrder_nil fun _ => True)
  have second : ReadsInOrder ["cache_policy", "globals"] false
      (fun given => given.cachePolicy = none ∧ given.globals = none) _ :=
    readsInOrder_cons (fun given o => { given with cachePolicy := o }) gives_policy
      give?_cachePolicy (fun _ h => h.1) (fun _ h _ => h.2) third
  have all : ReadsInOrder fieldNames true (fun given => given = {}) _ :=
    readsInOrder_cons (fun given o => { given with escapeHelper := o }) gives_switch
      give?_escapeHelper (fun _ h => congrArg Given.escapeHelper h)
      (fun _ h _ => ⟨congrArg Given.cachePolicy h, congrArg Given.globals h⟩) second
  intro items text rest h
  obtain ⟨mid, reads, left⟩ := all h
  refine ⟨mid, ?_, left⟩
  rintro - rfl
  exact reads {} rfl

theorem endOfArray_nil (h : Laid (Tree.itemTokens false []) text rest) :
    endOfArray text = .ok ((), rest) := by
  obtain ⟨text', hp, h⟩ := Laid.peek_mark h (by decide)
  rw [endOfArray, bind_of_ok hp, h.eq_of_nil]
  rfl

theorem endOfArray_cons {items : List Tree}
    (h : Laid (Tree.itemTokens false (t :: items)) text rest) :
    ∃ e, endOfArray text = .error e := by
  obtain ⟨text', hp, -⟩ := Laid.peek_mark h (by decide)
  rw [endOfArray, bind_of_ok hp]
  refine bind_fails fun _ _ => bind_fails fun c s => ?_
  split
  · exact ⟨_, rfl⟩
  · exact ⟨_, rfl⟩

-- ---------------------------------------------------------------------------
-- Whole documents
-- ---------------------------------------------------------------------------

def config? : Tree → Option Config
  | .object members => ((named? members).bind (giveAll? {})).map Given.complete
  | .array items =>
    if items.length ≤ fieldNames.length then
      (giveAll? {} (fieldNames.zip items)).map Given.complete
    else none
  | _ => none

theorem config?_eq_some_iff {c : Config} :
    config? t = some c ↔ ∃ offers, Offers t offers ∧ Stated offers c := by
  constructor
  · intro h
    cases t with
    | object members =>
      rw [config?, Option.map_bind] at h
      obtain ⟨offers, hn, h⟩ := Option.bind_eq_some_iff.mp h
      exact ⟨offers, .object hn, complete_giveAll?_eq_some_iff.mp h⟩
    | array items =>
      rw [config?] at h
      split at h
      · rename_i short
        exact ⟨_, .array short, complete_giveAll?_eq_some_iff.mp h⟩
      · cases h
    | _ => cases h
  · rintro ⟨offers, hn | short, stated⟩
    · rw [config?, hn]
      exact complete_giveAll?_eq_some_iff.mpr stated
    · rw [config?, if_pos short]
      exact complete_giveAll?_eq_some_iff.mpr stated

theorem gives_array {items : List Tree} (h : Laid (Tree.itemTokens true items) text rest) :
    Gives ((readPositional >>= fun given => endOfArray >>= fun _ => pure given.complete) text)
      (config? (.array items)) rest := by
  obtain ⟨mid, reads, left⟩ := readsInOrder_positional h
  by_cases short : items.length ≤ fieldNames.length
  · have all : config? (.array items) =
        (giveAll? {} (fieldNames.zip items)).bind fun given => some given.complete := by
      rw [config?, if_pos short, Option.map_eq_bind]
      rfl
    rw [List.drop_eq_nil_iff.mpr short] at left
    rw [all]
    refine (reads {} rfl).bind fun given _ => ?_
    rw [bind_of_ok (endOfArray_nil left)]
    exact .reads _ rest
  · have none : config? (.array items) =
        (giveAll? {} (fieldNames.zip items)).bind fun _ => none := by
      rw [config?, if_neg short, Option.bind_fun_none]
    obtain ⟨t, others, ho⟩ :=
      List.exists_cons_of_ne_nil (mt List.drop_eq_nil_iff.mp short)
    rw [ho] at left
    obtain ⟨e, he⟩ := endOfArray_cons left
    rw [none]
    refine (reads {} rfl).bind fun given _ => ?_
    rw [bind_of_error he]
    exact .refuses e rest

theorem gives_config (h : Laid t.tokens text rest) : Gives (reader text) (config? t) rest := by
  obtain ⟨c, s, hp, opens⟩ := peek_tree h
  by_cases hm : ∃ members, t = .object members
  · obtain ⟨members, rfl⟩ := hm
    obtain ⟨text', hp, h⟩ := Laid.peek_mark h (by decide)
    rw [reader, bind_of_ok hp]
    show Gives ((advance >>= _) _) _ _
    rw [bind_of_ok (advance_cons ..), bind_get]
    exact (gives_fields members (Nat.lt_succ_of_lt (Tree.members_lt_length h)) h).map _
  by_cases hi : ∃ items, t = .array items
  · obtain ⟨items, rfl⟩ := hi
    obtain ⟨text', hp, h⟩ := Laid.peek_mark h (by decide)
    rw [reader, bind_of_ok hp]
    show Gives ((advance >>= _) _) _ _
    rw [bind_of_ok (advance_cons ..)]
    exact gives_array h
  · have none : config? t = none := by
      cases t with
      | array items => exact absurd ⟨items, rfl⟩ hi
      | object members => exact absurd ⟨members, rfl⟩ hm
      | _ => rfl
    have hb : c ≠ '[' := fun hc => hi (opens.array hc)
    have ho : c ≠ '\x7b' := fun hc => hm (opens.object hc)
    rw [none, Gives.none_iff, reader, bind_of_ok hp]
    simp only
    exact refuse_fails ..

theorem read_json_eq_ok_iff {text : String} (h : Laid t.tokens text.toList rest) {c : Config} :
    (Source.json text).read = .ok c ↔
      (∃ offers, Offers t offers ∧ Stated offers c) ∧ ∀ b ∈ rest, isBlank b = true := by
  rw [← config?_eq_some_iff, ← readWith_eq_ok_iff (gives_config h), ← ofJson, Source.read]
  cases ofJson text with
  | ok d => simp [Except.mapError]
  | error e => exact ⟨nofun, nofun⟩

theorem read_json_ok_or_error (text : String) :
    (∃ c, (Source.json text).read = .ok c) ∨
      ∃ e, (Source.json text).read = .error (.jsonConfig e) := by
  rw [Source.read]
  cases ofJson text with
  | ok c => exact .inl ⟨c, rfl⟩
  | error e => exact .inr ⟨e, rfl⟩

theorem Offers.eq {offers offers' : List (String × Tree)} (h : Offers t offers)
    (h' : Offers t offers') : offers = offers' := by
  cases h with
  | object h =>
    cases h' with
    | object h' => exact Option.some.inj (h.symm.trans h')
  | array short =>
    cases h' with
    | array short' => rfl

/-- A document means the same in every layout. Each field has the value that is given under its
name, in whatever place and among whatever other keys, or else its default; a policy may be written
in either form, globals stand in the order in which their keys first come and with what these come
last with, and an array gives the fields in their fixed order. A field that is given twice, a value
that is none of its field, one element too many and text behind the document are refused. -/
theorem json_settings_of_layout {t : Tree} {text : String} {rest : List Char}
    (laid : Laid t.tokens text.toList rest) :
    let settings := (Source.json text).read
    let Refused := ∃ e, settings = .error (.jsonConfig e)
    (∀ offers, Offers t offers →
      ((∀ b ∈ rest, isBlank b = true) → ∀ c, settings = .ok c ↔ Stated offers c) ∧
      (∀ name ∈ fieldNames, 2 ≤ (under name offers).length → Refused) ∧
      ∀ name v, (name, v) ∈ offers → Mistyped name v → Refused) ∧
    (∀ items, t = .array items → 3 < items.length → Refused) ∧
    ((∃ b ∈ rest, isBlank b = false) → Refused) := by
  intro settings Refused
  have refused (h : ∀ c offers, Offers t offers → Stated offers c →
      (∀ b ∈ rest, isBlank b = true) → False) : Refused := by
    refine (read_json_ok_or_error text).resolve_left fun ⟨c, hc⟩ => ?_
    obtain ⟨⟨offers, ho, stated⟩, blank⟩ := (read_json_eq_ok_iff laid).mp hc
    exact h c offers ho stated blank
  refine ⟨fun offers ho => ⟨fun blank c => ?_, fun name hn twice => ?_, fun name v hv other => ?_⟩,
    ?_, ?_⟩
  · rw [read_json_eq_ok_iff laid]
    constructor
    · rintro ⟨⟨offers', ho', stated⟩, -⟩
      rwa [ho.eq ho']
    · exact fun stated => ⟨⟨offers, ho, stated⟩, blank⟩
  · refine refused fun c offers' ho' stated _ => ?_
    rw [ho.eq ho'] at twice
    exact Nat.not_succ_le_self 1 (twice.trans (stated.length_under_le hn))
  · refine refused fun c offers' ho' stated _ => ?_
    rw [ho.eq ho'] at hv
    exact stated.not_mistyped hv other
  · rintro items rfl many
    refine refused fun c offers ho _ _ => ?_
    cases ho with
    | array short => exact Nat.not_le_of_lt many short
  · rintro ⟨b, hb, other⟩
    refine refused fun c offers _ _ blank => ?_
    exact Bool.false_ne_true (other.symm.trans (blank b hb))

def unescaped (s : String) : Quoted :=
  s.toList.filterMap fun c =>
    if h : c ≠ '"' ∧ c ≠ '\\' ∧ 32 ≤ c.toNat then some (.plain c h) else none

def mixed : Tree := .object [
  (unescaped "theme", .array [.object [], .null]),
  (unescaped "globals", .object [
    (unescaped "a", .bool true), (unescaped "b", .null), (unescaped "a", .bool false)]),
  (unescaped "cache_policy", .object [(unescaped "retain", .null)])]

def mixedText : String :=
  "\x7b\"theme\": [\x7b\x7d, null],\n" ++
  " \"globals\": \x7b\"a\" :true, \"b\":null,\"a\": false\x7d,\n" ++
  " \"cache_policy\": \x7b\"retain\": null\x7d\x7d\n"

theorem json_settings_of_layout_mixed :
    (Source.json mixedText).read =
        .ok { cachePolicy := .retain, globals := [("a", .bool false), ("b", .null)] } ∧
      ∃ e, (Source.json (mixedText ++ "\x7d")).read = .error (.jsonConfig e) := by
  have laid : Laid mixed.tokens mixedText.toList ['\n'] := laid_of_strip? (by decide +kernel)
  have trailing : Laid mixed.tokens (mixedText ++ "\x7d").toList ['\n', '\x7d'] :=
    laid_of_strip? (by decide +kernel)
  obtain ⟨settled, -⟩ := json_settings_of_layout laid
  obtain ⟨-, -, refused⟩ := json_settings_of_layout trailing
  have shows := Entries.shows_ofList [("a", Value.bool true), ("b", .null), ("a", .bool false)]
  have blank : ∀ b ∈ ['\n'], isBlank b = true := List.forall_mem_singleton.mpr rfl
  refine ⟨((settled _ (.object rfl)).1 blank _).mpr ?_,
    refused ⟨'\x7d', List.mem_cons_of_mem _ List.mem_cons_self, rfl⟩⟩
  exact {
    escapeHelper := .missing
    cachePolicy := .given (.tagged rfl rfl)
    globals := .given (.object rfl shows) }

end Stencil.Config
