import Stencil.Proofs.Markup.Places
import Stencil.Proofs.Markup.TagNames

/-!
# Sightings of block tags

What the search for block tags comes upon in a source, and where: all that it finds is sighted at
the places of the source (`names_sightings_places`). The syntax of templates has it otherwise: a
block is declared by a tag whose first words are `block` and a name (`declaredNames`). Where tags
keep to the syntax, the search comes upon these, and else only on what is covered
(`openNames_eq_declaredNames`).
-/

namespace Stencil.Markup

open Declared

/-- The name in a block tag, and whether the tag begins at a covered place. -/
structure Sighting where
  name : String
  covered : Bool
deriving DecidableEq

def sightings : List Spot → List Sighting
  | [] => []
  | spot :: rest =>
    match nameAt? (spelling (spot :: rest)) with
    | some name => ⟨name, spot.place == .covered⟩ :: sightings rest
    | none => sightings rest

/-- The names in the block tags that are sighted where nothing covers them. -/
def openNames (s : List Spot) : List String := ((sightings s).filter (!·.covered)).map (·.name)

/-- The name of a block, from what stands behind the signs that open its tag. -/
def blockName? (inside : List Char) : Option String :=
  let words := (inside.drop (Edge.ofChar? inside.head?).width).dropWhile Token.isTagBlank
  if leadingName? words = some "block" then
    leadingName? ((words.dropWhile isNamePart).dropWhile Token.isTagBlank)
  else none

def declaredAt? : List Spot → Option String
  | ⟨'{', .delimiter⟩ :: ⟨'%', .delimiter⟩ :: inside => blockName? (spelling inside)
  | _ => none

/-- The names of the blocks that tags declare, in the order of the tags. -/
def declaredNames : List Spot → List String
  | [] => []
  | spot :: rest => (declaredAt? (spot :: rest)).toList ++ declaredNames rest

/-- What the syntax asks of tags. Their blanks are those of the syntax. No percent sign stands
behind a brace, as none begins an expression. -/
structure Proper (s : List Spot) : Prop where
  blanks : ∀ spot ∈ s, spot.place = .tag → Text.isBlank spot.char = true →
    Token.isTagBlank spot.char = true
  percents : s.IsChain fun spot next => next = ⟨'%', .tag⟩ → spot.char ≠ '{'

namespace Proper

variable {s s' : List Spot}

theorem left (h : Proper (s ++ s')) : Proper s :=
  ⟨fun spot hs => h.blanks spot (List.mem_append_left _ hs), h.percents.left_of_append⟩

theorem right (h : Proper (s ++ s')) : Proper s' :=
  ⟨fun spot hs => h.blanks spot (List.mem_append_right _ hs), h.percents.right_of_append⟩

theorem tail {spot : Spot} (h : Proper (spot :: s)) : Proper s := right (s := [spot]) h

end Proper

-- ---------------------------------------------------------------------------
-- Names in order
-- ---------------------------------------------------------------------------

theorem names_sightings (s : List Spot) :
    (sightings s).map (·.name) = Declared.allNames (spelling s) := by
  induction s with
  | nil => rfl
  | cons spot rest ih =>
    rw [sightings, show spelling (spot :: rest) = spot.char :: spelling rest from rfl,
      Declared.allNames]
    cases nameAt? (spot.char :: spelling rest) with
    | none => exact ih
    | some name => exact congrArg (name :: ·) ih

/-- All names that the search finds in a source are sighted at its places, in the same order. -/
theorem names_sightings_places (source : String) :
    (sightings (places source)).map (·.name) = Declared.allNames source.toList := by
  rw [names_sightings, places, spelling_scan, allNames_withoutLastBreak]

theorem openNames_cons {spot : Spot} (h : spot.place ≠ .covered) (s : List Spot) :
    openNames (spot :: s) = (nameAt? (spelling (spot :: s))).toList ++ openNames s := by
  rw [openNames, sightings]
  cases nameAt? (spelling (spot :: s)) with
  | none => rfl
  | some name => simp [openNames, h]

theorem openNames_cons_of_none {spot : Spot} {s : List Spot}
    (h : nameAt? (spelling (spot :: s)) = none) : openNames (spot :: s) = openNames s := by
  rw [openNames, sightings, h]
  rfl

theorem openNames_cons_of_covered {spot : Spot} (h : spot.place = .covered) (s : List Spot) :
    openNames (spot :: s) = openNames s := by
  rw [openNames, sightings]
  cases nameAt? (spelling (spot :: s)) with
  | none => rfl
  | some name => simp [openNames, h]

theorem openNames_covered (cs : List Char) (s : List Spot) :
    openNames (spots .covered cs ++ s) = openNames s := by
  induction cs with
  | nil => rfl
  | cons c cs ih => exact (openNames_cons_of_covered rfl _).trans ih

theorem openNames_append {cs : List Char} (h : '{' ∉ cs) (p : Place) (s : List Spot) :
    openNames (spots p cs ++ s) = openNames s := by
  induction cs with
  | nil => rfl
  | cons c cs ih =>
    obtain ⟨hc, hcs⟩ := not_or.mp (mt List.mem_cons.mpr h)
    refine (openNames_cons_of_none ?_).trans (ih hcs)
    exact nameAt?_of_ne (Ne.symm hc) _

theorem openNames_lead (cs : List Char) {s : List Spot} (hs : spelling s = (Token.splitText cs).2) :
    openNames (spots .text (Token.splitText cs).1 ++ s) = openNames s := by
  have step {c : Char} {rest : List Char} (hf : nameAt? (c :: rest) = none)
      (hr : spelling s = (Token.splitText rest).2) :
      openNames (spots .text (c :: (Token.splitText rest).1) ++ s) =
        openNames (spots .text (Token.splitText rest).1 ++ s) := by
    refine openNames_cons_of_none ?_
    show nameAt? (c :: spelling (spots .text (Token.splitText rest).1 ++ s)) = none
    rwa [spelling_append, spelling_spots, hr, Token.splitText_append]
  induction cs using Token.splitText.induct with
  | case1 => rfl
  | case2 c rest h =>
    simp only [Token.splitText, h, if_true]
    rfl
  | case3 c rest h lead rest' split ih =>
    have front : Token.splitText ('{' :: c :: rest) =
        ('{' :: (Token.splitText (c :: rest)).1, (Token.splitText (c :: rest)).2) := by
      simp only [Token.splitText, h]
      rfl
    rw [front] at hs ⊢
    exact (step (nameAt?_of_head (by simp_all)) hs).trans (ih hs)
  | case4 c rest h lead rest' split ih =>
    have front : Token.splitText (c :: rest) =
        (c :: (Token.splitText rest).1, (Token.splitText rest).2) := by
      simp [Token.splitText]
    have none : nameAt? (c :: rest) = none := by
      by_cases hc : c = '{'
      · cases rest with
        | nil => exact hc ▸ rfl
        | cons c' rest => exact (h c' rest hc rfl).elim
      · exact nameAt?_of_ne hc rest
    rw [front] at hs ⊢
    exact (step none hs).trans (ih hs)

theorem declaredAt?_eq_none {spot : Spot} (h : spot ≠ ⟨'{', .delimiter⟩) (s : List Spot) :
    declaredAt? (spot :: s) = none := by
  unfold declaredAt?
  split <;> simp_all

theorem declaredNames_append {s : List Spot} (h : ⟨'{', .delimiter⟩ ∉ s) (s' : List Spot) :
    declaredNames (s ++ s') = declaredNames s' := by
  induction s with
  | nil => rfl
  | cons spot s ih =>
    obtain ⟨hspot, hs⟩ := not_or.mp (mt List.mem_cons.mpr h)
    rw [List.cons_append, declaredNames, declaredAt?_eq_none (Ne.symm hspot), ih hs]
    rfl

theorem declaredNames_spots {p : Place} (hp : p ≠ .delimiter) (cs : List Char) (s : List Spot) :
    declaredNames (spots p cs ++ s) = declaredNames s := by
  refine declaredNames_append (fun hs => ?_) s
  obtain ⟨c, -, he⟩ := List.mem_map.mp hs
  exact hp (congrArg Spot.place he)

-- ---------------------------------------------------------------------------
-- Tags
-- ---------------------------------------------------------------------------

def Closes (close : List Char) : Prop := close = ['\x7d', '\x7d'] ∨ close = ['%', '\x7d']

theorem closes_closing (kind : Char) : Closes (closing kind) := by
  unfold closing
  split
  · exact .inl rfl
  · exact .inr rfl

def signals : List Char := ['%', '"', '\'', '(', ')', '[', ']', '\x7b', '\x7d']

variable {close cs lead rest : List Char} {i : Inside} {d : Int} {c : Char}

theorem notMem_signals {p : Char → Bool} (hp : signals.all (!p ·) = true) (h : p c = true) :
    c ∉ signals := fun hc => by
  simpa [h] using List.all_eq_true.mp hp c hc

theorem notMem_signals_of_isBlank (h : Text.isBlank c = true) : c ∉ signals :=
  notMem_signals (by decide) h

theorem notMem_signals_of_mark {mark : List Char}
    (h : mark = [] ∨ mark = ['-'] ∨ mark = ['+']) : ∀ c ∈ mark, c ∉ signals := by
  rcases h with rfl | rfl | rfl <;> simp [signals]

theorem isBlank_of_isTagBlank (h : Token.isTagBlank c = true) : Text.isBlank c = true := by
  simp only [Token.isTagBlank, Bool.or_eq_true, beq_iff_eq] at h
  rcases h with (((rfl | rfl) | rfl) | rfl) | rfl <;> decide

theorem not_ends (hc : Closes close) (h : c ∉ signals) :
    Inside.ends close i (c :: rest) = false := by
  cases he : i.ends close (c :: rest) with
  | false => rfl
  | true =>
    obtain ⟨behind, hb⟩ := Inside.prefix_of_ends he
    rcases hc with rfl | rfl <;> cases hb <;> exact absurd (by decide) h

theorem next_of_notMem (h : c ∉ signals) :
    Inside.next (.code d) c = .code d ∧ Inside.place (.code d) c = .tag := by
  simp only [signals, List.mem_cons, not_or] at h
  simp [Inside.next, Inside.place, Inside.isQuote, Inside.bracket, h]

theorem tagPlaces_append (hc : Closes close) (h : ∀ c ∈ lead, c ∉ signals) :
    tagPlaces close (.code d) (lead ++ rest) =
      (spots .tag lead ++ (tagPlaces close (.code d) rest).1,
        (tagPlaces close (.code d) rest).2) := by
  induction lead with
  | nil => rfl
  | cons c lead ih =>
    obtain ⟨hi, hl⟩ := List.forall_mem_cons.mp h
    obtain ⟨next, place⟩ := next_of_notMem (d := d) hi
    rw [List.cons_append, tagPlaces_cons (not_ends hc hi), next, place, ih hl]
    rfl

theorem Proper.behind (lead : List Char) (hc : Closes close) (h : ∀ c ∈ lead, c ∉ signals)
    (hp : Proper (tagPlaces close (.code d) (lead ++ rest)).1) :
    Proper (tagPlaces close (.code d) rest).1 := by
  rw [tagPlaces_append hc h] at hp
  exact hp.right

/-- In a tag that keeps to the syntax all blanks are those of the syntax. -/
theorem trimStart_of_proper (hc : Closes close) (hp : Proper (tagPlaces close (.code d) cs).1) :
    Text.trimStart cs = cs.dropWhile Token.isTagBlank := by
  induction cs with
  | nil => rfl
  | cons c rest ih =>
    by_cases hb : Text.isBlank c = true
    · have inert := notMem_signals_of_isBlank hb
      have behind : Proper (tagPlaces close (.code d) rest).1 :=
        .behind [c] hc (by simpa using inert) hp
      obtain ⟨next, place⟩ := next_of_notMem (d := d) inert
      rw [tagPlaces_cons (not_ends hc inert), next, place] at hp
      have blank := hp.blanks _ (List.mem_cons_self ..) rfl hb
      rw [Text.trimStart, List.dropWhile_cons_of_pos hb, List.dropWhile_cons_of_pos blank]
      exact ih behind
    · rw [Text.trimStart, List.dropWhile_cons_of_neg hb,
        List.dropWhile_cons_of_neg (mt isBlank_of_isTagBlank hb)]

theorem Proper.dropWhile {p : Char → Bool} (hs : signals.all (!p ·) = true) (hc : Closes close)
    (hp : Proper (tagPlaces close (.code d) cs).1) :
    Proper (tagPlaces close (.code d) (cs.dropWhile p)).1 := by
  refine .behind (cs.takeWhile p) hc
    (fun c h => notMem_signals hs (List.mem_takeWhile_imp h)) ?_
  rwa [List.takeWhile_append_dropWhile]

/-- In a tag that keeps to the syntax the search finds a name where the syntax has one. -/
theorem nameAt?_eq_blockName? (hc : Closes close)
    (hp : Proper (tagPlaces close (.code 0) cs).1) :
    nameAt? ('{' :: '%' :: cs) = blockName? cs := by
  have unmarked : Proper (tagPlaces close (.code 0) (cs.drop (Edge.ofChar? cs.head?).width)).1 := by
    obtain ⟨mark, he, kind⟩ := edge_eq cs
    rw [he] at hp
    exact .behind mark hc (notMem_signals_of_mark kind) hp
  have first := trimStart_of_proper hc unmarked
  have words := unmarked.dropWhile (p := Token.isTagBlank) (by decide) hc
  have second := trimStart_of_proper hc (words.dropWhile (p := isNamePart) (by decide) hc)
  ext name
  rw [nameAt?_eq_some_iff first.symm, second, blockName?]
  simp [Option.ite_none_right_eq_some]

theorem delimiter_notMem_tagPlaces (hc : Closes close) (i : Inside) (cs : List Char) :
    ⟨'{', .delimiter⟩ ∉ (tagPlaces close i cs).1 := by
  induction cs generalizing i with
  | nil => exact List.not_mem_nil
  | cons c rest ih =>
    cases he : i.ends close (c :: rest) with
    | true =>
      rw [tagPlaces_of_ends he]
      rcases hc with rfl | rfl <;> simp [spots]
    | false =>
      rw [tagPlaces_cons he, List.mem_cons, not_or]
      refine ⟨fun h => ?_, ih _⟩
      have place : i.place c = .delimiter := (congrArg Spot.place h).symm
      unfold Inside.place at place
      split at place
      · split at place <;> cases place
      · cases place

/-- In a tag no block tag begins but at covered places. -/
theorem openNames_tagPlaces (hc : Closes close) {i : Inside} {s : List Spot}
    (hs : spelling s = (tagPlaces close i cs).2) (hp : Proper (tagPlaces close i cs).1) :
    openNames ((tagPlaces close i cs).1 ++ s) = openNames s := by
  induction cs generalizing i with
  | nil => rfl
  | cons c rest ih =>
    cases he : i.ends close (c :: rest) with
    | true =>
      rw [tagPlaces_of_ends he]
      exact openNames_append (by rcases hc with rfl | rfl <;> decide) _ _
    | false =>
      have spelled : spelling ((tagPlaces close (i.next c) rest).1 ++ s) = rest := by
        rw [tagPlaces_cons he] at hs
        rw [spelling_append, hs, spelling_tagPlaces]
      rw [tagPlaces_cons he] at hs hp ⊢
      refine Eq.trans ?_ (ih hs hp.tail)
      by_cases covered : i.place c = .covered
      · exact openNames_cons_of_covered covered _
      refine openNames_cons_of_none ?_
      show nameAt? (c :: spelling ((tagPlaces close (i.next c) rest).1 ++ s)) = none
      rw [spelled]
      by_cases hbrace : c = '{' ∧ rest.head? = some '%'
      · obtain ⟨rfl, percent⟩ := hbrace
        obtain ⟨behind, rfl⟩ := List.head?_eq_some_iff.mp percent
        cases hn : (i.next '{').ends close ('%' :: behind) with
        | true =>
          obtain ⟨more, hm⟩ := Inside.prefix_of_ends hn
          rcases hc with rfl | rfl <;> cases hm
          rfl
        | false =>
          have code : ∃ d, i = .code d := by
            cases i with
            | code d => exact ⟨d, rfl⟩
            | quoted q d => exact absurd rfl covered
            | escaped q d => exact absurd rfl covered
          obtain ⟨d, rfl⟩ := code
          have chain := hp.percents
          rw [tagPlaces_cons hn] at chain
          exact absurd rfl (((List.isChain_cons.mp chain).1 _ rfl) rfl)
      · exact nameAt?_of_not_opened hbrace

-- ---------------------------------------------------------------------------
-- Sources
-- ---------------------------------------------------------------------------

/-- A tag that is printed declares nothing, and nothing is found in it. -/
theorem names_of_printed {s : List Spot} {inside : List Char}
    (hs : spelling s = (tagPlaces (closing '{') (.code 0) inside).2)
    (hp : Proper (⟨'{', .delimiter⟩ :: (tagPlaces (closing '{') (.code 0) inside).1)) :
    nameAt? ('{' :: inside) = none ∧
      declaredAt? (⟨'{', .delimiter⟩ :: ((tagPlaces (closing '{') (.code 0) inside).1 ++ s)) =
        none := by
  rw [show closing '{' = ['\x7d', '\x7d'] from rfl] at hs hp ⊢
  cases inside with
  | nil =>
    cases s with
    | nil => exact ⟨rfl, rfl⟩
    | cons spot s => cases hs
  | cons c rest =>
    cases he : (Inside.code 0).ends ['\x7d', '\x7d'] (c :: rest) with
    | true =>
      obtain ⟨behind, hb⟩ := Inside.prefix_of_ends he
      rw [tagPlaces_of_ends he]
      cases hb
      exact ⟨nameAt?_of_head (by simp), rfl⟩
    | false =>
      rw [tagPlaces_cons he] at hp ⊢
      have apart := (List.isChain_cons.mp hp.percents).1 _ rfl
      by_cases percent : c = '%'
      · subst percent
        exact absurd rfl (apart rfl)
      · refine ⟨nameAt?_of_head (by simpa using percent), ?_⟩
        rw [List.cons_append, declaredAt?]
        simp [percent]

theorem names_of_statement {s : List Spot} {inside : List Char} (hs : spelling s = inside)
    (hp : Proper (tagPlaces (closing '%') (.code 0) inside).1) :
    declaredAt? (⟨'{', .delimiter⟩ :: ⟨'%', .delimiter⟩ :: s) =
      nameAt? ('{' :: '%' :: inside) := by
  rw [nameAt?_eq_blockName? (.inr rfl) hp, ← hs]
  rfl

/-- Where tags keep to the syntax, the search comes upon the blocks that they declare, and else only
on what is covered. -/
theorem openNames_eq_declaredNames {n : Nat} (hn : cs.length < n) (hp : Proper (scan n cs)) :
    openNames (scan n cs) = declaredNames (scan n cs) := by
  induction n generalizing cs with
  | zero => cases hn
  | succ n ih =>
    obtain ⟨s, hs, whole⟩ := scanned n cs
    have lengths : (Token.splitText cs).2.length ≤ cs.length := by
      rw [← congrArg List.length (Token.splitText_append cs), List.length_append]
      exact Nat.le_add_left ..
    rw [whole] at hp ⊢
    rw [openNames_lead cs (hs.spelled (spelling_scan n)), declaredNames_spots (by decide)]
    have hp := hp.right
    cases hs with
    | ended => rfl
    | covered =>
      rw [← List.append_nil (spots ..), openNames_covered, declaredNames_spots (by decide)]
      rfl
    | passed _ shorter =>
      rw [openNames_covered, declaredNames_spots (by decide)]
      exact ih (by omega) hp.right
    | @tag kind inside hk h =>
      have hc := closes_closing kind
      have tag : Proper (tagPlaces (closing kind) (.code 0) inside).1 := hp.tail.tail.left
      have spelled := spelling_scan n (tagPlaces (closing kind) (.code 0) inside).2
      have later : openNames (scan n (tagPlaces (closing kind) (.code 0) inside).2) =
          declaredNames (scan n (tagPlaces (closing kind) (.code 0) inside).2) := by
        refine ih ?_ hp.tail.tail.right
        have := (tagPlaces_suffix (closing kind) (.code 0) inside).length_le
        rw [h, List.length_cons, List.length_cons] at lengths
        omega
      rw [openNames_cons (by simp), openNames_cons (by simp), openNames_tagPlaces hc spelled tag,
        declaredNames, declaredNames, declaredNames_append (delimiter_notMem_tagPlaces hc _ _),
        later]
      generalize scan n (tagPlaces (closing kind) (.code 0) inside).2 = s at spelled hp ⊢
      have all : spelling ((tagPlaces (closing kind) (.code 0) inside).1 ++ s) = inside := by
        rw [spelling_append, spelled, spelling_tagPlaces]
      show (nameAt? ('{' :: kind :: spelling _)).toList ++
        ((nameAt? (kind :: spelling _)).toList ++ _) = _
      rw [all]
      rcases hk with rfl | rfl
      · have printed : Proper ((⟨'{', .delimiter⟩ :: (tagPlaces _ _ _).1) ++ s) := hp.tail
        obtain ⟨unnamed, undeclared⟩ := names_of_printed spelled printed.left
        rw [unnamed, undeclared, nameAt?_of_head (by simp)]
        rfl
      · rw [names_of_statement all tag, nameAt?_of_ne (c := '%') (by decide),
          declaredAt?_eq_none (by simp)]

end Stencil.Markup
