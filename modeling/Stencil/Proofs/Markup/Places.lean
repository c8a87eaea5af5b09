import Stencil.Markup.Token

/-!
# The places of a source

What each character of a source stands in, as the syntax of templates has it (`places`): text, the
signs at which a tag begins and ends, a tag, or what is covered, that is, a comment, a raw section
or a quoted text in a tag. A tag ends where its closing signs stand outside of brackets and quoted
texts. Nothing is left out and no blank is taken away, so the places spell the source
(`spelling_scan`).
-/

namespace Stencil.Markup

inductive Place
  | text
  | delimiter
  | tag
  | covered
deriving DecidableEq

structure Spot where
  char : Char
  place : Place
deriving DecidableEq

def spots (place : Place) (cs : List Char) : List Spot := cs.map (⟨·, place⟩)

def spelling (s : List Spot) : List Char := s.map Spot.char

@[simp] theorem spelling_spots (p : Place) (cs : List Char) : spelling (spots p cs) = cs := by
  simp [spelling, spots, Function.comp_def]

@[simp] theorem spelling_append (s s' : List Spot) :
    spelling (s ++ s') = spelling s ++ spelling s' :=
  List.map_append

theorem spots_append (p : Place) (cs cs' : List Char) :
    spots p (cs ++ cs') = spots p cs ++ spots p cs' := List.map_append

-- ---------------------------------------------------------------------------
-- Tags
-- ---------------------------------------------------------------------------

/-- Where one is in a tag: outside of quoted texts, with so many brackets open, or in a quoted text,
maybe behind a backslash. -/
inductive Inside
  | code (depth : Int)
  | quoted (delimiter : Char) (depth : Int)
  | escaped (delimiter : Char) (depth : Int)

namespace Inside

def isQuote (c : Char) : Bool := c == '"' || c == '\''

def bracket (c : Char) : Int :=
  if c == '(' || c == '[' || c == '\x7b' then 1
  else if c == ')' || c == ']' || c == '\x7d' then -1
  else 0

def next : Inside → Char → Inside
  | .code d, c => if isQuote c then .quoted c d else .code (d + bracket c)
  | .quoted q d, c =>
    if c = '\\' then .escaped q d else if c = q then .code d else .quoted q d
  | .escaped q d, _ => .quoted q d

def place : Inside → Char → Place
  | .code _, c => if isQuote c then .covered else .tag
  | _, _ => .covered

def ends (close : List Char) : Inside → List Char → Bool
  | .code d, cs => d == 0 && close.isPrefixOf cs
  | _, _ => false

end Inside

/-- The places of a tag up to the signs that close it, and what follows them. -/
def tagPlaces (close : List Char) : Inside → List Char → List Spot × List Char
  | _, [] => ([], [])
  | i, c :: rest =>
    if i.ends close (c :: rest) then (spots .delimiter close, (c :: rest).drop close.length)
    else
      let (s, behind) := tagPlaces close (i.next c) rest
      (⟨c, i.place c⟩ :: s, behind)

variable {close cs rest : List Char} {i : Inside} {c : Char}

theorem tagPlaces_of_ends (h : i.ends close (c :: rest) = true) :
    tagPlaces close i (c :: rest) =
      (spots .delimiter close, (c :: rest).drop close.length) := by
  rw [tagPlaces, if_pos h]

theorem tagPlaces_cons (h : i.ends close (c :: rest) = false) :
    tagPlaces close i (c :: rest) =
      (⟨c, i.place c⟩ :: (tagPlaces close (i.next c) rest).1,
        (tagPlaces close (i.next c) rest).2) := by
  rw [tagPlaces, if_neg (by simp [h])]

theorem Inside.prefix_of_ends (h : i.ends close cs = true) : close <+: cs := by
  cases i with
  | code d => exact List.isPrefixOf_iff_prefix.mp (Bool.and_eq_true_iff.mp h).2
  | quoted q d => cases h
  | escaped q d => cases h

theorem spelling_tagPlaces (i : Inside) (cs : List Char) :
    spelling (tagPlaces close i cs).1 ++ (tagPlaces close i cs).2 = cs := by
  induction cs generalizing i with
  | nil => rfl
  | cons c rest ih =>
    cases he : i.ends close (c :: rest) with
    | true =>
      obtain ⟨behind, hb⟩ := Inside.prefix_of_ends he
      rw [tagPlaces_of_ends he, spelling_spots, ← hb, List.drop_left]
    | false =>
      rw [tagPlaces_cons he]
      exact congrArg (c :: ·) (ih _)

theorem tagPlaces_suffix (close : List Char) (i : Inside) (cs : List Char) :
    (tagPlaces close i cs).2 <:+ cs :=
  ⟨_, spelling_tagPlaces i cs⟩

-- ---------------------------------------------------------------------------
-- Rests
-- ---------------------------------------------------------------------------

def upTo (cs rest : List Char) : List Char := cs.take (cs.length - rest.length)

theorem upTo_left (lead rest : List Char) : upTo (lead ++ rest) rest = lead := by
  simp [upTo]

theorem upTo_append (h : rest <:+ cs) : upTo cs rest ++ rest = cs := by
  obtain ⟨lead, rfl⟩ := h
  rw [upTo_left]

namespace Token

theorem after?_suffix {mark : List Char} (h : after? mark cs = some rest) : rest <:+ cs := by
  unfold after? at h
  split at h
  · cases h
    exact List.drop_suffix ..
  · cases h

theorem splitText_append (cs : List Char) : (splitText cs).1 ++ (splitText cs).2 = cs := by
  induction cs using splitText.induct with
  | case1 => rfl
  | case2 c rest h => simp [splitText, h]
  | case3 c rest h lead rest' split ih => simp [splitText, h, ih]
  | case4 c rest h lead rest' split ih => simp [splitText, ih]

/-- A source goes on with a tag where its text ends. -/
theorem splitText_rest (cs : List Char) : (splitText cs).2 = [] ∨
    ∃ kind inside, (splitText cs).2 = '{' :: kind :: inside ∧
      (kind = '#' ∨ kind = '{' ∨ kind = '%') := by
  induction cs using splitText.induct with
  | case1 => exact .inl rfl
  | case2 c rest h =>
    refine .inr ⟨c, rest, by simp [splitText, h], ?_⟩
    simp only [Bool.or_eq_true, beq_iff_eq] at h
    exact h.symm
  | case3 c rest h lead rest' split ih => simpa [splitText, h] using ih
  | case4 c rest h lead rest' split ih => simpa [splitText] using ih

theorem splitAt?_suffix {mark before after : List Char}
    (h : splitAt? mark cs = some (before, after)) : after <:+ cs := by
  induction cs generalizing before with
  | nil => cases h
  | cons c cs ih =>
    unfold splitAt? at h
    split at h
    · cases h
      exact List.drop_suffix ..
    · obtain ⟨found, hf, h⟩ := Option.map_eq_some_iff.mp h
      cases h
      exact (ih hf).trans (List.suffix_cons ..)

theorem bareTag?_suffix {keyword : String} {edge : Edge}
    (h : bareTag? keyword cs = some (edge, rest)) : rest <:+ cs := by
  simp only [bareTag?, Option.bind_eq_bind, Option.bind_eq_some_iff, Option.some.injEq] at h
  obtain ⟨behind, hk, rest', hc, h⟩ := h
  cases h
  have opened : behind <:+ cs := (after?_suffix hk).trans (List.dropWhile_suffix _)
  have closed : rest <:+ behind :=
    (after?_suffix hc).trans ((List.drop_suffix ..).trans (List.dropWhile_suffix _))
  exact closed.trans opened

theorem rawBody_suffix {n : Nat} {body : List Char} {first last : Edge}
    (h : rawBody n cs = some (body, first, last, rest)) : rest <:+ cs := by
  induction n generalizing cs body with
  | zero => cases h
  | succ n ih =>
    simp only [rawBody, Option.bind_eq_bind, Option.bind_eq_some_iff] at h
    obtain ⟨⟨before, after⟩, hs, h⟩ := h
    have behind := splitAt?_suffix hs
    split at h
    · rename_i ht
      cases h
      exact (bareTag?_suffix ht).trans ((List.drop_suffix ..).trans behind)
    · obtain ⟨⟨body', first', last', rest'⟩, hr, h⟩ := Option.bind_eq_some_iff.mp h
      cases h
      exact (ih hr).trans behind

end Token

-- ---------------------------------------------------------------------------
-- Sources
-- ---------------------------------------------------------------------------

open Token

def closing (kind : Char) : List Char := if kind == '{' then ['\x7d', '\x7d'] else ['%', '\x7d']

/-- The places of a source. A comment or a raw section is covered as a whole, with what opens and
closes it. `n` bounds the number of tags. -/
def scan : Nat → List Char → List Spot
  | 0, cs => spots .text cs
  | n + 1, cs =>
    let (lead, rest) := splitText cs
    spots .text lead ++ match rest with
    | '{' :: kind :: inside =>
      let inside' := inside.drop (Edge.ofChar? inside.head?).width
      if kind == '#' then
        match splitAt? ['#', '\x7d'] inside' with
        | none => spots .covered rest
        | some (_, after) => spots .covered (upTo rest after) ++ scan n after
      else
        match (if kind == '{' then none else bareTag? "raw" inside') with
        | some (_, body) =>
          match rawBody (body.length + 1) body with
          | none => spots .covered rest
          | some (_, _, _, after) => spots .covered (upTo rest after) ++ scan n after
        | none =>
          let (s, behind) := tagPlaces (closing kind) (.code 0) inside
          spots .delimiter ['{', kind] ++ s ++ scan n behind
    | _ => spots .text rest

inductive Scanned (n : Nat) (rest : List Char) : List Spot → Prop
  | ended (h : rest = []) : Scanned n rest []
  | covered : Scanned n rest (spots .covered rest)
  | passed {after} (h : after <:+ rest) (hl : after.length < rest.length) :
      Scanned n rest (spots .covered (upTo rest after) ++ scan n after)
  | tag {kind inside} (hk : kind = '{' ∨ kind = '%') (h : rest = '{' :: kind :: inside) :
      Scanned n rest (⟨'{', .delimiter⟩ :: ⟨kind, .delimiter⟩ ::
        ((tagPlaces (closing kind) (.code 0) inside).1 ++
          scan n (tagPlaces (closing kind) (.code 0) inside).2))

theorem Scanned.spelled {n : Nat} {s : List Spot} (hs : Scanned n rest s)
    (scans : ∀ cs, spelling (scan n cs) = cs) : spelling s = rest := by
  cases hs with
  | ended h => exact h.symm
  | covered => exact spelling_spots ..
  | passed h => rw [spelling_append, spelling_spots, scans, upTo_append h]
  | @tag kind inside hk h =>
    rw [h]
    show '{' :: kind :: spelling (_ ++ _) = _
    rw [spelling_append, scans, spelling_tagPlaces]

theorem scanned (n : Nat) (cs : List Char) : ∃ s, Scanned n (splitText cs).2 s ∧
    scan (n + 1) cs = spots .text (splitText cs).1 ++ s := by
  rcases splitText_rest cs with h | ⟨kind, inside, h, kinds⟩
  · exact ⟨[], .ended h, by simp [scan, h, spots]⟩
  · have opened : inside.drop (Edge.ofChar? inside.head?).width <:+ inside := List.drop_suffix ..
    have passed {after : List Char} (ha : after <:+ inside) :
        Scanned n ('{' :: kind :: inside)
          (spots .covered (upTo ('{' :: kind :: inside) after) ++ scan n after) := by
      refine .passed (ha.trans ((List.suffix_cons ..).trans (List.suffix_cons ..))) ?_
      have := ha.length_le
      simp only [List.length_cons]
      omega
    rw [h]
    simp only [scan, h]
    refine ⟨_, ?_, rfl⟩
    split
    · split
      · exact .covered
      · rename_i hs
        exact passed ((splitAt?_suffix hs).trans opened)
    · rename_i comment
      split
      · rename_i hr
        split
        · exact .covered
        · rename_i hb
          refine passed ((rawBody_suffix hb).trans ((?_ : _ <:+ _).trans opened))
          split at hr
          · cases hr
          · exact bareTag?_suffix hr
      · refine .tag (kinds.resolve_left fun h => comment ?_) rfl
        simp [h]

theorem spelling_scan (n : Nat) (cs : List Char) : spelling (scan n cs) = cs := by
  induction n generalizing cs with
  | zero => exact spelling_spots .text cs
  | succ n ih =>
    obtain ⟨s, hs, whole⟩ := scanned n cs
    rw [whole, spelling_append, spelling_spots, hs.spelled ih, splitText_append]

/-- The places of a source. A line break at its end shows nothing, and is left out. -/
def places (source : String) : List Spot :=
  let cs := Token.withoutLastBreak source.toList
  scan (cs.length + 1) cs

end Stencil.Markup
