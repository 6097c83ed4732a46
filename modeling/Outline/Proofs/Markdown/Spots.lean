import Mathlib
import Outline.Markdown.Inline

/-!
# Where links begin in a text

The pieces of a text do not say where they stand. `linkSpots` goes through a text as the cutting
into pieces does, and tells for each link the place of its opening bracket. **It finds the same
links as the cutting, in the same order** (`linkStarts_inlinesOf`), and their brackets one behind
the other (`inOrder_linkSpots`).

* `LinkSpot`, `linkSpots`: the links of a text and where they begin;
* `Agree`: what both ways through a text have in common;
* `Found.Forward`, `Skipper.Forward`: ends of pieces that do not lie before their starts;
* `InRow`, `InOrder`: links that begin one behind the other.
-/

namespace Outline.Markdown

/-- A link in a text: the place where it begins, its address, and whether it is bare. -/
structure LinkSpot where
  place : Nat
  address : List Char
  bare : Bool

/-- What a link leads to. -/
def LinkSpot.start (l : LinkSpot) : List Char × Bool := (l.address, l.bare)

/-- The number of characters that are taken at once where neither a link nor an image begins. -/
def plainLength (cs : List Char) : Nat :=
  match cs with
  | [] => 1
  | c :: rest =>
    if c == '\n' then 1 + (rest.takeWhile isIndent).length
    else if c == '\\' then escapeLength cs
    else if c == '\x60' then
      match codeSpan? cs with
      | some (_, n) => n
      | none => (cs.takeWhile (· == c)).length
    else if c == '*' || c == '_' then (cs.takeWhile (· == c)).length
    else if c == '&' then ((reference? cs).map (·.1)).getD 1
    else 1

/-- The links of a text from a place on. Those in labels of links are found by `inner`. -/
def linkSpotsFrom (skip : Skipper) (inner : Found → Spot → List LinkSpot × Found)
    (labels : Labels) : (fuel : Nat) → Found → Spot → List LinkSpot × Found
  | 0, found, _ => ([], found)
  | fuel + 1, found, s =>
    let go := linkSpotsFrom skip inner labels fuel
    match s.rest with
    | [] => ([], found)
    | c :: _ =>
      if c == '[' then
        match linkAt? skip labels found s with
        | (some t, found) =>
          let (inside, found) := inner found ⟨t.label, s.place + 1⟩
          let (behind, found) := go found (s.skip (t.stop - s.place))
          (⟨s.place, t.address, false⟩ :: (inside ++ behind), found)
        | (none, found) => go found (s.skip 1)
      else if c == '!' then
        match imageAt? skip labels found s with
        | (some t, found) => go found (s.skip (t.stop - s.place))
        | (none, found) => go found (s.skip 1)
      else if c == '<' then
        match bareLink? s.rest with
        | some (address, _, n) =>
          let (behind, found) := go found (s.skip n)
          (⟨s.place, address, true⟩ :: behind, found)
        | none => go found (s.skip ((htmlSpan? s.rest).getD 1))
      else go found (s.skip (plainLength s.rest))

/-- The links of a text inside so many links that only `depth` more are possible. -/
def linkSpotsAt (labels : Labels) : (depth : Nat) → Found → Spot → List LinkSpot × Found
  | 0, found, _ => ([], found)
  | depth + 1, found, s =>
    linkSpotsFrom (skip labels (depth + 1)) (linkSpotsAt labels depth) labels (s.rest.length + 1)
      found s

/-- The links of the text of a block, and where they begin. -/
def linkSpots (labels : Labels) (text : List Char) : List LinkSpot :=
  (linkSpotsAt labels maxLevel [] ⟨text, 0⟩).1

/-! ## The same links -/

/-- What the links among pieces lead to. -/
def linkStarts (is : List Inline) : List (List Char × Bool) :=
  is.filterMap fun
    | .linkStart address bare => some (address, bare)
    | _ => none

/-- What the links among parts lead to. -/
def partStarts (ps : List Part) : List (List Char × Bool) :=
  ps.filterMap fun
    | .piece (.linkStart address bare) => some (address, bare)
    | _ => none

theorem partStarts_append (ps ps' : List Part) :
    partStarts (ps ++ ps') = partStarts ps ++ partStarts ps' := List.filterMap_append ..

theorem partStarts_flush (pending : List Char) (ps : List Part) :
    partStarts (flush pending ps) = partStarts ps := by
  unfold flush
  split <;> rfl

theorem partStarts_map_piece (is : List Inline) : partStarts (is.map .piece) = linkStarts is := by
  rw [partStarts, List.filterMap_map]
  refine List.filterMap_congr fun i _ => ?_
  cases i <;> rfl

theorem partStarts_replicate_mark (n : Nat) (c : Char) (length : Nat) (opens closes : Bool) :
    partStarts (List.replicate n (.mark c length opens closes)) = [] := by
  induction n with
  | zero => rfl
  | succ n ih => exact ih

/-- The parts of a link are the link itself and those of its label. -/
theorem partStarts_link (address : List Char) {pieces : List Inline} {inside : List LinkSpot}
    {place : Nat} (h : linkStarts pieces = inside.map LinkSpot.start) :
    partStarts (.piece (.linkStart address false) :: pieces.map .piece ++ [.piece .linkEnd]) =
      (⟨place, address, false⟩ :: inside).map LinkSpot.start := by
  rw [partStarts_append, partStarts, List.filterMap_cons, ← partStarts, partStarts_map_piece, h]
  exact List.append_nil _

/-- Marks that become text are no links. -/
theorem linkStarts_resolve (ps : List Part) : linkStarts (resolve ps) = partStarts ps := by
  unfold resolve
  generalize pairedPlaces (marksFrom 0 ps) = paired
  suffices h : ∀ n, linkStarts (resolveFrom paired n ps) = partStarts ps from h 0
  induction ps with
  | nil => exact fun _ => rfl
  | cons p ps ih =>
    intro n
    cases p with
    | piece i => cases i <;> simp [resolveFrom, linkStarts, partStarts] <;> exact ih (n + 1)
    | mark c length opens closes =>
      rw [resolveFrom]
      split <;> exact ih (n + 1)

/-- **Parts and links of the same text**: the links are those of the parts, and the same ends have
been found on the way. -/
def Agree (parts : List Part × Found) (spots : List LinkSpot × Found) : Prop :=
  partStarts parts.1 = spots.1.map LinkSpot.start ∧ parts.2 = spots.2

theorem Agree.append {parts : List Part × Found} {spots : List LinkSpot × Found}
    (h : Agree parts spots) (pending : List Char) (new : List Part) (links : List LinkSpot)
    (hnew : partStarts new = links.map LinkSpot.start) :
    Agree (flush pending (new ++ parts.1), parts.2) (links ++ spots.1, spots.2) := by
  refine ⟨?_, h.2⟩
  dsimp only
  rw [partStarts_flush, partStarts_append, hnew, h.1, List.map_append]

section

variable (skip : Skipper) {inner : Found → Spot → List Inline × Found}
  {inner' : Found → Spot → List LinkSpot × Found} (labels : Labels)

/-- **The cutting of a text finds the links that it has**, if that of labels does. -/
theorem agree_partsFrom
    (hinner : ∀ found s, linkStarts (inner found s).1 = (inner' found s).1.map LinkSpot.start ∧
      (inner found s).2 = (inner' found s).2) : ∀ (fuel : Nat) (before : Char)
    (pending : List Char) (found : Found) (s : Spot),
    Agree (partsFrom skip inner labels fuel before pending found s)
      (linkSpotsFrom skip inner' labels fuel found s) := by
  intro fuel
  induction fuel with
  | zero => exact fun _ pending found _ => ⟨partStarts_flush pending [], rfl⟩
  | succ fuel ih =>
    intro before pending found s
    rw [partsFrom, linkSpotsFrom]
    dsimp only
    cases hrest : s.rest with
    | nil => exact ⟨partStarts_flush pending [], rfl⟩
    | cons c cs =>
      dsimp only
      by_cases hbreak : c = '\n'
      · subst hbreak
        exact (ih _ _ _ _).append _ [.piece .lineBreak] [] rfl
      by_cases hslash : c = '\\'
      · subst hslash
        cases cs with
        | nil => exact ih _ _ _ _
        | cons d ds =>
          by_cases hd : d = '\n'
          · subst hd
            exact (ih _ _ _ _).append _ [.piece .lineBreak] [] rfl
          · change Agree (if (d == '\n') = true then _ else _) _
            rw [if_neg (mt eq_of_beq hd)]
            exact (ih _ _ _ _).append _ [.piece (.text _)] [] rfl
      by_cases htick : c = '\x60'
      · subst htick
        unfold plainLength
        cases codeSpan? ('\x60' :: cs) with
        | some code => exact (ih _ _ _ _).append _ [.piece (.code _)] [] rfl
        | none => exact ih _ _ _ _
      by_cases hstar : c = '*'
      · subst hstar
        exact (ih _ _ _ _).append _ _ [] (partStarts_replicate_mark ..)
      by_cases hscore : c = '_'
      · subst hscore
        exact (ih _ _ _ _).append _ _ [] (partStarts_replicate_mark ..)
      by_cases hbracket : c = '['
      · subst hbracket
        cases linkAt? skip labels found s with
        | mk t found =>
          cases t with
          | none => exact ih _ _ _ _
          | some t =>
            dsimp only
            have hinside := hinner found ⟨t.label, s.place + 1⟩
            generalize inner found ⟨t.label, s.place + 1⟩ = pieces at hinside ⊢
            generalize inner' found ⟨t.label, s.place + 1⟩ = inside at hinside ⊢
            obtain ⟨pieces, found⟩ := pieces
            obtain ⟨inside, found'⟩ := inside
            obtain ⟨hstarts, rfl⟩ := hinside
            exact (ih _ _ _ _).append _ _ (⟨s.place, t.address, false⟩ :: inside)
              (partStarts_link _ hstarts)
      by_cases hmark : c = '!'
      · subst hmark
        cases imageAt? skip labels found s with
        | mk t found =>
          cases t with
          | none => exact ih _ _ _ _
          | some t => exact (ih _ _ _ _).append _ [.piece (.image _ _)] [] rfl
      by_cases hangle : c = '<'
      · subst hangle
        cases bareLink? ('<' :: cs) with
        | some found =>
          exact (ih _ _ _ _).append _
            [.piece (.linkStart _ true), .piece (.text _), .piece .linkEnd] [⟨s.place, _, true⟩] rfl
        | none =>
          cases htmlSpan? ('<' :: cs) with
          | some n => exact (ih _ _ _ _).append _ [.piece .html] [] rfl
          | none => exact ih _ _ _ _
      by_cases hand : c = '&'
      · subst hand
        unfold plainLength
        cases reference? ('&' :: cs) with
        | some found => exact (ih _ _ _ _).append _ [.piece (.text _)] [] rfl
        | none => exact ih _ _ _ _
      simp only [plainLength, beq_iff_eq, Bool.or_eq_true, hbreak, hslash, htick, hstar, hscore,
        hbracket, hmark, hangle, hand, if_false, or_self]
      exact ih _ _ _ _

end

theorem agree_inlinesAt (labels : Labels) : ∀ (depth : Nat) (before : Char) (found : Found)
    (s : Spot), linkStarts (inlinesAt labels depth before found s).1 =
        (linkSpotsAt labels depth found s).1.map LinkSpot.start ∧
      (inlinesAt labels depth before found s).2 = (linkSpotsAt labels depth found s).2
  | 0, _, _, _ => ⟨rfl, rfl⟩
  | depth + 1, before, found, s => by
    obtain ⟨hstarts, hfound⟩ := agree_partsFrom (skip labels (depth + 1)) labels
      (agree_inlinesAt labels depth '[') (s.rest.length + 1) before [] found s
    exact ⟨(linkStarts_resolve _).trans hstarts, hfound⟩

/-- **The links of a text are the links among its pieces**, in the same order. -/
theorem linkStarts_inlinesOf (labels : Labels) (text : List Char) :
    linkStarts (inlinesOf labels text) = (linkSpots labels text).map LinkSpot.start :=
  (agree_inlinesAt labels maxLevel ' ' [] ⟨text, 0⟩).1

/-! ## Ends behind starts -/

/-- **No end of a piece lies before its start.** -/
def Found.Forward (found : Found) : Prop := ∀ e ∈ found, e.1 ≤ e.2

/-- **A way to find ends of pieces** that finds none before its start. -/
def Skipper.Forward (skip : Skipper) : Prop := ∀ found s, Found.Forward found →
  s.place ≤ (skip found s).1 ∧ Found.Forward (skip found s).2

theorem Found.forward_nil : Found.Forward [] := List.forall_mem_nil _

theorem Found.Forward.cons {found : Found} (h : found.Forward) {place stop : Nat}
    (hle : place ≤ stop) : Found.Forward ((place, stop) :: found) := List.forall_mem_cons.2 ⟨hle, h⟩

/-- **What is found satisfies a property**, and no end that was found on the way lies before its
start. -/
def Finds {α : Type} (P : α → Prop) (r : Option α × Found) : Prop :=
  (∀ a ∈ r.1, P a) ∧ Found.Forward r.2

theorem Finds.none {α : Type} {P : α → Prop} {found : Found} (h : found.Forward) :
    Finds P (none, found) := ⟨nofun, h⟩

theorem Finds.some {α : Type} {P : α → Prop} {a : α} {found : Found} (ha : P a)
    (h : found.Forward) : Finds P (some a, found) := ⟨fun _ hb => Option.some.inj hb ▸ ha, h⟩

theorem Finds.mono {α : Type} {P Q : α → Prop} {r : Option α × Found} (h : Finds P r)
    (hPQ : ∀ a, P a → Q a) : Finds Q r := ⟨fun a ha => hPQ a (h.1 a ha), h.2⟩

@[simp] theorem Spot.place_to (s : Spot) (place : Nat) : (s.to place).place = place := rfl

@[simp] theorem Spot.place_skip (s : Spot) (n : Nat) : (s.skip n).place = s.place + n := rfl

@[simp] theorem Spot.rest_skip (s : Spot) (n : Nat) : (s.skip n).rest = s.rest.drop n :=
  congrArg s.rest.drop (Nat.add_sub_cancel_left s.place n)

section

variable {skip : Skipper} (hskip : skip.Forward)

include hskip

/-- A label ends at its start or behind it. -/
theorem finds_labelEnd (holdsLinks : Bool) : ∀ (fuel openCount : Nat) {found : Found} (s : Spot),
    found.Forward → Finds (s.place ≤ ·) (labelEnd skip holdsLinks fuel openCount found s) := by
  intro fuel
  induction fuel with
  | zero => exact fun _ _ _ h => .none h
  | succ fuel ih =>
    intro openCount found s h
    rw [labelEnd]
    obtain ⟨hplace, hfound⟩ := hskip found s h
    have hgo (openCount : Nat) := (ih openCount (s.to (skip found s).1) hfound).mono
      fun p hp => hplace.trans hp
    split
    · exact .none h
    · rename_i c _ _
      split
      · exact .some le_rfl h
      · dsimp only
        generalize (if c == ']' then openCount - 1 else openCount) = count
        split_ifs
        · exact hgo _
        · exact hgo _
        · exact .none hfound
        · exact hgo _

/-- A target that a label stands for has this label, and ends behind it. -/
theorem finds_labelTarget (labels : Labels) (label : List Char) {stop : Nat} {found : Found}
    {s : Spot} (hstop : stop ≤ s.place + 1) (h : found.Forward) :
    Finds (fun t => t.label = label ∧ stop ≤ t.stop)
      (labelTarget skip labels label stop found s) := by
  unfold labelTarget
  split
  · exact .none h
  dsimp only
  have hsecond : Finds (s.place + 1 ≤ ·) (if s.rest.head? == some '[' then
      labelEnd skip true (s.rest.length + 1) 1 found (s.skip 1) else (none, found)) := by
    split
    · exact finds_labelEnd hskip true _ 1 (s.skip 1) h
    · exact .none h
  generalize (if s.rest.head? == some '[' then
    labelEnd skip true (s.rest.length + 1) 1 found (s.skip 1) else (none, found)) = second
    at hsecond ⊢
  obtain ⟨second, found'⟩ := second
  obtain ⟨hplace, hfound⟩ := hsecond
  dsimp only
  cases second with
  | none =>
    dsimp only
    split
    · exact .some ⟨rfl, le_rfl⟩ hfound
    · exact .none hfound
  | some place =>
    have hbehind := hplace place rfl
    dsimp only
    split
    · exact .some ⟨rfl, show stop ≤ place + 1 by omega⟩ hfound
    · exact .none hfound

/-- **The label of a link stands behind its opening bracket**, and the link ends behind its label.
-/
theorem finds_linkAt? (labels : Labels) {found : Found} {s : Spot} (h : found.Forward) :
    Finds (fun t => t.label <+: s.rest.drop 1 ∧ s.place + 1 + t.label.length < t.stop)
      (linkAt? skip labels found s) := by
  unfold linkAt?
  dsimp only
  have hend := finds_labelEnd hskip false (s.rest.length + 1) 1 (s.skip 1) h
  generalize labelEnd skip false (s.rest.length + 1) 1 found (s.skip 1) = stop at hend ⊢
  obtain ⟨stop, found'⟩ := stop
  obtain ⟨hstop, hfound⟩ := hend
  cases stop with
  | none => exact .none hfound
  | some stop =>
    have hbehind : s.place + 1 ≤ stop := hstop stop rfl
    dsimp only
    rw [Spot.rest_skip, Spot.place_skip]
    have hlabel := List.take_prefix (stop - (s.place + 1)) (s.rest.drop 1)
    have hlength := List.length_take_le (stop - (s.place + 1)) (s.rest.drop 1)
    generalize (s.rest.drop 1).take (stop - (s.place + 1)) = label at hlabel hlength ⊢
    have htarget {s' : Spot} (hs' : stop ≤ s'.place) :=
      (finds_labelTarget hskip labels label (Nat.succ_le_succ hs') hfound).mono fun t ht =>
          show t.label <+: s.rest.drop 1 ∧ s.place + 1 + t.label.length < t.stop from
            ⟨ht.1 ▸ hlabel, by rw [ht.1]; omega⟩
    split
    · split
      · exact .none hfound
      · rename_i address rest htargetIn
        have hplace : (s.to (stop + 1)).place = stop + 1 := rfl
        split
        · refine .some ⟨hlabel, ?_⟩ hfound
          dsimp only
          omega
        · refine htarget ?_
          rw [Spot.place_to, hplace]
          omega
    · exact htarget (Nat.le_succ stop)

/-- An image ends behind its start. -/
theorem finds_imageAt? (labels : Labels) {found : Found} {s : Spot} (h : found.Forward) :
    Finds (s.place < ·.stop) (imageAt? skip labels found s) := by
  unfold imageAt?
  dsimp only
  split
  · exact .none h
  have hend := finds_labelEnd hskip true (s.rest.length + 1) 1 (s.skip 2) h
  generalize labelEnd skip true (s.rest.length + 1) 1 found (s.skip 2) = stop at hend ⊢
  obtain ⟨stop, found'⟩ := stop
  obtain ⟨hstop, hfound⟩ := hend
  cases stop with
  | none => exact .none hfound
  | some stop =>
    have hbehind : s.place + 2 ≤ stop := hstop stop rfl
    dsimp only
    split
    · split
      · exact .none hfound
      · split
        · refine .some ?_ hfound
          dsimp only [Spot.place_to]
          omega
        · exact .none hfound
    · refine (finds_labelTarget hskip labels _ (Nat.le_succ (stop + 1)) hfound).mono fun t ht => ?_
      omega

/-- A piece does not end before its start. -/
theorem forward_pieceEnd (labels : Labels) {found : Found} {s : Spot} (h : found.Forward) :
    s.place ≤ (pieceEnd skip labels found s).1 ∧ (pieceEnd skip labels found s).2.Forward := by
  have hstop (n : Nat) : s.place ≤ s.place + n ∧ found.Forward := ⟨Nat.le_add_right _ _, h⟩
  unfold pieceEnd
  split
  · exact hstop 1
  · dsimp only
    split_ifs
    · exact hstop _
    · exact hstop _
    · exact hstop _
    · split <;> exact hstop _
    · have hlink := finds_linkAt? hskip labels (s := s) h
      generalize linkAt? skip labels found s = link at hlink ⊢
      obtain ⟨link, found'⟩ := link
      obtain ⟨hlink, hfound⟩ := hlink
      cases link with
      | none => exact ⟨Nat.le_succ _, hfound⟩
      | some t =>
        have hend := (hlink t rfl).2
        exact ⟨by dsimp only; omega, hfound⟩
    · have himage := finds_imageAt? hskip labels (s := s) h
      generalize imageAt? skip labels found s = image at himage ⊢
      obtain ⟨image, found'⟩ := image
      obtain ⟨himage, hfound⟩ := himage
      cases image with
      | none => exact ⟨Nat.le_succ _, hfound⟩
      | some t => exact ⟨(himage t rfl).le, hfound⟩
    · split <;> exact hstop _
    · exact hstop _
    · exact hstop _

end

/-- Ends that have been found are found again. -/
theorem Found.Forward.find {found : Found} (h : found.Forward) {place : Nat} {e : Nat × Nat}
    (he : found.find? (·.1 == place) = some e) : place ≤ e.2 := by
  have hplace : (e.1 == place) = true := by simpa using List.find?_some he
  exact eq_of_beq hplace ▸ h e (List.mem_of_find?_eq_some he)

/-- **No piece ends before its start**, however deep labels are searched. -/
theorem forward_skip (labels : Labels) : ∀ depth, (skip labels depth).Forward
  | 0, found, s, h => by
    unfold skip
    split
    · rename_i e he
      exact ⟨h.find he, h⟩
    · have hle : s.place ≤ s.place + s.rest.length + 1 := by omega
      exact ⟨hle, h.cons hle⟩
  | depth + 1, found, s, h => by
    unfold skip
    split
    · rename_i e he
      exact ⟨h.find he, h⟩
    · obtain ⟨hle, hfound⟩ := forward_pieceEnd (forward_skip labels depth) labels (s := s) h
      exact ⟨hle, hfound.cons hle⟩

/-! ## Links one behind the other -/

/-- **Things in a row** between `start` and `stop`: each of them reaches from its first place up to
its last one, and begins behind the one before it. -/
def InRow {α : Type} (first last : α → Nat) : (start stop : Nat) → List α → Prop
  | _, _, [] => True
  | start, stop, a :: as =>
    start ≤ first a ∧ first a ≤ last a ∧ last a ≤ stop ∧ InRow first last (last a) stop as

section

variable {α : Type} {first last : α → Nat} {start middle stop : Nat} {as as' : List α}

theorem InRow.widen {start' stop' : Nat} (h : InRow first last start stop as)
    (hstart : start' ≤ start) (hstop : stop ≤ stop') : InRow first last start' stop' as := by
  induction as generalizing start start' with
  | nil => trivial
  | cons a as ih =>
    obtain ⟨hfirst, hle, hlast, hrest⟩ := h
    exact ⟨hstart.trans hfirst, hle, hlast.trans hstop, ih hrest le_rfl⟩

theorem InRow.append (h : InRow first last start middle as) (h' : InRow first last middle stop as')
    (hstart : start ≤ middle) (hstop : middle ≤ stop) :
    InRow first last start stop (as ++ as') := by
  induction as generalizing start with
  | nil => exact h'.widen hstart le_rfl
  | cons a as ih =>
    obtain ⟨hfirst, hle, hlast, hrest⟩ := h
    exact ⟨hfirst, hle, hlast.trans hstop, ih hrest hlast⟩

/-- What each of some things in a row is made of stands in a row. -/
theorem InRow.flatMap {β : Type} {first' last' : β → Nat} {f : α → List β}
    (h : InRow first last start stop as)
    (hf : ∀ a, InRow first' last' (first a) (last a) (f a)) :
    InRow first' last' start stop (as.flatMap f) := by
  induction as generalizing start with
  | nil => trivial
  | cons a as ih =>
    obtain ⟨hfirst, hle, hlast, hrest⟩ := h
    rw [List.flatMap_cons]
    exact ((hf a).widen hfirst le_rfl).append (ih hrest) (hfirst.trans hle) hlast

/-- Of two things in a row, the first one ends before the second one begins, and all of them end
before the row does. -/
theorem InRow.apart (h : InRow first last start stop as) :
    as.Pairwise (fun a b => last a ≤ first b) ∧ ∀ a ∈ as, start ≤ first a ∧ last a ≤ stop := by
  induction as generalizing start with
  | nil => exact ⟨.nil, List.forall_mem_nil _⟩
  | cons a as ih =>
    obtain ⟨hfirst, hle, hlast, hrest⟩ := h
    obtain ⟨hpairs, hrange⟩ := ih hrest
    refine ⟨List.pairwise_cons.2 ⟨fun b hb => (hrange b hb).1, hpairs⟩,
      List.forall_mem_cons.2 ⟨⟨hfirst, hlast⟩, fun b hb => ?_⟩⟩
    exact ⟨(hfirst.trans hle).trans (hrange b hb).1, (hrange b hb).2⟩

end

/-- **Links one behind the other** in a text between two places. Those that are not bare begin with
their brackets. -/
structure InOrder (text : List Char) (start stop : Nat) (l : List LinkSpot) : Prop where
  row : InRow (·.place) (·.place + 1) start stop l
  brackets : ∀ a ∈ l, a.bare = false → text[a.place]? = some '['

section

variable {text : List Char} {start middle stop : Nat} {l l' : List LinkSpot}

theorem InOrder.nil : InOrder text start stop [] := ⟨trivial, List.forall_mem_nil _⟩

theorem InOrder.cons {a : LinkSpot} (hstart : start ≤ a.place) (hstop : a.place < stop)
    (hbracket : a.bare = false → text[a.place]? = some '[')
    (h : InOrder text (a.place + 1) stop l) : InOrder text start stop (a :: l) :=
  ⟨⟨hstart, Nat.le_succ _, hstop, h.row⟩, List.forall_mem_cons.2 ⟨hbracket, h.brackets⟩⟩

theorem InOrder.widen {start' : Nat} (h : InOrder text start stop l) (hstart : start' ≤ start) :
    InOrder text start' stop l := ⟨h.row.widen hstart le_rfl, h.brackets⟩

theorem InOrder.append (h : InOrder text start middle l) (h' : InOrder text middle stop l')
    (hstart : start ≤ middle) (hstop : middle ≤ stop) : InOrder text start stop (l ++ l') :=
  ⟨h.row.append h'.row hstart hstop, List.forall_mem_append.2 ⟨h.brackets, h'.brackets⟩⟩

end

/-- A spot within a text: what follows stands in the text at its place. -/
def Spot.In (text : List Char) (s : Spot) : Prop := s.rest <+: text.drop s.place

theorem Spot.In.skip {text : List Char} {s : Spot} (h : s.In text) (n : Nat) :
    (s.skip n).In text := by
  rw [Spot.In, rest_skip, place_skip, ← List.drop_drop]
  exact h.drop n

theorem Spot.In.getElem?_place {text cs : List Char} {s : Spot} {c : Char} (h : s.In text)
    (hrest : s.rest = c :: cs) : text[s.place]? = some c := by
  obtain ⟨more, hmore⟩ := h
  rw [hrest] at hmore
  have hfirst := congrArg (·[0]?) hmore
  rw [List.getElem?_drop] at hfirst
  exact hfirst.symm

/-- A bare link takes characters. -/
theorem bareLink?_pos {cs : List Char} {r : List Char × List Char × Nat}
    (h : bareLink? cs = some r) : 0 < r.2.2 := by
  unfold bareLink? at h
  dsimp only at h
  split at h
  · cases h
  · split at h
    · split at h <;> cases h
      exact Nat.succ_pos _
    · cases h

section

variable {skip : Skipper} (hskip : skip.Forward) {text : List Char} {labels : Labels}
  {inner : Found → Spot → List LinkSpot × Found}

include hskip

/-- **The links from a place on stand one behind the other**, if those in labels do. -/
theorem inOrder_linkSpotsFrom
    (hinner : ∀ found s, found.Forward → s.In text →
      InOrder text s.place (s.place + s.rest.length) (inner found s).1 ∧
        (inner found s).2.Forward) : ∀ (fuel stop : Nat) {found : Found} {s : Spot},
    found.Forward → s.In text → (s.rest ≠ [] → s.place + s.rest.length ≤ stop) →
      InOrder text s.place stop (linkSpotsFrom skip inner labels fuel found s).1 ∧
        (linkSpotsFrom skip inner labels fuel found s).2.Forward := by
  intro fuel
  induction fuel with
  | zero =>
    intro stop found s h _ _
    exact ⟨.nil, h⟩
  | succ fuel ih =>
    intro stop found s h hin hstop
    -- what is behind the piece at the place
    have hbehind (n : Nat) {found : Found} (h : found.Forward) :=
      ih stop h (hin.skip n) (by
        rw [Spot.rest_skip, Spot.place_skip, List.length_drop, ← List.length_pos_iff,
          List.length_drop]
        intro hpos
        have hle := hstop (List.length_pos_iff.1 (by omega))
        omega)
    have hgo (n : Nat) {found : Found} (h : found.Forward) :
        InOrder text s.place stop (linkSpotsFrom skip inner labels fuel found (s.skip n)).1 ∧
          (linkSpotsFrom skip inner labels fuel found (s.skip n)).2.Forward :=
      ⟨(hbehind n h).1.widen (Nat.le_add_right _ _), (hbehind n h).2⟩
    rw [linkSpotsFrom]
    dsimp only
    cases hrest : s.rest with
    | nil => exact ⟨.nil, h⟩
    | cons c cs =>
      have hend := hstop (by rw [hrest]; exact List.cons_ne_nil _ _)
      dsimp only
      by_cases hbracket : c = '['
      · subst hbracket
        have hlink := finds_linkAt? hskip labels (s := s) h
        generalize linkAt? skip labels found s = link at hlink ⊢
        obtain ⟨link, found'⟩ := link
        obtain ⟨hlink, hfound⟩ := hlink
        cases link with
        | none => exact hgo 1 hfound
        | some t =>
          obtain ⟨hlabel, hstopped⟩ := hlink t rfl
          have hlength := hlabel.length_le
          rw [hrest, List.length_drop, List.length_cons] at hlength
          rw [hrest, List.length_cons] at hend
          dsimp only
          have hinside := hinner found' ⟨t.label, s.place + 1⟩ hfound
            (hlabel.trans (Spot.rest_skip s 1 ▸ hin.skip 1))
          generalize inner found' ⟨t.label, s.place + 1⟩ = inside at hinside ⊢
          obtain ⟨hbehind, hlast⟩ := hbehind (t.stop - s.place) hinside.2
          have hlt : s.place < stop := by omega
          refine ⟨.cons le_rfl hlt (fun _ => hin.getElem?_place hrest) ?_, hlast⟩
          refine hinside.1.append (hbehind.widen ?_) ?_ ?_
          · rw [Spot.place_skip]
            show s.place + 1 + t.label.length ≤ _
            omega
          · exact Nat.le_add_right _ _
          · show s.place + 1 + t.label.length ≤ stop
            omega
      rw [if_neg (by simpa using hbracket)]
      by_cases hmark : c = '!'
      · subst hmark
        have himage := finds_imageAt? hskip labels (s := s) h
        generalize imageAt? skip labels found s = image at himage ⊢
        obtain ⟨image, found'⟩ := image
        cases image with
        | none => exact hgo 1 himage.2
        | some t => exact hgo _ himage.2
      rw [if_neg (by simpa using hmark)]
      by_cases hangle : c = '<'
      · subst hangle
        cases haddress : bareLink? ('<' :: cs) with
        | some address =>
          obtain ⟨hbehind, hlast⟩ := hbehind address.2.2 h
          have hpos := Nat.add_le_add_left (bareLink?_pos haddress) s.place
          have hlt : s.place < stop := by rw [hrest, List.length_cons] at hend; omega
          exact ⟨.cons le_rfl hlt nofun (hbehind.widen hpos), hlast⟩
        | none => exact hgo _ h
      · rw [if_neg (by simpa using hangle)]
        exact hrest ▸ hgo _ h

end

theorem inOrder_linkSpotsAt (text : List Char) (labels : Labels) : ∀ (depth : Nat) {found : Found}
    {s : Spot}, found.Forward → s.In text →
      InOrder text s.place (s.place + s.rest.length) (linkSpotsAt labels depth found s).1 ∧
        (linkSpotsAt labels depth found s).2.Forward
  | 0, _, _, h, _ => ⟨.nil, h⟩
  | depth + 1, _, _, h, hin => inOrder_linkSpotsFrom (forward_skip labels (depth + 1))
      (fun _ _ => inOrder_linkSpotsAt text labels depth) _ _ h hin fun _ => le_rfl

/-- **The links of a text begin one behind the other**, those that are not bare with their
brackets. -/
theorem inOrder_linkSpots (labels : Labels) (text : List Char) :
    InOrder text 0 text.length (linkSpots labels text) := by
  have h := inOrder_linkSpotsAt text labels maxLevel (s := ⟨text, 0⟩)
    Found.forward_nil (List.prefix_refl text)
  rw [Nat.zero_add] at h
  exact h.1

end Outline.Markdown
