import Outline.Proofs.Document.Alike

/-!
# Documents with one more section

A section without subsections is put among those of another one (`insertIntoAll`). All lines behind
it move, so that the longer document is told from the shorter one by its headings only: it is any
document whose sections nest like the shorter one's with the new section (`Inserted`). Its sections
are those of the shorter document and one more, whose heading has the key of the new one, at every
depth (`Padded`).

* `insertInto`, `insertIntoAll`: a section put among the subsections of another one;
* `Inserted`: documents with one more section;
* `Padded`: lists of sections of which the second has some more;
* `Mirrors`: a section of the shorter document and the one that it has become.
-/

namespace Outline

/-! ## Putting a section among others -/

mutual

/-- Puts the section `x` at a place among the subsections of the section that begins at a line. -/
def insertInto (line place : Nat) (x : Section) : Section → Section
  | ⟨heading, body, children⟩ =>
    let children := insertIntoAll line place x children
    ⟨heading, body, if body.startLine = line then children.insertIdx place x else children⟩

/-- Puts the section `x` at a place among the subsections of the one that begins at a line. -/
def insertIntoAll (line place : Nat) (x : Section) : List Section → List Section
  | [] => []
  | s :: rest => insertInto line place x s :: insertIntoAll line place x rest

end

/-- **A document with one more section**: it is the document `d` with the section `x`, which has no
subsections, at a place among the subsections of `s`, and its lines are those of the longer
document. -/
structure Inserted (d : Document) (s : Section) (place : Nat) (x : Section) (d' : Document) :
    Prop where
  path : d'.path = d.path
  regular : Regular d'.sections
  place_le : place ≤ s.children.length
  childless : x.children = []
  sections : Alike (insertIntoAll s.startLine place x d.sections) d'.sections

section

variable (line place : Nat) (x : Section)

theorem insertIntoAll_cons (s : Section) (rest : List Section) :
    insertIntoAll line place x (s :: rest) =
      insertInto line place x s :: insertIntoAll line place x rest := by
  rw [insertIntoAll]

theorem heading_insertInto (s : Section) : (insertInto line place x s).heading = s.heading := by
  cases s
  rw [insertInto]

theorem children_insertInto (s : Section) : (insertInto line place x s).children =
    if s.startLine = line then (insertIntoAll line place x s.children).insertIdx place x
    else insertIntoAll line place x s.children := by
  cases s
  rw [insertInto]
  rfl

theorem head_insertIntoAll (sections : List Section) :
    (insertIntoAll line place x sections).head?.map (·.heading.key) =
      sections.head?.map (·.heading.key) := by
  cases sections with
  | nil => rfl
  | cons s rest =>
    rw [insertIntoAll_cons, List.head?_cons, List.head?_cons, Option.map_some, Option.map_some,
      heading_insertInto]

theorem length_insertIntoAll (sections : List Section) :
    (insertIntoAll line place x sections).length = sections.length := by
  induction sections with
  | nil => rfl
  | cons s rest ih => rw [insertIntoAll_cons, List.length_cons, List.length_cons, ih]

end

/-! ## Lists with more sections -/

/-- **Sections of which the second ones are the first ones**, each related to what it has become,
with some others put among them. -/
inductive Padded (other : Section → Prop) (R : Section → Section → Prop) :
    List Section → List Section → Prop
  | nil : Padded other R [] []
  | both {s t : Section} {ss ts : List Section} (h : R s t) (rest : Padded other R ss ts) :
      Padded other R (s :: ss) (t :: ts)
  | extra {t : Section} {ss ts : List Section} (h : other t) (rest : Padded other R ss ts) :
      Padded other R ss (t :: ts)

/-- The section `s` has become `t`: the headings have the same key, and the subsections of `t` are
those of `s`, with `x` among them if `s` begins at the line. -/
structure Mirrors (line place : Nat) (x s t : Section) : Prop where
  key : s.heading.key = t.heading.key
  below : Alike (insertInto line place x s).children t.children

/-- A section with the key of `x`. -/
def SameKey (x t : Section) : Prop := t.heading.key = x.heading.key

namespace Alike

variable {line place : Nat} {x : Section}

theorem length_eq {ss ts : List Section} (h : Alike ss ts) : ss.length = ts.length := by
  induction h with
  | nil => rfl
  | cons _ _ _ _ ih => rw [List.length_cons, List.length_cons, ih]

/-- Lists that nest alike begin with headings of the same key. -/
theorem head_key {ss ts : List Section} (h : Alike ss ts) :
    ss.head?.map (·.heading.key) = ts.head?.map (·.heading.key) := by
  cases h with
  | nil => rfl
  | cons heading => exact congrArg some heading

theorem mirrors {s t : Section} {rest ts : List Section}
    (h : Alike (insertInto line place x s :: rest) (t :: ts)) :
    Mirrors line place x s t ∧ Alike rest ts := by
  cases h with
  | cons heading below rest =>
    rw [heading_insertInto] at heading
    exact ⟨⟨heading, below⟩, rest⟩

theorem padded {ss : List Section} : ∀ {ts : List Section},
    Alike (insertIntoAll line place x ss) ts → Padded (SameKey x) (Mirrors line place x) ss ts := by
  induction ss with
  | nil => intro ts h; cases h; exact .nil
  | cons s ss ih =>
    intro ts h
    rw [insertIntoAll_cons] at h
    cases ts with
    | nil => cases h
    | cons t ts =>
      obtain ⟨hst, hrest⟩ := mirrors h
      exact .both hst (ih hrest)

theorem padded_insertIdx {ss : List Section} : ∀ {n : Nat} {ts : List Section},
    Alike ((insertIntoAll line place x ss).insertIdx n x) ts →
      Padded (SameKey x) (Mirrors line place x) ss ts := by
  induction ss with
  | nil =>
    intro n ts h
    cases n with
    | zero =>
      cases h with
      | cons heading _ rest =>
        cases rest
        exact .extra heading.symm .nil
    | succ n => cases h; exact .nil
  | cons s ss ih =>
    intro n ts h
    cases n with
    | zero =>
      rw [List.insertIdx_zero] at h
      cases h with
      | cons heading _ rest => exact .extra heading.symm rest.padded
    | succ n =>
      rw [insertIntoAll_cons, List.insertIdx_succ_cons] at h
      cases ts with
      | nil => cases h
      | cons t ts =>
        obtain ⟨hst, hrest⟩ := mirrors h
        exact .both hst (ih hrest)

end Alike

/-- **The subsections of a section have become those of the other one, and one more.** -/
theorem Mirrors.padded {line place : Nat} {x s t : Section} (h : Mirrors line place x s t) :
    Padded (SameKey x) (Mirrors line place x) s.children t.children := by
  have hbelow := h.below
  rw [children_insertInto] at hbelow
  split_ifs at hbelow with hline
  · exact hbelow.padded_insertIdx
  · exact hbelow.padded

/-- Elsewhere there are as many subsections, and they begin with the same key. -/
theorem Mirrors.children_eq {line place : Nat} {x s t : Section} (h : Mirrors line place x s t)
    (hline : s.startLine ≠ line) : s.children.length = t.children.length ∧
      s.children.head?.map (·.heading.key) = t.children.head?.map (·.heading.key) := by
  have hbelow := h.below
  rw [children_insertInto, if_neg hline] at hbelow
  rw [← length_insertIntoAll line place x, ← head_insertIntoAll line place x]
  exact ⟨hbelow.length_eq, hbelow.head_key⟩

/-- At the line the subsections begin with `x`, if it was put at the front. -/
theorem Mirrors.head_zero {line : Nat} {x s t : Section} (h : Mirrors line 0 x s t)
    (hline : s.startLine = line) :
    t.children.head?.map (·.heading.key) = some x.heading.key := by
  have hbelow := h.below
  rw [children_insertInto, if_pos hline, List.insertIdx_zero] at hbelow
  exact hbelow.head_key.symm

/-- At the line the subsections begin as before, if `x` was put behind the first one. -/
theorem Mirrors.head_succ {line place : Nat} {x s t : Section}
    (h : Mirrors line (place + 1) x s t) (hline : s.startLine = line)
    (hplace : place + 1 ≤ s.children.length) :
    s.children.head?.map (·.heading.key) = t.children.head?.map (·.heading.key) := by
  have hbelow := h.below
  rw [children_insertInto, if_pos hline] at hbelow
  rw [← hbelow.head_key, ← head_insertIntoAll line (place + 1) x]
  rw [← length_insertIntoAll line (place + 1) x] at hplace
  cases hchildren : insertIntoAll line (place + 1) x s.children with
  | nil =>
    rw [hchildren] at hplace
    exact absurd hplace (Nat.not_succ_le_zero _)
  | cons c cs =>
    rw [List.insertIdx_succ_cons]
    rfl

end Outline
