import Outline.Proofs.Binding.Each
import Outline.Proofs.Document.Insert

/-!
# Sections that no element takes

Sections that fit no element, put among those of a document, change nothing in the binding: each
element takes what its sections have become, and **the nodes are the same but for that**
(`mirrored_matchSiblings`).

* `Element.Ignores`: an element whose heading accepts none of some sections;
* `Sound`: headings and subsections of sections that are related;
* `Padded.take`, `Padded.left`: what an element takes and what it leaves;
* `Mirrored`, `Placed.Mirrors`: nodes that differ in what has become of their sections.
-/

namespace Outline

/-- The heading of the element accepts none of the sections. -/
def Element.Ignores (accepts : Accepts) (other : Section → Prop) (e : Element) : Prop :=
  ∀ t, other t → accepts e.heading t.heading = false

/-- **What is used of sections that are related**: no specification tells their headings apart, and
the subsections of the second are those of the first and some others. -/
def Sound (accepts : Accepts) (other : Section → Prop) (R : Section → Section → Prop) : Prop :=
  ∀ s t, R s t → (∀ spec, accepts spec s.heading = accepts spec t.heading) ∧
    Padded other R s.children t.children

/-! ## What an element takes -/

theorem takeMatching_cons {α : Type} (p : α → Bool) (most : Option Nat) (a : α) (l : List α) :
    takeMatching p most (a :: l) =
      if p a = true ∧ most ≠ some 0 then a :: takeMatching p (most.map (· - 1)) l
      else takeMatching p most l := by
  unfold takeMatching
  cases hp : p a with
  | false => simp [hp]
  | true =>
    rcases most with _ | _ | n
    · simp [hp]
    · simp
    · simp [hp]

theorem sectionsAfter_cons_of_le {after : Nat} {s : Section} (h : s.startLine ≤ after)
    (ss : List Section) : sectionsAfter after (s :: ss) = sectionsAfter after ss :=
  List.filter_cons_of_neg (by simpa using h)

theorem sectionsAfter_eq_self {after : Nat} {ss : List Section}
    (h : ∀ s ∈ ss, after < s.startLine) : sectionsAfter after ss = ss :=
  List.filter_eq_self.2 fun s hs => decide_eq_true (h s hs)

section

variable {accepts : Accepts} {other : Section → Prop} {R : Section → Section → Prop}

/-- What is left behind sections that were taken from a list, with one in front that was not. -/
theorem left_cons {after : Nat} {s : Section} {ss taken : List Section}
    (hinc : (s :: ss).Pairwise fun s t => s.startLine < t.startLine)
    (hafter : ∀ t ∈ s :: ss, after < t.startLine) (htaken : taken.Sublist ss) :
    sectionsAfter (lastLine after taken) (s :: ss) =
      if taken = [] then s :: ss else sectionsAfter (lastLine after taken) ss := by
  split_ifs with hnil
  · rw [hnil, lastLine_nil, sectionsAfter_eq_self hafter]
  · obtain ⟨t, rest, rfl⟩ := List.exists_cons_of_ne_nil hnil
    obtain ⟨hs, hinc⟩ := List.pairwise_cons.1 hinc
    have hle := (startLine_le_lastLine (hinc.sublist htaken) fun u hu =>
      hafter u (List.mem_cons_of_mem _ (htaken.subset hu))).2 t List.mem_cons_self
    have hlt := hs t (htaken.subset List.mem_cons_self)
    exact sectionsAfter_cons_of_le (Nat.le_of_lt (Nat.lt_of_lt_of_le hlt hle)) ss

/-- What is left behind sections that were taken from a list, the first one among them. -/
theorem left_cons_taken {after : Nat} {s : Section} {ss taken : List Section}
    (hinc : (s :: ss).Pairwise fun s t => s.startLine < t.startLine) (htaken : taken.Sublist ss) :
    sectionsAfter (lastLine after (s :: taken)) (s :: ss) =
      sectionsAfter (lastLine s.startLine taken) ss := by
  obtain ⟨hs, hinc⟩ := List.pairwise_cons.1 hinc
  have hle := (startLine_le_lastLine (hinc.sublist htaken) fun u hu => hs u (htaken.subset hu)).1
  rw [lastLine_cons, sectionsAfter_cons_of_le hle]

theorem takeMatching_sublist {α : Type} (p : α → Bool) (most : Option Nat) (l : List α) :
    (takeMatching p most l).Sublist l := by
  unfold takeMatching
  split
  · exact (List.take_sublist _ _).trans List.filter_sublist
  · exact List.filter_sublist

/-- **From sections with others among them an element takes what its sections have become**, and
what it leaves behind them is what it left before, with others among them. -/
theorem Padded.takeMatching (hsound : Sound accepts other R) {spec : HeadingSpec}
    (hignores : ∀ t, other t → accepts spec t.heading = false) {l l' : List Section}
    (h : Padded other R l l') : ∀ (most : Option Nat),
      l.Pairwise (fun s t => s.startLine < t.startLine) →
      l'.Pairwise (fun s t => s.startLine < t.startLine) →
      let taken := Outline.takeMatching (fun s => accepts spec s.heading) most l
      let taken' := Outline.takeMatching (fun s => accepts spec s.heading) most l'
      List.Forall₂ R taken taken' ∧
        ∀ after after', (∀ s ∈ l, after < s.startLine) → (∀ t ∈ l', after' < t.startLine) →
          Padded other R (sectionsAfter (lastLine after taken) l)
            (sectionsAfter (lastLine after' taken') l') := by
  induction h with
  | nil =>
    intro most _ _
    have hnil : Outline.takeMatching (fun s : Section => accepts spec s.heading) most [] = [] :=
      List.sublist_nil.1 (takeMatching_sublist _ _ _)
    dsimp only
    rw [hnil]
    exact ⟨.nil, fun _ _ _ _ => .nil⟩
  | @both s t ss ts hst hrest ih =>
    intro most hinc hinc'
    have hsub := takeMatching_sublist (fun s : Section => accepts spec s.heading)
    dsimp only
    rw [takeMatching_cons, takeMatching_cons, (hsound s t hst).1]
    split_ifs with htaken
    · obtain ⟨hboth, hleft⟩ := ih (most.map (· - 1)) hinc.of_cons hinc'.of_cons
      refine ⟨.cons hst hboth, fun after after' _ _ => ?_⟩
      rw [left_cons_taken hinc (hsub _ ss), left_cons_taken hinc' (hsub _ ts)]
      exact hleft _ _ (List.pairwise_cons.1 hinc).1 (List.pairwise_cons.1 hinc').1
    · obtain ⟨hboth, hleft⟩ := ih most hinc.of_cons hinc'.of_cons
      refine ⟨hboth, fun after after' hafter hafter' => ?_⟩
      have hnil : Outline.takeMatching (fun s => accepts spec s.heading) most ts = [] ↔
          Outline.takeMatching (fun s => accepts spec s.heading) most ss = [] := by
        rw [← List.length_eq_zero_iff, ← List.length_eq_zero_iff, hboth.length_eq]
      rw [left_cons hinc hafter (hsub _ ss), left_cons hinc' hafter' (hsub _ ts)]
      simp only [hnil]
      split_ifs
      · exact .both hst hrest
      · exact hleft _ _ (List.forall_mem_cons.1 hafter).2 (List.forall_mem_cons.1 hafter').2
  | @extra t ss ts ht hrest ih =>
    intro most hinc hinc'
    have hsub := takeMatching_sublist (fun s : Section => accepts spec s.heading)
    obtain ⟨hboth, hleft⟩ := ih most hinc hinc'.of_cons
    dsimp only
    rw [takeMatching_cons, if_neg (by simp [hignores t ht])]
    refine ⟨hboth, fun after after' hafter hafter' => ?_⟩
    rw [left_cons hinc' hafter' (hsub _ ts)]
    split_ifs with hnil
    · have hnone : Outline.takeMatching (fun s => accepts spec s.heading) most ss = [] := by
        rw [hnil] at hboth
        exact List.forall₂_nil_right_iff.1 hboth
      rw [hnone, lastLine_nil, sectionsAfter_eq_self hafter]
      exact .extra ht hrest
    · exact hleft _ _ hafter (List.forall_mem_cons.1 hafter').2

theorem Padded.take (hsound : Sound accepts other R) {e : Element}
    (hignores : e.Ignores accepts other) {l l' : List Section} (hreg : Regular l)
    (hreg' : Regular l') {after after' : Nat}
    (h : Padded other R (sectionsAfter after l) (sectionsAfter after' l')) :
    List.Forall₂ R (e.take accepts (sectionsAfter after l))
        (e.take accepts (sectionsAfter after' l')) ∧
      Padded other R (sectionsAfter (lastLine after (e.take accepts (sectionsAfter after l))) l)
        (sectionsAfter (lastLine after' (e.take accepts (sectionsAfter after' l'))) l') := by
  have hinc := hreg.siblings.sublist (sectionsAfter_sublist after l)
  have hinc' := hreg'.siblings.sublist (sectionsAfter_sublist after' l')
  obtain ⟨hboth, hleft⟩ := h.takeMatching hsound hignores e.most hinc hinc'
  refine ⟨hboth, ?_⟩
  have hle : ∀ {l : List Section} {after : Nat}, Regular l →
      after ≤ lastLine after (e.take accepts (sectionsAfter after l)) := fun hreg =>
    (startLine_le_lastLine
      (hreg.siblings.sublist ((e.take_sublist accepts _).trans (sectionsAfter_sublist _ _)))
      fun s hs => (mem_sectionsAfter.1 ((e.take_sublist accepts _).subset hs)).2).1
  have hleft := hleft after after' (fun s hs => (mem_sectionsAfter.1 hs).2)
    fun t ht => (mem_sectionsAfter.1 ht).2
  rw [← sectionsAfter_sectionsAfter (hle hreg), ← sectionsAfter_sectionsAfter (hle hreg')]
  exact hleft

theorem regular_of_mem_take {e : Element} {l : List Section} (hreg : Regular l) {after : Nat}
    {s : Section} (hs : s ∈ e.take accepts (sectionsAfter after l)) : Regular s.children :=
  hreg.children ((sectionsAfter_sublist after l).subset ((e.take_sublist accepts _).subset hs))

/-- The subsections of a section that was taken, and what has become of them. -/
theorem Sound.children (hsound : Sound accepts other R) {s t : Section} (h : R s t)
    (hreg : Regular s.children) (hreg' : Regular t.children) :
    Padded other R (sectionsAfter 0 s.children) (sectionsAfter 0 t.children) := by
  rw [sectionsAfter_zero hreg, sectionsAfter_zero hreg']
  exact (hsound s t h).2

end

/-! ## Nodes -/

/-- **Nodes of the same elements in the same places**, bound to sections that are related. -/
inductive Mirrored (R : Section → Section → Prop) : List Node → List Node → Prop
  | nil : Mirrored R [] []
  | cons {n n' : Node} {ns ns' : List Node} (element : n'.element = n.element)
      (order : n'.order = n.order) (matchCount : n'.matchCount = n.matchCount)
      (matchIndex : n'.matchIndex = n.matchIndex) (boundTo : Option.Rel R n.boundTo? n'.boundTo?)
      (below : Mirrored R n.children n'.children) (rest : Mirrored R ns ns') :
      Mirrored R (n :: ns) (n' :: ns')

/-- The same of nodes with their ancestors. -/
structure Placed.Mirrors (R : Section → Section → Prop) (p p' : Placed) : Prop where
  element : p'.node.element = p.node.element
  matchCount : p'.node.matchCount = p.node.matchCount
  matchIndex : p'.node.matchIndex = p.node.matchIndex
  boundTo : Option.Rel R p.node.boundTo? p'.node.boundTo?
  children : Mirrored R p.node.children p'.node.children
  ancestors : p'.ancestors.map Node.element = p.ancestors.map Node.element

namespace Mirrored

variable {R : Section → Section → Prop}

theorem append {ns ns' ms ms' : List Node} (h : Mirrored R ns ns') (h' : Mirrored R ms ms') :
    Mirrored R (ns ++ ms) (ns' ++ ms') := by
  induction h with
  | nil => exact h'
  | cons element order matchCount matchIndex boundTo below _ _ ih =>
    exact .cons element order matchCount matchIndex boundTo below ih

/-- Nodes without sections are related to themselves. -/
theorem of_unbound {nodes : List Node} (h : boundSections nodes = []) : Mirrored R nodes nodes := by
  induction nodes using nodes_induction with
  | nil => exact .nil
  | cons n ns ihn ih =>
    rw [boundSections_cons, List.append_eq_nil_iff, List.append_eq_nil_iff] at h
    obtain ⟨hnone, hbelow, hrest⟩ := h
    have hbound : n.boundTo? = none := Option.toList_eq_nil_iff.1 hnone
    exact .cons rfl rfl rfl rfl (hbound ▸ .none) (ihn hbelow) (ih hrest)

/-- There are as many sections at the top of nodes as of those related to them. -/
theorem length_sections {ns ns' : List Node} (h : Mirrored R ns ns') :
    (ns'.filterMap Node.boundTo?).length = (ns.filterMap Node.boundTo?).length := by
  induction h with
  | nil => rfl
  | @cons n n' _ _ _ _ _ _ boundTo _ _ _ ih =>
    rw [List.filterMap_cons, List.filterMap_cons]
    generalize n.boundTo? = s at boundTo ⊢
    generalize n'.boundTo? = t at boundTo ⊢
    cases boundTo with
    | none => exact ih
    | some => exact congrArg (· + 1) ih

theorem walk {ns ns' : List Node} (h : Mirrored R ns ns') : ∀ {ancestors ancestors' : List Node},
    ancestors'.map Node.element = ancestors.map Node.element →
      List.Forall₂ (Placed.Mirrors R) (walkNodes ancestors ns) (walkNodes ancestors' ns') := by
  induction h with
  | nil => intro _ _ _; exact .nil
  | @cons n n' _ _ element order matchCount matchIndex boundTo below _ ihbelow ihrest =>
    intro ancestors ancestors' hancestors
    have hinside : (n' :: ancestors').map Node.element = (n :: ancestors).map Node.element := by
      rw [List.map_cons, List.map_cons, element, hancestors]
    rw [walkNodes_cons, walkNodes_cons]
    refine .cons ⟨element, matchCount, matchIndex, boundTo, below, hancestors⟩ ?_
    exact List.rel_append (ihbelow hinside) (ihrest hancestors)

theorem map_node {e : Element} {below below' : Section → List Node} {order count : Nat}
    {taken taken' : List Section} (h : List.Forall₂ R taken taken') : ∀ (index : Nat),
      (∀ s ∈ taken, ∀ t ∈ taken', R s t → Mirrored R (below s) (below' t)) →
      Mirrored R ((taken.zipIdx index).map (e.node below order count))
        ((taken'.zipIdx index).map (e.node below' order count)) := by
  induction h with
  | nil => intro _ _; exact .nil
  | @cons s t _ _ hst _ ih =>
    intro index hbelow
    have hhere := hbelow s List.mem_cons_self t List.mem_cons_self hst
    have hrest := ih (index + 1) fun u hu v hv =>
      hbelow u (List.mem_cons_of_mem _ hu) v (List.mem_cons_of_mem _ hv)
    exact .cons rfl rfl rfl rfl (.some hst) hhere hrest

end Mirrored

section

variable {accepts : Accepts} {other : Section → Prop} {R : Section → Section → Prop}

/-- **Sections that no element takes change nothing in the binding.** -/
theorem mirrored_matchSiblings (hsound : Sound accepts other R) {elements : List Element}
    (h : EachElement (Element.Ignores accepts other) elements) :
    ∀ {order : Nat} {l l' : List Section} {after after' : Nat}, Regular l → Regular l' →
      Padded other R (sectionsAfter after l) (sectionsAfter after' l') →
      Mirrored R (matchSiblings accepts elements order l after)
        (matchSiblings accepts elements order l' after') := by
  induction h with
  | nil => intro _ _ _ _ _ _ _ _; exact .nil
  | @cons e es here _ _ ihbelow ihrest =>
    intro order l l' after after' hreg hreg' hpadded
    obtain ⟨hboth, hleft⟩ := hpadded.take hsound here hreg hreg'
    have hnil : e.take accepts (sectionsAfter after' l') = [] ↔
        e.take accepts (sectionsAfter after l) = [] := by
      rw [← List.length_eq_zero_iff, ← List.length_eq_zero_iff, hboth.length_eq]
    rw [matchSiblings_cons, matchSiblings_cons]
    refine Mirrored.append ?_ (ihrest hreg hreg' hleft)
    by_cases htaken : e.take accepts (sectionsAfter after l) = []
    · rw [htaken, hnil.2 htaken]
      exact .of_unbound (boundSections_nodes e _ order [])
    · rw [e.nodes_of_taken _ order htaken, e.nodes_of_taken _ order (mt hnil.1 htaken),
        hboth.length_eq]
      refine .map_node hboth 0 fun s hs t ht hst => ?_
      have hchildren := regular_of_mem_take hreg hs
      have hchildren' := regular_of_mem_take hreg' ht
      exact ihbelow hchildren hchildren' (hsound.children hst hchildren hchildren')

end

end Outline
