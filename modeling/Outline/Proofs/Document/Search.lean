import Mathlib
import Outline.Document.Column
import Outline.Proofs.Text.Find

/-!
# What the search for a bracket finds

The opening bracket of a link is searched for in the lines of its block: from the first occurrence
of what closes the link back to the last bracket before it, or else at the front of the block. **A
bracket is found exactly if the search leads to it** (`locate_eq_iff`), whether or not it is the one
that is searched for.

* `FirstAt`: the first occurrence of a text in lines;
* `LeadsTo`: the bracket that a search leads to.
-/

namespace Outline

/-- **The first occurrence of a text in the lines from `first` up to `stop`**: in the line `row`,
which is `cs`, at `place`. -/
structure FirstAt (lines : List (List Char)) (needle : List Char) (first stop row place : Nat)
    (cs : List Char) : Prop where
  first_le : first ≤ row
  lt_stop : row < stop
  isLine : lines[row]? = some cs
  here : needle <+: cs.drop place
  before : ∀ i < place, ¬ needle <+: cs.drop i
  above : ∀ r, first ≤ r → r < row → ∀ l, lines[r]? = some l → ¬ needle <:+: l

/-- **The bracket that the search for one leads to**: no other one stands between it and the first
occurrence of the text that is searched for, which is behind it in its line. If the text does not
occur, it is where the text of the first line begins. -/
inductive LeadsTo (lines : List (List Char)) (needle : List Char) (first stop row place : Nat)
    (cs : List Char) : Prop
  | search {behind : Nat} (found : FirstAt lines needle first stop row behind cs)
      (le : place ≤ behind) (between : '[' ∉ (cs.take (behind + 1)).drop (place + 1))
  | front (absent : ∀ r, first ≤ r → r < stop → ∀ l, lines[r]? = some l → ¬ needle <:+: l)
      (isFirst : row = first) (isFront : place = (cs.takeWhile isBlank).length)

variable {lines ls : List (List Char)} {needle marker cs : List Char}
  {first stop row place number : Nat}

theorem locateFrom_cons (hneedle : needle ≠ []) (cs : List Char) (rest : List (List Char)) :
    locateFrom needle marker number (cs :: rest) =
      match Text.find? needle cs with
      | some i => some (number, (Text.findLast? marker (cs.take (i + 1))).getD i + 1)
      | none => locateFrom needle marker (number + 1) rest := by
  have hempty : needle.isEmpty = false := by simpa using hneedle
  cases hfind : Text.find? needle cs with
  | none => simp only [locateFrom, hempty, Bool.false_eq_true, if_false, hfind]
  | some i => simp only [locateFrom, hempty, Bool.false_eq_true, if_false, hfind]

theorem not_infix_of_find? (h : Text.find? needle cs = none) : ¬ needle <:+: cs := fun hin => by
  have hsome := Text.isSome_findFrom?_iff (i := 0) |>.2 hin
  rw [Text.find?] at h
  rw [h] at hsome
  cases hsome

theorem not_infix_of_locateFrom (hneedle : needle ≠ [])
    (h : locateFrom needle marker number ls = none) : ∀ l ∈ ls, ¬ needle <:+: l := by
  induction ls generalizing number with
  | nil => exact List.forall_mem_nil _
  | cons cs rest ih =>
    rw [locateFrom_cons hneedle] at h
    split at h
    · cases h
    · rename_i hnone
      exact List.forall_mem_cons.2 ⟨not_infix_of_find? hnone, ih h⟩

/-- **The search finds the first occurrence**, and the last marker up to it in its line. -/
theorem firstAt_of_locateFrom (hneedle : needle ≠ []) {found : Nat × Nat}
    (h : locateFrom needle marker number ls = some found) :
    ∃ n place cs, FirstAt ls needle 0 ls.length n place cs ∧ found =
      (number + n, (Text.findLast? marker (cs.take (place + 1))).getD place + 1) := by
  induction ls generalizing number with
  | nil => cases h
  | cons cs rest ih =>
    rw [locateFrom_cons hneedle] at h
    split at h
    · rename_i i hi
      cases h
      obtain ⟨place, rfl, hhere, hbefore⟩ := Text.findFrom?_eq_some hneedle hi
      refine ⟨0, place, cs, ⟨le_rfl, Nat.succ_pos _, rfl, hhere, hbefore, nofun⟩, ?_⟩
      rw [Nat.zero_add]
      rfl
    · rename_i hnone
      obtain ⟨n, place, cs', hfirst, rfl⟩ := ih h
      refine ⟨n + 1, place, cs', ⟨Nat.zero_le _, Nat.succ_lt_succ hfirst.lt_stop, hfirst.isLine,
        hfirst.here, hfirst.before, fun r _ hr l hl => ?_⟩, by rw [Nat.add_right_comm]; rfl⟩
      cases r with
      | zero => cases hl; exact not_infix_of_find? hnone
      | succ r => exact hfirst.above r (Nat.zero_le r) (Nat.lt_of_succ_lt_succ hr) l hl

theorem getElem?_block (lines : List (List Char)) (first stop row : Nat) :
    ((lines.take stop).drop first)[row]? =
      if first + row < stop then lines[first + row]? else none := by
  rw [List.getElem?_drop, List.getElem?_take]

/-- A first occurrence in the lines of a block. -/
theorem FirstAt.of_block
    (h : FirstAt ((lines.take stop).drop first) needle 0 ((lines.take stop).drop first).length
      row place cs) : FirstAt lines needle first stop (first + row) place cs := by
  have hline := h.isLine
  rw [getElem?_block] at hline
  split_ifs at hline with hstop
  refine ⟨Nat.le_add_right _ _, hstop, hline, h.here, h.before, fun r hfirst hr l hl => ?_⟩
  refine h.above (r - first) (Nat.zero_le _) (by omega) l ?_
  rw [getElem?_block, Nat.add_sub_cancel' hfirst, if_pos (hr.trans hstop), hl]

theorem FirstAt.occurs (h : FirstAt lines needle first stop row place cs) : needle <:+: cs :=
  h.here.isInfix.trans (List.drop_suffix _ _).isInfix

/-- There is only one first occurrence. -/
theorem FirstAt.unique {row' place' : Nat} {cs' : List Char}
    (h : FirstAt lines needle first stop row place cs)
    (h' : FirstAt lines needle first stop row' place' cs') : row = row' ∧ place = place' := by
  rcases lt_trichotomy row row' with hlt | rfl | hlt
  · exact absurd h.occurs (h'.above row h.first_le hlt cs h.isLine)
  · obtain rfl : cs = cs' := Option.some.inj (h.isLine.symm.trans h'.isLine)
    refine ⟨rfl, ?_⟩
    rcases lt_trichotomy place place' with hlt | rfl | hlt
    · exact absurd h.here (h'.before place hlt)
    · rfl
    · exact absurd h'.here (h.before place' hlt)
  · exact absurd h'.occurs (h.above row' h'.first_le hlt cs' h'.isLine)

/-- The last bracket up to a place, if one stands in front of it. -/
theorem findLast?_take_iff (hbracket : cs[place]? = some '[') {behind : Nat} :
    (Text.findLast? ['['] (cs.take (behind + 1))).getD behind = place ↔
      place ≤ behind ∧ '[' ∉ (cs.take (behind + 1)).drop (place + 1) := by
  have hlast : Text.findLast? ['['] (cs.take (behind + 1)) = some place ↔
      place ≤ behind ∧ '[' ∉ (cs.take (behind + 1)).drop (place + 1) := by
    rw [Text.findLast?_eq_some_iff, List.getElem?_take, hbracket]
    simp
  rw [← hlast]
  cases hfound : Text.findLast? ['['] (cs.take (behind + 1)) with
  | some m => exact Option.some_inj.symm
  | none =>
    refine iff_of_false ?_ nofun
    -- the place itself would have been found
    rintro rfl
    refine Text.findLastFrom?_eq_none hfound (List.mem_of_getElem? (i := behind) ?_)
    rw [List.getElem?_take, if_pos (Nat.lt_succ_self behind)]
    exact hbracket

theorem blockColumn_first (hline : lines[first]? = some cs) :
    (if first < lines.length then blockColumn (lineAt lines (first + 1)) else 1) =
      (cs.takeWhile isBlank).length + 1 := by
  have hat : lineAt lines (first + 1) = cs := congrArg (·.getD []) hline
  rw [if_pos (List.getElem?_eq_some_iff.1 hline).1, hat, blockColumn]

/-- **A bracket is found exactly if the search leads to it.** -/
theorem locate_eq_iff (hneedle : needle ≠ []) (hline : lines[row]? = some cs)
    (hbracket : cs[place]? = some '[') :
    locate lines needle ['['] first stop = (row + 1, place + 1) ↔
      LeadsTo lines needle first stop row place cs := by
  unfold locate
  split
  · rename_i found hfound
    obtain ⟨n, behind, cs', hblock, rfl⟩ := firstAt_of_locateFrom hneedle hfound
    have hfirst := hblock.of_block
    rw [Prod.mk.injEq, Nat.succ_inj, Nat.add_right_comm, Nat.succ_inj]
    constructor
    · rintro ⟨rfl, hcolumn⟩
      obtain rfl : cs' = cs := Option.some.inj (hfirst.isLine.symm.trans hline)
      obtain ⟨hle, hbetween⟩ := (findLast?_take_iff hbracket).1 hcolumn
      exact .search hfirst hle hbetween
    · intro h
      cases h with
      | search hfound hle hbetween =>
        obtain ⟨rfl, rfl⟩ := hfirst.unique hfound
        obtain rfl : cs' = cs := Option.some.inj (hfirst.isLine.symm.trans hline)
        exact ⟨rfl, (findLast?_take_iff hbracket).2 ⟨hle, hbetween⟩⟩
      | front habsent =>
        exact absurd hfirst.occurs (habsent _ hfirst.first_le hfirst.lt_stop cs' hfirst.isLine)
  · rename_i hnone
    have habsent : ∀ r, first ≤ r → r < stop → ∀ l, lines[r]? = some l → ¬ needle <:+: l := by
      intro r hr hstop l hl
      refine not_infix_of_locateFrom hneedle hnone l (List.mem_of_getElem? (i := r - first) ?_)
      rw [getElem?_block, Nat.add_sub_cancel' hr, if_pos hstop, hl]
    rw [Prod.mk.injEq, Nat.succ_inj]
    constructor
    · rintro ⟨rfl, hcolumn⟩
      rw [blockColumn_first hline, Nat.succ_inj] at hcolumn
      exact .front habsent rfl hcolumn.symm
    · intro h
      cases h with
      | search hfound =>
        exact absurd hfound.occurs (habsent _ hfound.first_le hfound.lt_stop cs hline)
      | front _ hfirst hplace =>
        subst hfirst
        exact ⟨rfl, by rw [blockColumn_first hline, hplace]⟩

end Outline
