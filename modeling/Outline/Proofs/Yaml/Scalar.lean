import Mathlib.Data.List.TakeWhile
import Outline.Proofs.Yaml.Keep
import Outline.Yaml.Token.Scalar
import Outline.Yaml.Token.Tag

/-!
# How the parts of a YAML text can fail to be read

A part of a text is read from within the text, and the reading ends within it. It fails if there is no
such part, and else only for an escape whose code is beyond the last character, or for a version with
too long a number (`Unreadable`).
-/

namespace Outline.Yaml

open Read

/-- **Why a text cannot be cut into tokens.** -/
inductive Unreadable (text : List Char) : Fault → Prop
  | notYaml : Unreadable text .notYaml
  | escape {c : Char} {width : Nat} {ds : List Char} (hc : escapeWidth? c = some width)
      (hds : '\\' :: c :: ds <:+: text) (hlength : ds.length = width)
      (hbeyond : 0x10FFFF < hexValue ds) :
      Unreadable text (if 0x7FFFFFFF < hexValue ds then .outOfRange else .noCharacter)
  | version {ds : List Char} (hds : ds <:+: text) (hdigits : ∀ d ∈ ds, isAsciiDigit d = true)
      (hlong : maxDigits < ds.length) : Unreadable text (.tooManyDigits (some ds.length))

/-- A place in a text. -/
def Inside (text : List Char) (k : Cursor) : Prop := k.rest <:+ text

variable {text : List Char} {k : Cursor} {α β : Type}

theorem step_rest (k : Cursor) : k.step.rest = k.rest.tail := by
  unfold Cursor.step
  split
  · rename_i hrest
    rw [hrest, List.tail_nil]
  · rename_i c cs hrest
    rw [hrest, List.tail_cons]
    split <;> rfl

theorem skip_rest (n : Nat) : ∀ k : Cursor, (k.skip n).rest = k.rest.drop n := by
  induction n with
  | zero => exact fun k => rfl
  | succ n ih =>
    intro k
    rw [Cursor.skip, ih, step_rest, List.drop_tail]

theorem Inside.skip (h : Inside text k) (n : Nat) : Inside text (k.skip n) := by
  unfold Inside
  rw [skip_rest]
  exact (List.drop_suffix n k.rest).trans h

/-- Readings within a text. -/
abbrev ReadsIn (text : List Char) (r : Read α) : Prop := Keeps (Inside text) (Unreadable text) r

/-! ## Characters -/

@[grind ←] theorem readsIn_fail : ReadsIn text (fail : Read α) := Keeps.throw .notYaml

@[grind ←] theorem readsIn_fail_bind {f : α → Read β} :
    ReadsIn text ((fail : Read α) >>= f) := Keeps.throw_bind .notYaml

@[grind ←] theorem readsIn_move (n : Nat) : ReadsIn text (move n) :=
  Keeps.modify fun _ h => h.skip n

theorem leads_move (k : Cursor) (n : Nat) :
    Leads (· = k) (· = k.skip n) (Unreadable text) (move n) := by
  rintro s rfl
  rfl

@[grind ←] theorem readsIn_peek : ReadsIn text peek := by
  unfold peek
  grind

@[grind ←] theorem readsIn_takeWhile (p : Char → Bool) : ReadsIn text (takeWhile p) := by
  unfold takeWhile
  grind

@[grind ←] theorem readsIn_lineBreak : ReadsIn text lineBreak := by
  unfold lineBreak
  grind

@[grind ←] theorem readsIn_spaces : ReadsIn text spaces := by
  unfold spaces
  grind

@[grind ←] theorem readsIn_comment : ReadsIn text comment := by
  unfold comment
  grind

@[grind ←] theorem readsIn_restOfLine : ReadsIn text restOfLine := by
  unfold restOfLine
  grind

/-! ## Between quotes -/

/-- **An escape fails for its code only if the code is beyond the last character.** -/
theorem leads_codeEscape {c : Char} {width : Nat} (hc : escapeWidth? c = some width)
    (hk : '\\' :: c :: k.rest <:+ text) :
    Leads (· = k) (Inside text) (Unreadable text) (codeEscape width) := by
  have hinside : Inside text k :=
    ((List.suffix_cons c k.rest).trans (List.suffix_cons '\\' _)).trans hk
  have hin : '\\' :: c :: k.rest.take width <:+: text :=
    (List.IsPrefix.isInfix (by simpa using List.take_prefix width k.rest)).trans hk.isInfix
  unfold codeEscape
  refine .get_bind fun s hs => ?_
  subst hs
  refine Keeps.leads ?_ hinside
  dsimp only
  split
  · exact readsIn_fail_bind
  · rename_i hdigits
    have hlength : (s.rest.take width).length = width := by
      simp only [List.length_take, Bool.or_eq_true, decide_eq_true_eq, not_or] at hdigits ⊢
      omega
    have hescape := fun hbeyond => Unreadable.escape hc hin hlength hbeyond
    split
    · rename_i hlarge
      rw [if_pos hlarge] at hescape
      exact .throw_bind (hescape (by omega))
    · rename_i hsmall
      rw [if_neg hsmall] at hescape
      split
      · rename_i hbeyond
        exact .throw_bind (hescape hbeyond)
      · exact .bind (readsIn_move width) fun _ => .pure _

@[grind ←] theorem readsIn_quotedBreaks (fuel : Nat) : ReadsIn text (quotedBreaks fuel) := by
  induction fuel with
  | zero => exact readsIn_fail
  | succ fuel ih =>
    unfold quotedBreaks
    grind

theorem readsIn_quotedSolid (double : Bool) (fuel : Nat) :
    ReadsIn text (quotedSolid double fuel) := by
  induction fuel with
  | zero => exact readsIn_fail
  | succ fuel ih =>
    unfold quotedSolid
    refine .bind (readsIn_takeWhile _) fun cs => Leads.get_bind fun k hk => ?_
    split
    · refine Keeps.leads ?_ hk
      grind
    · refine Keeps.leads ?_ hk
      grind
    · rename_i tail hrest
      -- the code of an escape stands behind the backslash and a letter
      refine .bind (leads_move k 1) fun _ => ?_
      split
      · exact Keeps.leads (.bind ih fun _ => .pure _) (hk.skip 1)
      · cases tail with
        | nil => exact Keeps.leads readsIn_fail (hk.skip 1)
        | cons c tail =>
          dsimp only
          cases escaped? c with
          | some d =>
            refine Keeps.leads ?_ (hk.skip 1)
            exact .bind (readsIn_move 1) fun _ => .bind ih fun _ => .pure _
          | none =>
            cases hc : escapeWidth? c with
            | some width =>
              have hplace : '\\' :: c :: ((k.skip 1).skip 1).rest <:+ text := by
                rw [skip_rest, skip_rest, hrest]
                exact hrest ▸ hk
              exact .bind (leads_move _ 1) fun _ => .bind (leads_codeEscape hc hplace) fun _ =>
                Keeps.bind ih fun _ => .pure _
            | none =>
              refine Keeps.leads ?_ (hk.skip 1)
              grind
    · exact Keeps.leads (.pure _) hk

@[grind ←] theorem readsIn_quotedBlanks (fuel : Nat) : ReadsIn text (quotedBlanks fuel) := by
  unfold quotedBlanks
  grind

theorem readsIn_quotedRest (quote : Char) (fuel : Nat) : ReadsIn text (quotedRest quote fuel) := by
  induction fuel with
  | zero => exact readsIn_fail
  | succ fuel ih =>
    unfold quotedRest
    grind [readsIn_quotedSolid]

theorem readsIn_quotedScalar (quote : Char) : ReadsIn text (quotedScalar quote) := by
  unfold quotedScalar
  grind [readsIn_quotedSolid, readsIn_quotedRest]

/-! ## Blocks -/

theorem readsIn_blockHeader : ReadsIn text blockHeader := by
  unfold blockHeader
  refine .bind readsIn_peek fun c => ?_
  cases chomping? c with
  | some chomping =>
    refine .bind (readsIn_move 1) fun _ => .bind readsIn_peek fun d => ?_
    grind
  | none =>
    refine .bind readsIn_peek fun d => ?_
    dsimp only
    split
    · refine .bind (readsIn_move 1) fun _ => .bind readsIn_peek fun e => ?_
      grind
    · grind

@[grind ←] theorem readsIn_leadingLines (fuel deepest : Nat) :
    ReadsIn text (leadingLines fuel deepest) := by
  induction fuel generalizing deepest with
  | zero => exact readsIn_fail
  | succ fuel ih =>
    unfold leadingLines
    grind

@[grind ←] theorem readsIn_spacesUpTo (indent : Nat) : ReadsIn text (spacesUpTo indent) := by
  unfold spacesUpTo
  grind

@[grind ←] theorem readsIn_emptyLines (indent fuel : Nat) :
    ReadsIn text (emptyLines indent fuel) := by
  induction fuel with
  | zero => exact readsIn_fail
  | succ fuel ih =>
    unfold emptyLines
    grind

@[grind ←] theorem readsIn_blockLines (folded : Bool) (indent fuel : Nat) (breaks : List Char) :
    ReadsIn text (blockLines folded indent fuel breaks) := by
  induction fuel generalizing breaks with
  | zero => exact readsIn_fail
  | succ fuel ih =>
    unfold blockLines
    refine .get_bind fun k _ => .bind readsIn_peek fun c => ?_
    split
    · refine .bind readsIn_peek fun c => .bind (readsIn_takeWhile _) fun line => ?_
      refine .bind readsIn_lineBreak fun ending => .bind (readsIn_emptyLines _ _) fun empties => ?_
      grind
    · exact .pure _

theorem readsIn_blockScalar (outer : Int) (folded : Bool) :
    ReadsIn text (blockScalar outer folded) := by
  unfold blockScalar
  refine .get_bind fun k _ => .bind (readsIn_move 1) fun _ => .bind readsIn_blockHeader fun header => ?_
  obtain ⟨chomping, increment⟩ := header
  cases increment with
  | none => grind
  | some n => grind

/-! ## Plain texts -/

@[grind ←] theorem readsIn_plainBreaks (fuel : Nat) : ReadsIn text (plainBreaks fuel) := by
  induction fuel with
  | zero => exact readsIn_fail
  | succ fuel ih =>
    unfold plainBreaks
    grind

@[grind ←] theorem readsIn_plainBlanks (fuel : Nat) : ReadsIn text (plainBlanks fuel) := by
  unfold plainBlanks
  grind

@[grind ←] theorem readsIn_plainParts (flow : Bool) (indent : Int) (fuel : Nat)
    (blanks : List Char) (crossed : Bool) :
    ReadsIn text (plainParts flow indent fuel blanks crossed) := by
  induction fuel generalizing blanks crossed with
  | zero => exact readsIn_fail
  | succ fuel ih =>
    unfold plainParts
    grind

theorem readsIn_plainScalar (flow : Bool) (outer : Int) :
    ReadsIn text (plainScalar flow outer) := by
  unfold plainScalar
  grind

/-! ## Tags, anchors and directives -/

@[grind ←] theorem readsIn_uriChars (fuel : Nat) : ReadsIn text (uriChars fuel) := by
  induction fuel with
  | zero => exact readsIn_fail
  | succ fuel ih =>
    unfold uriChars
    refine .bind (readsIn_takeWhile _) fun plain => .bind readsIn_peek fun c => ?_
    split
    · refine .get_bind fun k _ => ?_
      grind
    · exact .pure _

@[grind ←] theorem readsIn_uri : ReadsIn text uri := by
  unfold uri
  grind

@[grind ←] theorem readsIn_handleName : ReadsIn text handleName := by
  unfold handleName
  grind

theorem readsIn_tagText : ReadsIn text tagText := by
  unfold tagText
  refine .get_bind fun k _ => ?_
  dsimp only
  split
  · refine .bind (readsIn_move 2) fun _ => .bind readsIn_uri fun suffix => ?_
    grind
  · split
    · grind
    · split
      · grind
      · grind

theorem readsIn_anchorName : ReadsIn text anchorName := by
  unfold anchorName
  grind

@[grind ←] theorem readsIn_versionNumber : ReadsIn text versionNumber := by
  unfold versionNumber takeWhile
  simp only [bind_assoc, pure_bind]
  refine .get_bind fun k hk => .bind (readsIn_move _) fun _ => ?_
  have hrun : k.run isAsciiDigit <:+: text :=
    (List.takeWhile_prefix isAsciiDigit).isInfix.trans hk.isInfix
  have hversion := fun hlong => Unreadable.version hrun (fun d hd => List.mem_takeWhile_imp hd) hlong
  grind

theorem readsIn_directive : ReadsIn text directive := by
  unfold directive
  refine .bind (readsIn_move 1) fun _ => .bind (readsIn_takeWhile _) fun name => ?_
  refine .bind readsIn_peek fun c => ?_
  dsimp only
  split
  · exact readsIn_fail_bind
  · split
    · refine .bind readsIn_spaces fun _ => .bind readsIn_versionNumber fun major => ?_
      grind
    · split
      · refine .bind readsIn_spaces fun _ => .bind readsIn_handleName fun handle => ?_
        grind
      · grind

end Outline.Yaml
