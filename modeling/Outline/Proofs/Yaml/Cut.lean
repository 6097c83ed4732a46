import Outline.Proofs.Except
import Outline.Proofs.Yaml.Scalar
import Outline.Yaml.Token

/-!
# How cutting a YAML text into tokens can fail

Each step of cutting reads at a place within the text, so that a text is `Unreadable` for the reason
for which it cannot be cut (`unreadable_of_tokens`).
-/

namespace Outline.Yaml

open Scan

variable {text : List Char} {α β : Type}

/-- Steps of cutting at places within a text. -/
abbrev CutsIn (text : List Char) (x : Scanning α) : Prop :=
  Keeps (fun s => Inside text s.cursor) (Unreadable text) x

@[grind ←] theorem cutsIn_fail : CutsIn text (Scan.fail : Scanning α) := Keeps.throw .notYaml

@[grind ←] theorem cutsIn_fail_bind {f : α → Scanning β} :
    CutsIn text ((Scan.fail : Scanning α) >>= f) := Keeps.throw_bind .notYaml

@[grind ←] theorem cutsIn_read {r : Read α} (h : ReadsIn text r) : CutsIn text (Scan.read r) := by
  intro s hs
  have hr := h s.cursor hs
  rw [Scan.read]
  cases hrun : r.run s.cursor with
  | error fault =>
    rw [hrun] at hr
    simpa [hrun] using hr
  | ok p =>
    rw [hrun] at hr
    simpa [hrun] using hr

@[grind ←] theorem cutsIn_push (t : Token) : CutsIn text (push t) := by
  unfold push
  grind

@[grind ←] theorem cutsIn_insert (before : Nat) (ts : List Token) :
    CutsIn text (Scan.insert before ts) := by
  unfold Scan.insert
  grind

@[grind ←] theorem cutsIn_allowKey (b : Bool) : CutsIn text (allowKey b) := by
  unfold allowKey
  grind

@[grind ←] theorem cutsIn_dropStaleKeys : CutsIn text dropStaleKeys := by
  unfold dropStaleKeys
  grind

@[grind ←] theorem cutsIn_forgetKey : CutsIn text forgetKey := by
  unfold forgetKey
  grind

@[grind ←] theorem cutsIn_rememberKey : CutsIn text rememberKey := by
  unfold rememberKey
  grind

@[grind ←] theorem cutsIn_closeDeeper (column : Int) : CutsIn text (closeDeeper column) := by
  unfold closeDeeper
  grind

@[grind ←] theorem cutsIn_openAt (column : Nat) : CutsIn text (openAt column) := by
  unfold openAt
  grind

/-! ## Tokens -/

@[grind ←] theorem cutsIn_toNextToken (fuel : Nat) : CutsIn text (toNextToken fuel) := by
  induction fuel with
  | zero => exact cutsIn_fail
  | succ fuel ih =>
    unfold toNextToken
    grind

@[grind ←] theorem cutsIn_boundary (width : Nat) (t : Token) : CutsIn text (boundary width t) := by
  unfold boundary
  grind

/-- Whether a key may begin behind a sign, and the sign itself. -/
theorem cutsIn_sign (b : Bool) (t : Token) :
    CutsIn text (do allowKey b; Scan.read (Read.move 1); push t) :=
  .bind (cutsIn_allowKey b) fun _ => .bind (cutsIn_read (readsIn_move 1)) fun _ => cutsIn_push t

@[grind ←] theorem cutsIn_opening (t : Token) : CutsIn text (opening t) := by
  exact .bind cutsIn_rememberKey fun _ => .bind (.modify fun _ hs => hs) fun _ =>
    cutsIn_sign true t

@[grind ←] theorem cutsIn_closing (t : Token) : CutsIn text (closing t) := by
  unfold closing
  refine .get_bind fun s _ => ?_
  dsimp only
  split
  · exact cutsIn_fail_bind
  · exact .bind cutsIn_forgetKey fun _ => .bind (.modify fun _ hs => hs) fun _ =>
      cutsIn_sign false t

@[grind ←] theorem cutsIn_comma : CutsIn text comma := by
  unfold comma
  grind

@[grind ←] theorem cutsIn_hyphen : CutsIn text hyphen := by
  unfold hyphen
  grind

@[grind ←] theorem cutsIn_questionMark : CutsIn text questionMark := by
  unfold questionMark
  grind

@[grind ←] theorem cutsIn_colon : CutsIn text colon := by
  unfold colon
  refine .get_bind fun s _ => ?_
  dsimp only
  split
  · refine .bind (.modify fun _ hs => hs) fun _ => ?_
    grind
  · grind

@[grind ←] theorem cutsIn_keyStart {r : Read Token} (h : ReadsIn text r) :
    CutsIn text (keyStart r) := by
  unfold keyStart
  grind

@[grind ←] theorem cutsIn_block (folded : Bool) : CutsIn text (block folded) := by
  unfold block
  grind [readsIn_blockScalar]

@[grind ←] theorem cutsIn_plain : CutsIn text plain := by
  unfold plain
  grind [readsIn_plainScalar]

theorem cutsIn_next (fuel : Nat) : CutsIn text (next fuel) := by
  have further {x : Scanning Unit} (h : CutsIn text x) : CutsIn text (x >>= fun _ => pure true) :=
    .bind h fun _ => .pure true
  have named {f : String → Token} : ReadsIn text (anchorName >>= fun name => pure (f name)) :=
    .bind readsIn_anchorName fun _ => .pure _
  have tagged : ReadsIn text (tagText >>= fun tag => pure (Token.tag tag)) :=
    .bind readsIn_tagText fun _ => .pure _
  have quoted {c : Char} : ReadsIn text (quotedScalar c >>= fun s => pure (Token.scalar s false)) :=
    .bind (readsIn_quotedScalar c) fun _ => .pure _
  unfold next
  refine .bind (cutsIn_toNextToken fuel) fun _ => .bind cutsIn_dropStaleKeys fun _ => ?_
  refine .get_bind fun s _ => .bind (cutsIn_closeDeeper _) fun _ => .get_bind fun s _ => ?_
  dsimp only
  split
  · exact .bind (cutsIn_boundary 0 _) fun _ => .pure _
  · refine .ite ?_ ?_
    · grind [readsIn_directive]
    refine .ite (further (cutsIn_boundary 3 _)) (.ite (further (cutsIn_boundary 3 _)) ?_)
    -- brackets
    refine .ite (further (cutsIn_opening _)) (.ite (further (cutsIn_opening _)) ?_)
    refine .ite (further (cutsIn_closing _)) (.ite (further (cutsIn_closing _)) ?_)
    -- signs between nodes
    refine .ite (further cutsIn_comma) (.ite (further cutsIn_hyphen) ?_)
    refine .ite (further cutsIn_questionMark) (.ite (further cutsIn_colon) ?_)
    -- aliases, anchors and tags
    refine .ite (further (cutsIn_keyStart named)) (.ite (further (cutsIn_keyStart named)) ?_)
    refine .ite (further (cutsIn_keyStart tagged)) ?_
    -- scalars
    refine .ite (further (cutsIn_block _)) (.ite (further (cutsIn_block _)) ?_)
    refine .ite (further (cutsIn_keyStart quoted)) ?_
    exact .ite (further cutsIn_plain) cutsIn_fail_bind

theorem cutsIn_all (width fuel : Nat) : CutsIn text (all width fuel) := by
  induction fuel with
  | zero => exact cutsIn_fail
  | succ fuel ih =>
    unfold all
    grind [cutsIn_next]

/-- **A text that cannot be cut into tokens is unreadable.** -/
theorem unreadable_of_tokens {fault : Fault} (h : tokens text = .error fault) :
    Unreadable text fault := by
  have hstart : Inside text (Cursor.start text) := List.suffix_rfl
  have hfirst : Inside text (if text.head? == some '\uFEFF' then (Cursor.start text).step
      else Cursor.start text) := by
    split
    · exact hstart.skip 1
    · exact hstart
  unfold tokens at h
  dsimp only at h
  split at h
  · cases h
    exact .notYaml
  · rcases bind_eq_error h with h | ⟨a, -, h⟩
    · exact (cutsIn_all _ _).error_of_run hfirst h
    · cases h

end Outline.Yaml
