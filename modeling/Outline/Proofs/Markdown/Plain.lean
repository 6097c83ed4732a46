import Outline.Markdown.Inline
import Outline.Proofs.Text.Blank

/-!
# Plain text and images

A text in which no character begins a piece is one piece (`inlinesOf_plain`), and so is an image
whose text is of that kind and whose address is a plain path (`inlinesOf_image`).

* `PlainAddress`: a path of letters, digits, points and slashes;
* `linkAddress_plain`, `isSafeAddress_plain`: such a path is an address as it stands, and a safe
  one;
* `writtenImage`: an image as it is written.
-/

namespace Outline.Markdown

/-! ## Plain text -/

theorem isSpecial_eq_false_iff {c : Char} : isSpecial c = false ↔
    c ≠ '\n' ∧ c ≠ '\\' ∧ c ≠ '\x60' ∧ c ≠ '*' ∧ c ≠ '_' ∧ c ≠ '[' ∧ c ≠ ']' ∧ c ≠ '!' ∧ c ≠ '<' ∧
      c ≠ '&' := by
  simp [isSpecial, and_assoc]

theorem Spot.skip_one (c : Char) (cs : List Char) (place : Nat) :
    Spot.skip ⟨c :: cs, place⟩ 1 = ⟨cs, place + 1⟩ := by
  simp [Spot.skip, Spot.to]

/-- Characters that begin no piece are collected. -/
theorem partsFrom_plain (skip : Skipper) (inner : Found → Spot → List Inline × Found)
    (labels : Labels) (found : Found) {cs : List Char} : ∀ {fuel : Nat} (before : Char)
      (pending : List Char) (place : Nat), (∀ c ∈ cs, isSpecial c = false) → cs.length < fuel →
      partsFrom skip inner labels fuel before pending found ⟨cs, place⟩ =
        (flush (cs.reverse ++ pending) [], found) := by
  -- What was collected stands in `pending` with its last character first.
  induction cs with
  | nil =>
    intro fuel before pending place _ hfuel
    obtain ⟨fuel, rfl⟩ := Nat.exists_eq_add_of_lt hfuel
    rw [partsFrom]
    rfl
  | cons c cs ih =>
    intro fuel before pending place hplain hfuel
    obtain ⟨hc, hcs⟩ := List.forall_mem_cons.1 hplain
    obtain ⟨hbreak, hslash, htick, hstar, hline, hopen, -, hbang, hless, hand⟩ :=
      isSpecial_eq_false_iff.1 hc
    obtain ⟨fuel, rfl⟩ : ∃ n, fuel = n + 1 := ⟨fuel - 1, by omega⟩
    rw [partsFrom]
    simp only [beq_iff_eq, Bool.or_eq_true, hbreak, hslash, htick, hstar, hline, hopen, hbang,
      hless, hand, if_false, or_self]
    rw [Spot.skip_one, ih c (c :: pending) (place + 1) hcs (by simpa using hfuel),
      List.reverse_cons, List.append_assoc]
    rfl

/-- **A text in which nothing begins a piece is one piece.** -/
theorem inlinesOf_plain (labels : Labels) {cs : List Char} (h : ∀ c ∈ cs, isSpecial c = false) :
    inlinesOf labels cs = if cs.isEmpty then [] else [.text cs] := by
  rw [inlinesOf, maxLevel, inlinesAt, partsFrom_plain _ _ _ _ _ _ _ h (Nat.lt_succ_self _),
    List.append_nil]
  cases cs with
  | nil => rfl
  | cons c cs =>
    have hflush : flush (c :: cs).reverse [] = [.piece (.text (c :: cs))] := by
      rw [flush, List.reverse_reverse, if_neg (by simp)]
    rw [hflush]
    rfl

/-! ## Images -/

/-- A character of a plain path. -/
def isPathChar (c : Char) : Bool := isAsciiAlnum c || c == '.' || c == '/'

theorem pieceEnd_plain (skip : Skipper) (labels : Labels) (found : Found) {c : Char}
    (hc : isSpecial c = false) (cs : List Char) (place : Nat) :
    pieceEnd skip labels found ⟨c :: cs, place⟩ =
      (place + ((c :: cs).takeWhile fun d => !isSpecial d).length, found) := by
  rw [pieceEnd]
  simp only [hc, Bool.not_false, if_true]

/-- The search for the end of a label passes over a plain text in one step. -/
theorem labelEnd_plain (labels : Labels) (depth : Nat) {alt : List Char} (hne : alt ≠ [])
    (h : ∀ c ∈ alt, isSpecial c = false) (rest : List Char) (fuel place : Nat) :
    labelEnd (skip labels (depth + 1)) true (fuel + 2) 1 [] ⟨alt ++ ']' :: rest, place⟩ =
      (some (place + alt.length), [(place, place + alt.length)]) := by
  have hrun : (alt ++ ']' :: rest).takeWhile (fun d => !isSpecial d) = alt := by
    rw [List.takeWhile_append_of_pos fun c hc => by rw [h c hc]; rfl,
      List.takeWhile_cons_of_neg (by decide), List.append_nil]
  obtain ⟨c, cs, rfl⟩ := List.exists_cons_of_ne_nil hne
  have hc := h c List.mem_cons_self
  obtain ⟨-, -, -, -, -, hopen, hclose, -⟩ := isSpecial_eq_false_iff.1 hc
  have hskip : skip labels (depth + 1) [] ⟨c :: (cs ++ ']' :: rest), place⟩ =
      (place + (c :: cs).length, [(place, place + (c :: cs).length)]) := by
    rw [skip]
    dsimp only [List.find?_nil]
    rw [pieceEnd_plain _ _ _ hc]
    rw [List.cons_append] at hrun
    rw [hrun]
  have hto : Spot.to ⟨c :: (cs ++ ']' :: rest), place⟩ (place + (c :: cs).length) =
      ⟨']' :: rest, place + (c :: cs).length⟩ := by
    simp [Spot.to]
  rw [List.cons_append, labelEnd]
  simp only [beq_iff_eq, hclose, hopen, Bool.and_eq_true, false_and, if_false, hskip, hto]
  rw [labelEnd]
  rfl

/-! ## Plain paths -/

/-- A path of letters, digits, points and slashes that begins with a letter or a digit. -/
structure PlainAddress (path : List Char) : Prop where
  chars : ∀ c ∈ path, isPathChar c = true
  start : ∃ c ∈ path.head?, isAsciiAlnum c = true

theorem isPathChar_iff {c : Char} : isPathChar c = true ↔
    (46 ≤ c.toNat ∧ c.toNat ≤ 57) ∨ (65 ≤ c.toNat ∧ c.toNat ≤ 90) ∨
      (97 ≤ c.toNat ∧ c.toNat ≤ 122) := by
  have hpoint : c = '.' ↔ c.toNat = 46 := by rw [← Char.toNat_inj]; rfl
  have hslash : c = '/' ↔ c.toNat = 47 := by rw [← Char.toNat_inj]; rfl
  simp only [isPathChar, isAsciiAlnum, isAsciiLetter, Bool.or_eq_true, Bool.and_eq_true,
    decide_eq_true_eq, beq_iff_eq, hpoint, hslash]
  omega

theorem PlainAddress.ne_of_mem {path : List Char} (h : PlainAddress path) {c d : Char}
    (hc : c ∈ path) (hd : isPathChar d = false) : c ≠ d := by
  rintro rfl
  rw [h.chars c hc] at hd
  cases hd

theorem unescaped_plain {path : List Char} (h : ∀ c ∈ path, isPathChar c = true) :
    unescaped path = path := by
  unfold unescaped
  induction path with
  | nil => rfl
  | cons c cs ih =>
    obtain ⟨hc, hcs⟩ := List.forall_mem_cons.1 h
    have hslash : c ≠ '\\' := by rintro rfl; cases hc
    have hand : referenceBody? (c :: cs) = none := by
      unfold referenceBody?
      split
      · rename_i heq; cases heq; cases hc
      · rfl
    rw [unescapedFrom, if_neg (by simp [hslash]), hand, ih hcs]

theorem bareAddress?_plain {path : List Char} (h : ∀ c ∈ path, isPathChar c = true)
    (rest : List Char) : bareAddress? 0 (path ++ ')' :: rest) = some (path, 0) := by
  induction path with
  | nil =>
    rw [List.nil_append, bareAddress?.eq_def]
    rfl
  | cons c cs ih =>
    obtain ⟨hc, hcs⟩ := List.forall_mem_cons.1 h
    have hslash : c ≠ '\\' := by rintro rfl; cases hc
    have hopen : c ≠ '(' := by rintro rfl; cases hc
    have hclose : c ≠ ')' := by rintro rfl; cases hc
    have hcontrol : ¬ (c.toNat ≤ 0x20 ∨ c.toNat = 0x7F) := by
      have := isPathChar_iff.1 hc
      omega
    rw [List.cons_append, bareAddress?.eq_def]
    simp only [Bool.or_eq_true, decide_eq_true_eq, beq_iff_eq, hcontrol, hslash, hopen, hclose,
      if_false, ih hcs, Option.map_some]

theorem destination?_plain {path : List Char} (h : PlainAddress path) (rest : List Char) :
    destination? (path ++ ')' :: rest) = some (path, ')' :: rest) := by
  obtain ⟨c, hc, halnum⟩ := h.start
  obtain ⟨cs, rfl⟩ : ∃ cs, path = c :: cs := by
    cases path with
    | nil => cases hc
    | cons d cs => exact ⟨cs, by rw [Option.mem_some.1 hc]⟩
  have haddress := bareAddress?_plain h.chars rest
  rw [List.cons_append] at haddress ⊢
  unfold destination?
  split
  · rename_i heq; cases heq; cases halnum
  · rw [haddress]
    simp only [List.isEmpty_cons, Bool.false_eq_true, if_false]
    rw [unescaped_plain h.chars, ← List.cons_append, List.drop_left]

theorem encodeAddress_plain {path : List Char} (h : ∀ c ∈ path, isPathChar c = true) :
    encodeAddress path = path := by
  induction path with
  | nil => rfl
  | cons c cs ih =>
    obtain ⟨hc, hcs⟩ := List.forall_mem_cons.1 h
    have hplain : isPlainInAddress c = true := by
      simp only [isPathChar, Bool.or_eq_true, beq_iff_eq] at hc
      rcases hc with (hc | rfl) | rfl
      · rw [isPlainInAddress, hc, Bool.true_or]
      · decide
      · decide
    rw [encodeAddress, hplain, Bool.true_or, if_pos rfl, ih hcs]
    rfl

theorem PlainAddress.trim_eq {path : List Char} (h : PlainAddress path) :
    trim isBlank path = path := by
  have hchars : ∀ c ∈ path, isBlank c = false := by
    intro c hc
    have hrange := isPathChar_iff.1 (h.chars c hc)
    unfold isBlank
    simp only [Bool.or_eq_false_iff, Bool.and_eq_false_iff, decide_eq_false_iff_not,
      beq_eq_false_iff_ne]
    omega
  exact trim_eq_self_iff.2 ⟨fun c hc => hchars c (List.mem_of_mem_head? hc),
    fun c hc => hchars c (List.mem_of_mem_getLast? hc)⟩

/-- **A plain path is an address as it stands.** -/
theorem linkAddress_plain {path : List Char} (h : PlainAddress path) : linkAddress path = path := by
  obtain ⟨c, hc, halnum⟩ := h.start
  have hprotocol : LinkParts.splitProtocol path = ([], path) := by
    unfold LinkParts.splitProtocol
    dsimp only
    split
    · rename_i rest heq
      have hmem : ':' ∈ path := (List.drop_sublist _ path).subset (heq ▸ List.mem_cons_self)
      exact absurd rfl (h.ne_of_mem hmem (by decide))
    · rfl
  have hslashes : (path.take 2 == ['/', '/']) = false := by
    cases path with
    | nil => rfl
    | cons d cs =>
      obtain rfl := Option.mem_some.1 hc
      refine beq_eq_false_iff_ne.2 fun heq => ?_
      rw [List.take_succ_cons, List.cons.injEq] at heq
      rw [heq.1] at halnum
      cases halnum
  have hparts : LinkParts.ofText path = ⟨[], false, [], [], [], path⟩ := by
    unfold LinkParts.ofText
    rw [h.trim_eq, hprotocol]
    dsimp only
    rw [hslashes]
    rfl
  unfold linkAddress
  rw [hparts]
  exact encodeAddress_plain h.chars

theorem lowerFrom_ascii {cs : List Char} (h : ∀ c ∈ cs, c.toNat < 128) :
    ∀ before, lowerFrom before cs = cs.map lowerChar := by
  induction cs with
  | nil => intro before; rfl
  | cons c cs ih =>
    obtain ⟨hc, hcs⟩ := List.forall_mem_cons.1 h
    intro before
    rw [lowerFrom, ih hcs, if_neg (by omega), if_neg (by omega)]
    rfl

theorem colon_not_mem_lowerChars {path : List Char} (h : ∀ c ∈ path, isPathChar c = true) :
    ':' ∉ lowerChars path := by
  have hascii : ∀ c ∈ path, c.toNat < 128 := fun c hc => by
    have := isPathChar_iff.1 (h c hc)
    omega
  have hcapital : ∀ n < 91, Char.ofNat (n + 32) = ':' → n < 65 := by decide
  rw [lowerChars, lowerFrom_ascii hascii, List.mem_map]
  rintro ⟨c, hc, hlower⟩
  have hrange := isPathChar_iff.1 (h c hc)
  unfold lowerChar at hlower
  simp only [hascii c hc, if_true] at hlower
  split_ifs at hlower with hcode
  · simp only [Bool.and_eq_true, decide_eq_true_eq] at hcode
    have := hcapital c.toNat (by omega) hlower
    omega
  · rw [hlower] at hrange
    exact absurd hrange (by decide)

theorem isSafeAddress_plain {path : List Char} (h : PlainAddress path) :
    isSafeAddress path = true := by
  have hcolon := colon_not_mem_lowerChars h.chars
  have hprotocols : ∀ s ∈ ["vbscript:", "javascript:", "file:", "data:"], ':' ∈ s.toList := by
    decide
  have hnone : (["vbscript:", "javascript:", "file:", "data:"].any fun s =>
      Text.startsWith s.toList (lowerChars path)) = false := by
    refine List.any_eq_false.2 fun s hs hprefix => hcolon ?_
    exact (List.isPrefixOf_iff_prefix.1 hprefix).subset (hprotocols s hs)
  unfold isSafeAddress
  dsimp only
  rw [h.trim_eq, hnone]
  rfl

/-- The address in parentheses, where it is a plain path. -/
theorem targetIn?_plain {path : List Char} (h : PlainAddress path) :
    targetIn? (path ++ [')']) = some (path, [')']) := by
  obtain ⟨c, hc, halnum⟩ := h.start
  have hskip : skipBlanks (path ++ [')']) = path ++ [')'] := by
    cases path with
    | nil => cases hc
    | cons d cs =>
      refine List.dropWhile_cons_of_neg ?_
      simp [isIndent, h.ne_of_mem List.mem_cons_self (d := ' ') rfl,
        h.ne_of_mem List.mem_cons_self (d := '\t') rfl,
        h.ne_of_mem List.mem_cons_self (d := '\n') rfl]
  unfold targetIn?
  dsimp only
  rw [hskip, destination?_plain h, if_neg (by simp)]
  dsimp only
  rw [linkAddress_plain h, isSafeAddress_plain h]
  rfl

/-- An image as it is written. -/
def writtenImage (alt path : List Char) : List Char :=
  '!' :: '[' :: (alt ++ ']' :: '(' :: (path ++ [')']))

theorem length_writtenImage (alt path : List Char) :
    (writtenImage alt path).length = alt.length + path.length + 5 := by
  simp [writtenImage]
  omega

theorem imageAt?_plain (labels : Labels) {alt path : List Char} (halt : alt ≠ [])
    (hplain : ∀ c ∈ alt, isSpecial c = false) (hpath : PlainAddress path) :
    imageAt? (skip labels maxLevel) labels [] ⟨writtenImage alt path, 0⟩ =
      (some ⟨alt, path, (writtenImage alt path).length⟩, [(2, 2 + alt.length)]) := by
  have hinner : Spot.skip ⟨writtenImage alt path, 0⟩ 2 =
      ⟨alt ++ ']' :: '(' :: (path ++ [')']), 2⟩ := rfl
  have hlabel : labelEnd (skip labels maxLevel) true ((writtenImage alt path).length + 1) 1 []
      ⟨alt ++ ']' :: '(' :: (path ++ [')']), 2⟩ = _ :=
    labelEnd_plain labels 19 halt hplain ('(' :: (path ++ [')']))
      ((writtenImage alt path).length - 1) 2
  have hbehind : Spot.to ⟨writtenImage alt path, 0⟩ (2 + alt.length + 1) =
      ⟨'(' :: (path ++ [')']), 2 + alt.length + 1⟩ := by
    have hdrop : (writtenImage alt path).drop (2 + alt.length + 1) = '(' :: (path ++ [')']) := by
      rw [show 2 + alt.length + 1 = alt.length + 1 + 2 by omega, writtenImage, List.drop_succ_cons,
        List.drop_succ_cons, ← List.singleton_append, ← List.append_assoc]
      exact List.drop_left' (by simp)
    rw [Spot.to, Nat.sub_zero, hdrop]
  have hlength := length_writtenImage alt path
  unfold imageAt?
  simp only [hinner, hlabel, hbehind, targetIn?_plain hpath]
  rw [if_neg (by simp [writtenImage]), if_pos (by rfl), Nat.add_sub_cancel_left,
    List.take_left]
  simp only [Prod.mk.injEq, Option.some.injEq, Target.mk.injEq, true_and, and_true, hlength,
    List.length_cons, List.length_append, List.length_nil]
  omega

theorem partsFrom_nil (skip : Skipper) (inner : Found → Spot → List Inline × Found)
    (labels : Labels) (fuel : Nat) (before : Char) (pending : List Char) (found : Found)
    (place : Nat) : partsFrom skip inner labels fuel before pending found ⟨[], place⟩ =
      (flush pending [], found) := by
  cases fuel <;> rfl

/-- **An image with a plain text and a plain path is one piece.** -/
theorem inlinesOf_image (labels : Labels) {alt path : List Char} (halt : alt ≠ [])
    (hplain : ∀ c ∈ alt, isSpecial c = false) (hpath : PlainAddress path) :
    inlinesOf labels (writtenImage alt path) = [.image path alt] := by
  have himage := imageAt?_plain labels halt hplain hpath
  obtain ⟨cs, hcs⟩ : ∃ cs, writtenImage alt path = '!' :: cs := ⟨_, rfl⟩
  rw [hcs] at himage ⊢
  have hend : Spot.skip ⟨'!' :: cs, 0⟩ ('!' :: cs).length = ⟨[], ('!' :: cs).length⟩ := by
    simp [Spot.skip, Spot.to]
  have hparts : ∀ inner : Found → Spot → List Inline × Found,
      (partsFrom (skip labels maxLevel) inner labels (('!' :: cs).length + 1) ' ' [] []
        ⟨'!' :: cs, 0⟩).1 = [.piece (.image path alt)] := by
    intro inner
    rw [partsFrom]
    simp only [himage, Nat.sub_zero, hend, partsFrom_nil]
    rfl
  rw [inlinesOf, maxLevel, inlinesAt]
  dsimp only
  rw [show 19 + 1 = maxLevel from rfl, hparts]
  rfl

end Outline.Markdown
