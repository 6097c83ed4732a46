import Outline.Proofs.Expr.Spell

/-!
# Tokens tile a text

The tokens of a text stand one behind the other with nothing but blanks between them, or there is a
place where neither a token nor a blank stands, and the text up to there has tokens.

* `Inside`, `IsTokenText`: the texts of tokens;
* `lexeme?_of_front`: what stands behind a token does not matter to it;
* `Tiled`: tokens that tile a text from a place on;
* `RefusedAt`: a place where a text stops having tokens.

Main statement: `tiled_tokenize`. A text whose numbers are not too long is tiled by its tokens or
refused at a place, and a text that is written as a string is read as this string.
-/

namespace Outline

variable {c quote : Char} {cs w rest body : List Char} {l : Lexeme} {n : Nat}

/-! ## The texts of tokens -/

/-- What stands between the quotes of a string: a quote and a backslash stand behind a backslash, which
takes any character but a line feed. -/
inductive Inside (quote : Char) : List Char → Prop where
  | nil : Inside quote []
  | plain {c : Char} {cs : List Char} (hquote : c ≠ quote) (hslash : c ≠ '\\')
      (h : Inside quote cs) : Inside quote (c :: cs)
  | escape {c : Char} {cs : List Char} (hc : c ≠ '\n') (h : Inside quote cs) :
      Inside quote ('\\' :: c :: cs)

/-- The texts of tokens: whole and decimal numbers, strings, names and signs. -/
inductive IsTokenText : List Char → Prop where
  | whole {ds : List Char} (hsome : ds ≠ []) (hds : ∀ d ∈ ds, isDigit d = true) : IsTokenText ds
  | decimal {ds fs : List Char} (hsome : ds ≠ []) (hds : ∀ d ∈ ds, isDigit d = true)
      (hfs : fs ≠ []) (hfraction : ∀ d ∈ fs, isDigit d = true) : IsTokenText (ds ++ '.' :: fs)
  | text {quote : Char} {body : List Char} (hquote : quote = '"' ∨ quote = '\'')
      (h : Inside quote body) : IsTokenText (quote :: (body ++ [quote]))
  | name {c : Char} {cs : List Char} (hc : beginsName c = true)
      (hcs : ∀ d ∈ cs, continuesName d = true) : IsTokenText (c :: cs)
  | sign (s : Sign) : IsTokenText s.text.toList

/-- **What stands before the closing quote of a string.** -/
theorem stringBody_eq_some_iff (hquote : quote ≠ '\\') :
    stringBody quote cs = some (body, rest) ↔ Inside quote body ∧ cs = body ++ quote :: rest := by
  constructor
  · intro h
    fun_induction stringBody quote cs generalizing body rest with
    | case1 => cases h
    | case2 c cs hc =>
      cases h
      exact ⟨.nil, by rw [beq_iff_eq.1 hc]; rfl⟩
    | case3 => cases h
    | case4 => cases h
    | case5 c _ hslash d ds hd ih =>
      obtain ⟨⟨body, rest⟩, hr, h⟩ := Option.map_eq_some_iff.1 h
      cases h
      obtain ⟨hbody, rfl⟩ := ih hr
      rw [beq_iff_eq.1 hslash]
      exact ⟨.escape (by simpa using hd) hbody, rfl⟩
    | case6 c cs hc hslash ih =>
      obtain ⟨⟨body, rest⟩, hr, h⟩ := Option.map_eq_some_iff.1 h
      cases h
      obtain ⟨hbody, rfl⟩ := ih hr
      exact ⟨.plain (by simpa using hc) (by simpa using hslash) hbody, rfl⟩
  · rintro ⟨hbody, rfl⟩
    induction hbody with
    | nil => rw [List.nil_append, stringBody.eq_def]; simp
    | plain hc hslash _ ih =>
      rw [List.cons_append, stringBody.eq_def]
      simp [hc, hslash, ih]
    | escape hc _ ih =>
      rw [List.cons_append, List.cons_append, stringBody.eq_def]
      simp [hc, hquote.symm, ih]

/-! ## Tokens and what stands behind them -/

/-- A part of a text that has the longest front of it has the same front. -/
theorem takeWhile_of_front {p : Char → Bool} (h : w <+: cs)
    (hlength : (cs.takeWhile p).length ≤ w.length) :
    w.takeWhile p = cs.takeWhile p ∧ w.dropWhile p <+: cs.dropWhile p := by
  obtain ⟨back, rfl⟩ : cs.takeWhile p <+: w :=
    List.prefix_of_prefix_length_le (List.takeWhile_prefix p) h hlength
  have hback : back <+: cs.dropWhile p := by
    refine (List.prefix_append_right_inj (cs.takeWhile p)).1 ?_
    rwa [List.takeWhile_append_dropWhile]
  have hfront : ∀ c ∈ cs.takeWhile p, p c = true := fun _ => List.mem_takeWhile_imp
  have hhead : ∀ c ∈ back.head?, p c = false := by
    intro c hc
    obtain ⟨tail, rfl⟩ := List.head?_eq_some_iff.1 hc
    obtain ⟨rest, hdrop⟩ := hback
    have hnot := List.head?_dropWhile_not p cs
    rw [← hdrop] at hnot
    exact hnot
  exact ⟨takeWhile_append_apart hfront hhead, by rwa [dropWhile_append_apart hfront hhead]⟩

theorem number_of_point {tail : List Char} (h : cs.dropWhile isDigit = '.' :: tail) :
    number cs = if tail.takeWhile isDigit = [] then
        (.nat (natOfDigits (cs.takeWhile isDigit)), (cs.takeWhile isDigit).length)
      else (.decimal (natOfDigits (cs.takeWhile isDigit ++ tail.takeWhile isDigit))
          (tail.takeWhile isDigit).length,
        (cs.takeWhile isDigit).length + 1 + (tail.takeWhile isDigit).length) := by
  simp only [number, h, List.isEmpty_iff]

theorem number_of_no_point (h : (cs.dropWhile isDigit).head? ≠ some '.') :
    number cs = (.nat (natOfDigits (cs.takeWhile isDigit)), (cs.takeWhile isDigit).length) := by
  unfold number
  dsimp only
  split
  · rename_i hpoint
    exact absurd (by rw [hpoint]; rfl) h
  · rfl

theorem length_takeWhile_le_number (cs : List Char) :
    (cs.takeWhile isDigit).length ≤ (number cs).2 := by
  by_cases hpoint : (cs.dropWhile isDigit).head? = some '.'
  · obtain ⟨tail, htail⟩ := List.head?_eq_some_iff.1 hpoint
    rw [number_of_point htail]
    split_ifs
    · exact le_rfl
    · exact Nat.le_add_right_of_le (Nat.le_add_right _ _)
  · rw [number_of_no_point hpoint]

/-- What stands behind a number does not matter to it. -/
theorem number_of_front (h : w <+: cs) (hlength : (number cs).2 ≤ w.length) :
    number w = number cs := by
  obtain ⟨hfront, hback⟩ := takeWhile_of_front h ((length_takeWhile_le_number cs).trans hlength)
  have hw := congrArg List.length (List.takeWhile_append_dropWhile (p := isDigit) (l := w))
  rw [List.length_append, hfront] at hw
  by_cases hpoint : (cs.dropWhile isDigit).head? = some '.'
  · obtain ⟨tail, htail⟩ := List.head?_eq_some_iff.1 hpoint
    rw [number_of_point htail] at hlength ⊢
    rw [htail] at hback
    -- the point is a part of the number only before a digit
    cases hdrop : w.dropWhile isDigit with
    | nil =>
      have hnone : tail.takeWhile isDigit = [] := by
        by_contra hsome
        rw [if_neg hsome] at hlength
        rw [hdrop, List.length_nil] at hw
        omega
      rw [number_of_no_point (by rw [hdrop]; nofun), hfront, if_pos hnone]
    | cons d tail' =>
      rw [hdrop] at hback
      obtain ⟨rfl, htail'⟩ := List.cons_prefix_cons.1 hback
      have hfraction : (tail.takeWhile isDigit).length ≤ tail'.length := by
        split_ifs at hlength with hnone
        · rw [hnone]
          exact Nat.zero_le _
        · rw [hdrop, List.length_cons] at hw
          omega
      rw [number_of_point hdrop, hfront, (takeWhile_of_front htail' hfraction).1]
  · have hnone : (w.dropWhile isDigit).head? ≠ some '.' := by
      intro hhead
      obtain ⟨tail', htail'⟩ := List.head?_eq_some_iff.1 hhead
      obtain ⟨behind, hbehind⟩ := hback
      exact hpoint (by rw [← hbehind, htail']; rfl)
    rw [number_of_no_point hnone, number_of_no_point hpoint, hfront]

/-- The sign at the front of a text is written there. -/
theorem sign?_eq_some {s : Sign} (h : sign? cs = some (s, n)) :
    n = s.text.toList.length ∧ s.text.toList <+: cs := by
  unfold sign? at h
  split at h <;> cases h <;> exact ⟨rfl, _, rfl⟩

/-- What stands behind a sign does not matter to it, but for a sign of equality. -/
theorem sign?_of_front {s : Sign} (h : sign? cs = some (s, n)) (hw : w <+: cs)
    (hlength : n ≤ w.length) : sign? w = some (s, n) := by
  obtain ⟨rfl, hcs⟩ := sign?_eq_some h
  obtain ⟨behind, rfl⟩ := List.prefix_of_prefix_length_le hcs hw hlength
  cases s with
  | not =>
    cases behind with
    | nil => rfl
    | cons d tail =>
      have hd : d ≠ '=' := by
        rintro rfl
        obtain ⟨_, rfl⟩ := hw
        cases h
      change sign? ('!' :: d :: tail) = some (.not, 1)
      unfold sign?
      split <;> simp_all
  | _ => rfl

/-- **What stands behind a token does not matter to it.** -/
theorem lexeme?_of_front (h : lexeme? cs = some (l, n)) (hw : w <+: cs) (hsome : w ≠ [])
    (hlength : n ≤ w.length) : lexeme? w = some (l, n) := by
  obtain ⟨c, tail, rfl⟩ := List.exists_cons_of_ne_nil hsome
  obtain ⟨behind, rfl⟩ := hw
  rw [List.cons_append, lexeme?] at h
  rw [lexeme?]
  by_cases hdigit : isDigit c = true
  · rw [if_pos hdigit] at h ⊢
    obtain ⟨rfl, rfl⟩ := Prod.mk.inj (Option.some.inj h)
    rw [number_of_front (List.prefix_append (c :: tail) behind) hlength]
    rfl
  rw [if_neg hdigit] at h ⊢
  by_cases hquote : (c == '"' || c == '\'') = true
  · rw [if_pos hquote] at h ⊢
    obtain ⟨⟨body, rest⟩, hbody, hr⟩ := Option.map_eq_some_iff.1 h
    obtain ⟨rfl, rfl⟩ := Prod.mk.inj hr
    have hslash : c ≠ '\\' := by
      rintro rfl
      cases hquote
    obtain ⟨hinside, hsplit⟩ := (stringBody_eq_some_iff hslash).1 hbody
    have hclosed : body ++ [c] <+: tail ++ behind := ⟨rest, by simp [hsplit]⟩
    obtain ⟨rest', rfl⟩ := List.prefix_of_prefix_length_le hclosed (List.prefix_append tail behind)
      (by rw [List.length_append]; exact Nat.le_of_succ_le_succ hlength)
    rw [List.append_assoc, List.singleton_append,
      (stringBody_eq_some_iff hslash).2 ⟨hinside, rfl⟩]
    rfl
  rw [if_neg hquote] at h ⊢
  by_cases hname : beginsName c = true
  · rw [if_pos hname] at h ⊢
    obtain ⟨rfl, rfl⟩ := Prod.mk.inj (Option.some.inj h)
    rw [(takeWhile_of_front (List.prefix_append (c :: tail) behind) hlength).1]
    rfl
  · rw [if_neg hname] at h ⊢
    obtain ⟨⟨s, m⟩, hs, hr⟩ := Option.map_eq_some_iff.1 h
    obtain ⟨rfl, rfl⟩ := Prod.mk.inj hr
    rw [sign?_of_front hs (List.prefix_append (c :: tail) behind) hlength]
    rfl

/-- The front of a text that begins with a digit is a number. -/
theorem exists_numeral (hc : isDigit c = true) (rest : List Char) : ∃ w behind,
    c :: rest = w ++ behind ∧ w.length = (number (c :: rest)).2 ∧ IsTokenText w := by
  have hsome : (c :: rest).takeWhile isDigit ≠ [] := by
    rw [List.takeWhile_cons_of_pos hc]
    exact List.cons_ne_nil _ _
  have hdigits {cs : List Char} : ∀ d ∈ cs.takeWhile isDigit, isDigit d = true :=
    fun _ => List.mem_takeWhile_imp
  have hsplit := (List.takeWhile_append_dropWhile (p := isDigit) (l := c :: rest)).symm
  by_cases hpoint : ((c :: rest).dropWhile isDigit).head? = some '.'
  · obtain ⟨tail, htail⟩ := List.head?_eq_some_iff.1 hpoint
    rw [number_of_point htail]
    split_ifs with hfraction
    · exact ⟨_, _, hsplit, rfl, .whole hsome hdigits⟩
    · refine ⟨_, tail.dropWhile isDigit, ?_, ?_, .decimal hsome hdigits hfraction hdigits⟩
      · rw [List.append_assoc, List.cons_append, List.takeWhile_append_dropWhile, ← htail]
        exact hsplit
      · rw [List.length_append, List.length_cons, Nat.add_assoc, Nat.add_comm 1]
  · rw [number_of_no_point hpoint]
    exact ⟨_, _, hsplit, rfl, .whole hsome hdigits⟩

/-- **The token at the front of a text has the text of a token.** -/
theorem exists_tokenText (h : lexeme? cs = some (l, n)) :
    ∃ w behind, cs = w ++ behind ∧ w.length = n ∧ IsTokenText w := by
  obtain _ | ⟨c, tail⟩ := cs
  · cases h
  rw [lexeme?] at h
  by_cases hdigit : isDigit c = true
  · rw [if_pos hdigit] at h
    obtain ⟨rfl, rfl⟩ := Prod.mk.inj (Option.some.inj h)
    exact exists_numeral hdigit tail
  rw [if_neg hdigit] at h
  by_cases hquote : (c == '"' || c == '\'') = true
  · rw [if_pos hquote] at h
    obtain ⟨⟨body, rest⟩, hbody, hr⟩ := Option.map_eq_some_iff.1 h
    obtain ⟨rfl, rfl⟩ := Prod.mk.inj hr
    have hc : c = '"' ∨ c = '\'' := by simpa using hquote
    have hslash : c ≠ '\\' := by
      rintro rfl
      cases hquote
    obtain ⟨hinside, rfl⟩ := (stringBody_eq_some_iff hslash).1 hbody
    exact ⟨c :: (body ++ [c]), rest, by simp, by simp, .text hc hinside⟩
  rw [if_neg hquote] at h
  by_cases hname : beginsName c = true
  · rw [if_pos hname] at h
    obtain ⟨rfl, rfl⟩ := Prod.mk.inj (Option.some.inj h)
    have hcontinues : continuesName c = true := by
      rw [continuesName_iff]
      rcases beginsName_iff.1 hname with h | h | h
      · exact .inl h
      · exact .inr (.inl h)
      · exact .inr (.inr (.inr h))
    refine ⟨_, (c :: tail).dropWhile continuesName, List.takeWhile_append_dropWhile.symm, rfl, ?_⟩
    rw [List.takeWhile_cons_of_pos hcontinues]
    exact .name hname fun _ => List.mem_takeWhile_imp
  · rw [if_neg hname] at h
    obtain ⟨⟨s, m⟩, hs, hr⟩ := Option.map_eq_some_iff.1 h
    obtain ⟨rfl, rfl⟩ := Prod.mk.inj hr
    obtain ⟨rfl, behind, hbehind⟩ := sign?_eq_some hs
    exact ⟨_, behind, hbehind.symm, rfl, .sign s⟩

/-- **Where the text of a token stands, there is a token.** -/
theorem lexeme?_ne_none (hw : IsTokenText w) (h : w <+: cs) : lexeme? cs ≠ none := by
  obtain ⟨behind, rfl⟩ := h
  cases hw with
  | whole hsome hds =>
    obtain ⟨d, ds, rfl⟩ := List.exists_cons_of_ne_nil hsome
    rw [List.cons_append, lexeme?_of_isDigit (hds d List.mem_cons_self)]
    exact Option.some_ne_none _
  | decimal hsome hds =>
    obtain ⟨d, ds, rfl⟩ := List.exists_cons_of_ne_nil hsome
    rw [List.cons_append, List.cons_append, lexeme?_of_isDigit (hds d List.mem_cons_self)]
    exact Option.some_ne_none _
  | @text quote body hquote hbody =>
    have hstring : stringBody quote (body ++ quote :: behind) = some (body, behind) := by
      refine (stringBody_eq_some_iff ?_).2 ⟨hbody, rfl⟩
      rcases hquote with rfl | rfl <;> decide
    rw [List.cons_append, List.append_assoc, List.singleton_append, lexeme?, hstring]
    rcases hquote with rfl | rfl <;> exact Option.some_ne_none _
  | @name c cs hc =>
    have hquote : (c == '"' || c == '\'') = false := by
      rw [Bool.or_eq_false_iff, beq_eq_false_iff_ne, beq_eq_false_iff_ne]
      constructor <;> rintro rfl <;> cases hc
    rw [List.cons_append, lexeme?, if_neg (by rw [not_digit_of_beginsName hc]; decide),
      if_neg (by rw [hquote]; decide), if_pos hc]
    exact Option.some_ne_none _
  | sign s =>
    cases s with
    | not =>
      have hsign : sign? ('!' :: behind) ≠ none := by
        unfold sign?
        split <;> simp_all
      change lexeme? ('!' :: behind) ≠ none
      rwa [lexeme?, if_neg (by decide), if_neg (by decide), if_neg (by decide), ne_eq,
        Option.map_eq_none_iff]
    | _ => exact Option.some_ne_none _

/-! ## Tiles -/

/-- The place behind a token. -/
def Token.stop (t : Token) : Nat := t.place + t.written.length

/-- A token that stands in a text at its place: its text is that of a token, and what it stands for is
read from it. -/
structure Token.StandsIn (t : Token) (source : List Char) : Prop where
  text : IsTokenText t.written
  here : t.written <+: source.drop t.place
  read : lexeme? t.written = some (t.lexeme, t.written.length)

/-- **Tokens that tile a text from a place on**: they stand in it one behind the other, and what is
outside of all of them is blank. -/
structure Tiled (source : List Char) (start : Nat) (body : List Token) : Prop where
  behind : ∀ t ∈ body, start ≤ t.place
  stands : ∀ t ∈ body, t.StandsIn source
  increasing : body.Pairwise fun t u => t.place < u.place
  apart : body.Pairwise fun t u => t.stop ≤ u.place
  covers : ∀ i c, start ≤ i → source[i]? = some c →
    isBlank c = true ∨ ∃ t ∈ body, t.place ≤ i ∧ i < t.stop

theorem IsTokenText.ne_nil (h : IsTokenText w) : w ≠ [] := by
  cases h with
  | whole hsome => exact hsome
  | decimal => exact List.append_ne_nil_of_right_ne_nil _ (List.cons_ne_nil _ _)
  | text => exact List.cons_ne_nil _ _
  | name => exact List.cons_ne_nil _ _
  | sign s => cases s <;> decide

namespace Tiled

variable {source : List Char} {start : Nat} {ts : List Token} {t : Token}

theorem nil (h : source.drop start = []) : Tiled source start [] where
  behind := List.forall_mem_nil _
  stands := List.forall_mem_nil _
  increasing := .nil
  apart := .nil
  covers i c hi hc := by
    have hlength := (List.getElem?_eq_some_iff.1 hc).1
    have hend := List.drop_eq_nil_iff.1 h
    omega

theorem blank (hc : source[start]? = some c) (hblank : isBlank c = true)
    (h : Tiled source (start + 1) ts) : Tiled source start ts where
  behind t ht := (Nat.le_succ start).trans (h.behind t ht)
  stands := h.stands
  increasing := h.increasing
  apart := h.apart
  covers i d hi hd := by
    rcases hi.eq_or_lt with rfl | hi
    · rw [hc] at hd
      cases hd
      exact .inl hblank
    · exact h.covers i d hi hd

theorem token (ht : t.StandsIn source) (h : Tiled source t.stop ts) :
    Tiled source t.place (t :: ts) where
  behind := List.forall_mem_cons.2
    ⟨le_rfl, fun u hu => (Nat.le_add_right _ _).trans (h.behind u hu)⟩
  stands := List.forall_mem_cons.2 ⟨ht, h.stands⟩
  increasing := by
    refine List.pairwise_cons.2 ⟨fun u hu => ?_, h.increasing⟩
    have hlength := List.length_pos_iff.2 ht.text.ne_nil
    have hbehind := h.behind u hu
    rw [Token.stop] at hbehind
    omega
  apart := List.pairwise_cons.2 ⟨h.behind, h.apart⟩
  covers i c hi hc := by
    rcases Nat.lt_or_ge i t.stop with hlt | hge
    · exact .inr ⟨t, List.mem_cons_self, hi, hlt⟩
    · rcases h.covers i c hge hc with hblank | ⟨u, hu, hin⟩
      · exact .inl hblank
      · exact .inr ⟨u, List.mem_cons_of_mem t hu, hin⟩

end Tiled

/-- The token that is cut off at a place stands there. -/
theorem standsIn_of_lexeme? {source : List Char} {place : Nat} (hsource : source.drop place = cs)
    (h : lexeme? cs = some (l, n)) :
    0 < n ∧ n ≤ cs.length ∧ (⟨l, cs.take n, place⟩ : Token).StandsIn source ∧
      (⟨l, cs.take n, place⟩ : Token).stop = place + n := by
  obtain ⟨w, behind, rfl, rfl, hw⟩ := exists_tokenText h
  rw [List.take_left]
  refine ⟨List.length_pos_iff.2 hw.ne_nil, by simp, ⟨hw, ?_, ?_⟩, rfl⟩
  · exact hsource ▸ List.prefix_append w behind
  · exact lexeme?_of_front h (List.prefix_append w behind) hw.ne_nil le_rfl

/-- **The tokens from a place on tile the text from there on.** -/
theorem tiled_of_tokensFrom {source : List Char} {fuel place : Nat} {ts : List Token}
    (hsource : source.drop place = cs) (hfuel : cs.length ≤ fuel)
    (h : tokensFrom fuel place cs = .ok ts) :
    ∃ body, ts = body ++ [⟨.stop, [], place + cs.length⟩] ∧ Tiled source place body := by
  fun_induction tokensFrom fuel place cs generalizing ts with
  | case1 fuel place =>
    cases h
    exact ⟨[], rfl, .nil hsource⟩
  | case2 place cs hne =>
    exact absurd (List.length_eq_zero_iff.1 (Nat.le_zero.1 hfuel)) hne
  | case3 fuel place c cs hblank ih =>
    have hc : source[place]? = some c := by
      rw [← Nat.add_zero place, ← List.getElem?_drop, hsource]
      rfl
    have hrest : source.drop (place + 1) = cs := by
      rw [← List.drop_drop, hsource]
      rfl
    obtain ⟨body, rfl, hbody⟩ := ih hrest (Nat.le_of_succ_le_succ hfuel) h
    refine ⟨body, ?_, hbody.blank hc hblank⟩
    rw [List.length_cons, Nat.add_assoc, Nat.add_comm 1]
  | case4 => cases h
  | case5 => cases h
  | case6 => cases h
  | case7 fuel place c cs _ l n hl _ ih =>
    obtain ⟨hpos, hle, hstands, hstop⟩ := standsIn_of_lexeme? hsource hl
    cases hrest : tokensFrom fuel (place + n) ((c :: cs).drop n) with
    | error e =>
      rw [hrest] at h
      cases h
    | ok ts' =>
      rw [hrest] at h
      cases h
      have hfuel' : ((c :: cs).drop n).length ≤ fuel := by
        rw [List.length_drop]
        omega
      obtain ⟨body, rfl, hbody⟩ := ih (by rw [← List.drop_drop, hsource]) hfuel' hrest
      refine ⟨⟨l, (c :: cs).take n, place⟩ :: body, ?_, Tiled.token hstands (hstop ▸ hbody)⟩
      rw [List.length_drop, Nat.add_assoc, Nat.add_sub_cancel' hle]
      rfl

/-- The error about a character that begins no token. -/
def refusal (c : Char) (place : Nat) : TokenError :=
  if c == '"' || c == '\'' then .unterminated place else .unexpected c place

/-- **Where cutting stops**, neither a blank nor a token stands, and the text up to there is cut. -/
theorem exists_refusal {fuel place : Nat} {e : TokenError}
    (h : tokensFrom fuel place cs = .error e) : (∃ count, e = .tooManyDigits count) ∨
      ∃ k c rest, cs.drop k = c :: rest ∧ isBlank c = false ∧ lexeme? (c :: rest) = none ∧
        e = refusal c (place + k) ∧
        ∀ fuel', k ≤ fuel' → ∃ ts, tokensFrom fuel' place (cs.take k) = .ok ts := by
  fun_induction tokensFrom fuel place cs with
  | case1 => cases h
  | case2 => cases h
  | case3 fuel place c cs hblank ih =>
    refine (ih h).imp_right ?_
    rintro ⟨k, d, rest, hdrop, hd, hnone, rfl, htake⟩
    refine ⟨k + 1, d, rest, hdrop, hd, hnone, ?_, fun fuel' hfuel' => ?_⟩
    · rw [Nat.add_assoc, Nat.add_comm 1]
    · obtain _ | fuel' := fuel'
      · cases hfuel'
      · rw [List.take_succ_cons, tokensFrom, if_pos hblank]
        exact htake fuel' (Nat.le_of_succ_le_succ hfuel')
  | case4 fuel place c cs hblank hnone hquote =>
    cases h
    refine .inr ⟨0, c, cs, rfl, Bool.eq_false_iff.2 hblank, hnone, ?_, fun fuel' _ => ?_⟩
    · rw [refusal, if_pos hquote, Nat.add_zero]
    · exact ⟨_, by rw [List.take_zero, tokensFrom]⟩
  | case5 fuel place c cs hblank hnone hquote =>
    cases h
    refine .inr ⟨0, c, cs, rfl, Bool.eq_false_iff.2 hblank, hnone, ?_, fun fuel' _ => ?_⟩
    · rw [refusal, if_neg hquote, Nat.add_zero]
    · exact ⟨_, by rw [List.take_zero, tokensFrom]⟩
  | case6 =>
    cases h
    exact .inl ⟨_, rfl⟩
  | case7 fuel place c cs hblank l n hl hshort ih =>
    cases hrest : tokensFrom fuel (place + n) ((c :: cs).drop n) with
    | ok ts =>
      rw [hrest] at h
      cases h
    | error e' =>
      rw [hrest] at h
      cases h
      refine (ih hrest).imp_right ?_
      rintro ⟨k, d, rest, hdrop, hd, hnone, rfl, htake⟩
      obtain ⟨hpos, hle, -⟩ := standsIn_of_lexeme? (List.drop_zero (l := c :: cs)) hl
      obtain ⟨n, rfl⟩ := Nat.exists_eq_succ_of_ne_zero hpos.ne'
      refine ⟨n + 1 + k, d, rest, ?_, hd, hnone, ?_, fun fuel' hfuel' => ?_⟩
      · rw [← List.drop_drop, hdrop]
      · rw [Nat.add_assoc]
      · obtain _ | fuel' := fuel'
        · omega
        obtain ⟨ts, hts⟩ := htake fuel' (by omega)
        have hcut : lexeme? (c :: cs.take (n + k)) = some (l, n + 1) := by
          refine lexeme?_of_front hl (List.cons_prefix_cons.2 ⟨rfl, List.take_prefix _ _⟩)
            (List.cons_ne_nil _ _) ?_
          rw [List.length_cons] at hle ⊢
          rw [List.length_take]
          omega
        have hdrop' : (c :: cs.take (n + k)).drop (n + 1) = ((c :: cs).drop (n + 1)).take k := by
          rw [List.drop_succ_cons, List.drop_succ_cons, List.drop_take, Nat.add_sub_cancel_left]
        rw [Nat.add_right_comm, List.take_succ_cons, tokensFrom, if_neg hblank, hcut]
        dsimp only
        rw [if_neg hshort, hdrop', hts]
        exact ⟨_, rfl⟩

/-! ## Texts -/

/-- **A place where a text stops having tokens**: neither a blank nor a token stands there, the error is
about the character there, and the text up to there is tiled by its tokens. -/
structure RefusedAt (source : List Char) (place : Nat) (e : TokenError) : Prop where
  stops : ∃ c, source[place]? = some c ∧ isBlank c = false ∧ e = refusal c place
  noToken : ∀ w, IsTokenText w → ¬w <+: source.drop place
  before : ∃ body, tokenize (source.take place) = .ok (body ++ [⟨.stop, [], place⟩]) ∧
    Tiled (source.take place) 0 body

theorem tiled_of_tokenize {source : List Char} {ts : List Token} (h : tokenize source = .ok ts) :
    ∃ body, ts = body ++ [⟨.stop, [], source.length⟩] ∧ Tiled source 0 body := by
  have htiled := tiled_of_tokensFrom (List.drop_zero (l := source)) le_rfl h
  rwa [Nat.zero_add] at htiled

theorem exists_refusedAt {source : List Char} {e : TokenError} (h : tokenize source = .error e)
    (hcount : ∀ count, e ≠ .tooManyDigits count) : ∃ place, RefusedAt source place e := by
  rcases exists_refusal h with ⟨count, rfl⟩ | ⟨k, c, rest, hdrop, hblank, hnone, rfl, htake⟩
  · exact absurd rfl (hcount count)
  · have hc : source[k]? = some c := by
      rw [← Nat.add_zero k, ← List.getElem?_drop, hdrop]
      rfl
    have hlength : (source.take k).length = k :=
      List.length_take_of_le (List.getElem?_eq_some_iff.1 hc).1.le
    obtain ⟨ts, hts⟩ : ∃ ts, tokenize (source.take k) = .ok ts := htake _ hlength.ge
    obtain ⟨body, rfl, hbody⟩ := tiled_of_tokenize hts
    rw [hlength] at hts
    exact ⟨k, ⟨c, hc, hblank, by rw [Nat.zero_add]⟩,
      fun w hw hprefix => lexeme?_ne_none hw (hdrop ▸ hprefix) hnone, body, hts, hbody⟩

/-- A text that is cut as one token. -/
theorem Word.tokenize_eq (h : Word l w) :
    tokenize w = .ok [⟨l, w, 0⟩, ⟨.stop, [], w.length⟩] := by
  have hcut : lexeme? (w ++ []) = some (l, w.length) := h.cut nofun
  rw [List.append_nil] at hcut
  obtain ⟨c, cs, rfl⟩ := List.exists_cons_of_ne_nil h.ne_nil
  have hblank := isBlank_of_isEdge (h.first c rfl)
  rw [tokenize, List.length_cons, tokensFrom, if_neg (by rw [hblank]; decide), hcut]
  dsimp only
  rw [if_neg (by rw [h.fits]; decide), List.drop_length, List.take_length, tokensFrom, Nat.zero_add]
  rfl

/-- **The tokens of a text tile it.** A text whose numbers are not too long has tokens that tile it, with
an end token behind them, or it is refused at a place. A text in quotes, with a backslash before each of
its quotes and backslashes, is read as this text. -/
theorem tiled_tokenize :
    (∀ source, ShortNumerals source →
      (∃ body, tokenize source = .ok (body ++ [⟨.stop, [], source.length⟩]) ∧
        Tiled source 0 body) ∨
      ∃ e place, tokenize source = .error e ∧ RefusedAt source place e) ∧
    ∀ s : String, tokenize ('"' :: (escaped s.toList ++ ['"'])) =
      .ok [⟨.literal (.text s), '"' :: (escaped s.toList ++ ['"']), 0⟩,
        ⟨.stop, [], (escaped s.toList).length + 2⟩] := by
  refine ⟨fun source hshort => ?_, fun s => ?_⟩
  · rcases tokenize_outcome hshort with ⟨ts, hts, -⟩ | ⟨e, he, hcount⟩
    · obtain ⟨body, rfl, hbody⟩ := tiled_of_tokenize hts
      exact .inl ⟨body, hts, hbody⟩
    · obtain ⟨place, hplace⟩ := exists_refusedAt he hcount
      exact .inr ⟨e, place, he, hplace⟩
  · have hstring := (word_text s).tokenize_eq
    simpa only [Literal.spelled, List.length_cons, List.length_append, List.length_nil]
      using hstring

/-- Strings, numbers and names that stand side by side. -/
def adjoiningText : List Char := "1.5.25'\"'\"\\\"\"x1".toList

/-- The second point of `1.5.25` begins no token, though a number stands before and behind it; without
it the whole text is tiled. -/
theorem tiled_tokenize_adjoining :
    ShortNumerals adjoiningText ∧ tokenize adjoiningText = .error (.unexpected '.' 3) ∧
    ((∃ body, tokenize adjoiningText = .ok (body ++ [⟨.stop, [], adjoiningText.length⟩]) ∧
        Tiled adjoiningText 0 body) ∨
      ∃ e place, tokenize adjoiningText = .error e ∧ RefusedAt adjoiningText place e) ∧
    tokenize (adjoiningText.drop 4) = .ok [⟨.literal (.nat 25), ['2', '5'], 0⟩,
      ⟨.literal (.text "\""), ['\'', '"', '\''], 2⟩,
      ⟨.literal (.text "\""), ['"', '\\', '"', '"'], 5⟩,
      ⟨.name "x1", ['x', '1'], 9⟩, ⟨.stop, [], 11⟩] ∧
    ((∃ body, tokenize (adjoiningText.drop 4) =
          .ok (body ++ [⟨.stop, [], (adjoiningText.drop 4).length⟩]) ∧
        Tiled (adjoiningText.drop 4) 0 body) ∨
      ∃ e place, tokenize (adjoiningText.drop 4) = .error e ∧
        RefusedAt (adjoiningText.drop 4) place e) := by
  have hshort : ShortNumerals adjoiningText := shortNumerals_of_length (by decide)
  have hbehind : ShortNumerals (adjoiningText.drop 4) := shortNumerals_of_length (by decide)
  exact ⟨hshort, by cbv, tiled_tokenize.1 _ hshort, by cbv, tiled_tokenize.1 _ hbehind⟩

end Outline
