import Outline.Proofs.Expr.Complete
import Outline.Proofs.Expr.Spell
import Outline.Proofs.Text.Blank

/-!
# Writing expressions

A tree is written with brackets only where its level of precedence is looser than the one that
stands there.

* `Expr.lexemesAt`: the lexemes of a tree at a level;
* `derives_lexemesAt`: the grammar writes the tree with them;
* `Expr.print`: the text of a tree;
* `compile_of_derives`: the text of derived lexemes is compiled to their tree.
-/

namespace Outline

/-! ## Lexemes of a tree -/

namespace Operator

/-- The sign of an operator as a token. -/
def token : Operator → Sign
  | .or => .or
  | .and => .and
  | .eq => .eq
  | .ne => .ne
  | .plus => .plus

/-- The level at which an operator joins its operands. -/
def level : Operator → Level
  | .or => .or
  | .and => .and
  | .eq | .ne => .comparison
  | .plus => .sum

/-- The level of a left operand: the level of the operator itself if it groups to the left. -/
def leftLevel : Operator → Level
  | .or => .or
  | .and => .and
  | .eq | .ne => .sum
  | .plus => .sum

end Operator

/-- Lexemes in brackets if they write a tree of a looser level than the one that is asked for. -/
def bracketed (least level : Level) (ls : List Lexeme) : List Lexeme :=
  if level.rank ≤ least.rank then ls else .sign .open_ :: (ls ++ [.sign .close])

mutual

/-- The lexemes of a tree at a level of precedence. -/
def Expr.lexemesAt : Level → Expr → List Lexeme
  | _, .lit l => [.literal l]
  | _, .var v => [.name v.name]
  | _, .call f args =>
    .name f.name :: .sign .open_ :: (separated (argumentLexemes args) ++ [.sign .close])
  | least, .not e => bracketed least .not (.sign .not :: e.lexemesAt .not)
  | least, .binary o a b =>
    bracketed least o.level (a.lexemesAt o.leftLevel ++ .sign o.token :: b.lexemesAt o.level.next)

/-- The lexemes of arguments. -/
def argumentLexemes : List Expr → List (List Lexeme)
  | [] => []
  | e :: es => e.lexemesAt .or :: argumentLexemes es

end

theorem argumentLexemes_eq_map (es : List Expr) :
    argumentLexemes es = es.map (Expr.lexemesAt .or) := by
  induction es with
  | nil => rfl
  | cons e es ih => rw [argumentLexemes, ih, List.map_cons]

/-! ## Derivations of a tree -/

variable {e : Expr} {level least : Level} {ls : List Lexeme}

theorem Level.eq_of_rank (h : level.rank = least.rank) : level = least := by
  cases level <;> cases least <;> first | rfl | exact absurd h (by decide)

/-- What is written at a level is written at every looser one. -/
theorem Derives.loosen (h : Derives level e ls) (hrank : level.rank ≤ least.rank) :
    Derives least e ls := by
  obtain ⟨k, hk⟩ := Nat.exists_eq_add_of_le hrank
  induction k generalizing least with
  | zero => exact Level.eq_of_rank hk.symm ▸ h
  | succ k ih =>
    have hleast : least ≠ .operand := by
      rintro rfl
      have hpos := level.rank_operand_le
      omega
    have hnext := Level.rank_next hleast
    exact .tighter hleast (ih (by omega) (by omega))

theorem Derives.bracketed (h : Derives level e ls) (least : Level) :
    Derives least e (bracketed least level ls) := by
  unfold Outline.bracketed
  split
  · rename_i hrank
    exact h.loosen hrank
  · exact (Derives.group (h.loosen level.rank_le_or)).loosen least.rank_operand_le

theorem derives_binary {a b : Expr} {ms : List Lexeme} (o : Operator)
    (ha : Derives o.leftLevel a ls) (hb : Derives o.level.next b ms) :
    Derives o.level (.binary o a b) (ls ++ .sign o.token :: ms) := by
  cases o with
  | or => exact .chain rfl ha hb
  | and => exact .chain rfl ha hb
  | plus => exact .chain rfl ha hb
  | eq => exact .comparison rfl ha hb
  | ne => exact .comparison rfl ha hb

/-- The lexemes of a tree write it, at whatever level. -/
theorem derives_lexemesAt (h : e.WellFormed) (least : Level) :
    Derives least e (e.lexemesAt least) := by
  induction h generalizing least with
  | @lit l _ =>
    rw [Expr.lexemesAt]
    exact (Derives.lit l).loosen least.rank_operand_le
  | var v =>
    rw [Expr.lexemesAt]
    exact (Derives.var v).loosen least.rank_operand_le
  | @call f args harity _ ih =>
    have hargs : ∀ arg ∈ args.map fun a => (a, a.lexemesAt .or), Derives .or arg.1 arg.2 := by
      refine List.forall_mem_map.2 fun a ha => ?_
      exact ih a ha .or
    have hcall := Derives.call f _ (by rw [List.length_map, harity]) hargs
    rw [List.map_map, List.map_map] at hcall
    rw [Expr.lexemesAt, argumentLexemes_eq_map]
    refine Derives.loosen ?_ least.rank_operand_le
    simpa [Function.comp_def] using hcall
  | not _ ih =>
    rw [Expr.lexemesAt]
    exact (Derives.not (ih .not)).bracketed least
  | binary o _ _ iha ihb =>
    rw [Expr.lexemesAt]
    exact (derives_binary o (iha o.leftLevel) (ihb o.level.next)).bracketed least

/-! ## The text of a tree -/

/-- **The text of a tree**, with the brackets that the levels of precedence ask for. -/
def Expr.print (e : Expr) : String := String.ofList (spell (e.lexemesAt .or))

theorem writable_of_derives (h : Derives level e ls) (hwell : e.WellFormed) : Writable ls :=
  fun l hl => ⟨h.phrase.known l hl, fun k hk => h.wellFormed_iff.1 hwell k (hk ▸ hl)⟩

/-- A lexeme that can stand at the front or at the back of a tree has no blank there. -/
theorem nonblank_ends {l : Lexeme} (hknown : l.Known) (hshort : ∀ k, l = .literal k → k.Short) :
    l.spelled ≠ [] ∧ (l.opens = true → ∀ c ∈ l.spelled.head?, isBlank c = false) ∧
      (l.closes = true → ∀ c ∈ l.spelled.getLast?, isBlank c = false) := by
  cases hsign : l.isSign with
  | false =>
    have hword := word_of_known hsign hknown hshort
    exact ⟨hword.ne_nil, fun _ c hc => isBlank_of_isEdge (hword.first c hc),
      fun _ c hc => isBlank_of_isEdge (hword.last c hc)⟩
  | true =>
    obtain ⟨s, rfl⟩ := Lexeme.exists_sign hsign
    refine ⟨s.spelled_ne_nil, fun hopens c hc => ?_, fun hcloses c hc => ?_⟩
    · cases s <;> first | cases hopens; done | (obtain rfl := Option.some.inj hc; rfl)
    · cases s <;> first | cases hcloses; done | (obtain rfl := Option.some.inj hc; rfl)

/-- The text of lexemes that write a tree has no blanks at its ends. -/
theorem trim_spell (hphrase : Phrase ls) (hls : Writable ls) :
    trim isBlank (spell ls) = spell ls := by
  rw [trim_eq_self_iff]
  constructor
  · obtain ⟨a, ha, hopens⟩ := hphrase.first
    obtain ⟨more, rfl⟩ := List.head?_eq_some_iff.1 ha
    have hfirst := hls a List.mem_cons_self
    obtain ⟨hsome, hblank, -⟩ := nonblank_ends hfirst.1 hfirst.2
    rw [spell, List.flatMap_cons, List.head?_append_of_ne_nil _ hsome]
    exact hblank hopens
  · obtain ⟨b, hb, hcloses⟩ := hphrase.last
    obtain ⟨more, rfl⟩ := List.getLast?_eq_some_iff.1 hb
    have hlast := hls b List.mem_concat_self
    obtain ⟨hsome, -, hblank⟩ := nonblank_ends hlast.1 hlast.2
    rw [spell, List.flatMap_append, List.flatMap_singleton,
      List.getLast?_append_of_ne_nil _ hsome]
    exact hblank hcloses

/-- The text of derived lexemes is compiled to their tree. -/
theorem compile_of_derives (h : Derives .or e ls) (hwell : e.WellFormed) :
    Expression.compile (String.ofList (spell ls)) = .ok ⟨String.ofList (spell ls), e⟩ := by
  have hls := writable_of_derives h hwell
  have hstrip : strip (String.ofList (spell ls)) = String.ofList (spell ls) := by
    rw [strip, String.toList_ofList, trim_spell h.phrase hls]
  obtain ⟨ts, hts, hlexemes⟩ := scans_spell h.phrase.spaced hls (spell ls).length 0 le_rfl
  obtain ⟨body, last, rfl, hbody, hlast⟩ := lexemes_eq_append hlexemes
  obtain ⟨t, rfl, ht⟩ := lexemes_eq_singleton hlast
  have hread : readTokens (body ++ [t]) = .ok e :=
    (readTokens_eq_ok_iff ht (hbody ▸ h.phrase.noStop)).2 (hbody ▸ h)
  have hexpr : Expression.read (spell ls) = .ok e := by
    rw [Expression.read, tokenize, hts]
    exact hread
  rw [Expression.compile, hstrip, String.toList_ofList, hexpr]
  rfl

end Outline
