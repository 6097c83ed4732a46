import Mathlib.Data.List.Chain
import Outline.Expr.Read

/-!
# The grammar of expressions

Which lexemes write a tree at a level of precedence, said without a reader: a comparison has one
operand on each side, the other operators group to the left, and brackets lead back to the loosest
level.

* `Derives`: a list of lexemes writes a tree at a level;
* `Phrase`, `Derives.phrase`: how such a list begins and ends, what stands side by side in it, and
  which names it has;
* `Expr.WellFormed`: calls have the right number of arguments, and numbers are not too long;
* `Derives.wellFormed_iff`: the grammar writes these trees, if its numbers are not too long.
-/

namespace Outline

/-! ## Derivations -/

/-- Lists with a comma between each two. -/
def separated : List (List Lexeme) → List Lexeme
  | [] => []
  | p :: ps => p ++ ps.flatMap (.sign .comma :: ·)

/-- The comparison that a sign stands for. -/
def Sign.comparison? : Sign → Option Operator
  | .eq => some .eq
  | .ne => some .ne
  | _ => none

/-- **A list of lexemes writes a tree at a level of precedence.** -/
inductive Derives : Level → Expr → List Lexeme → Prop where
  | lit (l : Literal) : Derives .operand (.lit l) [.literal l]
  | var (v : Variable) : Derives .operand (.var v) [.name v.name]
  | call (f : Builtin) (args : List (Expr × List Lexeme)) (harity : args.length = f.arity)
      (h : ∀ arg ∈ args, Derives .or arg.1 arg.2) :
      Derives .operand (.call f (args.map Prod.fst))
        (.name f.name :: .sign .open_ :: (separated (args.map Prod.snd) ++ [.sign .close]))
  | group {e : Expr} {ls : List Lexeme} (h : Derives .or e ls) :
      Derives .operand e (.sign .open_ :: (ls ++ [.sign .close]))
  | not {e : Expr} {ls : List Lexeme} (h : Derives .not e ls) :
      Derives .not (.not e) (.sign .not :: ls)
  | comparison {a b : Expr} {ls ms : List Lexeme} {s : Sign} {o : Operator}
      (hs : s.comparison? = some o) (ha : Derives .sum a ls) (hb : Derives .sum b ms) :
      Derives .comparison (.binary o a b) (ls ++ .sign s :: ms)
  | chain {level : Level} {a b : Expr} {ls ms : List Lexeme} {s : Sign} {o : Operator}
      (hs : level.operator? = some (s, o)) (ha : Derives level a ls)
      (hb : Derives level.next b ms) : Derives level (.binary o a b) (ls ++ .sign s :: ms)
  | tighter {level : Level} {e : Expr} {ls : List Lexeme} (hlevel : level ≠ .operand)
      (h : Derives level.next e ls) : Derives level e ls

/-! ## What derived lists look like -/

variable {ls ms : List Lexeme} {e : Expr}

namespace Lexeme

/-- A lexeme that is a sign. -/
def isSign : Lexeme → Bool
  | .sign _ => true
  | _ => false

/-- A lexeme that a tree can begin with. -/
def opens : Lexeme → Bool
  | .literal _ | .name _ | .sign .not | .sign .open_ => true
  | _ => false

/-- A lexeme that a tree can end with. -/
def closes : Lexeme → Bool
  | .literal _ | .name _ | .sign .close => true
  | _ => false

/-- A lexeme of the language: its names are those of variables and functions. -/
def Known : Lexeme → Prop
  | .name s => (∃ v : Variable, s = v.name) ∨ ∃ f : Builtin, s = f.name
  | .stop => False
  | _ => True

end Lexeme

/-- Of each two neighbours one is a sign. -/
def Spaced (ls : List Lexeme) : Prop := ls.IsChain fun a b => a.isSign = true ∨ b.isSign = true

/-- The look of a list that writes a tree. -/
structure Phrase (ls : List Lexeme) : Prop where
  first : ∃ a ∈ ls.head?, a.opens = true
  last : ∃ b ∈ ls.getLast?, b.closes = true
  spaced : Spaced ls
  known : ∀ l ∈ ls, l.Known

theorem Spaced.cons_sign (s : Sign) (h : Spaced ls) : Spaced (.sign s :: ls) :=
  h.cons fun _ _ => .inl rfl

theorem Spaced.append_sign (s : Sign) (hl : Spaced ls) (hm : Spaced ms) :
    Spaced (ls ++ .sign s :: ms) := by
  refine List.isChain_append.2 ⟨hl, hm.cons_sign s, fun a _ b hb => ?_⟩
  obtain rfl : Lexeme.sign s = b := Option.some.inj hb
  exact .inr rfl

namespace Phrase

theorem ne_nil (h : Phrase ls) : ls ≠ [] := by
  rintro rfl
  obtain ⟨a, ha, -⟩ := h.first
  cases ha

theorem noStop (h : Phrase ls) : Lexeme.stop ∉ ls := fun hstop => h.known _ hstop

theorem single {l : Lexeme} (hopens : l.opens = true) (hcloses : l.closes = true)
    (hknown : l.Known) : Phrase [l] where
  first := ⟨l, rfl, hopens⟩
  last := ⟨l, rfl, hcloses⟩
  spaced := List.IsChain.singleton l
  known := List.forall_mem_singleton.2 hknown

theorem join (s : Sign) (hl : Phrase ls) (hm : Phrase ms) : Phrase (ls ++ .sign s :: ms) where
  first := by
    obtain ⟨a, ha, hopens⟩ := hl.first
    exact ⟨a, by rw [List.head?_append, Option.mem_def.1 ha]; rfl, hopens⟩
  last := by
    obtain ⟨b, hb, hcloses⟩ := hm.last
    refine ⟨b, ?_, hcloses⟩
    rw [List.getLast?_append, List.getLast?_cons, Option.mem_def.1 hb]
    rfl
  spaced := hl.spaced.append_sign s hm.spaced
  known := List.forall_mem_append.2 ⟨hl.known, List.forall_mem_cons.2 ⟨trivial, hm.known⟩⟩

theorem not (h : Phrase ls) : Phrase (.sign .not :: ls) where
  first := ⟨_, rfl, rfl⟩
  last := by
    obtain ⟨b, hb, hcloses⟩ := h.last
    exact ⟨b, by rw [List.getLast?_cons, Option.mem_def.1 hb]; rfl, hcloses⟩
  spaced := h.spaced.cons_sign .not
  known := List.forall_mem_cons.2 ⟨trivial, h.known⟩

theorem group (h : Phrase ls) : Phrase (.sign .open_ :: (ls ++ [.sign .close])) where
  first := ⟨_, rfl, rfl⟩
  last := ⟨.sign .close, by rw [← List.cons_append]; exact List.getLast?_concat, rfl⟩
  spaced := (h.spaced.append_sign .close List.IsChain.nil).cons_sign .open_
  known := List.forall_mem_cons.2 ⟨trivial,
    List.forall_mem_append.2 ⟨h.known, List.forall_mem_singleton.2 trivial⟩⟩

theorem call (f : Builtin) (h : Phrase ls) :
    Phrase (.name f.name :: .sign .open_ :: (ls ++ [.sign .close])) where
  first := ⟨_, rfl, rfl⟩
  last := by
    obtain ⟨b, hb, hcloses⟩ := h.group.last
    exact ⟨b, by rw [List.getLast?_cons, Option.mem_def.1 hb]; rfl, hcloses⟩
  spaced := h.group.spaced.cons fun b hb => by
    obtain rfl : Lexeme.sign .open_ = b := Option.some.inj hb
    exact .inr rfl
  known := List.forall_mem_cons.2 ⟨.inr ⟨f, rfl⟩, h.group.known⟩

theorem separated {pieces : List (List Lexeme)} (hsome : pieces ≠ [])
    (h : ∀ piece ∈ pieces, Phrase piece) : Phrase (separated pieces) := by
  obtain ⟨p, ps, rfl⟩ := List.exists_cons_of_ne_nil hsome
  induction ps generalizing p with
  | nil =>
    rw [Outline.separated, List.flatMap_nil, List.append_nil]
    exact h p List.mem_cons_self
  | cons q qs ih =>
    have hrest : Phrase (Outline.separated (q :: qs)) :=
      ih q (List.cons_ne_nil q qs) fun piece hpiece => h piece (List.mem_cons_of_mem p hpiece)
    exact (h p List.mem_cons_self).join .comma hrest

end Phrase

theorem Builtin.arity_pos (f : Builtin) : 0 < f.arity := by cases f <;> decide

/-- Lists that write trees are phrases. -/
theorem Derives.phrase {level : Level} (h : Derives level e ls) : Phrase ls := by
  induction h with
  | lit l => exact .single rfl rfl trivial
  | var v => exact .single rfl rfl (.inl ⟨v, rfl⟩)
  | call f args harity _ ih =>
    refine Phrase.call f (Phrase.separated ?_ fun piece hpiece => ?_)
    · rintro hnil
      rw [List.map_eq_nil_iff] at hnil
      have := f.arity_pos
      rw [← harity, hnil] at this
      cases this
    · obtain ⟨arg, harg, rfl⟩ := List.mem_map.1 hpiece
      exact ih arg harg
  | group _ ih => exact ih.group
  | not _ ih => exact ih.not
  | comparison _ _ _ iha ihb => exact iha.join _ ihb
  | chain _ _ _ iha ihb => exact iha.join _ ihb
  | tighter _ _ ih => exact ih

/-! ## Trees that can be written -/

/-- The digits of a decimal without its point: at least one of them stands before the point. -/
def decimalDigits (digits places : Nat) : List Char :=
  (Nat.toDigits 10 digits).leftpad (places + 1) '0'

/-- A number that is not too long: no more digits than can be read. A decimal has a digit after
its point. -/
def Literal.Short : Literal → Prop
  | .nat n => (Nat.toDigits 10 n).length ≤ maxDigits
  | .decimal digits places => 0 < places ∧ (decimalDigits digits places).length ≤ maxDigits
  | _ => True

/-- **A tree of the language**: each call has as many arguments as its function takes, and no number
is too long. -/
inductive Expr.WellFormed : Expr → Prop where
  | lit {l : Literal} (hshort : l.Short) : WellFormed (.lit l)
  | var (v : Variable) : WellFormed (.var v)
  | call {f : Builtin} {args : List Expr} (harity : args.length = f.arity)
      (h : ∀ arg ∈ args, WellFormed arg) : WellFormed (.call f args)
  | not {e : Expr} (h : WellFormed e) : WellFormed (.not e)
  | binary (o : Operator) {a b : Expr} (ha : WellFormed a) (hb : WellFormed b) :
      WellFormed (.binary o a b)

namespace Expr

theorem wellFormed_lit_iff {l : Literal} : (lit l).WellFormed ↔ l.Short :=
  ⟨fun | .lit hshort => hshort, .lit⟩

theorem wellFormed_call_iff {f : Builtin} {args : List Expr} :
    (call f args).WellFormed ↔ args.length = f.arity ∧ ∀ arg ∈ args, arg.WellFormed :=
  ⟨fun | .call harity h => ⟨harity, h⟩, fun h => .call h.1 h.2⟩

theorem wellFormed_not_iff : (not e).WellFormed ↔ e.WellFormed :=
  ⟨fun | .not h => h, .not⟩

theorem wellFormed_binary_iff {o : Operator} {a b : Expr} :
    (binary o a b).WellFormed ↔ a.WellFormed ∧ b.WellFormed :=
  ⟨fun | .binary _ ha hb => ⟨ha, hb⟩, fun h => .binary o h.1 h.2⟩

end Expr

/-- No number among the lexemes is too long. -/
def ShortIn (ls : List Lexeme) : Prop := ∀ l, .literal l ∈ ls → l.Short

theorem shortIn_nil : ShortIn [] := fun _ hl => nomatch hl

theorem shortIn_cons_sign {s : Sign} : ShortIn (.sign s :: ls) ↔ ShortIn ls :=
  forall_congr' fun l => by rw [List.mem_cons, or_iff_right fun h => nomatch h]

theorem shortIn_cons_name {s : String} : ShortIn (.name s :: ls) ↔ ShortIn ls :=
  forall_congr' fun l => by rw [List.mem_cons, or_iff_right fun h => nomatch h]

theorem shortIn_append_iff : ShortIn (ls ++ ms) ↔ ShortIn ls ∧ ShortIn ms := by
  simp only [ShortIn, List.mem_append, or_imp, forall_and]

theorem shortIn_separated_iff {pieces : List (List Lexeme)} :
    ShortIn (separated pieces) ↔ ∀ piece ∈ pieces, ShortIn piece := by
  induction pieces with
  | nil => exact ⟨fun _ => List.forall_mem_nil _, fun _ => shortIn_nil⟩
  | cons p ps ih =>
    have hmore : ShortIn (ps.flatMap (.sign .comma :: ·)) ↔ ShortIn (separated ps) := by
      cases ps with
      | nil => exact Iff.rfl
      | cons q qs =>
        rw [List.flatMap_cons, List.cons_append, shortIn_cons_sign, separated]
    rw [separated, shortIn_append_iff, hmore, ih, List.forall_mem_cons]

/-- A derived tree is one of the language exactly if the numbers that write it are not too long. -/
theorem Derives.wellFormed_iff {level : Level} (h : Derives level e ls) :
    e.WellFormed ↔ ShortIn ls := by
  induction h with
  | lit l =>
    rw [Expr.wellFormed_lit_iff]
    constructor
    · intro hshort l' hl'
      obtain rfl := Lexeme.literal.inj (List.mem_singleton.1 hl')
      exact hshort
    · exact fun hshort => hshort l List.mem_cons_self
  | var v => exact ⟨fun _ => shortIn_cons_name.2 shortIn_nil, fun _ => .var v⟩
  | call f args harity _ ih =>
    rw [Expr.wellFormed_call_iff, shortIn_cons_name, shortIn_cons_sign, shortIn_append_iff,
      shortIn_separated_iff, shortIn_cons_sign, List.length_map, List.forall_mem_map,
      List.forall_mem_map]
    constructor
    · exact fun hargs => ⟨fun arg harg => (ih arg harg).1 (hargs.2 arg harg), shortIn_nil⟩
    · exact fun hshort => ⟨harity, fun arg harg => (ih arg harg).2 (hshort.1 arg harg)⟩
  | group _ ih =>
    rw [ih, shortIn_cons_sign, shortIn_append_iff, shortIn_cons_sign]
    exact ⟨fun hshort => ⟨hshort, shortIn_nil⟩, And.left⟩
  | not _ ih => rw [Expr.wellFormed_not_iff, ih, shortIn_cons_sign]
  | comparison _ _ _ iha ihb | chain _ _ _ iha ihb =>
    rw [Expr.wellFormed_binary_iff, iha, ihb, shortIn_append_iff, shortIn_cons_sign]
  | tighter _ _ ih => exact ih

end Outline
