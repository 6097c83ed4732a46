import Outline.Proofs.Except
import Outline.Proofs.Expr.Grammar

/-!
# What the reader of expressions takes

A reader that ends well has taken tokens from the front that write its tree.

* `Taken`: the tokens before a rest satisfy a condition;
* `Taking`: what each of the five readers takes, with a number of steps;
* `taking`: it holds for every number of steps;
* `derives_of_readLevel`: the tokens that a level takes write its tree at that level;
* `Ended`: an end token is among the tokens; no reader takes it.
-/

namespace Outline

variable {ts mid rest : List Token} {level : Level} {e : Expr}

/-- What the tokens of a list are. -/
def lexemes (ts : List Token) : List Lexeme := ts.map Token.lexeme

@[simp] theorem lexemes_append (ts us : List Token) :
    lexemes (ts ++ us) = lexemes ts ++ lexemes us := List.map_append

/-! ## Tokens that are taken -/

/-- The tokens of a list before a rest satisfy a condition. -/
def Taken (ts rest : List Token) (P : List Lexeme → Prop) : Prop :=
  ∃ body, ts = body ++ rest ∧ P (lexemes body)

namespace Taken

variable {P Q R : List Lexeme → Prop}

theorem none (h : P []) : Taken ts ts P := ⟨[], rfl, h⟩

theorem imp (h : Taken ts rest P) (himp : ∀ ls, P ls → Q ls) : Taken ts rest Q := by
  obtain ⟨body, rfl, hP⟩ := h
  exact ⟨body, rfl, himp _ hP⟩

/-- Tokens that are taken in two parts; what is asked of the second may depend on the first. -/
theorem andThen (h : Taken ts mid P)
    (h' : ∀ ls, P ls → Taken mid rest fun ms => Q (ls ++ ms)) : Taken ts rest Q := by
  obtain ⟨body, rfl, hP⟩ := h
  obtain ⟨body', rfl, hQ⟩ := h' _ hP
  exact ⟨body ++ body', (List.append_assoc body body' rest).symm, lexemes_append body body' ▸ hQ⟩

/-- A token in front, then further tokens. -/
theorem cons {t : Token} (h : Taken ts rest P) : Taken (t :: ts) rest fun ls =>
    ∃ ms, ls = t.lexeme :: ms ∧ P ms := by
  obtain ⟨body, rfl, hP⟩ := h
  exact ⟨t :: body, rfl, lexemes body, rfl, hP⟩

/-- A token in front and nothing more. -/
theorem one (t : Token) : Taken (t :: ts) ts (· = [t.lexeme]) := ⟨[t], rfl, rfl⟩

/-- A sign in front, then further tokens. -/
theorem sign {s : Sign} (hs : afterSign? s ts = some mid) (h : Taken mid rest P)
    (himp : ∀ ms, P ms → Q (.sign s :: ms)) : Taken ts rest Q := by
  obtain _ | ⟨t, us⟩ := ts
  · cases hs
  · rw [afterSign?] at hs
    split at hs
    · rename_i ht
      obtain rfl := Option.some.inj hs
      refine h.cons.imp ?_
      rintro ls ⟨ms, rfl, hP⟩
      exact ht ▸ himp ms hP
    · cases hs

end Taken

theorem taken_of_afterSign? {s : Sign} (h : afterSign? s ts = some rest) :
    Taken ts rest (· = [.sign s]) :=
  Taken.sign h (Taken.none (P := (· = [])) rfl) fun _ hms => hms ▸ rfl

/-! ## Tokens with an end -/

/-- An end token is among the tokens. -/
def Ended (ts : List Token) : Prop := .stop ∈ lexemes ts

namespace Taken

variable {P : List Lexeme → Prop}

theorem suffix (h : Taken ts rest P) : rest <:+ ts := by
  obtain ⟨body, rfl, -⟩ := h
  exact List.suffix_append body rest

theorem length_lt (h : Taken ts rest P) (hsome : ∀ ls, P ls → ls ≠ []) :
    rest.length < ts.length := by
  obtain ⟨body, rfl, hP⟩ := h
  have hbody : body ≠ [] := fun hnil => hsome _ hP (congrArg lexemes hnil)
  have := List.length_pos_iff.2 hbody
  rw [List.length_append]
  omega

theorem ended (h : Taken ts rest P) (hstop : ∀ ls, P ls → Lexeme.stop ∉ ls)
    (hended : Ended ts) : Ended rest := by
  obtain ⟨body, rfl, hP⟩ := h
  rw [Ended, lexemes_append] at hended
  exact (List.mem_append.1 hended).resolve_left (hstop _ hP)

end Taken

theorem Ended.afterSign {s : Sign} (hended : Ended ts) (h : afterSign? s ts = some rest) :
    Ended rest :=
  (taken_of_afterSign? h).ended (fun ls hls => by simp [hls]) hended

theorem length_of_afterSign? {s : Sign} (h : afterSign? s ts = some rest) :
    rest.length < ts.length :=
  (taken_of_afterSign? h).length_lt fun ls hls => by simp [hls]

/-! ## The readers -/

/-- Trees with the lexemes that write each of them. -/
def Listed (args : List (Expr × List Lexeme)) : Prop := ∀ arg ∈ args, Derives .or arg.1 arg.2

/-- What the readers take when they end well within a number of steps. -/
structure Taking (n : Nat) : Prop where
  level : ∀ {level ts e rest}, readLevel n level ts = .ok (e, rest) →
    Taken ts rest (Derives level e)
  more : ∀ {level a ts e rest}, readMore n level a ts = .ok (e, rest) →
    ∀ {ls}, Derives level a ls → Taken ts rest fun ms => Derives level e (ls ++ ms)
  operand : ∀ {ts e rest}, readOperand n ts = .ok (e, rest) → Taken ts rest (Derives .operand e)
  arguments : ∀ {ts args rest}, readArguments n ts = .ok (args, rest) → Taken ts rest fun ls =>
    ∃ parts, Listed parts ∧ args = parts.map Prod.fst ∧
      ls = separated (parts.map Prod.snd) ++ [.sign .close]
  further : ∀ {acc ts args rest}, readFurther n acc ts = .ok (args, rest) → Taken ts rest fun ls =>
    ∃ parts, Listed parts ∧ args = acc ++ parts.map Prod.fst ∧
      ls = (parts.map Prod.snd).flatMap (.sign .comma :: ·) ++ [.sign .close]

theorem Level.ne_operand (level : Level) (h : level.operator?.isSome) : level ≠ .operand := by
  rintro rfl
  cases h

theorem readLevel_of_operator (n : Nat) (h : level.operator?.isSome) (ts : List Token) :
    readLevel (n + 1) level ts =
      (readLevel n level.next ts >>= fun r => readMore n level r.1 r.2) := by
  cases level with
  | or => simp only [readLevel]
  | and => simp only [readLevel]
  | sum => simp only [readLevel]
  | not => cases h
  | comparison => cases h
  | operand => cases h

namespace Taking

variable {n : Nat}

theorem zero : Taking 0 where
  level h := nomatch h
  more h := nomatch h
  operand h := nomatch h
  arguments h := nomatch h
  further h := nomatch h

theorem chain (ih : Taking n) (hop : level.operator?.isSome)
    (h : readLevel (n + 1) level ts = .ok (e, rest)) : Taken ts rest (Derives level e) := by
  rw [readLevel_of_operator n hop ts, bind_eq_ok] at h
  obtain ⟨⟨a, mid⟩, hfirst, hmore⟩ := h
  refine (ih.level hfirst).andThen fun ls hls => ?_
  exact ih.more hmore (.tighter (level.ne_operand hop) hls)

theorem comparison (ih : Taking n) (h : readLevel (n + 1) .comparison ts = .ok (e, rest)) :
    Taken ts rest (Derives .comparison e) := by
  simp only [readLevel, bind_eq_ok] at h
  obtain ⟨⟨a, mid⟩, hfirst, h⟩ := h
  refine (ih.level hfirst).andThen fun ls hls => ?_
  dsimp only at h
  split at h
  · rename_i heq
    obtain ⟨⟨b, rest'⟩, hsecond, h⟩ := bind_eq_ok.1 h
    obtain ⟨rfl, rfl⟩ := Prod.mk.inj (Except.ok.inj h)
    exact Taken.sign heq (ih.level hsecond) fun ms hms => .comparison rfl hls hms
  · rename_i mid' _ hne
    obtain ⟨⟨b, rest'⟩, hsecond, h⟩ := bind_eq_ok.1 h
    obtain ⟨rfl, rfl⟩ := Prod.mk.inj (Except.ok.inj h)
    exact Taken.sign hne (ih.level hsecond) fun ms hms => .comparison rfl hls hms
  · obtain ⟨rfl, rfl⟩ := Prod.mk.inj (Except.ok.inj h)
    exact Taken.none (.tighter nofun ((List.append_nil ls).symm ▸ hls))

theorem not (ih : Taking n) (h : readLevel (n + 1) .not ts = .ok (e, rest)) :
    Taken ts rest (Derives .not e) := by
  rw [readLevel] at h
  split at h
  · rename_i mid hnot
    obtain ⟨⟨a, rest'⟩, ha, h⟩ := bind_eq_ok.1 h
    obtain ⟨rfl, rfl⟩ := Prod.mk.inj (Except.ok.inj h)
    exact Taken.sign hnot (ih.level ha) fun ms hms => .not hms
  · exact (ih.level h).imp fun ls hls => .tighter nofun hls

theorem readsMore (ih : Taking n) {a : Expr} {ls : List Lexeme} (ha : Derives level a ls)
    (h : readMore (n + 1) level a ts = .ok (e, rest)) :
    Taken ts rest fun ms => Derives level e (ls ++ ms) := by
  have hnone : Except.ok (a, ts) = (Except.ok (e, rest) : Except ExprError _) →
      Taken ts rest fun ms => Derives level e (ls ++ ms) := by
    intro heq
    obtain ⟨rfl, rfl⟩ := Prod.mk.inj (Except.ok.inj heq)
    exact Taken.none ((List.append_nil ls).symm ▸ ha)
  rw [readMore] at h
  split at h
  · exact hnone h
  · rename_i s o hop
    split at h
    · exact hnone h
    · rename_i mid hs
      obtain ⟨⟨b, mid'⟩, hb, hmore⟩ := bind_eq_ok.1 h
      have hread : Taken mid rest fun ms => Derives level e (ls ++ .sign s :: ms) :=
        (ih.level hb).andThen fun ms hms => by
          have hjoined : Derives level (.binary o a b) (ls ++ .sign s :: ms) := .chain hop ha hms
          simpa only [List.append_assoc, List.cons_append] using ih.more hmore hjoined
      exact Taken.sign hs hread fun ms hms => hms

theorem bracket (ih : Taking n) {t : Token} (ht : t.lexeme = .sign .open_)
    (h : (readLevel n .or ts >>= fun r => match afterSign? .close r.2 with
      | some rest => Except.ok (r.1, rest)
      | none => .error (.expected .close (frontToken r.2))) = .ok (e, rest)) :
    Taken (t :: ts) rest (Derives .operand e) := by
  obtain ⟨⟨a, mid⟩, ha, h⟩ := bind_eq_ok.1 h
  dsimp only at h
  split at h
  · rename_i mid' hclose
    obtain ⟨rfl, rfl⟩ := Prod.mk.inj (Except.ok.inj h)
    have hread : Taken ts mid' fun ls => Derives .operand a (.sign .open_ :: ls) :=
      (ih.level ha).andThen fun ls hls => (taken_of_afterSign? hclose).imp fun ms hms => by
        subst hms
        exact .group hls
    refine hread.cons.imp ?_
    rintro _ ⟨ms, rfl, hms⟩
    exact ht ▸ hms
  · cases h

end Taking

theorem Builtin.name_of_ofName? {s : String} {f : Builtin} (h : Builtin.ofName? s = some f) :
    f.name = s := by
  simpa using List.find?_some h

theorem Variable.name_of_ofName? {s : String} {v : Variable} (h : Variable.ofName? s = some v) :
    v.name = s := by
  simpa using List.find?_some h

namespace Taking

variable {n : Nat}

theorem call (ih : Taking n) {t : Token} {f : Builtin} {args : List Expr}
    (ht : t.lexeme = .name f.name) (hopen : afterSign? .open_ ts = some mid)
    (hread : readArguments n mid = .ok (args, rest)) (harity : args.length = f.arity) :
    Taken (t :: ts) rest (Derives .operand (.call f args)) := by
  have hargs : Taken ts rest fun ls =>
      Derives .operand (.call f args) (.name f.name :: ls) := by
    refine Taken.sign hopen (ih.arguments hread) ?_
    rintro _ ⟨parts, hparts, rfl, rfl⟩
    exact .call f parts (by rw [← harity, List.length_map]) hparts
  refine hargs.cons.imp ?_
  rintro _ ⟨ms, rfl, hms⟩
  exact ht ▸ hms

theorem readsOperand (ih : Taking n) (h : readOperand (n + 1) ts = .ok (e, rest)) :
    Taken ts rest (Derives .operand e) := by
  obtain _ | ⟨t, ts⟩ := ts
  · cases h
  rw [readOperand] at h
  split at h
  · rename_i l hl
    obtain ⟨rfl, rfl⟩ := Prod.mk.inj (Except.ok.inj h)
    refine (Taken.one t).imp ?_
    rintro _ rfl
    exact hl ▸ .lit l
  · rename_i name hname
    split at h
    · rename_i mid hopen
      split at h
      · cases h
      · rename_i f hf
        obtain ⟨⟨args, rest'⟩, hargs, h⟩ := bind_eq_ok.1 h
        dsimp only at h
        split at h
        · rename_i harity
          obtain ⟨rfl, rfl⟩ := Prod.mk.inj (Except.ok.inj h)
          exact ih.call (Builtin.name_of_ofName? hf ▸ hname) hopen hargs harity
        · cases h
    · split at h
      · cases h
      · rename_i v hv
        obtain ⟨rfl, rfl⟩ := Prod.mk.inj (Except.ok.inj h)
        refine (Taken.one t).imp ?_
        rintro _ rfl
        exact hname ▸ Variable.name_of_ofName? hv ▸ .var v
  · rename_i hopen
    exact ih.bracket hopen h
  · cases h

theorem readsFurther (ih : Taking n) {acc args : List Expr}
    (h : readFurther (n + 1) acc ts = .ok (args, rest)) : Taken ts rest fun ls =>
      ∃ parts, Listed parts ∧ args = acc ++ parts.map Prod.fst ∧
        ls = (parts.map Prod.snd).flatMap (.sign .comma :: ·) ++ [.sign .close] := by
  rw [readFurther] at h
  split at h
  · rename_i mid hcomma
    obtain ⟨⟨a, mid'⟩, ha, hmore⟩ := bind_eq_ok.1 h
    refine Taken.sign hcomma (P := fun ls => ∃ parts, Listed parts ∧
      args = acc ++ parts.map Prod.fst ∧ .sign .comma :: ls =
        (parts.map Prod.snd).flatMap (.sign .comma :: ·) ++ [.sign .close]) ?_ fun ms hms => hms
    refine (ih.level ha).andThen fun ls hls => (ih.further hmore).imp ?_
    rintro _ ⟨parts, hparts, rfl, rfl⟩
    refine ⟨(a, ls) :: parts, ?_, by simp, by simp⟩
    exact List.forall_mem_cons.2 ⟨hls, hparts⟩
  · split at h
    · rename_i mid hclose
      obtain ⟨rfl, rfl⟩ := Prod.mk.inj (Except.ok.inj h)
      refine (taken_of_afterSign? hclose).imp ?_
      rintro _ rfl
      exact ⟨[], List.forall_mem_nil _, (List.append_nil acc).symm, rfl⟩
    · cases h

theorem readsArguments (ih : Taking n) {args : List Expr}
    (h : readArguments (n + 1) ts = .ok (args, rest)) : Taken ts rest fun ls =>
      ∃ parts, Listed parts ∧ args = parts.map Prod.fst ∧
        ls = separated (parts.map Prod.snd) ++ [.sign .close] := by
  rw [readArguments] at h
  split at h
  · rename_i mid hclose
    obtain ⟨rfl, rfl⟩ := Prod.mk.inj (Except.ok.inj h)
    refine (taken_of_afterSign? hclose).imp ?_
    rintro _ rfl
    exact ⟨[], List.forall_mem_nil _, rfl, rfl⟩
  · obtain ⟨⟨a, mid⟩, ha, hmore⟩ := bind_eq_ok.1 h
    refine (ih.level ha).andThen fun ls hls => (ih.further hmore).imp ?_
    rintro _ ⟨parts, hparts, rfl, rfl⟩
    refine ⟨(a, ls) :: parts, List.forall_mem_cons.2 ⟨hls, hparts⟩, rfl, ?_⟩
    rw [List.map_cons, separated, List.append_assoc]

/-- One more step: each reader takes what it should if the readers it calls do. -/
theorem succ (ih : Taking n) : Taking (n + 1) where
  level {level ts e rest} h := by
    cases level with
    | or => exact ih.chain rfl h
    | and => exact ih.chain rfl h
    | not => exact ih.not h
    | comparison => exact ih.comparison h
    | sum => exact ih.chain rfl h
    | operand => exact ih.operand h
  more h _ ha := ih.readsMore ha h
  operand := ih.readsOperand
  arguments := ih.readsArguments
  further := ih.readsFurther

end Taking

/-- Every reader takes what it should, whatever the number of steps. -/
theorem taking (n : Nat) : Taking n := by
  induction n with
  | zero => exact .zero
  | succ n ih => exact ih.succ

/-- **What is read at a level is derived at it**, by the tokens that were taken. -/
theorem derives_of_readLevel {n : Nat} (h : readLevel n level ts = .ok (e, rest)) :
    Taken ts rest (Derives level e) := (taking n).level h

theorem Ended.readLevel {n : Nat} (hended : Ended ts)
    (h : readLevel n level ts = .ok (e, rest)) : Ended rest :=
  (derives_of_readLevel h).ended (fun _ hls => hls.phrase.noStop) hended

theorem length_of_readLevel {n : Nat} (h : readLevel n level ts = .ok (e, rest)) :
    rest.length < ts.length :=
  (derives_of_readLevel h).length_lt fun _ hls => hls.phrase.ne_nil

end Outline
