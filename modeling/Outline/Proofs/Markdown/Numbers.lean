import Outline.Proofs.Document.Regions

/-!
# Blocks stand on the lines they are read from

A container sees its lines changed, but each of them keeps its number. Hence the lines that blocks and
events name are lines of the document, in quotes and lists as well (**`first_lt_of_documentEvents`**).

* `Block.On`: a block whose lines satisfy a property;
* `Reader.Keeps`: a reader of containers whose blocks stand on the lines it is given;
* `Event.first?`: the line that an event names.
-/

namespace Outline

namespace Markdown

variable {P : Nat → Prop} {k : Inside} {nested : Reader} {l : Line} {ls rest : List Line}

/-- **A block whose lines satisfy a property**, and so do those of all blocks in it. -/
inductive Block.On (P : Nat → Prop) : Block → Prop
  | heading {level first textStop stop : Nat} {text : List Char} (hfirst : P first) :
      On P (.heading level first textStop stop text)
  | paragraph {first stop : Nat} {text : List Char} (hfirst : P first) :
      On P (.paragraph first stop text)
  | fence {first : Nat} {info : List Char} (hfirst : P first) : On P (.fence first info)
  | quote {blocks : List Block} (h : ∀ b ∈ blocks, On P b) : On P (.quote blocks)
  | list {ordered : Bool} {first : Nat} {items : List (List Block)} (hfirst : P first)
      (h : ∀ bs ∈ items, ∀ b ∈ bs, On P b) : On P (.list ordered first items)
  | table {first : Nat} {header : List (List Char)} {rows : List (Nat × List (List Char))}
      (hfirst : P first) (h : ∀ row ∈ rows, P row.1) : On P (.table first header rows)
  | definition {label address : List Char} : On P (.definition label address)

/-- The numbers of lines satisfy a property. -/
def NumbersIn (P : Nat → Prop) (ls : List Line) : Prop := ∀ l ∈ ls, P l.number

/-- A reader whose blocks stand on the lines that it is given. -/
def Reader.Keeps (P : Nat → Prop) (r : Reader) : Prop :=
  ∀ k ls, NumbersIn P ls → ∀ b ∈ (r k ls).1, b.On P

theorem NumbersIn.cons (hl : P l.number) (h : NumbersIn P ls) : NumbersIn P (l :: ls) :=
  List.forall_mem_cons.2 ⟨hl, h⟩

theorem NumbersIn.head (h : NumbersIn P (l :: ls)) : P l.number := h l List.mem_cons_self

theorem NumbersIn.tail (h : NumbersIn P (l :: ls)) : NumbersIn P ls :=
  fun l' hl' => h l' (List.mem_cons_of_mem l hl')

theorem NumbersIn.drop (h : NumbersIn P ls) (n : Nat) : NumbersIn P (ls.drop n) :=
  fun l hl => h l (List.mem_of_mem_drop hl)

/-! ## Lines inside containers -/

theorem number_quoted? {q : Line} (h : l.quoted? = some q) : q.number = l.number := by
  unfold Line.quoted? at h
  split at h
  · cases h
    rfl
  · cases h

theorem numbersIn_quoteLines (h : NumbersIn P ls) : ∀ afterBlank,
    NumbersIn P (quoteLines k afterBlank ls) := by
  induction ls with
  | nil => exact fun _ => List.forall_mem_nil _
  | cons l ls ih =>
    intro afterBlank
    unfold quoteLines
    split
    · exact List.forall_mem_nil _
    split
    · rename_i q hq
      refine .cons ?_ (ih h.tail _)
      split at hq
      · cases hq
      · rw [number_quoted? hq]
        exact h.head
    · split
      · exact List.forall_mem_nil _
      · exact .cons h.head (ih h.tail _)

/-! ## Blocks -/

/-- The items of a list stand on its lines. -/
theorem on_listItems (hnested : nested.Keeps P) : ∀ (fuel : Nat) (m : Marker) {ls : List Line},
    NumbersIn P ls → ∀ bs ∈ (listItems nested k fuel m ls).1, ∀ b ∈ bs, b.On P
  | 0, _, _, _ => List.forall_mem_nil _
  | _ + 1, _, [], _ => List.forall_mem_nil _
  | fuel + 1, m, l :: ls, h => by
    -- the first line of an item has lost the sign, but not its number
    have hnested' := hnested ⟨(itemLine m l).2, some k.indent, k.level + 2⟩ _
      (NumbersIn.cons (l := (itemLine m l).1) h.head h.tail)
    unfold listItems
    dsimp only
    generalize hfound : (if (itemLine m l).1.isBlank && (ls.head?.map Line.isBlank).getD true
      then ([], 2) else nested _ ((itemLine m l).1 :: ls)) = found
    have hblocks : ∀ b ∈ found.1, b.On P := by
      rw [← hfound]
      split
      · exact List.forall_mem_nil _
      · exact hnested'
    have honly : ∀ bs ∈ [found.1], ∀ b ∈ bs, b.On P := fun bs hbs =>
      List.mem_singleton.1 hbs ▸ hblocks
    generalize max 1 (min found.2 (ls.length + 1)) = read
    have hrest := h.tail.drop (read - 1)
    split
    · exact honly
    · rename_i next behind heq
      rw [heq] at hrest
      split
      · exact honly
      · split
        · exact honly
        · split
          · rename_i m' _ _
            rw [heq]
            exact List.forall_mem_cons.2 ⟨hblocks, on_listItems hnested fuel m' hrest⟩
          · exact honly

theorem on_textBlock (h : P l.number) : ∀ b ∈ (textBlock k l rest).1, b.On P := by
  intro b hb
  unfold textBlock at hb
  split at hb
  · exact List.mem_singleton.1 hb ▸ .heading h
  · split at hb
    · exact List.mem_singleton.1 hb ▸ .heading h
    · exact List.mem_singleton.1 hb ▸ .paragraph h

theorem on_plainBlock (h : P l.number) : ∀ b ∈ (plainBlock k l rest).1, b.On P := by
  intro b hb
  unfold plainBlock at hb
  split at hb
  · exact List.mem_singleton.1 hb ▸ .definition
  · split at hb
    · exact absurd hb List.not_mem_nil
    · exact on_textBlock h b hb

theorem number_of_mem_tableRowsFrom {n : Nat} {row : Nat × List (List Char)} :
    ∀ {filled : Int}, row ∈ tableRowsFrom k n filled ls → ∃ l ∈ ls, row.1 = l.number := by
  induction ls with
  | nil => exact fun h => absurd h List.not_mem_nil
  | cons l ls ih =>
    intro filled h
    unfold tableRowsFrom at h
    split at h
    · exact absurd h List.not_mem_nil
    · dsimp only at h
      split at h
      · exact absurd h List.not_mem_nil
      · rcases List.mem_cons.1 h with rfl | h
        · exact ⟨l, List.mem_cons_self, rfl⟩
        · obtain ⟨l', hl', heq⟩ := ih h
          exact ⟨l', List.mem_cons_of_mem l hl', heq⟩

/-- **The block that begins at a line stands on this line and those behind it.** -/
theorem on_readBlock (hnested : nested.Keeps P) (hl : P l.number) (hrest : NumbersIn P rest) :
    ∀ b ∈ (readBlock nested k l rest).1, b.On P := by
  intro b hb
  unfold readBlock at hb
  split at hb
  · rename_i header rows htable
    obtain ⟨_, -, heq⟩ := Option.map_eq_some_iff.1 htable
    cases heq
    refine List.mem_singleton.1 hb ▸ .table hl fun row hrow => ?_
    obtain ⟨l', hl', heq⟩ := number_of_mem_tableRowsFrom hrow
    rw [heq]
    exact (NumbersIn.cons hl hrest).drop 2 l' hl'
  split at hb
  · exact absurd hb List.not_mem_nil
  split at hb
  · exact List.mem_singleton.1 hb ▸ .fence hl
  split at hb
  · rename_i q hq
    refine List.mem_singleton.1 hb ▸ .quote (hnested _ _ (.cons ?_ (numbersIn_quoteLines hrest _)))
    rwa [number_quoted? hq]
  split at hb
  · exact absurd hb List.not_mem_nil
  split at hb
  · exact List.mem_singleton.1 hb ▸ .list hl (on_listItems hnested _ _ (.cons hl hrest))
  · exact on_plainBlock hl b hb

theorem on_readBlocks (hnested : nested.Keeps P) : ∀ (fuel : Nat) {ls : List Line},
    NumbersIn P ls → ∀ b ∈ (readBlocks nested k fuel ls).1, b.On P
  | 0, _, _ => List.forall_mem_nil _
  | fuel + 1, ls, h => by
    intro b hb
    unfold readBlocks at hb
    dsimp only at hb
    have hdrop := h.drop (ls.takeWhile Line.isBlank).length
    split at hb
    · exact absurd hb List.not_mem_nil
    · rename_i l rest heq
      rw [heq] at hdrop
      split at hb
      · exact absurd hb List.not_mem_nil
      split at hb
      · exact absurd hb List.not_mem_nil
      · rcases List.mem_append.1 hb with hb | hb
        · exact on_readBlock hnested hdrop.head hdrop.tail b hb
        · exact on_readBlocks hnested fuel (h.drop _) b hb

/-- **Containers in each other stand on the lines they are read from**, however deep they are. -/
theorem keeps_readNested (P : Nat → Prop) : ∀ depth, (readNested depth).Keeps P
  | 0 => fun _ _ _ _ hb => absurd hb List.not_mem_nil
  | depth + 1 => fun _ _ h => on_readBlocks (keeps_readNested P depth) _ h

theorem number_of_mem_numbered {pieces : List (List Char)} : ∀ {n : Nat},
    ∀ l ∈ numbered n pieces, l.number < n + pieces.length := by
  induction pieces with
  | nil => exact List.forall_mem_nil _
  | cons cs rest ih =>
    intro n l h
    rw [List.length_cons]
    rcases List.mem_cons.1 h with rfl | h
    · show n < _
      omega
    · have hlt := ih l h
      omega

/-- The blocks of a document stand on its lines. -/
theorem on_blocksOf (text : List Char) :
    ∀ b ∈ blocksOf text, b.On (· < (documentLines text).length) := by
  refine keeps_readNested _ _ _ _ fun l hl => ?_
  have hlt := number_of_mem_numbered l hl
  rw [documentLines, length_numbered]
  omega

/-! ## Events -/

/-- The line that an event names, if it names one. -/
def Event.first? : Event → Option Nat
  | .heading _ first _ _ => some first
  | .text first _ _ => some first
  | .fence first _ => some first
  | .listStart _ first => some first
  | .tableStart first => some first
  | _ => none

theorem mem_eventsOf {labels : Labels} {top : Bool} {blocks : List Block} {e : Event} :
    e ∈ eventsOf labels top blocks ↔ ∃ b ∈ blocks, e ∈ blockEvents labels top b := by
  induction blocks with
  | nil => simp [eventsOf]
  | cons b bs ih => simp [eventsOf, ih]

theorem mem_itemEvents {labels : Labels} {items : List (List Block)} {e : Event}
    (h : e ∈ itemEvents labels items) :
    e = .item ∨ ∃ bs ∈ items, ∃ b ∈ bs, e ∈ blockEvents labels false b := by
  induction items with
  | nil => exact absurd h List.not_mem_nil
  | cons bs rest ih =>
    rcases List.mem_append.1 h with h | h
    · rcases List.mem_cons.1 h with rfl | h
      · exact .inl rfl
      · exact .inr ⟨bs, List.mem_cons_self, mem_eventsOf.1 h⟩
    · exact (ih h).imp_right fun ⟨bs', hbs', h⟩ => ⟨bs', List.mem_cons_of_mem _ hbs', h⟩

theorem first_of_rowEvents {labels : Labels} {line : Nat} {cells : List (List Char)}
    (hline : P line) : ∀ e ∈ rowEvents labels line cells, ∀ n ∈ e.first?, P n := by
  intro e he n hn
  obtain ⟨cell, -, rfl⟩ := List.mem_map.1 he
  cases hn
  exact hline

/-- **The events of a block name its lines.** -/
theorem first_of_blockEvents {labels : Labels} {b : Block} (h : b.On P) : ∀ {top : Bool},
    ∀ e ∈ blockEvents labels top b, ∀ n ∈ e.first?, P n := by
  have hnone {e : Event} (he : e.first? = none) : ∀ n ∈ e.first?, P n := by simp [he]
  have hsome {e : Event} {first : Nat} (he : e.first? = some first) (hfirst : P first) :
      ∀ n ∈ e.first?, P n := by simpa [he] using hfirst
  induction h with
  | heading hfirst =>
    intro top e he
    unfold blockEvents at he
    split at he <;> exact List.mem_singleton.1 he ▸ hsome rfl hfirst
  | paragraph hfirst => exact fun e he => List.mem_singleton.1 he ▸ hsome rfl hfirst
  | fence hfirst => exact fun e he => List.mem_singleton.1 he ▸ hsome rfl hfirst
  | quote h ih =>
    intro top e he
    obtain ⟨b, hb, he⟩ := mem_eventsOf.1 he
    exact ih b hb e he
  | list hfirst h ih =>
    intro top e he
    rcases List.mem_append.1 he with he | he
    · rcases List.mem_cons.1 he with rfl | he
      · exact hsome rfl hfirst
      · obtain rfl | ⟨bs, hbs, b, hb, he⟩ := mem_itemEvents he
        · exact hnone rfl
        · exact ih bs hbs b hb e he
    · exact List.mem_singleton.1 he ▸ hnone rfl
  | table hfirst h =>
    intro top e he
    simp only [blockEvents, List.mem_append, List.mem_cons, List.mem_flatMap, List.cons_append,
      List.not_mem_nil, or_false, or_assoc] at he
    rcases he with rfl | rfl | he | rfl | ⟨row, hrow, he⟩ | rfl
    · exact hsome rfl hfirst
    · exact hnone rfl
    · exact first_of_rowEvents hfirst e he
    · exact hnone rfl
    · exact first_of_rowEvents (h row hrow) e he
    · exact hnone rfl
  | definition => exact fun e he => absurd he List.not_mem_nil

/-- **The lines that the events of a document name are lines of it.** -/
theorem first_lt_of_documentEvents {body : List Char} (h : '\r' ∉ body) :
    ∀ e ∈ documentEvents body, ∀ n ∈ e.first?, n < (cutOn '\n' body).length := by
  intro e he n hn
  obtain ⟨b, hb, he⟩ := mem_eventsOf.1 he
  exact (first_of_blockEvents (on_blocksOf body b hb) e he n hn).trans_le (length_documentLines_le h)

end Markdown

end Outline
