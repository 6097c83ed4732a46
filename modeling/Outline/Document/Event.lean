import Outline.Markdown.Inline
import Outline.Markdown.Read

/-!
# Events of a document

The blocks of a document in a row: each collection begins and ends with an event of its own, so that
the tree of blocks need not be seen any more.

* `Event`: the events;
* `eventsOf`: the events of blocks;
* `documentEvents`: the events of a text.
-/

namespace Outline.Markdown

/-- An event. Lines are counted from 0. -/
inductive Event where
  /-- A heading outside of quotes and lists, its lines up to `stop`, and its text. -/
  | heading (level first stop : Nat) (pieces : List Inline)
  /-- A text, its lines up to `stop`, and its pieces. -/
  | text (first stop : Nat) (pieces : List Inline)
  | fence (first : Nat) (info : List Char)
  | listStart (ordered : Bool) (first : Nat)
  | item
  | listEnd
  | tableStart (first : Nat)
  | headStart
  | headEnd
  | tableEnd

mutual

/-- The definitions of labels in a block. -/
def definitionsOf : Block → Labels
  | .definition label address => [(label, address)]
  | .quote blocks => allDefinitions blocks
  | .list _ _ items => itemDefinitions items
  | _ => []

/-- The definitions of labels in blocks. -/
def allDefinitions : List Block → Labels
  | [] => []
  | b :: bs => definitionsOf b ++ allDefinitions bs

/-- The definitions of labels in items. -/
def itemDefinitions : List (List Block) → Labels
  | [] => []
  | bs :: rest => allDefinitions bs ++ itemDefinitions rest

end

/-- The events of a row of a table. -/
def rowEvents (labels : Labels) (line : Nat) (cells : List (List Char)) : List Event :=
  cells.map fun cell => .text line (line + 1) (inlinesOf labels cell)

mutual

/-- The events of a block; `top` tells whether it is outside of quotes and lists. -/
def blockEvents (labels : Labels) (top : Bool) : Block → List Event
  | .heading level first textStop stop text =>
    if top then [.heading level first stop (inlinesOf labels text)]
    else [.text first textStop (inlinesOf labels text)]
  | .paragraph first stop text => [.text first stop (inlinesOf labels text)]
  | .fence first info => [.fence first info]
  | .quote blocks => eventsOf labels false blocks
  | .list ordered first items => .listStart ordered first :: itemEvents labels items ++ [.listEnd]
  | .table first header rows =>
    .tableStart first :: .headStart :: rowEvents labels first header ++ .headEnd ::
      rows.flatMap (fun row => rowEvents labels row.1 row.2) ++ [.tableEnd]
  | .definition _ _ => []

/-- The events of blocks. -/
def eventsOf (labels : Labels) (top : Bool) : List Block → List Event
  | [] => []
  | b :: bs => blockEvents labels top b ++ eventsOf labels top bs

/-- The events of the items of a list. -/
def itemEvents (labels : Labels) : List (List Block) → List Event
  | [] => []
  | bs :: rest => .item :: eventsOf labels false bs ++ itemEvents labels rest

end

/-- The events of a text. -/
def documentEvents (text : List Char) : List Event :=
  let blocks := blocksOf text
  eventsOf (allDefinitions blocks) true blocks

end Outline.Markdown
