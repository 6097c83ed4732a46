import Outline.Yaml.Plain
import Outline.Yaml.Token

/-!
# Nodes of a YAML document

Tokens are read into a tree of scalars, sequences and mappings. An alias stands for the node that its
anchor marks. A scalar without a tag has the tag that its text suggests, unless it is quoted.

* `Node`: the tree;
* `Node.ofTokens?`: the node of a text that is a single document, if it has one.
-/

namespace Outline.Yaml

/-- A node. -/
inductive Node where
  | scalar (tag : Tag) (text : String)
  | sequence (tag : Tag) (items : List Node)
  | mapping (tag : Tag) (entries : List (Node × Node))

instance : Inhabited Node := ⟨.scalar .null ""⟩

/-- The node where none is written. -/
def Node.empty : Node := .scalar .null ""

/-- What is known while tokens are read: those that are left, the texts that handles of tags stand
for, the marked nodes, and the marks of nodes that are not yet complete. -/
structure Reading where
  tokens : List Token
  handles : List (String × String) := []
  marked : List (String × Node) := []
  unfinished : List String := []

/-- A reading of tokens. -/
abbrev Parse := StateT Reading (Except Fault)

namespace Parse

/-- The tokens make up no document. -/
def fail {α : Type} : Parse α := throw .notYaml

/-- The next token. -/
def peek : Parse Token := do return (← get).tokens.headD .streamEnd

/-- Goes on to the token behind the next one. -/
def drop : Parse Unit := modify fun s => { s with tokens := s.tokens.drop 1 }

/-- The handles that every document knows. -/
def commonHandles : List (String × String) := [("!", "!"), ("!!", "tag:yaml.org,2002:")]

/-- The full text of a tag. -/
def fullTag (t : TagText) : Parse String := do
  match t.handle with
  | none => return t.suffix
  | some h =>
    match (← get).handles.find? (·.1 == h) with
    | some (_, text) => return text ++ t.suffix
    | none => fail

/-- The anchor and the tag before a node, in either order. -/
def properties : Parse (Option String × Option String) := do
  match ← peek with
  | .anchor a =>
    drop
    match ← peek with
    | .tag t =>
      drop
      return (some a, some (← fullTag t))
    | _ => return (some a, none)
  | .tag t =>
    drop
    match ← peek with
    | .anchor a =>
      drop
      return (some a, some (← fullTag t))
    | _ => return (none, some (← fullTag t))
  | _ => return (none, none)

/-- The tag of a collection, given the tag that is written and the one it has without. -/
def collectionTag (written : Option String) (default : Tag) : Tag :=
  match written with
  | none => default
  | some "!" => default
  | some t => Tag.ofText t

/-- The tag of a scalar. -/
def scalarTag (written : Option String) (plain : Bool) (text : String) : Tag :=
  match written with
  | none => if plain then plainTag text.toList else .str
  | some "!" => plainTag text.toList
  | some t => Tag.ofText t

/-- Notes that a marked node begins. A mark is used once. -/
def begin_ (mark : Option String) : Parse Unit := do
  match mark with
  | none => return ()
  | some m =>
    let s ← get
    if s.marked.any (·.1 == m) || s.unfinished.contains m then fail
    set { s with unfinished := m :: s.unfinished }

/-- Notes that a marked node is complete. -/
def complete (mark : Option String) (n : Node) : Parse Node := do
  match mark with
  | none => return n
  | some m =>
    modify fun s => { s with
      marked := (m, n) :: s.marked
      unfinished := s.unfinished.filter (· != m) }
    return n

/-- Whether a token ends an entry of a block without a node. -/
def endsBlockEntry : Token → Bool
  | .key | .value | .blockEnd => true
  | _ => false

/-- Whether a token ends an item within brackets. -/
def endsFlowItem : Token → Bool
  | .flowEntry | .flowSequenceEnd => true
  | _ => false

/-- Whether a token ends an entry within braces. -/
def endsFlowEntry : Token → Bool
  | .flowEntry | .flowMappingEnd => true
  | _ => false

/-- Whether a token ends the key of a single entry within brackets. -/
def endsSingleKey : Token → Bool
  | .value | .flowEntry | .flowSequenceEnd => true
  | _ => false

/-- Whether a token ends the key of an entry within braces. -/
def endsEntryKey : Token → Bool
  | .value | .flowEntry | .flowMappingEnd => true
  | _ => false

/-- The comma before an item that is not the first. -/
def separator (first : Bool) : Parse Unit := do
  if !first then
    match ← peek with
    | .flowEntry => drop
    | _ => fail

mutual

/-- A node. In blocks, collections by indentation are allowed; `loose` allows a sequence that is not
indented deeper than the mapping around it. -/
def node (inBlock loose : Bool) : (fuel : Nat) → Parse Node
  | 0 => fail
  | fuel + 1 => do
    match ← peek with
    | .alias_ name =>
      drop
      match (← get).marked.find? (·.1 == name) with
      | some (_, n) => return n
      | none => fail
    | _ =>
      let (mark, tag) ← properties
      begin_ mark
      complete mark (← content inBlock loose tag (mark.isSome || tag.isSome) fuel)

/-- What follows the anchor and the tag of a node. -/
def content (inBlock loose : Bool) (tag : Option String) (optional : Bool) :
    (fuel : Nat) → Parse Node
  | 0 => fail
  | fuel + 1 => do
    match ← peek with
    | .blockEntry =>
      if loose then return .sequence (collectionTag tag .seq) (← looseItems fuel)
      else if optional then return .scalar (scalarTag tag true "") ""
      else fail
    | .scalar text plain =>
      drop
      return .scalar (scalarTag tag plain text) text
    | .flowSequenceStart =>
      drop
      return .sequence (collectionTag tag .seq) (← flowItems true fuel)
    | .flowMappingStart =>
      drop
      return .mapping (collectionTag tag .map) (← flowEntries true fuel)
    | .blockSequenceStart =>
      if inBlock then
        drop
        return .sequence (collectionTag tag .seq) (← blockItems fuel)
      else if optional then return .scalar (scalarTag tag true "") ""
      else fail
    | .blockMappingStart =>
      if inBlock then
        drop
        return .mapping (collectionTag tag .map) (← blockEntries fuel)
      else if optional then return .scalar (scalarTag tag true "") ""
      else fail
    | _ =>
      if optional then return .scalar (scalarTag tag true "") "" else fail

/-- The items of an indented sequence. -/
def blockItems : (fuel : Nat) → Parse (List Node)
  | 0 => fail
  | fuel + 1 => do
    match ← peek with
    | .blockEnd =>
      drop
      return []
    | .blockEntry =>
      drop
      match ← peek with
      | .blockEntry | .blockEnd => return .empty :: (← blockItems fuel)
      | _ =>
        let n ← node true false fuel
        return n :: (← blockItems fuel)
    | _ => fail

/-- The items of a sequence that is not indented. -/
def looseItems : (fuel : Nat) → Parse (List Node)
  | 0 => fail
  | fuel + 1 => do
    match ← peek with
    | .blockEntry =>
      drop
      let t ← peek
      match t with
      | .blockEntry | .key | .value | .blockEnd => return .empty :: (← looseItems fuel)
      | _ =>
        let n ← node true false fuel
        return n :: (← looseItems fuel)
    | _ => return []

/-- The entries of an indented mapping. -/
def blockEntries : (fuel : Nat) → Parse (List (Node × Node))
  | 0 => fail
  | fuel + 1 => do
    match ← peek with
    | .blockEnd =>
      drop
      return []
    | .key =>
      drop
      let k ← blockPart fuel
      let v ← blockValue fuel
      return (k, v) :: (← blockEntries fuel)
    | _ => fail

/-- A key or a value of an entry; it may be missing. -/
def blockPart : (fuel : Nat) → Parse Node
  | 0 => fail
  | fuel + 1 => do
    if endsBlockEntry (← peek) then return .empty else node true true fuel

/-- The value of an entry; it may be missing together with its colon. -/
def blockValue : (fuel : Nat) → Parse Node
  | 0 => fail
  | fuel + 1 => do
    match ← peek with
    | .value =>
      drop
      blockPart fuel
    | _ => return .empty

/-- The items of a sequence in brackets. An item can be a single entry of a mapping. -/
def flowItems (first : Bool) : (fuel : Nat) → Parse (List Node)
  | 0 => fail
  | fuel + 1 => do
    match ← peek with
    | .flowSequenceEnd =>
      drop
      return []
    | _ =>
      separator first
      match ← peek with
      | .key =>
        drop
        let k ← flowPart endsSingleKey fuel
        let v ← flowValue endsFlowItem fuel
        return .mapping .map [(k, v)] :: (← flowItems false fuel)
      | .flowSequenceEnd => flowItems false fuel
      | _ =>
        let n ← node false false fuel
        return n :: (← flowItems false fuel)

/-- The entries of a mapping in braces. An entry may lack its value. -/
def flowEntries (first : Bool) : (fuel : Nat) → Parse (List (Node × Node))
  | 0 => fail
  | fuel + 1 => do
    match ← peek with
    | .flowMappingEnd =>
      drop
      return []
    | _ =>
      separator first
      match ← peek with
      | .key =>
        drop
        let k ← flowPart endsEntryKey fuel
        let v ← flowValue endsFlowEntry fuel
        return (k, v) :: (← flowEntries false fuel)
      | .flowMappingEnd => flowEntries false fuel
      | _ =>
        let k ← node false false fuel
        return (k, .empty) :: (← flowEntries false fuel)

/-- A key or a value within brackets; it may be missing. -/
def flowPart (missing : Token → Bool) : (fuel : Nat) → Parse Node
  | 0 => fail
  | fuel + 1 => do
    if missing (← peek) then return .empty else node false false fuel

/-- The value of an entry within brackets; it may be missing together with its colon. -/
def flowValue (missing : Token → Bool) : (fuel : Nat) → Parse Node
  | 0 => fail
  | fuel + 1 => do
    match ← peek with
    | .value =>
      drop
      flowPart missing fuel
    | _ => return .empty

end

/-! ## Documents -/

/-- The directives before a document: at most one version, which is 1, and each handle once. -/
def directives : (fuel : Nat) → (versioned : Bool) → Parse Unit
  | 0, _ => fail
  | fuel + 1, versioned => do
    match ← peek with
    | .version major =>
      drop
      if versioned || major != 1 then fail
      directives fuel true
    | .handle name text =>
      drop
      let s ← get
      if s.handles.any (·.1 == name) then fail
      set { s with handles := (name, text) :: s.handles }
      directives fuel versioned
    | .otherDirective =>
      drop
      directives fuel versioned
    | _ => modify fun s => { s with handles := s.handles ++ commonHandles }

/-- Whether a token begins or ends a document. -/
def isBoundary : Token → Bool
  | .version _ | .handle _ _ | .otherDirective | .documentStart | .documentEnd | .streamEnd => true
  | _ => false

/-- Goes over marks for the end of a document. -/
def documentEnds : (fuel : Nat) → Parse Unit
  | 0 => fail
  | fuel + 1 => do
    match ← peek with
    | .documentEnd =>
      drop
      documentEnds fuel
    | _ => return ()

/-- Goes over the tokens behind a document, up to the end of the text. -/
def ending (fuel : Nat) : Parse Unit := do
  documentEnds fuel
  match ← peek with
  | .streamEnd => return ()
  | _ => fail

/-- The node of a single document; nothing if there is no document. -/
def document (fuel : Nat) : Parse (Option Node) := do
  match ← peek with
  | .streamEnd => return none
  | t =>
    match t with
    | .documentStart | .version _ | .handle _ _ | .otherDirective =>
      directives fuel false
      match ← peek with
      | .documentStart => drop
      | _ => fail
      let n ← if isBoundary (← peek) then pure .empty else node true false fuel
      ending fuel
      return some n
    | _ =>
      modify fun s => { s with handles := commonHandles }
      let n ← node true false fuel
      ending fuel
      return some n

end Parse

/-- The node of tokens that make up a single document; nothing if they make up none. -/
def Node.ofTokens? (ts : List Token) : Except Fault (Option Node) := do
  let (n, _) ← (Parse.document (4 * ts.length + 8)).run { tokens := ts }
  return n

end Outline.Yaml
