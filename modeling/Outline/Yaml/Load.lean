import Outline.Decimal.Read
import Outline.Yaml.Node

/-!
# Values of YAML texts

The value of a node is that of its kind. The key `<<` merges the entries of other mappings before
those of its own. Collections are filled after the scalars around them, so of several faults the
one that lies least deep counts.

* `Node.build`: the value of a node;
* `load`: the value of a text.
-/

namespace Outline.Yaml

/-! ## Scalars -/

/-- The whole number that a text writes. -/
def wholeNumber (base : Nat) (cs : List Char) : Except Fault Int :=
  let count := (cs.filter isDigit).length
  if base == 10 && maxDigits < count then .error (.tooManyDigits (some count))
  else match wholeOfText? base cs with
    | some n => .ok n
    | none => .error (.notWhole (String.ofList cs) base)

/-- The floating-point number that a text writes. -/
def floatNumber (cs : List Char) : Except Fault Float :=
  match floatOfText? cs with
  | some f => .ok f
  | none => .error (.notFloat (String.ofList cs))

/-- A text without its underscores, cut into whether it begins with a minus, and the rest behind the
sign. -/
def signAndRest (cs : List Char) : Except Fault (Bool × List Char) :=
  match cs.filter (· != '_') with
  | [] => .error .tooShort
  | c :: rest => .ok (c == '-', if c == '+' || c == '-' then rest else c :: rest)

/-- A whole number: in base 2, 8 or 16 by how it begins, else in base 10 or 60. -/
def buildInt (cs : List Char) : Except Fault Int := do
  let (negative, u) ← signAndRest cs
  let n ← match u with
    | [] => throw .tooShort
    | ['0'] => pure 0
    | '0' :: 'b' :: ds => wholeNumber 2 ds
    | '0' :: 'x' :: ds => wholeNumber 16 ds
    | '0' :: _ => wholeNumber 8 u
    | _ =>
      if u.contains ':' then do
        let parts ← (cutOn ':' u).mapM (wholeNumber 10)
        pure (parts.foldl (fun n d => 60 * n + d) 0)
      else wholeNumber 10 u
  return if negative then -n else n

/-- The sum of numbers, each 60 times as much worth as the one before it. -/
def sixtiesSum : (worth : Nat) → (sum : Float) → List Float → Except Fault Float
  | _, sum, [] => .ok sum
  | worth, sum, d :: ds =>
    match floatOfInt? worth with
    | some w => sixtiesSum (60 * worth) (sum + d * w) ds
    | none => .error .outOfRange

/-- A floating-point number in base 10 or 60. -/
def buildFloat (cs : List Char) : Except Fault Float := do
  let (negative, u) ← signAndRest (lowerChars cs)
  if u == ".nan".toList then return 0.0 / 0.0
  let f ←
    if u == ".inf".toList then pure (1.0 / 0.0)
    else if u.contains ':' then do
      let parts ← (cutOn ':' u).mapM floatNumber
      sixtiesSum 1 0.0 parts.reverse
    else floatNumber u
  return if negative then -f else f

/-- A truth value, in any mixture of capitals and small letters. -/
def buildBool (text : String) : Except Fault Bool :=
  let word := lower text
  if ["yes", "true", "on"].contains word then .ok true
  else if ["no", "false", "off"].contains word then .ok false
  else .error .noSuchWord

/-- The value of a sign of base 64. -/
def base64Value? (c : Char) : Option Nat :=
  let n := c.toNat
  if 65 ≤ n && n ≤ 90 then some (n - 65)
  else if 97 ≤ n && n ≤ 122 then some (n - 71)
  else if 48 ≤ n && n ≤ 57 then some (n + 4)
  else if c == '+' then some 62
  else if c == '/' then some 63
  else none

/-- The bytes of a text in base 64; other signs are left out. `held` are the values of the signs of an
unfinished group, `pads` the signs of padding in it. -/
def base64Bytes (held : List Nat) (pads : Nat) : List Char → Option (List UInt8)
  | [] => if held.isEmpty then some [] else none
  | c :: cs =>
    if c == '=' then
      match held with
      | [a, b] =>
        if pads == 0 then base64Bytes held 1 cs else some [UInt8.ofNat (a * 4 + b / 16)]
      | [a, b, d] => some [UInt8.ofNat (a * 4 + b / 16), UInt8.ofNat (b % 16 * 16 + d / 4)]
      | _ => base64Bytes held pads cs
    else match base64Value? c with
      | none => base64Bytes held pads cs
      | some v =>
        match held with
        | [a, b, d] =>
          (base64Bytes [] 0 cs).map fun rest =>
            UInt8.ofNat (a * 4 + b / 16) :: UInt8.ofNat (b % 16 * 16 + d / 4) ::
              UInt8.ofNat (d % 4 * 64 + v) :: rest
        | _ => base64Bytes (held ++ [v]) 0 cs

/-- Bytes written in base 64. -/
def buildBytes (cs : List Char) : Except Fault (List UInt8) :=
  if cs.all fun c => c.toNat < 128 then
    match base64Bytes [] 0 cs with
    | some bs => .ok bs
    | none => .error .notYaml
  else .error .notYaml

/-- A calendar error as a fault. -/
def ofCalendar {α : Type} (r : Except CalendarError α) : Except Fault α :=
  match r with
  | .ok a => .ok a
  | .error e => .error (.calendar e)

/-- Digits behind the point of a second as microseconds. -/
def microseconds (ds : List Char) : Nat :=
  let six := ds.take 6
  natOfDigits (six ++ List.replicate (6 - six.length) '0')

/-- A date or a moment. -/
def buildStamp (cs : List Char) : Except Fault Value :=
  match stamp? cs with
  | none => .error .noMoment
  | some s =>
    match s.clock with
    | none => (ofCalendar (Date.make s.year s.month s.day)).map .date
    | some c =>
      let offset : Option Int := c.zone.map fun z =>
        let minutes : Int := 60 * z.hours + z.minutes
        if z.negative then -minutes else minutes
      (ofCalendar (Moment.make s.year s.month s.day c.hour c.minute c.second
        (microseconds c.fraction) offset)).map .moment

/-- The value of a scalar of a kind. -/
def buildScalar (tag : Tag) (text : String) : Except Fault Value :=
  let cs := text.toList
  match tag with
  | .null => .ok .null
  | .bool => (buildBool text).map .bool
  | .int => (buildInt cs).map .int
  | .float => (buildFloat cs).map .float
  | .binary => (buildBytes cs).map .bytes
  | .timestamp => buildStamp cs
  | .str => .ok (.str text)
  | _ => .error .notYaml

/-! ## Nodes -/

namespace Node

/-- The kind of a node. -/
def tag : Node → Tag
  | .scalar t _ => t
  | .sequence t _ => t
  | .mapping t _ => t

mutual

/-- The text of a node used as a scalar; a mapping has that of its entry `=`. -/
def scalarText? : Node → Option String
  | .scalar _ text => some text
  | .sequence _ _ => none
  | .mapping _ entries => scalarEntry? entries

/-- The text of the entry `=`. -/
def scalarEntry? : List (Node × Node) → Option String
  | [] => none
  | (k, v) :: es => if k.tag == .value then scalarText? v else scalarEntry? es

end

mutual

/-- Whether what is merged into a mapping is mappings throughout. -/
def mergesWell : List (Node × Node) → Bool
  | [] => true
  | (k, v) :: es => (k.tag != .merge || mergesNode v) && mergesWell es

/-- Whether a node can be merged: a mapping, or a sequence of mappings. -/
def mergesNode : Node → Bool
  | .scalar _ _ => false
  | .sequence _ items => mergesItems items
  | .mapping _ entries => mergesWell entries

/-- Whether nodes are mappings that can be merged. -/
def mergesItems : List Node → Bool
  | [] => true
  | .mapping _ entries :: ns => mergesWell entries && mergesItems ns
  | _ => false

end

/-- Whether a kind is one of collections. -/
def isCollection : Tag → Bool
  | .omap | .pairs | .set | .seq | .map => true
  | _ => false

end Node

/-- A value, or a fault and how deep it lies. -/
abbrev Built (α : Type) := Except (Nat × Fault) α

/-- Two results together; of two faults the less deep one, or else the first. -/
def both {α β γ : Type} (f : α → β → γ) (a : Built α) (b : Built β) : Built γ :=
  match a, b with
  | .ok x, .ok y => .ok (f x y)
  | .error e, .ok _ => .error e
  | .ok _, .error e => .error e
  | .error e, .error e' => .error (if e'.1 < e.1 then e' else e)

/-- A result that lies at a depth. -/
def atDepth {α : Type} (depth : Nat) (r : Except Fault α) : Built α :=
  match r with
  | .ok a => .ok a
  | .error f => .error (depth, f)

/-- Entries as a mapping: the last of equal keys counts. -/
def gather (entries : List (Value × Value)) : List (Value × Value) :=
  entries.foldl (fun es e => Value.putEntry es e.1 e.2) []

/-- The entries of a mapping, the merged ones first. -/
def mapEntries (depth : Nat) (well : Bool)
    (parts : Built (List (Value × Value)) × Built (List (Value × Value))) :
    Built (List (Value × Value)) :=
  if well then both (fun a b => gather (a ++ b)) parts.1 parts.2 else .error (depth, .notYaml)

namespace Node

mutual

/-- The value of a node at a depth. -/
def build (depth : Nat) : Node → Built Value
  | .scalar tag text =>
    if isCollection tag then .error (depth + 1, .notYaml)
    else atDepth depth (buildScalar tag text)
  | .sequence tag items =>
    match tag with
    | .seq => (buildItems (depth + 1) items).map .list
    | .omap | .pairs => (buildPairs (depth + 1) items).map .list
    | .set | .map => .error (depth + 1, .notYaml)
    | _ => .error (depth, .notYaml)
  | .mapping tag entries =>
    match tag with
    | .map =>
      (mapEntries (depth + 1) (mergesWell entries) (buildEntries (depth + 1) entries)).map .map
    | .set =>
      (mapEntries (depth + 1) (mergesWell entries) (buildEntries (depth + 1) entries)).map
        fun es => .set (es.map (·.1))
    | .seq | .omap | .pairs => .error (depth + 1, .notYaml)
    | _ =>
      match scalarEntry? entries with
      | some text => atDepth depth (buildScalar tag text)
      | none => .error (depth, .notYaml)

/-- The values of the items of a sequence. -/
def buildItems (depth : Nat) : List Node → Built (List Value)
  | [] => .ok []
  | n :: ns => both List.cons (build depth n) (buildItems depth ns)

/-- The values of single entries in a sequence. -/
def buildPairs (depth : Nat) : List Node → Built (List Value)
  | [] => .ok []
  | .mapping _ [(k, v)] :: ns =>
    both List.cons (both .pair (build depth k) (build depth v)) (buildPairs depth ns)
  | _ => .error (depth, .notYaml)

/-- The entries merged into a mapping, and its own. -/
def buildEntries (depth : Nat) :
    List (Node × Node) → Built (List (Value × Value)) × Built (List (Value × Value))
  | [] => (.ok [], .ok [])
  | (k, v) :: es =>
    let (merged, own) := buildEntries depth es
    if k.tag == .merge then (both List.append (buildMerged depth v) merged, own)
    else
      let key : Built Value :=
        if isCollection k.tag then .error (depth, .notYaml)
        else if k.tag == .value then
          match scalarText? k with
          | some text => .ok (.str text)
          | none => .error (depth, .notYaml)
        else build depth k
      (merged, both List.cons (both Prod.mk key (build depth v)) own)

/-- The entries of a mapping or of mappings that are merged into another. -/
def buildMerged (depth : Nat) : Node → Built (List (Value × Value))
  | .scalar _ _ => .error (depth, .notYaml)
  | .sequence _ items => buildMergedItems depth items
  | .mapping _ entries =>
    let (merged, own) := buildEntries depth entries
    both List.append merged own

/-- The entries of mappings that are merged, the last mapping first. -/
def buildMergedItems (depth : Nat) : List Node → Built (List (Value × Value))
  | [] => .ok []
  | n :: ns => both (fun es rest => rest ++ es) (buildMerged depth n) (buildMergedItems depth ns)

end

end Node

/-! ## Texts -/

/-- The value of a YAML text: null if it holds no document. -/
def load (text : String) : Except Fault Value := do
  match ← Node.ofTokens? (← tokens text.toList) with
  | none => return .null
  | some n =>
    match n.build 0 with
    | .ok v => return v
    | .error e => throw e.2

end Outline.Yaml
