import Outline.Calendar
import Outline.Decimal.Float

/-!
# Values

The data that a YAML text or a JSON text holds: scalars, sequences and mappings in the order of
their entries.

* `Value`: the type;
* `Value.same`: equality of values, where whole and floating-point numbers are compared by what
  they are worth and a truth value is worth 0 or 1;
* `Value.get?`: the value at a text key of a mapping;
* `Value.put`: a mapping with one more entry: an equal key keeps its place and takes the new value.
-/

namespace Outline

/-- A value of a data text. -/
inductive Value where
  | null
  | bool (b : Bool)
  | int (n : Int)
  | float (f : Float)
  | str (s : String)
  | date (d : Date)
  | moment (t : Moment)
  | bytes (bs : List UInt8)
  | list (items : List Value)
  | pair (first second : Value)
  | set (items : List Value)
  | map (entries : List (Value × Value))

namespace Value

instance : Inhabited Value := ⟨.null⟩

/-- The number that a value counts as: truth values count as 0 and 1. -/
def number? : Value → Option (Int ⊕ Float)
  | .bool b => some (.inl (if b then 1 else 0))
  | .int n => some (.inl n)
  | .float f => some (.inr f)
  | _ => none

/-- Equality of numbers by what they are worth. -/
def sameNumber : Int ⊕ Float → Int ⊕ Float → Bool
  | .inl a, .inl b => a == b
  | .inr a, .inr b => a == b
  | .inl a, .inr b => wholeInt? b == some a
  | .inr a, .inl b => wholeInt? a == some b

mutual

/-- Equality of values. -/
def same : Value → Value → Bool
  | .null, v => match v with | .null => true | _ => false
  | .bool b, v =>
    match v.number? with | some n => sameNumber (.inl (if b then 1 else 0)) n | none => false
  | .int a, v => match v.number? with | some n => sameNumber (.inl a) n | none => false
  | .float a, v => match v.number? with | some n => sameNumber (.inr a) n | none => false
  | .str a, v => match v with | .str b => a == b | _ => false
  | .date a, v => match v with | .date b => a == b | _ => false
  | .moment a, v => match v with | .moment b => a.same b | _ => false
  | .bytes a, v => match v with | .bytes b => a == b | _ => false
  | .list as, v => match v with | .list bs => sameItems as bs | _ => false
  | .pair a b, v => match v with | .pair c d => same a c && same b d | _ => false
  | .set as, v =>
    match v with | .set bs => as.length == bs.length && allAmong as bs | _ => false
  | .map as, v =>
    match v with | .map bs => as.length == bs.length && allEntriesAmong as bs | _ => false
termination_by structural a => a

/-- Equality item by item. -/
def sameItems : List Value → List Value → Bool
  | [], bs => bs.isEmpty
  | a :: as, bs => match bs with | b :: bs => same a b && sameItems as bs | [] => false
termination_by structural as => as

/-- Whether each item equals one of the others. -/
def allAmong : List Value → List Value → Bool
  | [], _ => true
  | a :: as, bs => bs.any (fun b => same a b) && allAmong as bs
termination_by structural as => as

/-- Whether each entry equals one of the others in key and value. -/
def allEntriesAmong : List (Value × Value) → List (Value × Value) → Bool
  | [], _ => true
  | (k, v) :: as, bs => bs.any (fun b => same k b.1 && same v b.2) && allEntriesAmong as bs
termination_by structural as => as

end

/-- Sets a key of a list of entries: an equal key keeps its place and takes the new value. -/
def putEntry (entries : List (Value × Value)) (key value : Value) : List (Value × Value) :=
  if entries.any (fun e => e.1.same key) then
    entries.map fun e => if e.1.same key then (e.1, value) else e
  else entries ++ [(key, value)]

/-- Whether an entry has the given text as its key. -/
def hasKey (name : String) (e : Value × Value) : Bool :=
  match e.1 with | .str s => s == name | _ => false

/-- The value at a text key. -/
def get? (v : Value) (name : String) : Option Value :=
  match v with
  | .map entries => (entries.find? (hasKey name)).map (·.2)
  | _ => none

/-- The name of the kind of a value, as messages give it. -/
def kindName : Value → String
  | .null => "NoneType"
  | .bool _ => "bool"
  | .int _ => "int"
  | .float _ => "float"
  | .str _ => "str"
  | .date _ => "date"
  | .moment _ => "datetime"
  | .bytes _ => "bytes"
  | .list _ => "list"
  | .pair _ _ => "tuple"
  | .set _ => "set"
  | .map _ => "dict"

end Value

end Outline
