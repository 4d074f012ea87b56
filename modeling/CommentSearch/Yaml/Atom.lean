import CommentSearch.Number.Literal
import CommentSearch.Value
import CommentSearch.Yaml.Timestamp

/-!
# Atoms

What plain scalars stand for: null, a truth value, a number, a moment, or else a text, by the way
they are spelled.
-/

namespace CommentSearch.Yaml

/-- What a plain scalar stands for. -/
inductive Atom where
  | null
  | bool (b : Bool)
  | number (x : Number)
  /-- A moment, in seconds from the start of 1970. -/
  | moment (seconds : Int)
  | text (s : String)

/-! ### Numbers -/

/-- The magnitude of an integer scalar: decimal, or in base 2, 8 or 16 after a zero and a letter. -/
def magnitude? : List Char → Option Nat
  | '0' :: 'b' :: ds => Number.radixValue? 2 ds
  | '0' :: 'o' :: ds => Number.radixValue? 8 ds
  | '0' :: 'x' :: ds => Number.radixValue? 16 ds
  | ds => if !ds.isEmpty && ds.all Char.isDigit then some (Decimal.digitsValue ds) else none

/-- The integer that a plain scalar spells. -/
def integer? (cs : List Char) : Option Number :=
  let (negative, unsigned) := Decimal.scanSign cs
  (magnitude? unsigned).map fun n => Number.signed negative (.ofInt n)

/-- The decimal that a plain scalar spells. One that begins with its point has no sign. -/
def decimal? (cs : List Char) : Option Number :=
  if (Decimal.scanSign cs).2.head? = some '.' ∧ cs.head? ≠ some '.' then none
  else Number.ofDecimalLiteral? cs

/-- What a plain scalar spells that is no finite number. -/
def notFinite? (cs : List Char) : Option Number :=
  let (negative, name) := Decimal.scanSign cs
  if [".inf", ".Inf", ".INF"].contains (String.ofList name) then some (.infinite negative)
  else if [".nan", ".NaN", ".NAN"].contains (String.ofList cs) then some .nan
  else none

/-- The number that a plain scalar spells. One too large to be expressed is none. -/
def number? (cs : List Char) : Option Number :=
  ((integer? cs <|> decimal? cs).filter Number.isFinite) <|> notFinite? cs

namespace Atom

/-! ### Spellings -/

/-- What a plain scalar stands for. -/
def ofText (s : String) : Atom :=
  if ["~", "null", "Null", "NULL"].contains s then .null
  else if ["true", "True", "TRUE"].contains s then .bool true
  else if ["false", "False", "FALSE"].contains s then .bool false
  else match number? s.toList, Timestamp.moment? s.toList with
    | some x, _ => .number x
    | none, some seconds => .moment seconds
    | none, none => .text s

/-- An atom as a value. A moment counts as an object without fields. -/
def toValue : Atom → Value
  | null => .null
  | bool b => .bool b
  | number x => .number x
  | moment _ => .object []
  | text s => .text s

/-- The text form of an atom. -/
def form : Atom → String
  | null => "null"
  | bool b => if b then "true" else "false"
  | number x => x.toText
  | moment seconds => Timestamp.text seconds
  | text s => s

end Atom

end CommentSearch.Yaml
