import CommentSearch.Fault
import CommentSearch.Number.Literal
import CommentSearch.Text.Fold

/-!
# Lenient reading of parameters

The parameters of a request arrive loosely typed and are never rejected: each function here reads
from any value, or from a parameter that is absent, what the request can have meant by it.
-/

namespace CommentSearch

/-- A parameter of a request, absent or with any value. -/
abbrev Param := Option Value

namespace Param

/-- Whether a parameter asks for nothing: it is absent, null, `false`, zero, not a number, the
empty text, the text `0`, or the empty list. -/
def isEmpty : Param → Bool
  | none => true
  | some v => match v with
    | .null => true
    | .bool b => !b
    | .number x => x.isZero || x.isNaN
    | .text s => s = "" || s = "0"
    | .list items => items.isEmpty
    | .object _ => false

/-- Whether a parameter is present at all, if only with an empty value. -/
def isSet : Param → Bool
  | none | some .null => false
  | some _ => true

/-! ### Numbers -/

/-- The integer a parameter stands for: the integer part of a finite number, the integer at the
start of a text, one for `true` and for a list with items, and zero for all else. -/
def toInt : Param → Number
  | some (.number x) => if x.isFinite then x.trunc else .finite 0
  | some (.bool b) => .finite (if b then 1 else 0)
  | some (.text s) => .leading s
  | some (.list items) => .finite (if items.isEmpty then 0 else 1)
  | _ => .finite 0

/-- Whether a parameter is a finite number or the decimal text of a number. -/
def isNumeric : Param → Bool
  | some (.number x) => x.isFinite
  | some (.text s) => Number.isNumericText s
  | _ => false

/-- The absolute integer part of a number, zero unless it is finite. -/
def absTrunc (x : Number) : Number := if x.isFinite then x.trunc.abs else .finite 0

/-- The absolute integer value of an identifier, read from its text form unless it is a number. -/
def absInt : Param → Except Fault Number
  | some (.number x) => .ok (absTrunc x)
  | p => do return absTrunc (.ofText (← textForm p))

/-! ### Lists -/

/-- The scalars of a parameter: those of a list, in order, or the one that the parameter is. -/
def toList : Param → List Scalar
  | some (.list items) => items.filterMap Value.scalar?
  | some v => v.scalar?.toList
  | none => []

/-- The trimmed entries of a parameter: the pieces of a text between its commas, or the text forms
of its scalars. -/
def toTrimmedList : Param → List String
  | some (.text s) => (Text.splitAt ',' s).map Text.trim
  | p => p.toList.map fun x => Text.trim x.toText

/-- The entries of a parameter: the text forms of the scalars of a list, or the pieces of the text
form of a scalar between blanks and commas. -/
def parseList : Param → List String
  | some (.list items) => (toList (some (.list items))).map Scalar.toText
  | some v => match v.scalar? with
    | some x => Text.runs Text.isListSeparator x.toText
    | none => []
  | none => []

/-! ### Keywords -/

/-- A keyword in capitals, if one is given: a value that counts as false gives none, and one that
counts as true has to be a text. -/
def keyword : Param → Except Fault (Option String)
  | none => .ok none
  | some v =>
    if v.isTruthy then
      match v with
      | .text s => .ok (some (Text.toCapitals s))
      | _ => .error .notText
    else .ok none

end Param

end CommentSearch
