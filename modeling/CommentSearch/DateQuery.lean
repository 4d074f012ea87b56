import CommentSearch.DateText.Reader
import CommentSearch.Query

/-!
# Date queries

A date query is a list of clauses, each of which bounds the dates of a column. A clause has a lower
bound `after`, an upper bound `before`, both exclusive unless it is inclusive, and can name a year,
a month or a day to which it is limited.

A bound that names a whole period lies beyond the period where it excludes it, and at its far end
where it includes it.
-/

namespace CommentSearch

/-- What a date query compiles to: a node that has to hold, or a node of alternatives. -/
structure DateFilter where
  all : Option Query := none
  any : Option Query := none

/-- The value that stands for a date filter. -/
def DateFilter.toValue (f : DateFilter) : Value :=
  .object ([("and", f.all), ("or", f.any)].filterMap fun (key, node) =>
    node.map fun q => (key, q.toValue))

/-- The column that bounds apply to unless another is named. -/
def defaultDateColumn : String := "comment_date_gmt"

namespace DateClause

variable (zone : TimeZone)

/-- The stored form of the first or the last second of a period. -/
def edge (p : Period) (atEnd : Bool) : String := storedForm (if atEnd then p.last else p.first)

/-- The bound that a text gives: an edge of the period that it names, the date and time that it
means, or else the text itself. A blank text gives none. -/
def textBound (s : String) (atEnd : Bool) : Option String :=
  let cs := Text.trimChars s.toList
  if cs.isEmpty then none
  else match DateText.periodParts? cs with
    | some (year, month, day) =>
      let part := fun (digits : Option (List Char)) =>
        digits.map fun ds => Value.text (String.ofList ds)
      some (edge (Period.ofParts (part (some year)) (part month) (part day)) atEnd)
    | none => some ((DateText.stored? s zone).getD s)

/-- The bound that a value gives: that of a text, or an edge of the period that its fields name. -/
def bound (v : Value) (atEnd : Bool) : Except Fault (Option String) :=
  match v with
  | .null => .error .noFields
  | .text s => .ok (textBound zone s atEnd)
  | v =>
    if Param.isEmpty (v.get? "year") then .ok none
    else .ok (some (edge (Period.ofParts (v.get? "year") (v.get? "month") (v.get? "day")) atEnd))

/-- The bounds of a clause. -/
def bounds (clause : Fields) : Except Fault Bounds := do
  let inclusive := match clause.get? "inclusive" with
    | some (.bool true) => true
    | _ => false
  let lower ← match clause.get? "after" with
    | some v => bound zone v !inclusive
    | none => pure none
  let upper ← match clause.get? "before" with
    | some v => bound zone v inclusive
    | none => pure none
  let lower := lower.map Value.text
  let upper := upper.map Value.text
  return if inclusive then { gte := lower, lte := upper } else { gt := lower, lt := upper }

/-- The period that a clause is limited to, from first to last second. The month is also read from
`monthnum`. -/
def limits (clause : Fields) : Option Bounds :=
  if Param.isEmpty (clause.get? "year") then none
  else
    let month :=
      if Param.isSet (clause.get? "month") then clause.get? "month" else clause.get? "monthnum"
    let p := Period.ofParts (clause.get? "year") month (clause.get? "day")
    some { gte := some (.text (edge p false)), lte := some (.text (edge p true)) }

/-- The value that names the column: the first of two that counts as true. -/
def columnOr (v : Param) (other : Value) : Value :=
  match v with
  | some v => if v.isTruthy then v else other
  | none => other

/-- The node of a clause, if it bounds anything. -/
def node (clause : Fields) (column : Value) : Except Fault (Option Query) := do
  let between ← bounds zone clause
  let ranges := (if between.isEmpty then [] else [between]) ++ (limits clause).toList
  match ranges with
  | [] => return none
  | ranges =>
    let field ← textForm (some (columnOr (clause.get? "column") column))
    match ranges.map (Query.range field) with
    | [range] => return some range
    | nodes => return some (.must nodes)

end DateClause

namespace DateFilter

variable (zone : TimeZone)

/-- The nodes of the usable clauses among values, in order. -/
def nodes (column : Value) : List Value → Except Fault (List Query)
  | [] => .ok []
  | .object clause :: rest => do
    let node ← DateClause.node zone clause column
    return node.toList ++ (← nodes column rest)
  | _ :: rest => nodes column rest

/-- The filter of clauses under a relation. -/
def ofClauses (relation : Param) (column : Value) (clauses : List Value) :
    Except Fault DateFilter := do
  let nodes ← nodes zone column clauses
  if nodes.isEmpty then return {}
  return if (← relation.keyword) = some "OR" then { any := some (.should nodes) }
    else { all := some (.must nodes) }

/-- The filter of a date query in a local zone: a list of clauses, or an object with `clauses`, a
`relation` and a `column` for those that name none. -/
def compile (query : Param) (zone : TimeZone := .universal) : Except Fault DateFilter :=
  match query with
  | some (.list clauses) => ofClauses zone none (.text defaultDateColumn) clauses
  | query => do
    let column ← fieldOf query "column"
    let clauses : List Value := match ← fieldOf query "clauses" with
      | some (.list clauses) => clauses
      | _ => []
    let relation ← fieldOf query "relation"
    ofClauses zone relation (DateClause.columnOr column (.text defaultDateColumn)) clauses

end DateFilter

end CommentSearch
