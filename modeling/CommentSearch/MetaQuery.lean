import CommentSearch.Parameter
import CommentSearch.Query

/-!
# Metadata queries

A metadata query is a tree: groups of entries joined by AND or OR, and clauses that compare the
values of one metadata key. A clause that cannot be used, and a group with nothing usable in it, are
left out.

The values of a key `k` are indexed below `meta.k`: as text, untouched, and once for each type they
can be read as.
-/

namespace CommentSearch

/-- An entry of a metadata query. -/
inductive MetaEntry where
  /-- A clause, by its fields. -/
  | clause (fields : Fields)
  /-- A group of entries and the relation that joins them. -/
  | group (relation : Param) (entries : List MetaEntry)
  /-- An entry of another type, which asks for nothing. -/
  | unusable

/-- A metadata query: a relation, if one is given, and entries. -/
structure MetaGroup where
  relation : Param
  clauses : List Value

/-! ### Reading -/

mutual

/-- The entry that a value is. An object with a list of `clauses` is a group. -/
def MetaEntry.ofValue : Value → MetaEntry
  | .object fields =>
    match MetaEntry.clausesIn fields with
    | some entries => .group (Fields.get? fields "relation") entries
    | none => .clause fields
  | _ => .unusable

/-- The entries that values are. -/
def MetaEntry.ofValues : List Value → List MetaEntry
  | [] => []
  | v :: vs => MetaEntry.ofValue v :: MetaEntry.ofValues vs

/-- The entries of the list under `clauses`, if there is one among the fields. -/
def MetaEntry.clausesIn : List (String × Value) → Option (List MetaEntry)
  | [] => none
  | (key, v) :: fields =>
    if key = "clauses" then
      match v with
      | .list items => some (MetaEntry.ofValues items)
      | _ => none
    else MetaEntry.clausesIn fields

end

namespace MetaGroup

/-- A query in either of its forms as a value of the group form. -/
def groupForm : Param → Param
  | some (.list items) => some (.object [("clauses", .list items)])
  | query => query

/-- The group that a value in the group form is; other values have neither relation nor clauses. -/
def ofGroupForm (query : Param) : Except Fault MetaGroup := do
  let clauses : List Value := match ← fieldOf query "clauses" with
    | some (.list items) => items
    | _ => []
  return ⟨← fieldOf query "relation", clauses⟩

/-- The value in the group form that stands for a group. -/
def toValue (g : MetaGroup) : Value :=
  let relation := match g.relation with
    | some v => [("relation", v)]
    | none => []
  .object (relation ++ [("clauses", .list g.clauses)])

end MetaGroup

/-! ### Comparisons -/

/-- What a clause asks of the values of its key, apart from negation. -/
inductive MetaTest where
  | hasAny
  | isOneOf
  | isBetween
  | contains
  | isAbove
  | isAtLeast
  | isBelow
  | isAtMost
  | isEqual
deriving DecidableEq

/-- A test and whether it has to fail. -/
structure Comparison where
  test : MetaTest
  negated : Bool := false
deriving DecidableEq

namespace Comparison

/-- The keywords of comparisons. -/
def keywords : List (String × Comparison) :=
  [("EXISTS", ⟨.hasAny, false⟩), ("NOT EXISTS", ⟨.hasAny, true⟩),
    ("IN", ⟨.isOneOf, false⟩), ("NOT IN", ⟨.isOneOf, true⟩),
    ("BETWEEN", ⟨.isBetween, false⟩), ("NOT BETWEEN", ⟨.isBetween, true⟩),
    ("LIKE", ⟨.contains, false⟩), ("NOT LIKE", ⟨.contains, true⟩),
    (">", ⟨.isAbove, false⟩), (">=", ⟨.isAtLeast, false⟩),
    ("<", ⟨.isBelow, false⟩), ("<=", ⟨.isAtMost, false⟩),
    ("!=", ⟨.isEqual, true⟩), ("=", ⟨.isEqual, false⟩)]

/-- The comparison of a keyword; an unknown one asks for equality. -/
def ofKeyword (keyword : String) : Comparison := (keywords.lookup keyword).getD ⟨.isEqual, false⟩

/-- The comparison of a clause that names none: by the value it has. -/
def ofValue (value : Param) : Comparison :=
  if !value.isSet then ⟨.hasAny, false⟩
  else match value with
    | some (.list _) => ⟨.isOneOf, false⟩
    | _ => ⟨.isEqual, false⟩

end Comparison

/-! ### Clauses -/

/-- The typed copies of values that the types of clauses read. -/
def metaTypes : List (String × String) :=
  [("numeric", "long"), ("signed", "long"), ("unsigned", "long"), ("decimal", "double"),
    ("date", "date"), ("datetime", "datetime"), ("time", "time")]

/-- The field of the values of a key that a type reads; without a known type, the untouched one. -/
def metaField (key : String) (type : Param) : Except Fault String := do
  let copy ← match type with
    | none => pure none
    | some v =>
      if v.isTruthy then
        match v with
        | .text s => pure (metaTypes.lookup (Text.toSmall s))
        | _ => throw .notText
      else pure none
  return "meta." ++ key ++ "." ++ copy.getD "raw"

/-- The single value of a clause: the first of a list, or the value itself. -/
def singleValue : Param → Option Value
  | some (.list items) => items.head?
  | some .null => none
  | value => value

/-- The node of a test, if its values suffice. -/
def MetaTest.node (test : MetaTest) (key field : String) (value : Param) :
    Except Fault (Option Query) :=
  let compared := fun (node : Value → Query) => Except.ok ((singleValue value).map node)
  match test with
  | hasAny => .ok (some (.exists ("meta." ++ key)))
  | isOneOf => .ok (some (.terms field value.toList))
  | isBetween => match value.toList with
    | low :: high :: _ =>
      .ok (some (.range field { gte := some low.toValue, lte := some high.toValue }))
    | _ => .ok none
  | contains => match singleValue value with
    | some v => do return some (.matchPhrase ("meta." ++ key ++ ".value") (← textForm (some v)))
    | none => .ok none
  | isAbove => compared fun v => .range field { gt := some v }
  | isAtLeast => compared fun v => .range field { gte := some v }
  | isBelow => compared fun v => .range field { lt := some v }
  | isAtMost => compared fun v => .range field { lte := some v }
  | isEqual => compared (.term field ·)

/-- The node of a comparison: that of its test, or the negation of it. -/
def Comparison.node (c : Comparison) (key field : String) (value : Param) :
    Except Fault (Option Query) := do
  let node ← c.test.node key field value
  return if c.negated then node.map .mustNot else node

/-- The node of a clause, if the clause can be used. -/
def metaClauseNode (clause : Fields) : Except Fault (Option Query) := do
  if Param.isEmpty (clause.get? "key") then return none
  let key ← textForm (clause.get? "key")
  let value := clause.get? "value"
  let comparison := match ← Param.keyword (clause.get? "compare") with
    | some keyword => Comparison.ofKeyword keyword
    | none => Comparison.ofValue value
  comparison.node key (← metaField key (clause.get? "type")) value

/-! ### Groups -/

/-- The nodes of a group joined by its relation, if there are any: AND unless it is the word
`or`. -/
def joinNodes (relation : Param) (nodes : List Query) : Except Fault (Option Query) := do
  if nodes.isEmpty then return none
  return some (if (← relation.keyword) = some "OR" then .should nodes else .must nodes)

mutual

/-- The node of an entry, if it can be used. -/
def MetaEntry.node : MetaEntry → Except Fault (Option Query)
  | .clause fields => metaClauseNode fields
  | .group relation entries => do joinNodes relation (← MetaEntry.nodes entries)
  | .unusable => .ok none

/-- The nodes of the usable entries, in order. -/
def MetaEntry.nodes : List MetaEntry → Except Fault (List Query)
  | [] => .ok []
  | entry :: entries => do
    let node ← entry.node
    return node.toList ++ (← MetaEntry.nodes entries)

end

/-- The node of a metadata query, if anything in it can be used. -/
def MetaGroup.compile (g : MetaGroup) : Except Fault (Option Query) :=
  MetaEntry.node (.group g.relation (MetaEntry.ofValues g.clauses))

end CommentSearch
