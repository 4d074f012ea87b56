import CommentSearch.Value

/-!
# Query documents

The nodes of the search backend's query language that a comment request compiles to, and the value
that stands for each. A Boolean node holds for a document if all of `must`, at least one of
`should`, or not the node under `must_not` hold; a positive node can also stand alone under `must`.
-/

namespace CommentSearch

/-- The ends of a range; each excludes or includes its bound. -/
structure Bounds where
  gt : Option Value := none
  gte : Option Value := none
  lt : Option Value := none
  lte : Option Value := none
deriving Inhabited

namespace Bounds

/-- Whether a range has no end at all. -/
def isEmpty (b : Bounds) : Bool := b.gt.isNone && b.gte.isNone && b.lt.isNone && b.lte.isNone

/-- The value that stands for the ends of a range, the lower end first. -/
def toValue (b : Bounds) : Value :=
  .object <|
    [("gt", b.gt), ("gte", b.gte), ("lt", b.lt), ("lte", b.lte)].filterMap fun (key, bound) =>
      bound.map fun v => (key, v)

end Bounds

/-- The three ways in which a search term is matched against the search fields. -/
inductive Tier where
  /-- The term occurs as it stands. -/
  | phrase (boost : Value)
  /-- All words of the term occur. -/
  | allWords (boost : Value)
  /-- Some words occur, up to misspellings. -/
  | similar (fuzziness : Value)

/-- A node of a query document. -/
inductive Query where
  /-- The field has the value. -/
  | term (field : String) (value : Value)
  /-- The field has one of the values. -/
  | terms (field : String) (values : List Scalar)
  /-- The field lies between the bounds. -/
  | range (field : String) (bounds : Bounds)
  /-- The field has any value. -/
  | exists (field : String)
  /-- The words of the text follow each other in the field. -/
  | matchPhrase (field : String) (text : String)
  /-- One of the fields matches the search term. -/
  | multiMatch (words : Value) (fields : List Value) (tier : Tier)
  /-- Every document matches, all alike. -/
  | matchAll
  /-- All nodes hold. -/
  | must (nodes : List Query)
  /-- The node holds. -/
  | mustOne (node : Query)
  /-- The node does not hold. -/
  | mustNot (node : Query)
  /-- At least one node holds. -/
  | should (nodes : List Query)
  /-- A node supplied from outside, as it stands. -/
  | given (node : Value)
deriving Inhabited

namespace Query

/-- An object with a single field. -/
def single (key : String) (v : Value) : Value := .object [(key, v)]

/-- The value that stands for a match of several fields. -/
def matchValue (words : Value) (fields : List Value) : Tier → Value
  | .phrase boost =>
    .object [("query", words), ("type", .text "phrase"), ("fields", .list fields), ("boost", boost)]
  | .allWords boost =>
    .object [("query", words), ("fields", .list fields), ("boost", boost), ("fuzziness", .ofNat 0),
      ("operator", .text "and")]
  | .similar fuzziness =>
    .object [("fields", .list fields), ("query", words), ("fuzziness", fuzziness)]

mutual

/-- The value that stands for a node. -/
def toValue : Query → Value
  | term field value => single "term" (single field value)
  | terms field values => single "terms" (single field (.list (values.map Scalar.toValue)))
  | range field bounds => single "range" (single field bounds.toValue)
  | .exists field => single "exists" (single "field" (.text field))
  | matchPhrase field text => single "match_phrase" (single field (.text text))
  | multiMatch words fields tier => single "multi_match" (matchValue words fields tier)
  | matchAll => single "match_all" (single "boost" (.ofNat 1))
  | must nodes => single "bool" (single "must" (.list (toValues nodes)))
  | mustOne node => single "bool" (single "must" (toValue node))
  | mustNot node => single "bool" (single "must_not" (toValue node))
  | should nodes => single "bool" (single "should" (.list (toValues nodes)))
  | given node => node

/-- The values that stand for nodes. -/
def toValues : List Query → List Value
  | [] => []
  | node :: nodes => toValue node :: toValues nodes

end

end Query

end CommentSearch
