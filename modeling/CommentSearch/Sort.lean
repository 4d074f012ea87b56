import CommentSearch.Request

/-!
# Sort clauses

A request sorts by an alias of a field, by the value of a metadata key, or by the name of a field as
it stands.
-/

namespace CommentSearch

/-- The direction of a sort. -/
inductive Order where
  | ascending
  | descending
deriving DecidableEq

/-- The name of a direction in query documents. -/
def Order.name : Order → String
  | ascending => "asc"
  | descending => "desc"

/-- The direction that a parameter asks for: descending, unless it is the word `asc`. -/
def Order.ofParam : Param → Order
  | some (.text s) => if Text.toCapitals s = "ASC" then ascending else descending
  | _ => descending

/-- A sort by one field. The direction is as given, which may be no direction at all. -/
structure SortClause where
  field : String
  order : Value

/-- The value that stands for a sort clause. -/
def SortClause.toValue (clause : SortClause) : Value :=
  .object [(clause.field, .object [("order", clause.order)])]

namespace SortClause

/-- The aliases and the fields they sort by. An analysed text sorts by its untouched copy. -/
def aliases : List (String × String) :=
  [("comment_agent", "comment_agent.raw"),
    ("comment_approved", "comment_approved.raw"),
    ("comment_author", "comment_author.raw"),
    ("comment_author_email", "comment_author_email.raw"),
    ("comment_author_IP", "comment_author_IP.raw"),
    ("comment_author_url", "comment_author_url.raw"),
    ("comment_content", "comment_content.raw"),
    ("comment_date", "comment_date"),
    ("comment_date_gmt", "comment_date_gmt"),
    ("comment_ID", "comment_ID"),
    ("comment_karma", "comment_karma"),
    ("comment_parent", "comment_parent"),
    ("comment_post_ID", "comment_post_ID"),
    ("comment_type", "comment_type.raw"),
    ("user_id", "user_id")]

/-- The aliases that sort by the value of a metadata key, and the typed copy they sort by. -/
def metaAliases : List (String × String) := [("meta_value", "value"), ("meta_value_num", "long")]

/-- The sort clauses of an alias. A sort by metadata reads the key from the request, and gives no
clause where that is empty. -/
def resolve (sortKey : String) (order : Value) (request : Param) : Except Fault (List SortClause) :=
  if sortKey = "" then .ok []
  else match aliases.lookup sortKey with
  | some field => .ok [⟨field, order⟩]
  | none => match metaAliases.lookup sortKey with
    | none => .ok [⟨sortKey, order⟩]
    | some copy => do
      let key ← fieldOf request "meta_key"
      if Param.isEmpty key then return []
      return [⟨"meta." ++ (← textForm key) ++ "." ++ copy, order⟩]

end SortClause

end CommentSearch
