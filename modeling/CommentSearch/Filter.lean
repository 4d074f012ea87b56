import CommentSearch.DateQuery
import CommentSearch.MetaQuery
import CommentSearch.Request

/-!
# Filters

Each filter of a request reads a group of parameters of its own and gives at most one node. Most
filters are dimensions: one parameter against one field, by a rule that a table gives. Three read
more: the status with the identifiers that see unapproved comments, the date query, and the metadata
query. These two are left to collaborators, and a filter tells what it asked of them.
-/

namespace CommentSearch

/-! ### Collaborators -/

/-- The compilers of metadata and of date queries that filters rely on. -/
structure Collaborators where
  metaFilter : MetaGroup → Except Fault (Option Query)
  dateFilter : Value → Except Fault DateFilter

/-- The compilers of this library, with dates in a local zone. -/
def Collaborators.standard (zone : TimeZone := .universal) : Collaborators where
  metaFilter := MetaGroup.compile
  dateFilter query := DateFilter.compile (some query) zone

/-- A query that has been put to a collaborator. -/
inductive Question where
  | metaQuery (query : MetaGroup)
  | dateQuery (query : Value)

/-- What a filter gives: its node, if it is active, and what it asked. -/
structure Contribution where
  node : Option Query := none
  asked : List Question := []

/-- The node that a collaborator gives for a query. -/
def Collaborators.answer (c : Collaborators) : Question → Except Fault (Option Query)
  | .metaQuery query => c.metaFilter query
  | .dateQuery query => (c.dateFilter query).map (·.all)

/-- Puts a query to a collaborator, which is recorded. -/
def Collaborators.ask (c : Collaborators) (q : Question) : Except Fault Contribution := do
  return ⟨← c.answer q, [q]⟩

/-! ### Dimensions -/

/-- Where the clause of a dimension stands: by itself, or under a Boolean node. -/
inductive Placement where
  | root
  | must
  | mustNot
deriving DecidableEq

/-- How a dimension compares its field: with one value, with a list of values, or with the entries
of a comma-separated text. -/
inductive Shape where
  | one
  | list
  | entries
deriving DecidableEq

/-- A filter of one parameter on one field. -/
structure Dimension where
  param : String
  field : String
  shape : Shape
  placement : Placement
  /-- Whether the value is read as an integer. -/
  integer : Bool := false
  /-- The text that switches the filter off. -/
  disabledBy : Option String := none
  /-- Whether the number zero makes the filter active. -/
  allowsZero : Bool := false

/-- A node that compares a field with values: with the value, if there is only one. -/
def termOrTerms (field : String) (values : List Scalar) : Query :=
  match values with
  | [] => .term field (.text "")
  | [value] => .term field value.toValue
  | values => .terms field values

/-- A node where its placement has it. -/
def Placement.place : Placement → Query → Query
  | root, node => node
  | must, node => .mustOne node
  | mustNot, node => .mustNot node

/-- The single value of a parameter: a scalar itself, the first scalar of a list, or else the text
form. -/
def singleScalar (v : Value) : Except Fault Scalar :=
  match v.scalar?, Param.toList (some v) with
  | some x, _ => .ok x
  | none, x :: _ => .ok x
  | none, [] => do return .text (← textForm (some v))

namespace Dimension

/-- The clause of a dimension for a value. -/
def clause (d : Dimension) (v : Value) : Except Fault Query :=
  match d.shape with
  | .list => .ok (.terms d.field (Param.toList (some v)))
  | .entries => .ok (termOrTerms d.field ((Param.toTrimmedList (some v)).map .text))
  | .one =>
    if d.integer then .ok (.term d.field (.number (Param.toInt (some v))))
    else do return .term d.field (← singleScalar v).toValue

/-- Whether a value makes the filter active. -/
def isActive (d : Dimension) (v : Value) : Bool :=
  let zero := match v with
    | .number x => d.allowsZero && x.isZero
    | _ => false
  let disabled := match v, d.disabledBy with
    | .text s, some word => s = word
    | _, _ => false
  (!Param.isEmpty (some v) || zero) && !disabled

/-- The node of a dimension for its parameter, if the filter is active. -/
def node (d : Dimension) (p : Param) : Except Fault (Option Query) :=
  match p with
  | some v => if d.isActive v then do return some (d.placement.place (← d.clause v)) else .ok none
  | none => .ok none

end Dimension

/-! ### The status -/

/-- The stored value of a moderation status: `hold` is zero, `approve` is one, any other is stored
as it is. -/
def moderationStatus (status : String) : Scalar :=
  if status = "hold" then .number (.finite 0)
  else if status = "approve" then .number (.finite 1)
  else .text status

/-- Identifiers that see unapproved comments: users by their numbers, and the email addresses of
authors. -/
structure Identifiers where
  userIds : List Number := []
  emails : List String := []
deriving DecidableEq

/-- The identifiers of a parameter: the numeric entries are users, all others are addresses. -/
def Identifiers.ofParam (p : Param) : Identifiers :=
  let entries := Param.parseList p
  let (ids, emails) := entries.partition Number.isNumericText
  ⟨ids.map fun s => Param.absTrunc (.ofText s), emails⟩

/-- The node of the status of comments. The identifiers widen it by the unapproved comments of
their own. -/
def statusNode (r : Request) : Option Query :=
  let status := r.get? "status"
  let all := match status with
    | some (.text s) => s = "all"
    | _ => false
  if Param.isEmpty status || all then none
  else
    let node := termOrTerms "comment_approved" ((Param.toTrimmedList status).map moderationStatus)
    let unapproved := r.get? "include_unapproved"
    if Param.isEmpty unapproved then some node
    else
      let identifiers := Identifiers.ofParam unapproved
      some (.should [node,
        .terms "user_id" (identifiers.userIds.map .number),
        .terms "comment_author_email.raw" (identifiers.emails.map .text)])

/-! ### Dates and metadata -/

/-- What the date query of a request contributes: the node that has to hold. -/
def dateContribution (r : Request) (c : Collaborators) : Except Fault Contribution :=
  match r.get? "date_query" with
  | some query =>
    if Param.isEmpty (some query) then .ok {}
    else c.ask (.dateQuery query)
  | none => .ok {}

/-- The metadata query of a request, if it has any clauses: first the clause of `meta_key` and
`meta_value`, then those of `meta_query`. -/
def collectMetaQuery (r : Request) : Except Fault (Option MetaGroup) := do
  let shorthand ← if Param.isEmpty (r.get? "meta_key") then pure [] else do
    let key ← textForm (r.get? "meta_key")
    let value := match r.get? "meta_value" with
      | some .null | none => []
      | some v => [("value", v)]
    pure [Value.object (("key", .text key) :: value)]
  let query := r.get? "meta_query"
  let group ← if Param.isEmpty query then pure ⟨none, []⟩
    else MetaGroup.ofGroupForm (MetaGroup.groupForm query)
  let clauses := shorthand ++ group.clauses
  return if clauses.isEmpty then none else some ⟨group.relation, clauses⟩

/-- What the metadata query of a request contributes. -/
def metaContribution (r : Request) (c : Collaborators) : Except Fault Contribution := do
  match ← collectMetaQuery r with
  | some query => c.ask (.metaQuery query)
  | none => return {}

/-! ### The table of filters -/

/-- A filter of a request. -/
inductive Filter where
  /-- A dimension that reads its parameter. -/
  | dimension (d : Dimension)
  /-- The dimension of the parent comment. -/
  | parent (d : Dimension)
  | status
  | date
  | metadata

/-- The parent that a request asks for: a hierarchical request without one asks for comments
without a parent. -/
def effectiveParent (r : Request) : Param :=
  if !Param.isEmpty (r.get? "hierarchical") && Param.isEmpty (r.get? "parent") then
    some (.number (.finite 0))
  else r.get? "parent"

/-- What a filter contributes to the compilation of a request. -/
def Filter.contribution (f : Filter) (r : Request) (c : Collaborators) :
    Except Fault Contribution :=
  match f with
  | dimension d => do return ⟨← d.node (r.get? d.param), []⟩
  | parent d => do return ⟨← d.node (effectiveParent r), []⟩
  | status => .ok ⟨statusNode r, []⟩
  | date => dateContribution r c
  | metadata => metaContribution r c

/-- A dimension of a list parameter that has to hold. -/
def includes (param field : String) : Filter :=
  .dimension ⟨param, field, .list, .must, false, none, false⟩

/-- A dimension of a list parameter that must not hold. -/
def excludes (param field : String) : Filter :=
  .dimension ⟨param, field, .list, .mustNot, false, none, false⟩

/-- A dimension of a single value. -/
def single (param field : String) (placement : Placement) (integer : Bool) : Filter :=
  .dimension ⟨param, field, .one, placement, integer, none, false⟩

/-- The filters of comment requests, in the order of their nodes. -/
def filters : List Filter :=
  [single "author_email" "comment_author_email.raw" .root false,
    single "author_url" "comment_author_url.raw" .root false,
    single "user_id" "user_id" .root true,
    includes "author__in" "user_id",
    excludes "author__not_in" "user_id",
    includes "comment__in" "comment_ID",
    excludes "comment__not_in" "comment_ID",
    .date,
    .dimension ⟨"karma", "comment_karma", .one, .must, false, none, true⟩,
    .metadata,
    .parent ⟨"parent", "comment_parent", .one, .must, true, none, true⟩,
    includes "parent__in" "comment_parent",
    excludes "parent__not_in" "comment_parent",
    single "post_author" "comment_post_author_ID" .must true,
    includes "post_author__in" "comment_post_author_ID",
    excludes "post_author__not_in" "comment_post_author_ID",
    single "post_id" "comment_post_ID" .must true,
    includes "post__in" "comment_post_ID",
    excludes "post__not_in" "comment_post_ID",
    .dimension ⟨"post_status", "comment_post_status", .entries, .root, false, some "any", false⟩,
    single "post_type" "comment_post_type" .must false,
    single "post_name" "comment_post_name" .must false,
    single "post_parent" "comment_post_parent" .must true,
    .status,
    .dimension ⟨"type", "comment_type.raw", .entries, .root, false, none, false⟩,
    includes "type__in" "comment_type.raw",
    excludes "type__not_in" "comment_type.raw"]

end CommentSearch
