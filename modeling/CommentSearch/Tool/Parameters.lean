import CommentSearch.Schema

/-!
# Parameters of the tools

Each tool takes an object of parameters. A parameter has a schema, may be left out or not, and may
have a description; the schema of the arguments is made of those of the parameters, in their order.
-/

namespace CommentSearch

/-- A parameter of a tool. -/
structure ToolParameter where
  name : String
  schema : Schema
  optional : Bool := true
  description : Option String := none

namespace Schema

/-- The schema of an object from the names and schemas of its fields, all of which may be left
out. -/
def optionalFields (fields : List (String × Schema)) : Schema :=
  object (fields.map fun (name, schema) => (name, true, schema))

/-- The schema of an object from the names and schemas of its fields, all of which are needed. -/
def neededFields (fields : List (String × Schema)) : Schema :=
  object (fields.map fun (name, schema) => (name, false, schema))

/-- Texts, or one text. -/
def textOrTexts : Schema := anyOf [text, list text]

/-! ### Date queries -/

/-- The parts of a date. -/
def dateParts : Schema := optionalFields [("year", scalar), ("month", scalar), ("day", scalar)]

/-- A clause of a date query. -/
def dateClause : Schema :=
  optionalFields
    [("after", anyOf [text, dateParts]), ("before", anyOf [text, dateParts]), ("inclusive", bool),
      ("column", text), ("year", scalar), ("month", scalar), ("monthnum", scalar), ("day", scalar)]

/-- A date query: a list of clauses, or an object with such a list. -/
def dateQuery : Schema :=
  anyOf
    [list dateClause,
      object
        [("relation", true, text), ("column", true, text), ("clauses", false, list dateClause)]]

/-! ### Stored rows -/

/-- A selection of search fields. -/
def searchSelection : Schema :=
  anyOf [list text, optionalFields [("fields", list text), ("meta", textOrTexts)]]

/-- A stored comment. -/
def comment : Schema :=
  object
    [("comment_ID", false, identifier), ("comment_post_ID", false, identifier),
      ("comment_author", false, text), ("comment_author_email", false, text),
      ("comment_author_url", false, text), ("comment_author_IP", false, text),
      ("comment_date", false, text), ("comment_date_gmt", false, text),
      ("comment_content", false, text), ("comment_karma", false, identifier),
      ("comment_approved", false, identifier), ("comment_agent", false, text),
      ("comment_type", true, nullable text), ("comment_parent", false, identifier),
      ("user_id", false, identifier)]

/-- The post of a comment. -/
def post : Schema :=
  neededFields
    [("post_author", identifier), ("post_status", text), ("post_type", text), ("post_name", text),
      ("post_parent", identifier)]

/-- Metadata: under each key a value or a list of values. -/
def metadata : Schema := record (anyOf [nullable scalar, list (nullable scalar)])

end Schema

namespace Tool

/-- A parameter of a request, which may be null. -/
def requestParameter (name : String) (schema : Schema) (description : Option String := none) :
    ToolParameter :=
  ⟨name, .nullable schema, true, description⟩

/-- The parameters of a request, with descriptions of those whose names do not tell all. -/
def requestParameters : List ToolParameter :=
  [requestParameter "number" .scalar (some "Page size; defaults to the max result window"),
    requestParameter "offset" .scalar (some "Result offset; wins over paged"),
    requestParameter "paged" .scalar (some "1-based page number"),
    requestParameter "page" .scalar (some "Alias of paged"),
    requestParameter "order" .text (some "asc or desc (default desc)"),
    requestParameter "orderby" .text (some "Sort alias, default comment_date_gmt"),
    requestParameter "order_by" .text (some "Alias of orderby"),
    requestParameter "author_email" .text,
    requestParameter "author_url" .text,
    requestParameter "user_id" .scalar,
    requestParameter "author__in" .scalars,
    requestParameter "author__not_in" .scalars,
    requestParameter "comment__in" .scalars,
    requestParameter "comment__not_in" .scalars,
    requestParameter "parent__in" .scalars,
    requestParameter "parent__not_in" .scalars,
    requestParameter "post_author__in" .scalars,
    requestParameter "post_author__not_in" .scalars,
    requestParameter "post__in" .scalars,
    requestParameter "post__not_in" .scalars,
    requestParameter "type__in" .scalars,
    requestParameter "type__not_in" .scalars,
    requestParameter "parent" .scalar,
    requestParameter "hierarchical" .scalar
      (some "Truthy pins an empty parent to top-level comments"),
    requestParameter "post_author" .scalar,
    requestParameter "post_id" .scalar,
    requestParameter "post_status" .scalars (some "Comma list or array; 'any' disables"),
    requestParameter "post_type" .text,
    requestParameter "post_name" .text,
    requestParameter "post_parent" .scalar,
    requestParameter "karma" .scalar,
    requestParameter "status" .scalars (some "hold, approve, other literals; 'all' disables"),
    requestParameter "include_unapproved" .scalars (some "User ids or author emails"),
    requestParameter "type" .scalars,
    requestParameter "fields" .text (some "'ids' limits the source to comment_ID"),
    requestParameter "meta_key" .text,
    requestParameter "meta_value" .scalars,
    requestParameter "meta_query" .metaQuery,
    requestParameter "date_query" .dateQuery,
    requestParameter "search" .text (some "Free-text search term"),
    requestParameter "search_fields" .searchSelection]

/-- The parameters of a tool. -/
def parameters : Tool → List ToolParameter
  | compileQuery => requestParameters
  | prepareDocument =>
    [⟨"comment", .comment, false, none⟩, ⟨"post", .nullable .post, true, none⟩,
      ⟨"meta", .metadata, true, none⟩]
  | putMapping =>
    [⟨"index", .text, true, some "Index name, default from config index.name"⟩,
      ⟨"version", .text, true, some "Backend version; read from the cluster when omitted"⟩,
      ⟨"distribution", .text, true, some "'opensearch' always takes the typeless mapping"⟩]

/-- The schema of the arguments of a tool. -/
def schema (tool : Tool) : Schema :=
  .object (tool.parameters.map fun p => (p.name, p.optional, p.schema))

/-- The description of a tool. -/
def description : Tool → String
  | compileQuery =>
    "Compile a comment filter/sort request into an OpenSearch query document " ++
      "(from/size/sort/query/post_filter)."
  | prepareDocument => "Build the index document for a comment, its parent post and its meta."
  | putMapping => "Create the comment index with the mapping that matches the backend version."

/-- The tools, in the order in which they are listed. -/
def all : List Tool := [compileQuery, prepareDocument, putMapping]

/-- The accepted part of the arguments of a tool; absent arguments count as an empty object. -/
def accept (tool : Tool) (args : Param) : Except Fault Fields :=
  let args := match args with
    | none | some .null => .object []
    | some v => v
  match tool.schema.validate args with
  | .ok v => .ok (v.fields?.getD [])
  | .error issues => .error (.illTyped tool issues)

end Tool

end CommentSearch
