import CommentSearch.Value

/-!
# Mappings of the comment index

The body that an index is created with: settings and the mapping of the fields. It comes in three
forms. Old backends have one type of text, whose untouched copies are marked; later ones have two
types. Backends before the last form put the mapping under the type of the documents.
-/

namespace CommentSearch.Mapping

/-- How texts are mapped. -/
inductive TextStyle where
  /-- Texts and keywords are types of their own. -/
  | separate
  /-- Texts and keywords are one type, keywords being marked as not analysed. -/
  | marked
deriving DecidableEq

/-- The fields of the type of a keyword. -/
def TextStyle.keyword : TextStyle → Fields
  | separate => [("type", .text "keyword")]
  | marked => [("type", .text "string"), ("index", .text "not_analyzed")]

/-- The type of an analysed text. -/
def TextStyle.analysed : TextStyle → Value
  | separate => .text "text"
  | marked => .text "string"

/-! ### Types of fields -/

/-- A field of a type with a name. -/
def ofType (type : String) : Value := .object [("type", .text type)]

/-- A field of dates in a format. -/
def dateOf (format : String) : Value :=
  .object [("type", .text "date"), ("format", .text format)]

/-- The format of stored dates and times. -/
def storedFormat : String := "yyyy-MM-dd HH:mm:ss"

/-- A keyword. -/
def keyword (style : TextStyle) : Value := .object style.keyword

/-- An analysed text with an untouched copy. -/
def textWithRaw (style : TextStyle) : Value :=
  .object [("type", style.analysed),
    ("fields", .object [("raw", .object (style.keyword ++ [("ignore_above", .ofNat 10922)]))])]

/-! ### Fields -/

/-- The fields below a metadata key: one for each type that a value can be read as. -/
def metaFields (style : TextStyle) : Fields :=
  [("value", textWithRaw style), ("raw", keyword style), ("long", ofType "long"),
    ("double", ofType "double"), ("boolean", ofType "boolean"), ("date", dateOf "yyyy-MM-dd"),
    ("datetime", dateOf storedFormat), ("time", dateOf "HH:mm:ss")]

/-- The template of the fields of metadata. -/
def metaTemplate (style : TextStyle) : Value :=
  .object [("template_meta", .object [("type", .text "object"), ("path_match", .text "meta.*"),
    ("mapping", .object [("type", .text "object"), ("properties", .object (metaFields style))])])]

/-- The fields of a document. -/
def documentFields (style : TextStyle) : Fields :=
  ["comment_ID", "ID", "comment_post_ID", "comment_post_author_ID", "comment_post_parent",
    "comment_karma", "comment_parent", "user_id"].map (fun name => (name, ofType "long")) ++
  ["comment_post_status", "comment_post_type", "comment_post_name"].map
    (fun name => (name, keyword style)) ++
  ["comment_author", "comment_author_email", "comment_author_url", "comment_author_IP",
    "comment_content", "comment_agent", "comment_type", "comment_approved"].map
    (fun name => (name, textWithRaw style)) ++
  ["comment_date", "comment_date_gmt"].map (fun name => (name, dateOf storedFormat)) ++
  [("meta", ofType "object")]

/-! ### Bodies -/

/-- The settings of the index. -/
def indexSettings : Value :=
  .object [("index.mapping.total_fields.limit", .ofNat 5000),
    ("index.max_result_window", .ofNat 10000),
    ("analysis", .object [("analyzer", .object [("default", .object
      [("tokenizer", .text "standard"), ("filter", .texts ["lowercase"])])])])]

/-- The mapping of the documents. -/
def documents (style : TextStyle) : Value :=
  .object [("date_detection", .bool false), ("dynamic_templates", .list [metaTemplate style]),
    ("properties", .object (documentFields style))]

/-- A body whose mapping is that of the whole index. -/
def typeless (style : TextStyle) : Value :=
  .object [("settings", indexSettings), ("mappings", documents style)]

/-- A body whose mapping is that of the type of comments. -/
def typed (style : TextStyle) : Value :=
  .object [("settings", indexSettings), ("mappings", .object [("comment", documents style)])]

end CommentSearch.Mapping
