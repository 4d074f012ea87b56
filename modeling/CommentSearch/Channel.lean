import CommentSearch.Sort
import CommentSearch.Request

/-!
# Events and their channels

What the library reports while it works. An event goes to a channel, and a list of patterns tells
which channels are heard.
-/

namespace CommentSearch

/-! ### Channels -/

/-- Whether a pattern hears a channel: it is the name of the channel, or a beginning of the name
and an asterisk. -/
def hears (pattern channel : String) : Bool :=
  pattern = "*" || pattern = channel ||
    match pattern.toList.reverse with
    | '*' :: start => start.reverse.isPrefixOf channel.toList
    | _ => false

/-- Whether a comma-separated list of patterns hears a channel. -/
def listHears (patterns channel : String) : Bool :=
  ((Text.splitAt ',' patterns).map Text.trim).any fun p => p != "" && hears p channel

/-! ### Events -/

/-- What is reported. -/
inductive Event where
  /-- A request was compiled. -/
  | compiled (dimensions : Nat) (window : Window) (sort : List SortClause) (search : Bool)
  /-- A request was compiled for the tool. -/
  | toolCompiled (hasFilter : Bool)
  /-- A document was prepared. -/
  | prepared (commentId : Param) (metaKeys : Nat)
  /-- A client of the backend is about to be made. -/
  | clientInit (node : String) (timeout : Number) (rejectUnauthorized : Bool)
  /-- An index was there already. -/
  | mappingSkipped (index version mappingFile : String)
  /-- An index was created. -/
  | mappingCreated (index version mappingFile : String)

namespace Event

/-- The channel of an event. -/
def channel : Event → String
  | compiled .. => "comment-query:compiler"
  | toolCompiled .. => "comment-query:routes"
  | prepared .. => "comment-query:document"
  | clientInit .. => "comment-query:os-client"
  | mappingSkipped .. | mappingCreated .. => "comment-query:bootstrap"

/-- The title of an event. -/
def title : Event → String
  | compiled .. => "compiled"
  | toolCompiled .. => "compile_query"
  | prepared .. => "prepared"
  | clientInit .. => "client.init"
  | mappingSkipped .. => "mapping.skip"
  | mappingCreated .. => "mapping.created"

/-- The details of an event. -/
def details : Event → Fields
  | compiled dimensions window sort search =>
    [("dimensions", .ofNat dimensions), ("from", .number window.start),
      ("size", .number window.size), ("sort", .list (sort.map SortClause.toValue)),
      ("search", .bool search)]
  | toolCompiled hasFilter => [("has_filter", .bool hasFilter)]
  | prepared commentId metaKeys =>
    (match commentId with
      | some v => [("comment_ID", v)]
      | none => []) ++ [("meta_keys", .ofNat metaKeys)]
  | clientInit node timeout rejectUnauthorized =>
    [("node", .text node), ("requestTimeout", .number timeout),
      ("rejectUnauthorized", .bool rejectUnauthorized)]
  | mappingSkipped index version mappingFile | mappingCreated index version mappingFile =>
    [("index", .text index), ("version", .text version), ("mappingFile", .text mappingFile)]

/-- The value that stands for an event: channel, title and details. -/
def toValue (e : Event) : Value := .list [.text e.channel, .text e.title, .object e.details]

end Event

end CommentSearch
