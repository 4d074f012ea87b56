import CommentSearch.Filter
import CommentSearch.Search
import CommentSearch.Sort

/-!
# Compiling requests

A request compiles to a query document: the window of results, the sort, the query that scores the
comments, and the filters that they have to pass.
-/

namespace CommentSearch

/-- A compiled request. -/
structure Compiled where
  window : Window
  sort : List SortClause
  query : Query
  /-- Whether only the identifiers of the comments are wanted. -/
  idsOnly : Bool
  /-- The nodes of the active filters. -/
  filters : List Query

/-- The query document of a compiled request. -/
def Compiled.toValue (c : Compiled) : Value :=
  .object <|
    [("from", .number c.window.start), ("size", .number c.window.size),
      ("sort", .list (c.sort.map SortClause.toValue)), ("query", c.query.toValue)] ++
    (if c.idsOnly then [("_source", .object [("includes", .texts ["comment_ID"])])] else []) ++
    (if c.filters.isEmpty then [] else [("post_filter", (Query.must c.filters).toValue)])

/-- The options of a compilation. -/
structure CompileOptions where
  /-- The size of the window where the request names none. -/
  maxResultsWindow : Number
  search : SearchOptions
  collaborators : Collaborators

/-- The size of the window where the settings name none. -/
def defaultMaxResultsWindow : Number := .finite 10000

/-- The options that settings give in a local zone, with the compilers of this library. -/
def CompileOptions.ofSettings (settings : Fields) (zone : TimeZone := .universal) :
    CompileOptions where
  maxResultsWindow :=
    (Settings.number? settings "pagination.max_results_window").getD defaultMaxResultsWindow
  search := .ofSettings settings
  collaborators := .standard zone

/-- What a compilation gives: the compiled request, and what the filters asked. -/
structure Compilation where
  compiled : Compiled
  asked : List Question

/-- The alias that a request without one is sorted by. -/
def defaultSortAlias : String := "comment_date_gmt"

namespace Request

/-- The sort of a request. -/
def sort (r : Request) : Except Fault (List SortClause) := do
  let orderby := r.get? "orderby"
  let sortKey ← if Param.isEmpty orderby then pure defaultSortAlias else textForm orderby
  SortClause.resolve sortKey (.text (Order.ofParam (r.get? "order")).name) (some (.object r))

/-- The query that scores the comments: that of the search term, if there is one. -/
def query (r : Request) (options : SearchOptions) : Except Fault Query := do
  let words := r.get? "search"
  if Param.isEmpty words then return .matchAll
  let selection := r.get? "search_fields"
  let selection := if Param.isEmpty selection then none else selection
  searchQuery (.text (← textForm words)) selection options

/-- What the filters contribute, in their order. -/
def contributions (r : Request) (c : Collaborators) : Except Fault (List Contribution) :=
  filters.mapM fun f => f.contribution r c

/-- Whether a request asks for the identifiers only. -/
def idsOnly (r : Request) : Bool :=
  match r.get? "fields" with
  | some (.text s) => s = "ids"
  | _ => false

/-- The compilation of a request. -/
def compile (r : Request) (options : CompileOptions) : Except Fault Compilation := do
  let r := r.normalize
  let sort ← r.sort
  let contributions ← r.contributions options.collaborators
  let query ← r.query options.search
  return {
    compiled := {
      window := r.window options.maxResultsWindow
      sort := sort
      query := query
      idsOnly := r.idsOnly
      filters := contributions.filterMap (·.node) }
    asked := contributions.flatMap (·.asked) }

end Request

end CommentSearch
