import CommentSearch.Compile
import CommentSearch.Proofs.Fields

/-!
# The document of a compiled request

What stands under each key of the document that a compiled request becomes. The filters stand under
`post_filter`, which is there only if a filter is active (`get?_postFilter`).
-/

namespace CommentSearch

theorem Query.toValues_eq (nodes : List Query) :
    Query.toValues nodes = nodes.map Query.toValue := by
  induction nodes with
  | nil => rfl
  | cons node nodes ih => rw [Query.toValues, ih, List.map_cons]

namespace Compiled

variable (c : Compiled)

theorem get?_toValue (key : String) : c.toValue.get? key =
    (Fields.get? [("from", .number c.window.start), ("size", .number c.window.size),
      ("sort", .list (c.sort.map SortClause.toValue)), ("query", c.query.toValue)] key).or
    ((Fields.get? (if c.idsOnly then [("_source", .object [("includes", .texts ["comment_ID"])])]
      else []) key).or
    (Fields.get? (if c.filters.isEmpty then []
      else [("post_filter", (Query.must c.filters).toValue)]) key)) := by
  rw [toValue, Value.get?_object, Fields.get?_append, Fields.get?_append, Option.or_assoc]

theorem get?_from : c.toValue.get? "from" = some (.number c.window.start) := by
  rw [get?_toValue]
  rfl

theorem get?_size : c.toValue.get? "size" = some (.number c.window.size) := by
  rw [get?_toValue]
  rfl

theorem get?_sort : c.toValue.get? "sort" = some (.list (c.sort.map SortClause.toValue)) := by
  rw [get?_toValue]
  rfl

theorem get?_query : c.toValue.get? "query" = some c.query.toValue := by
  rw [get?_toValue]
  rfl

theorem get?_source : c.toValue.get? "_source" =
    if c.idsOnly then some (.object [("includes", .texts ["comment_ID"])]) else none := by
  rw [get?_toValue]
  cases c.idsOnly <;> cases c.filters <;> rfl

/-- The filters stand under `must`, in their order; there is no `post_filter` without any. -/
theorem get?_postFilter : c.toValue.get? "post_filter" =
    if c.filters = [] then none
    else some (Query.single "bool"
      (Query.single "must" (.list (c.filters.map Query.toValue)))) := by
  rw [get?_toValue, ← Query.toValues_eq]
  cases c.idsOnly <;> cases c.filters <;> rfl

end Compiled

end CommentSearch
