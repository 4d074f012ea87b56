import CommentSearch.Fault

/-!
# The search backend

The backend as the provisioning of an index sees it: three calls, and what it replies to each. What
it replies may depend on the calls before.
-/

namespace CommentSearch

/-- A call of the backend. -/
inductive Call where
  /-- What the backend tells of itself. -/
  | info
  /-- Whether there is an index. -/
  | exists (index : String)
  /-- The creation of an index. -/
  | create (index : String) (body : Fields)

/-- The value that stands for a call. -/
def Call.toValue : Call → Value
  | info => .list [.text "info"]
  | .exists index => .list [.text "exists", .object [("index", .text index)]]
  | create index body =>
    .list [.text "create", .object [("index", .text index), ("body", .object body)]]

/-- How the backend refuses a call. -/
inductive Refusal where
  /-- An error with a message. -/
  | error (message : String)
  /-- A value in place of an error. -/
  | value (v : Value)

/-- The text of a refusal. -/
def Refusal.message : Refusal → Except Fault String
  | error message => .ok message
  | value v => textForm (some v)

/-- The fault that a refusal is where nothing is made of it. -/
def Refusal.fault : Refusal → Fault
  | error message => .backend message
  | value v => .thrown v

/-- What the backend replies to a call. -/
abbrev Reply := Except Refusal Value

/-- A call and the reply to it. -/
structure Exchange where
  call : Call
  reply : Reply

/-- A backend: its reply to a call after earlier exchanges. -/
abbrev Backend := List Exchange → Call → Reply

/-! ### What the backend tells of itself -/

/-- A text field of the version that the backend tells, empty if there is none. -/
def versionField (field : String) (body : Value) : String :=
  (((body.get? "version").bind (·.get? field)).bind Value.text?).getD ""

/-- The number of the version that the backend tells. -/
def versionNumber (body : Value) : String := versionField "number" body

/-- The distribution that the backend tells. -/
def versionDistribution (body : Value) : String := versionField "distribution" body

end CommentSearch
