import CommentSearch.Json.Writer
import CommentSearch.Provision
import CommentSearch.Tool.Parameters

/-!
# Running the tools

A tool validates its arguments, does its work in a session, and answers with a value. A call from
outside wraps the JSON text of that value as the content of a result.
-/

namespace CommentSearch

namespace Work

/-! ### The tools -/

/-- Compiles the request that the arguments are. -/
def compileTool (args : Param) : Work Compiled := do
  let request ← Tool.compileQuery.accept args
  let zone ← zone
  return (← compile request (.ofSettings · zone)).compiled

/-- Prepares the document of the comment, the post and the metadata in the arguments. -/
def prepareTool (args : Param) : Work (Option Document) := do
  let fields ← Tool.prepareDocument.accept args
  let metadata := (fields.get? "meta").getD (.object [])
  prepare (fields.get? "comment") (fields.get? "post") (some metadata) none

/-- Provisions the index that the arguments describe. -/
def provisionTool (backend : Backend) (args : Param) : Work Provision := do
  let fields ← Tool.putMapping.accept args
  let text? := fun (key : String) => (fields.get? key).bind Value.text?
  let _ ← client
  provision backend
    { index := text? "index", version := text? "version", distribution := text? "distribution" }

/-- The value that stands for the answer of the preparing tool. -/
def preparedValue (document : Option Document) : Value :=
  .object [("document", match document with
    | some d => d.toValue
    | none => .null)]

/-! ### Calls from outside -/

/-- What a tool answers to a call from outside, as a value. -/
def answer (backend : Backend) (tool : Tool) (args : Param) : Work Value :=
  match tool with
  | .compileQuery => do
    let compiled ← compileTool args
    report (.toolCompiled !compiled.filters.isEmpty)
    return compiled.toValue
  | .prepareDocument => do return preparedValue (← prepareTool args)
  | .putMapping => do return (← provisionTool backend args).toValue

end Work

/-- The result that carries a value as text. -/
def toolResult (v : Value) : Value :=
  .object [("content", .list
    [.object [("type", .text "text"), ("text", .text (Json.write v))]])]

/-- The result of a call of a tool from outside. -/
def Work.runTool (backend : Backend) (tool : Tool) (args : Param) : Work Value := do
  return toolResult (← answer backend tool args)

end CommentSearch
