import CommentSearch.Value

/-!
# Faults

The causes for which a request, a stored comment or the provisioning of an index fails, and the
text of each. A validation fault carries one issue for each ill-typed field.
-/

namespace CommentSearch

/-! ### Issues of validation -/

/-- The kinds of values that validation tells apart. -/
inductive Kind where
  | text
  | number
  | nan
  | bool
  | list
  | object
  | null
deriving DecidableEq

/-- The kind of a value. -/
def Value.kind : Value → Kind
  | .text _ => .text
  | .number x => if x.isNaN then .nan else .number
  | .bool _ => .bool
  | .list _ => .list
  | .object _ => .object
  | .null => .null

/-- The name of a kind in messages. -/
def Kind.name : Kind → String
  | text => "string"
  | number => "number"
  | nan => "nan"
  | bool => "boolean"
  | list => "array"
  | object => "object"
  | null => "null"

/-- What is wrong with a field. -/
inductive Complaint where
  /-- The field is missing. -/
  | missing
  /-- The field is of another kind than the one expected. -/
  | mismatch (expected received : Kind)
  /-- The field fits none of several forms. -/
  | noForm
deriving DecidableEq

/-- The text of a complaint. -/
def Complaint.message : Complaint → String
  | missing => "Required"
  | mismatch expected received => "Expected " ++ expected.name ++ ", received " ++ received.name
  | noForm => "Invalid input"

/-- A complaint about the field at a path. -/
structure Issue where
  path : List String
  complaint : Complaint
deriving DecidableEq

/-- An issue of a part of a value as one of the whole. -/
def Issue.below (part : String) (issue : Issue) : Issue := { issue with path := part :: issue.path }

/-- The text of an issue: the path with points between its parts, then the complaint. The path of
the whole input is empty and has a name of its own. -/
def Issue.message (issue : Issue) : String :=
  let path := ".".intercalate issue.path
  (if path = "" then "(root)" else path) ++ ": " ++ issue.complaint.message

/-! ### Causes of failure -/

/-- The tools that take arguments from outside. -/
inductive Tool where
  | compileQuery
  | prepareDocument
  | putMapping
deriving DecidableEq

/-- The name under which a tool is called. -/
def Tool.name : Tool → String
  | compileQuery => "comments.compile_query"
  | prepareDocument => "comments.prepare_document"
  | putMapping => "comments.put_mapping"

/-- What a tool calls its arguments. -/
def Tool.inputName : Tool → String
  | compileQuery => "request"
  | prepareDocument => "input"
  | putMapping => "input"

/-- The causes of failure. -/
inductive Fault where
  /-- A field is asked of a value that is absent or null. -/
  | noFields
  /-- A text is needed and another value stands there. -/
  | notText
  /-- A list is needed and another value stands there. -/
  | notList
  /-- The text form is needed of a value that has none. -/
  | noTextForm
  /-- A file that must hold JSON holds something else. -/
  | malformedJson
  /-- There is no file at a path. -/
  | missingFile
  /-- A path leads through something that is no directory. -/
  | notDirectory
  /-- A path leads to a directory. -/
  | isDirectory
  /-- The address of the backend is no URL. -/
  | invalidUrl
  /-- The address of the backend is a URL of another scheme than those of the web. -/
  | foreignScheme
  /-- The name or the password in the address of the backend is the escaped form of no text. -/
  | malformedEscape
  /-- The arguments of a tool are ill-typed. -/
  | illTyped (tool : Tool) (issues : List Issue)
  /-- A mapping file holds JSON that is no object. -/
  | mappingNotObject (path : String)
  /-- The backend did not create an index. -/
  | createFailed (index mappingFile reason : String)
  /-- The backend reports an error of its own. -/
  | backend (message : String)
  /-- A value is thrown in place of an error. -/
  | thrown (v : Value)

/-- The text of a fault. -/
def Fault.message : Fault → String
  | noFields => "no fields: the value is absent or null"
  | notText => "not a text"
  | notList => "not a list"
  | noTextForm => "no text form"
  | malformedJson => "malformed JSON"
  | missingFile => "no such file"
  | notDirectory => "not a directory"
  | isDirectory => "is a directory"
  | invalidUrl => "invalid URL"
  | foreignScheme => "foreign scheme"
  | malformedEscape => "malformed escape"
  | illTyped tool issues =>
    tool.name ++ ": invalid " ++ tool.inputName ++ " (" ++
      "; ".intercalate (issues.map Issue.message) ++ ")"
  | mappingNotObject path => "Mapping file " ++ path ++ " does not contain a JSON object."
  | createFailed index mappingFile reason =>
    "Creating index '" ++ index ++ "' with " ++ mappingFile ++ " failed: " ++ reason
  | backend message => message
  | thrown v => v.form?.getD "no text form"

/-! ### Values under a fault -/

/-- The text form of a value that may be absent. -/
def textForm : Option Value → Except Fault String
  | none => .ok "undefined"
  | some v => match v.form? with
    | some s => .ok s
    | none => .error .noTextForm

/-- The value of a field that is read of a value: none of a value without fields, and a fault
where there is no value at all. -/
def fieldOf (v : Option Value) (key : String) : Except Fault (Option Value) :=
  match v with
  | none | some .null => .error .noFields
  | some v => .ok (v.get? key)

end CommentSearch
