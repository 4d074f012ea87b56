import CommentSearch.Files
import CommentSearch.Json.Reader
import CommentSearch.Settings

/-!
# Layers of settings

The settings of queries come in three layers, each above the one before: a YAML file, a JSON file
and a JSON text of overrides. A layer that is not given, not readable or no object changes nothing.
Objects are merged key by key; all other values, lists and null included, replace what lies below.
-/

namespace CommentSearch

/-- Variables of the environment by their names. -/
abbrev Environment := List (String × String)

/-- The value of a variable, unless it is empty. -/
def Environment.nonEmpty? (env : Environment) (name : String) : Option String :=
  (env.lookup name).filter (· ≠ "")

/-- The value of a variable, unless it is blank. -/
def Environment.nonBlank? (env : Environment) (name : String) : Option String :=
  (env.lookup name).filter fun s => !Text.isAllBlank s

/-- What reads YAML: the value of a document, if the text is a document that has one. -/
abbrev YamlReader := String → Option Value

namespace Settings

/-! ### Merging -/

/-- Settings with a layer above them. -/
def overlay (lower : Fields) : List (String × Value) → Fields
  | [] => lower
  | (key, .object upper) :: rest =>
    let v := match lower.get? key with
      | some (.object below) => .object (overlay below upper)
      | _ => .object upper
    overlay (if key = Fields.reservedKey then lower else lower.set key v) rest
  | (key, v) :: rest => overlay (if key = Fields.reservedKey then lower else lower.set key v) rest

/-! ### Layers -/

/-- The settings that a YAML file holds: none if it cannot be read or is no mapping. -/
def ofYamlFile (readYaml : YamlReader) (files : Files) (path : String) : Fields :=
  match files.read path with
  | .ok text => ((readYaml text).bind Value.fields?).getD []
  | .error _ => []

/-- The settings that a JSON text holds: none if it is malformed or no object. -/
def ofJson (text : String) : Fields := ((Json.read? text).bind Value.fields?).getD []

/-- The settings that a JSON file holds. -/
def ofJsonFile (files : Files) (path : String) : Fields :=
  match files.read path with
  | .ok text => ofJson text
  | .error _ => []

/-- The file of query settings unless another is named. -/
def queryFile : String := "config/query.yaml"

/-- The file of indexing policies unless another is named. -/
def policyFile : String := "config/meta_policies.yaml"

/-- The settings of queries. -/
def ofQueries (readYaml : YamlReader) (env : Environment) (files : Files) : Fields :=
  let base := ofYamlFile readYaml files
    ((env.nonEmpty? "COMMENT_QUERY_CONFIG_PATH").getD queryFile)
  let withFile := match env.nonBlank? "COMMENT_QUERY_OVERRIDES_FILE" with
    | some path => overlay base (ofJsonFile files path)
    | none => base
  match env.nonBlank? "COMMENT_QUERY_OVERRIDES_JSON" with
  | some text => overlay withFile (ofJson text)
  | none => withFile

/-- The policies of indexing metadata. -/
def ofPolicies (readYaml : YamlReader) (env : Environment) (files : Files) : Fields :=
  ofYamlFile readYaml files
    ((env.nonEmpty? "COMMENT_QUERY_META_POLICIES_PATH").getD policyFile)

end Settings

end CommentSearch
