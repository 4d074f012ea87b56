import CommentSearch.Mapping.File
import CommentSearch.Session

/-!
# Provisioning of the index

The index of comments is created with the mapping that suits the version of the backend, unless it
is there already. The backend is asked for its version only where none is given, and the mapping is
read before anything is changed.
-/

namespace CommentSearch

/-- What a caller says about the index to provision. What is left out comes from the environment,
from the settings or from the backend. -/
structure ProvisionOptions where
  index : Option String := none
  mappingsDir : Option String := none
  version : Option String := none
  distribution : Option String := none

/-- What provisioning gives. -/
structure Provision where
  index : String
  version : String
  mappingFile : MappingFile
  /-- Whether the index was created. -/
  created : Bool
deriving DecidableEq

/-- The value that stands for what provisioning gives. -/
def Provision.toValue (p : Provision) : Value :=
  .object [("index", .text p.index), ("version", .text p.version),
    ("mappingFile", .text p.mappingFile.name), ("created", .bool p.created)]

namespace Work

/-- What is given, or else a variable of the environment, or else a setting. -/
def chosen (given : Option String) (name setting default : String) : Work String := do
  match given.or ((← get).environment.lookup name) with
  | some s => return s
  | none => return (Settings.text? (← querySettings) setting).getD default

/-- The mapping file of a version of a distribution. Where the version is blank, one from the
settings takes its place. -/
def mappingFile (version distribution : String) : Work MappingFile :=
  match MappingFile.ofDistribution? distribution, Version.told? version with
  | some file, _ => return file
  | none, some version => return .ofVersion version
  | none, none => do
    let settings ← querySettings
    return .ofVersion ((Settings.text? settings "mapping.fallback_version").getD "2.0")

/-- Whether there is an index. -/
def indexExists (backend : Backend) (index : String) : Work Bool := do
  match ← call backend (.exists index) with
  | .ok (.bool found) => return found
  | .ok _ => return false
  | .error refusal => throw refusal.fault

/-- The version and the distribution that are given, or that the backend tells. -/
def backendVersion (backend : Backend) (options : ProvisionOptions) : Work (String × String) := do
  let version := options.version.getD ""
  if version ≠ "" then return (version, options.distribution.getD "")
  match ← call backend .info with
  | .ok body => return (versionNumber body, versionDistribution body)
  | .error refusal => throw refusal.fault

/-- Provisions the index. -/
def provision (backend : Backend) (options : ProvisionOptions) : Work Provision := do
  let index ← chosen options.index "COMMENT_QUERY_INDEX" "index.name" "comments"
  let dir ← chosen options.mappingsDir "COMMENT_QUERY_MAPPINGS_DIR" "mapping.dir"
    "config/mappings/comment"
  let (version, distribution) ← backendVersion backend options
  let file ← mappingFile version distribution
  let body ← loadMapping (← get).files file.name dir
  if ← indexExists backend index then
    report (.mappingSkipped index version file.name)
    return ⟨index, version, file, false⟩
  match ← call backend (.create index body) with
  | .ok _ =>
    report (.mappingCreated index version file.name)
    return ⟨index, version, file, true⟩
  | .error refusal => throw (.createFailed index file.name (← refusal.message))

end Work

end CommentSearch
