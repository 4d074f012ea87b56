import CommentSearch.Files
import CommentSearch.Json.Reader
import CommentSearch.Mapping.Version
import CommentSearch.Text.Fold

/-!
# Mapping files

There is a mapping file for each of three ranges of versions of the backend. The last range has no
end, and a distribution that numbers its versions anew belongs to it altogether.
-/

namespace CommentSearch

/-- The mapping files. -/
inductive MappingFile where
  /-- For versions before 5.0. -/
  | beforeFive
  /-- For versions from 5.0, before 7.0. -/
  | beforeSeven
  /-- For versions from 7.0. -/
  | fromSeven
deriving DecidableEq

namespace MappingFile

/-- The name of a mapping file. -/
def name : MappingFile → String
  | beforeFive => "pre-5-0.json"
  | beforeSeven => "initial.json"
  | fromSeven => "7-0.json"

/-- The mapping file of a version. -/
def ofVersion (version : String) : MappingFile :=
  if Version.compare version "5.0" = .lt then beforeFive
  else if Version.compare version "7.0" = .lt then beforeSeven
  else fromSeven

/-- The mapping file of a distribution that takes the same one for all of its versions. -/
def ofDistribution? (distribution : String) : Option MappingFile :=
  if Text.toSmall distribution = "opensearch" then some fromSeven else none

end MappingFile

/-- The mapping that a file of a directory holds. -/
def loadMapping (files : Files) (file dir : String) : Except Fault Fields := do
  let path := joinPath dir file
  match Json.read? (← files.read path) with
  | none => throw .malformedJson
  | some (.object fields) => return fields
  | some _ => throw (.mappingNotObject path)

end CommentSearch
