import CommentSearch.Fault
import CommentSearch.Text.Blank

/-!
# Files

Text files of a tree of directories. A place in the tree is given by the names that lead to it from
the root. A path that starts with a slash is followed from the root, any other one from the current
directory, part by part, so that every part before the last has to be a directory. Above the root
there is nothing but the root itself.

A directory exists if a file lies in it or if the current directory does. There are no links.
-/

namespace CommentSearch

/-- The files of a tree, and the current directory. -/
structure Files where
  /-- The place of the current directory. -/
  current : List String
  /-- The texts of the files by their places. -/
  texts : List (List String × String)

namespace Files

/-- The parts of a path between its slashes. -/
def parts (path : String) : List String := Text.splitAt '/' path

/-- Whether a path is followed from the root. -/
def isAbsolute (path : String) : Bool := path.toList.head? = some '/'

/-- The place from which a path is followed. -/
def start (files : Files) (path : String) : List String :=
  if isAbsolute path then [] else files.current

/-- Whether a file lies at a place. -/
def isFile (files : Files) (place : List String) : Bool := files.texts.any (·.1 == place)

/-- Whether a place is a directory: the current one or one around it, or one with files in it. -/
def isDirectory (files : Files) (place : List String) : Bool :=
  place.isPrefixOf files.current ||
    files.texts.any fun file => place.isPrefixOf file.1 && place != file.1

/-- The place that one part of a path leads to from a place. -/
def step (place : List String) (part : String) : List String :=
  if part = "" ∨ part = "." then place
  else if part = ".." then place.dropLast
  else place ++ [part]

/-- The place that parts of a path lead to from a place, through directories only. -/
def locate (files : Files) (place : List String) : List String → Except Fault (List String)
  | [] => .ok place
  | part :: rest =>
    if files.isFile place then .error .notDirectory
    else if !files.isDirectory place then .error .missingFile
    else locate files (step place part) rest

/-- The text of the file at a path. Nothing lies at an empty path. -/
def read (files : Files) (path : String) : Except Fault String := do
  if path = "" then throw .missingFile
  let place ← files.locate (files.start path) (parts path)
  match files.texts.lookup place with
  | some text => return text
  | none => throw (if files.isDirectory place then .isDirectory else .missingFile)

/-- The place of a path, whether or not there are directories on the way to it. -/
def placeOf (files : Files) (path : String) : List String :=
  (parts path).foldl step (files.start path)

/-- The files without the one at a path. -/
def remove (files : Files) (path : String) : Files :=
  { files with texts := files.texts.filter (·.1 != files.placeOf path) }

/-- The files with a text at a path. -/
def write (files : Files) (path text : String) : Files :=
  { files with texts := (files.remove path).texts ++ [(files.placeOf path, text)] }

end Files

/-! ### Paths -/

/-- The parts of a path without empty ones, ones that stand for the same directory, and ones that
are taken back by the next. -/
def simplifiedParts (absolute : Bool) : List String → List String → List String
  | done, [] => done.reverse
  | done, part :: rest =>
    if part = "" ∨ part = "." then simplifiedParts absolute done rest
    else if part = ".." then
      match done with
      | [] => simplifiedParts absolute (if absolute then [] else [".."]) rest
      | last :: before =>
        if last = ".." then simplifiedParts absolute (".." :: done) rest
        else simplifiedParts absolute before rest
    else simplifiedParts absolute (part :: done) rest

/-- A path in its shortest form. -/
def simplifiedPath (path : String) : String :=
  let absolute := Files.isAbsolute path
  let body := "/".intercalate (simplifiedParts absolute [] (Files.parts path))
  let trailing := path.toList.getLast? = some '/'
  if path = "" then "."
  else if absolute then "/" ++ body ++ (if trailing && body != "" then "/" else "")
  else if body = "" then (if trailing then "./" else ".")
  else body ++ (if trailing then "/" else "")

/-- The shortest path to a file of a directory. -/
def joinPath (dir file : String) : String :=
  simplifiedPath ("/".intercalate ([dir, file].filter (· != "")))

end CommentSearch
