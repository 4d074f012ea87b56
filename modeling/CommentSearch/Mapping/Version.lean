import CommentSearch.Number.Literal
import CommentSearch.Text.Blank

/-!
# Versions of the backend

A version is a dotted list of numbers, read leniently: each segment stands for the integer at its
start, and missing segments for zeros.
-/

namespace CommentSearch.Version

/-- The numbers that the segments of a version stand for. -/
def segments (version : String) : List Number := (Text.splitAt '.' version).map Number.leading

/-- The version that a text tells, unless it is blank. -/
def told? (version : String) : Option String :=
  if Text.isAllBlank version then none else some (Text.trim version)

/-- The order of two numbers. -/
def order (x y : Number) : Ordering :=
  if x.lt y then .lt else if y.lt x then .gt else .eq

/-- The order of two lists of segments, the shorter one extended by zeros. -/
def compareSegments : List Number → List Number → Ordering
  | [], [] => .eq
  | x :: xs, [] => (order x (.finite 0)).then (compareSegments xs [])
  | [], y :: ys => (order (.finite 0) y).then (compareSegments [] ys)
  | x :: xs, y :: ys => (order x y).then (compareSegments xs ys)

/-- The order of two versions. -/
def compare (a b : String) : Ordering := compareSegments (segments a) (segments b)

end CommentSearch.Version
