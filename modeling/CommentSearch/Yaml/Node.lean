/-!
# YAML nodes

A YAML text as a tree. Scalars are kept as they are spelled: what they stand for, and which pairs of
a mapping belong together under one key, is decided afterwards.
-/

namespace CommentSearch.Yaml

/-- A node of a document. -/
inductive Node where
  /-- Nothing, in a place where a node could stand. -/
  | empty
  /-- A scalar without quotes. -/
  | plain (s : String)
  /-- A scalar in quotes. -/
  | quoted (s : String)
  | list (items : List Node)
  /-- Keys with their values, in the order in which they are written. -/
  | mapping (pairs : List (Node × Node))
deriving Inhabited

end CommentSearch.Yaml
