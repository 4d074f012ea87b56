import CommentSearch.Parameter

/-!
# Requests

A request is an object of loosely typed parameters. This module takes a request from a value,
settles the parameters that have two names, and reads the window of results that it asks for.
-/

namespace CommentSearch

/-- The parameters of a request by their names. -/
abbrev Request := Fields

namespace Request

/-- The fields that a value contributes to an object: those of an object, the items of a list and
the characters of a text under their positions, and none of any other value. -/
def ofValue : Param → Request
  | some (.object fields) => fields
  | some (.list items) => .ofItems items
  | some (.text s) => .ofItems (s.toList.map fun c => .text (String.ofList [c]))
  | _ => []

/-- The parameters of a value that is read as a request without a copy: a fault where there is no
value. -/
def expect : Param → Except Fault Request
  | none | some .null => .error .noFields
  | some (.object fields) => .ok fields
  | some _ => .ok []

/-- The request with its second names resolved: `page` stands for `paged` where that is not set, and
`order_by` for `orderby` where that is empty. -/
def normalize (r : Request) : Request :=
  let r := match r.get? "page" with
    | some page =>
      if !Param.isSet (r.get? "paged") && Param.isSet (some page) then r.set "paged" page else r
    | none => r
  match r.get? "order_by" with
  | some sortKey =>
    if Param.isEmpty (r.get? "orderby") && !Param.isEmpty (some sortKey) then
      r.set "orderby" sortKey
    else r
  | none => r

end Request

/-! ### The window of results -/

/-- The window of results: the position of the first, and how many. -/
structure Window where
  start : Number
  size : Number
deriving DecidableEq

/-- The window that a request asks for. Its size is `number`, or else `maxSize`; it starts at
`offset`, or, where that is empty, at the page `paged`, counted from one. -/
def Request.window (r : Request) (maxSize : Number) : Window :=
  let size := if Param.isEmpty (r.get? "number") then maxSize else Param.toInt (r.get? "number")
  let given := r.get? "offset"
  let offset : Number := if Param.isSet given then Param.toInt given else .finite 0
  let page := Param.toInt (r.get? "paged")
  let start :=
    if Param.isSet (r.get? "paged") && Param.isEmpty given && Number.lt (.finite 1) page then
      size.mul (page.add (.finite (-1)))
    else offset
  ⟨start.atLeastZero, size.atLeastZero⟩

end CommentSearch
