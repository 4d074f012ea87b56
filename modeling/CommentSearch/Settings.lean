import CommentSearch.Parameter

/-!
# Reading settings

Settings are an object; a dotted path leads to one of them through nested objects. Each getter reads
one type leniently and gives nothing where the setting is absent or cannot be read as that type, so
that the caller's default counts.
-/

namespace CommentSearch.Settings

/-- The value that a path of keys leads to from a value. -/
def follow : List String → Value → Option Value
  | [], v => some v
  | key :: keys, v => (v.get? key).bind (follow keys)

/-- The setting at a dotted path. -/
def at? (settings : Fields) (path : String) : Option Value :=
  follow (Text.splitAt '.' path) (.object settings)

/-- The number that a setting stands for: a number or the text of one. -/
def asNumber? : Param → Option Number
  | some (.number x) => if x.isNaN then none else some x
  | some (.text s) =>
    if Text.isAllBlank s then none
    else
      let x := Number.ofText s
      if x.isNaN then none else some x
  | _ => none

/-- A number setting. -/
def number? (settings : Fields) (path : String) : Option Number := asNumber? (at? settings path)

/-- A setting that is a number, or else a trimmed text that is not blank. -/
def numberOrText? (settings : Fields) (path : String) : Option Value :=
  match asNumber? (at? settings path), at? settings path with
  | some x, _ => some (.number x)
  | none, some (.text s) => if Text.isAllBlank s then none else some (.text (Text.trim s))
  | none, _ => none

/-- The texts of a list setting; items of other types are dropped. -/
def texts? (settings : Fields) (path : String) : Option (List String) :=
  match at? settings path with
  | some (.list items) => some (items.filterMap Value.text?)
  | _ => none

/-- A text setting, as it stands. -/
def text? (settings : Fields) (path : String) : Option String :=
  (at? settings path).bind Value.text?

/-- A truth setting: a truth value, the name of one in any case, or a number, which is false only
if it is zero. -/
def flag? (settings : Fields) (path : String) : Option Bool :=
  match at? settings path with
  | some (.bool b) => some b
  | some (.number x) => some !x.isZero
  | some (.text s) =>
    let name := Text.toSmall (Text.trim s)
    if name = "true" then some true
    else if name = "false" then some false
    else
      let x := Number.ofText s
      if name = "" ∨ x.isNaN then none else some !x.isZero
  | _ => none

end CommentSearch.Settings
