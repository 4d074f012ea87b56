import CommentSearch.Number.Decimal

/-!
# Values

Requests, settings, stored comments and index documents are trees of null, truth values, numbers,
texts, lists and objects. An object is a list of fields in the order of their insertion, each key
once; it is *listed* with the keys that are array indexes first, in ascending order.

Where a field may be missing the type is `Option Value`: absent is not the same as null.
-/

namespace CommentSearch

/-- A value of a request, of a setting or of a document. -/
inductive Value where
  | null
  | bool (b : Bool)
  | number (x : Number)
  | text (s : String)
  | list (items : List Value)
  | object (fields : List (String × Value))
deriving Inhabited

/-- The fields of an object, in the order of their insertion. -/
abbrev Fields := List (String × Value)

/-! ### Fields -/

namespace Fields

/-- The value under a key. -/
def get? (fields : Fields) (key : String) : Option Value := fields.lookup key

/-- The fields with a value under a key: in place of the old value, or at the end. -/
def set (fields : Fields) (key : String) (value : Value) : Fields :=
  if fields.any (·.1 == key) then
    fields.map fun field => if field.1 == key then (key, value) else field
  else fields ++ [(key, value)]

/-- The fields of which each key is set in turn. -/
def ofList (fields : List (String × Value)) : Fields :=
  fields.foldl (fun done field => set done field.1 field.2) []

/-- The fields of a list, under the texts of its positions. -/
def ofItems (items : List Value) : Fields :=
  items.zipIdx.map fun (item, i) => (toString i, item)

/-- The key that no field is kept under where fields are assigned one by one. -/
def reservedKey : String := "__proto__"

/-- The keys, in the order of insertion. -/
def keys (fields : Fields) : List String := fields.map (·.1)

end Fields

/-- The array index that a key spells: its decimal text, below `2 ^ 32 - 1`. -/
def arrayIndex? (key : String) : Option Nat :=
  let cs := key.toList
  let n := Nat.ofDigitChars 10 cs 0
  if cs.all Char.isDigit ∧ Nat.toDigits 10 n = cs ∧ n < 4294967295 then some n else none

/-- Entries in the order in which an object lists them: array indexes in ascending order, then the
other keys in the order of insertion. -/
def listed {α : Type} (entries : List (String × α)) : List (String × α) :=
  let indexed := entries.filterMap fun entry => (arrayIndex? entry.1).map fun i => (i, entry)
  (indexed.mergeSort fun a b => a.1 ≤ b.1).map (·.2) ++
    entries.filter fun entry => (arrayIndex? entry.1).isNone

/-! ### Scalars -/

/-- A text, a number or a truth value. -/
inductive Scalar where
  | text (s : String)
  | number (x : Number)
  | bool (b : Bool)
deriving DecidableEq, Inhabited

namespace Scalar

/-- A scalar as a value. -/
def toValue : Scalar → Value
  | text s => .text s
  | number x => .number x
  | bool b => .bool b

/-- The text form of a scalar. -/
def toText : Scalar → String
  | text s => s
  | number x => x.toText
  | bool b => if b then "true" else "false"

end Scalar

namespace Value

/-- The scalar that a value is. -/
def scalar? : Value → Option Scalar
  | text s => some (.text s)
  | number x => some (.number x)
  | bool b => some (.bool b)
  | _ => none

/-- The text that a value is. -/
def text? : Value → Option String
  | text s => some s
  | _ => none

/-- The fields that a value has: those of an object. -/
def fields? : Value → Option Fields
  | object fields => some fields
  | _ => none

/-- The value under a key of an object. -/
def get? (v : Value) (key : String) : Option Value := v.fields?.bind (·.get? key)

/-- A list of texts. -/
def texts (ss : List String) : Value := list (ss.map text)

/-- A natural number as a value. -/
def ofNat (n : Nat) : Value := number (.ofInt n)

/-! ### The text form

The text form of a list joins those of its items by commas, null being empty there. Objects have
one fixed text form; one with a field `toString` of its own has none. -/

mutual

/-- The text form of a value, if it has one. -/
def form? : Value → Option String
  | null => some "null"
  | bool b => some (if b then "true" else "false")
  | number x => some x.toText
  | text s => some s
  | list items => (itemForms? items).map (",".intercalate ·)
  | object fields => if fields.any (·.1 == "toString") then none else some "[object Object]"

/-- The text forms of the items of a list. -/
def itemForms? : List Value → Option (List String)
  | [] => some []
  | null :: items => (itemForms? items).map ("" :: ·)
  | item :: items => do return (← form? item) :: (← itemForms? items)

end

/-! ### Truth -/

/-- Whether a value counts as true: all do but null, `false`, zero, what is not a number and the
empty text. -/
def isTruthy : Value → Bool
  | null => false
  | bool b => b
  | number x => !x.isZero && !x.isNaN
  | text s => s != ""
  | list _ => true
  | object _ => true

end Value

end CommentSearch
