import CommentSearch.Yaml.Atom
import CommentSearch.Yaml.Reader

/-!
# The content of YAML documents

A document becomes a value: its plain scalars become what they stand for, and its mappings objects.
A key may occur once in a mapping. The key `<<` is none itself: its value is a mapping, or a list of
mappings, whose pairs are merged into the mapping around it, where they yield to the mapping's own
pairs and to pairs merged before.
-/

namespace CommentSearch.Yaml

/-! ### Keys -/

/-- The text form of an item of a list that is a key: nothing is empty there, and a list within the
list has none. -/
def Node.itemForm? : Node → Option String
  | .empty => some ""
  | .plain s => match Atom.ofText s with
    | .null => some ""
    | atom => some atom.form
  | .quoted s => some s
  | .list _ => none
  | .mapping _ => some "[object Object]"

/-- The key that a node is. -/
def Node.key? : Node → Option String
  | .empty => some Atom.null.form
  | .plain s => some (Atom.ofText s).form
  | .list items => (items.mapM Node.itemForm?).map (",".intercalate ·)
  | node => node.itemForm?

/-- Whether a key merges its value into the mapping around it. -/
def Node.isMergeKey : Node → Bool
  | .plain s => s = "<<"
  | _ => false

/-! ### Mappings -/

/-- A mapping of which some pairs have been read. -/
structure PartialMapping where
  fields : Fields := []
  /-- The keys of merged pairs, which pairs of the mapping's own may still replace. -/
  merged : List String := []

namespace PartialMapping

/-- The mapping with one more pair of its own. -/
def put (m : PartialMapping) (key : String) (v : Value) : Option PartialMapping :=
  if (m.fields.get? key).isSome && !m.merged.contains key then none
  else some ⟨m.fields.set key v, m.merged.filter (· != key)⟩

/-- The mapping with one more merged pair. -/
def offer (m : PartialMapping) (field : String × Value) : PartialMapping :=
  if (m.fields.get? field.1).isSome then m
  else ⟨m.fields.set field.1 field.2, field.1 :: m.merged⟩

/-- The mapping with the pairs of a value merged into it. Those of a list are its items under their
positions. -/
def mergeOne (m : PartialMapping) : Value → Option PartialMapping
  | .object fields => some (fields.foldl offer m)
  | .list items => some ((Fields.ofItems items).foldl offer m)
  | _ => none

/-- The greatest length of a list whose items are merged. -/
def longestMerge : Nat := 20

/-- The mapping with the pairs of a value, or of the items of a list, merged into it. -/
def merge (m : PartialMapping) : Value → Option PartialMapping
  | .list items => if items.length ≤ longestMerge then items.foldlM mergeOne m else none
  | v => m.mergeOne v

end PartialMapping

/-! ### Documents -/

mutual

/-- The value of a node. -/
def Node.value? : Node → Option Value
  | .empty => some .null
  | .plain s => some (Atom.ofText s).toValue
  | .quoted s => some (.text s)
  | .list items => (values? items).map .list
  | .mapping pairs => (fields? {} pairs).map fun m => .object m.fields

/-- The values of the items of a list. -/
def values? : List Node → Option (List Value)
  | [] => some []
  | item :: items => do return (← item.value?) :: (← values? items)

/-- A mapping with pairs after those already read. -/
def fields? (m : PartialMapping) : List (Node × Node) → Option PartialMapping
  | [] => some m
  | (key, node) :: pairs => do
    let _ ← key.value?
    let name ← key.key?
    let v ← node.value?
    fields? (← if key.isMergeKey then m.merge v else m.put name v) pairs

end

/-- The value of a text with one YAML document; null if it is empty. -/
def read? (s : String) : Option Value := (document? s).bind Node.value?

end CommentSearch.Yaml
