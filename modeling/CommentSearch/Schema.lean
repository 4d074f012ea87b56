import CommentSearch.Parameter

/-!
# Validation

A schema says which values are accepted. `Schema.issues` lists what is wrong with a value, and
`Schema.strip` keeps of an accepted value what the schema names.

The entries of metadata queries form a recursive grammar, which follows the value: a group has a
list of entries under `clauses`, and whatever is no group can be a clause.
-/

namespace CommentSearch

/-! ### Entries of metadata queries -/

/-- The fields of an object that are named, in the order of the names, if each is accepted. -/
def acceptedFields (fields : Fields) : List (String × (Value → Bool)) → Option Fields
  | [] => some []
  | (name, accepts) :: rest =>
    match fields.get? name with
    | none => acceptedFields fields rest
    | some v => if accepts v then (acceptedFields fields rest).map ((name, v) :: ·) else none

/-- Whether a value is a text. -/
def isText (v : Value) : Bool := v.text?.isSome

/-- Whether a value is a scalar and a number, if it is one. -/
def isPlainScalar (v : Value) : Bool := v.scalar?.isSome && v.kind != .nan

/-- Whether a value is a scalar, a list of scalars, or null. -/
def isMetaValue : Value → Bool
  | .null => true
  | .list items => items.all isPlainScalar
  | v => isPlainScalar v

/-- The stripped form of an object as a clause of a metadata query. -/
def metaClause? (fields : Fields) : Option Value :=
  (acceptedFields fields
    [("key", isText), ("value", isMetaValue), ("compare", isText), ("type", isText)]).map .object

mutual

/-- The stripped form of a value as a group of a metadata query. -/
def metaGroup? : Value → Option Value
  | .object fields =>
    match metaClauses? fields, acceptedFields fields [("relation", isText)] with
    | some entries, some relation => some (.object (relation ++ [("clauses", .list entries)]))
    | _, _ => none
  | _ => none

/-- The stripped forms of the entries under `clauses`. -/
def metaClauses? : List (String × Value) → Option (List Value)
  | [] => none
  | (key, v) :: fields =>
    if key = "clauses" then
      match v with
      | .list items => metaEntries? items
      | _ => none
    else metaClauses? fields

/-- The stripped forms of values as entries of a metadata query, if each is one: a group where it
can be, or else a clause. -/
def metaEntries? : List Value → Option (List Value)
  | [] => some []
  | v :: vs =>
    let entry := match metaGroup? v with
      | some group => some group
      | none => v.fields?.bind metaClause?
    match entry, metaEntries? vs with
    | some entry, some entries => some (entry :: entries)
    | _, _ => none

end

/-- The stripped form of a value as a metadata query: a list of entries or a group. -/
def metaQuery? : Value → Option Value
  | .list items => (metaEntries? items).map .list
  | v => metaGroup? v

/-! ### Schemas -/

/-- What values are accepted. -/
inductive Schema where
  | text
  | number
  | bool
  /-- One of several forms, of which the first that fits counts. -/
  | anyOf (forms : List Schema)
  /-- A list of items. -/
  | list (item : Schema)
  /-- An object with any keys. -/
  | record (item : Schema)
  /-- An object with named fields; each may be optional. -/
  | object (fields : List (String × Bool × Schema))
  /-- Null, or another value. -/
  | nullable (form : Schema)
  /-- A metadata query. -/
  | metaQuery

namespace Schema

/-- The complaint about a required field that is missing. -/
def missing : Schema → Complaint
  | anyOf _ | metaQuery => .noForm
  | nullable form => form.missing
  | _ => .missing

/-- The complaint about a value of another kind. -/
def mismatch (expected : Kind) (v : Value) : List Issue := [⟨[], .mismatch expected v.kind⟩]

mutual

/-- What is wrong with a value. -/
def issues : Schema → Value → List Issue
  | text, v => if v.kind = .text then [] else mismatch .text v
  | number, v => if v.kind = .number then [] else mismatch .number v
  | bool, v => if v.kind = .bool then [] else mismatch .bool v
  | anyOf forms, v => if anyAccepts forms v then [] else [⟨[], .noForm⟩]
  | list item, v =>
    match v with
    | .list items => items.zipIdx.flatMap fun (v, i) =>
      (issues item v).map (Issue.below (toString i))
    | v => mismatch .list v
  | record item, v =>
    match v with
    | .object fields => (listed fields).flatMap fun (key, v) =>
      (issues item v).map (Issue.below key)
    | v => mismatch .object v
  | object shape, v =>
    match v with
    | .object fields => fieldIssues shape fields
    | v => mismatch .object v
  | nullable form, v =>
    match v with
    | .null => []
    | v => issues form v
  | metaQuery, v => if (metaQuery? v).isSome then [] else [⟨[], .noForm⟩]

/-- Whether one of several forms fits a value. -/
def anyAccepts : List Schema → Value → Bool
  | [], _ => false
  | form :: forms, v => (issues form v).isEmpty || anyAccepts forms v

/-- What is wrong with the named fields of an object, in the order of the names. -/
def fieldIssues : List (String × Bool × Schema) → Fields → List Issue
  | [], _ => []
  | (name, optional, schema) :: shape, fields =>
    (match fields.get? name with
      | some v => (issues schema v).map (Issue.below name)
      | none => if optional then [] else [⟨[name], schema.missing⟩]) ++ fieldIssues shape fields

end

/-- Whether a schema accepts a value. -/
def accepts (s : Schema) (v : Value) : Bool := (s.issues v).isEmpty

mutual

/-- What a schema keeps of a value that it accepts. -/
def strip : Schema → Value → Value
  | anyOf forms, v => stripAny forms v
  | list item, v =>
    match v with
    | .list items => .list (items.map fun v => strip item v)
    | v => v
  | record item, v =>
    match v with
    | .object fields =>
      let kept := fields.filter fun (key, _) => key != Fields.reservedKey
      .object (kept.map fun (key, v) => (key, strip item v))
    | v => v
  | object shape, v =>
    match v with
    | .object fields => .object (stripFields shape fields)
    | v => v
  | nullable form, v =>
    match v with
    | .null => .null
    | v => strip form v
  | metaQuery, v => (metaQuery? v).getD v
  | text, v => v
  | number, v => v
  | bool, v => v

/-- What the first form that fits keeps of a value. -/
def stripAny : List Schema → Value → Value
  | [], v => v
  | form :: forms, v => if (issues form v).isEmpty then strip form v else stripAny forms v

/-- What is kept of the fields of an object: the named ones, in the order of the names. -/
def stripFields : List (String × Bool × Schema) → Fields → Fields
  | [], _ => []
  | (name, _, schema) :: shape, fields =>
    match fields.get? name with
    | some v => (name, strip schema v) :: stripFields shape fields
    | none => stripFields shape fields

end

/-- What a schema keeps of a value, or what is wrong with it. -/
def validate (s : Schema) (v : Value) : Except (List Issue) Value :=
  if s.accepts v then .ok (s.strip v) else .error (s.issues v)

/-! ### Common forms -/

/-- A text, a number or a truth value. -/
def scalar : Schema := anyOf [text, number, bool]

/-- A scalar or a list of scalars. -/
def scalars : Schema := anyOf [scalar, list scalar]

/-- A text or a number. -/
def identifier : Schema := anyOf [text, number]

end Schema

end CommentSearch
