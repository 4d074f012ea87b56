import CommentSearch.DateText.Reader
import CommentSearch.Settings

/-!
# Index documents

A stored comment becomes the document that is indexed: its own fields, fields of its post, and the
metadata that the indexing policy lets in. Each value of metadata is indexed as text, and also as a
truth value, a number or a date where it can be read as one.
-/

namespace CommentSearch

/-! ### The indexing policy -/

/-- A set of metadata keys: all, or those of a list. -/
inductive KeySet where
  | all
  | only (keys : List String)
deriving DecidableEq

/-- Whether a key belongs to a set. -/
def KeySet.has : KeySet → String → Bool
  | all, _ => true
  | only keys, key => keys.contains key

/-- The value that stands for a set of keys. -/
def KeySet.toValue : KeySet → Value
  | all => .bool true
  | only keys => .texts keys

/-- Which metadata is indexed. -/
structure MetaPolicy where
  /-- The protected keys that are indexed. -/
  allowedProtected : KeySet
  /-- The public keys that are not. -/
  excludedPublic : KeySet
  /-- The keys that are indexed whatever the two sets say. -/
  whitelist : List String
deriving DecidableEq

/-- Whether a metadata key is protected: it begins with an underscore. -/
def isProtectedKey (key : String) : Bool := key.toList.head? = some '_'

namespace MetaPolicy

/-- Whether the values of a key are indexed. -/
def allows (p : MetaPolicy) (key : String) : Bool :=
  p.whitelist.contains key ||
    if isProtectedKey key then p.allowedProtected.has key else !p.excludedPublic.has key

/-- The set of keys that a flag extends to all, or that a list names. -/
def keySet (policies : Fields) (flag list : String) : KeySet :=
  if (Settings.flag? policies flag).getD false then .all
  else .only ((Settings.texts? policies list).getD [])

/-- The policy that settings give. -/
def ofSettings (policies : Fields) : MetaPolicy where
  allowedProtected := keySet policies "meta.allow_all_protected" "meta.allowed_protected_keys"
  excludedPublic := keySet policies "meta.exclude_all_public" "meta.excluded_public_keys"
  whitelist := (Settings.texts? policies "meta.whitelist_keys").getD []

/-- The value that stands for a policy. -/
def toValue (p : MetaPolicy) : Value :=
  .object [("allowedProtectedKeys", p.allowedProtected.toValue),
    ("excludedPublicKeys", p.excludedPublic.toValue), ("whitelistKeys", .texts p.whitelist)]

end MetaPolicy

/-! ### Metadata -/

/-- The fields that a value lists: those of an object, the items of a list and the characters of a
text under their positions; a fault where there is no value. -/
def listedFields : Param → Except Fault Fields
  | none | some .null => .error .noFields
  | some (.object fields) => .ok fields
  | some (.list items) => .ok (.ofItems items)
  | some (.text s) => .ok (.ofItems (s.toList.map fun c => .text (String.ofList [c])))
  | some _ => .ok []

/-- The metadata that a policy lets in, each key with the list of its values. -/
def allowedMeta (fields : Fields) (p : MetaPolicy) : List (String × List Value) :=
  (fields.filter fun (key, _) => p.allows key && key != Fields.reservedKey).map fun (key, v) =>
    match v with
    | .list values => (key, values)
    | v => (key, [v])

/-- The text that a value of metadata is indexed as: null and `false` are empty, `true` is one. -/
def metaText (v : Param) : Except Fault String :=
  match v with
  | some .null => .ok ""
  | some (.bool b) => .ok (if b then "1" else "")
  | v => textForm v

/-- What a text can be read as besides. -/
inductive MetaReading where
  | number (x : Number)
  /-- A date and time in the stored form. -/
  | moment (stored : String)
  | nothing
deriving DecidableEq

/-- The reading of a text: a number if it is numeric, else a date if it is one in a local zone. -/
def MetaReading.ofText (zone : TimeZone) (s : String) : MetaReading :=
  if Number.isNumericText s then .number (.ofText s)
  else if Text.isAllBlank s then .nothing
  else match DateText.stored? s zone with
    | some stored => .moment stored
    | none => .nothing

/-- A value of metadata as it is indexed. -/
structure MetaEntryValue where
  text : String
  isTrue : Bool
  reading : MetaReading
deriving DecidableEq

namespace MetaEntryValue

/-- The words that count as true. -/
def trueWords : List String := ["1", "true", "on", "yes"]

/-- The indexed form of a text, with dates in a local zone. -/
def ofText (zone : TimeZone) (s : String) : MetaEntryValue :=
  ⟨s, trueWords.contains (Text.toSmall (Text.trim s)), .ofText zone s⟩

/-- The indexed form of a value, with dates in a local zone. -/
def ofValue (v : Param) (zone : TimeZone := .universal) : Except Fault MetaEntryValue := do
  return ofText zone (← metaText v)

/-- The date and the time of day of a stored form. -/
def halves (stored : String) : String × String :=
  (String.ofList (stored.toList.take 10), String.ofList (stored.toList.drop 11))

/-- The value that stands for an indexed value. -/
def toValue (e : MetaEntryValue) : Value :=
  .object <| [("value", .text e.text), ("raw", .text e.text), ("boolean", .bool e.isTrue)] ++
    match e.reading with
    | .number x => [("long", .number x.trunc), ("double", .number x)]
    | .moment stored =>
      [("datetime", .text stored), ("date", .text (halves stored).1),
        ("time", .text (halves stored).2)]
    | .nothing => []

end MetaEntryValue

/-- The indexed forms of all values of metadata. -/
def indexedMeta (zone : TimeZone) (fields : List (String × List Value)) :
    Except Fault (List (String × List MetaEntryValue)) :=
  fields.mapM fun (key, values) => do
    return (key, ← values.mapM fun v => MetaEntryValue.ofValue (some v) zone)

/-- Metadata whose values are lists already. -/
def metaLists (fields : Fields) : Except Fault (List (String × List Value)) :=
  fields.mapM fun (key, v) =>
    match v with
    | .list values => .ok (key, values)
    | _ => .error .notList

/-- The indexed forms of metadata whose values are lists already. -/
def indexedMetaLists (fields : Fields) (zone : TimeZone := .universal) :
    Except Fault (List (String × List MetaEntryValue)) := do
  return (← indexedMeta zone (← metaLists fields)).filter fun (key, _) => key != Fields.reservedKey

/-- The value that stands for indexed metadata. -/
def indexedMetaValue (fields : List (String × List MetaEntryValue)) : Value :=
  .object (fields.map fun (key, values) => (key, .list (values.map MetaEntryValue.toValue)))

/-! ### Documents -/

/-- The fields of a stored comment that are indexed. -/
def commentFields : List String :=
  ["comment_ID", "comment_post_ID", "comment_author", "comment_author_email", "comment_author_url",
    "comment_author_IP", "comment_date", "comment_date_gmt", "comment_content", "comment_karma",
    "comment_approved", "comment_agent", "comment_type", "comment_parent", "user_id"]

/-- The indexed fields of a post, each with the name that it has in the document of a comment. -/
def postFields : List (String × String) :=
  [("comment_post_author_ID", "post_author"), ("comment_post_status", "post_status"),
    ("comment_post_type", "post_type"), ("comment_post_name", "post_name"),
    ("comment_post_parent", "post_parent")]

/-- The fields of a row under their names in the document; those that are absent stay so. -/
def pick (row : Value) (names : List (String × String)) : Fields :=
  names.filterMap fun (name, field) => (row.get? field).map fun v => (name, v)

/-- The indexed fields of a stored comment under their names, with the identifier under a second
name. -/
def commentNames : List (String × String) :=
  ("ID", "comment_ID") :: commentFields.map fun name => (name, name)

/-- The indexed fields of a stored comment. -/
def commentRow (comment : Param) : Except Fault Fields :=
  match comment with
  | none | some .null => .error .noFields
  | some row => .ok (pick row commentNames)

/-- The type of a stored comment; one without a type is a plain comment. -/
def commentType (comment : Value) : Value :=
  match comment.get? "comment_type" with
  | some v => if v.isTruthy then v else .text "comment"
  | none => .text "comment"

/-- A stored comment with its type filled in. -/
def withType (comment : Value) : Value :=
  .object ((comment.fields?.getD []).set "comment_type" (commentType comment))

/-- The fields that a document has of its post; without the post, or without one of its fields, they
are null. -/
def postRow (post : Param) : Fields :=
  postFields.map fun (name, field) =>
    (name, match post.bind (·.get? field) with
      | some v => v
      | none => .null)

/-- An index document. -/
structure Document where
  comment : Fields
  post : Fields
  metadata : List (String × List MetaEntryValue)

namespace Document

/-- The document of a comment, its post and its metadata, with dates in a local zone; none for a
value that counts as no comment. -/
def prepare (zone : TimeZone) (comment post metadata : Param) (p : MetaPolicy) :
    Except Fault (Option Document) :=
  match comment with
  | none => .ok none
  | some row =>
    if row.isTruthy then do
      let metadata ← indexedMeta zone (allowedMeta (← listedFields metadata) p)
      return some ⟨pick (withType row) commentNames, postRow post, metadata⟩
    else .ok none

/-- The value that stands for a document. -/
def toValue (d : Document) : Value :=
  .object (d.comment ++ d.post ++ [("meta", indexedMetaValue d.metadata)])

/-- The identifier of the comment of a document. -/
def commentId (d : Document) : Param := d.comment.get? "comment_ID"

end Document

end CommentSearch
