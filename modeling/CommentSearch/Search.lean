import CommentSearch.Query
import CommentSearch.Request
import CommentSearch.Settings

/-!
# Free-text search

A search term is matched against the search fields in three tiers: as a phrase, by all of its words,
and by similar words. The weight of the tiers, the fuzziness of the last and the fields of a request
that names none come from the settings.
-/

namespace CommentSearch

/-! ### Options -/

/-- The search fields of settings that name none. -/
def commonSearchFields : List String :=
  ["comment_author", "comment_author_email", "comment_author_url", "comment_author_IP",
    "comment_content"]

/-- The options of a search. They are passed on as they stand, whatever their type. -/
structure SearchOptions where
  defaultFields : Value
  phraseBoost : Value
  matchBoost : Value
  fuzziness : Value

namespace SearchOptions

/-- The options that settings give. -/
def ofSettings (settings : Fields) : SearchOptions where
  defaultFields :=
    .texts ((Settings.texts? settings "search.default_fields").getD commonSearchFields)
  phraseBoost := .number ((Settings.number? settings "search.phrase_boost").getD (.finite 4))
  matchBoost := .number ((Settings.number? settings "search.match_boost").getD (.finite 2))
  fuzziness := (Settings.numberOrText? settings "search.fuzziness").getD (.number (.finite 1))

/-- The options with those replaced that an object names. -/
def overriddenBy (o : SearchOptions) (fields : Fields) : SearchOptions where
  defaultFields := (fields.get? "defaultSearchFields").getD o.defaultFields
  phraseBoost := (fields.get? "phraseBoost").getD o.phraseBoost
  matchBoost := (fields.get? "matchBoost").getD o.matchBoost
  fuzziness := (fields.get? "fuzziness").getD o.fuzziness

/-- The value that stands for options. -/
def toValue (o : SearchOptions) : Value :=
  .object [("defaultSearchFields", o.defaultFields), ("phraseBoost", o.phraseBoost),
    ("matchBoost", o.matchBoost), ("fuzziness", o.fuzziness)]

end SearchOptions

/-! ### Fields -/

/-- The items that a value has: those of a list, or the characters of a text. -/
def itemsOf : Value → Except Fault (List Value)
  | .list items => .ok items
  | .text s => .ok (s.toList.map fun c => .text (String.ofList [c]))
  | _ => .error .notList

/-- Whether a value has a length, and that is zero. -/
def hasNoLength : Value → Bool
  | .list items => items.isEmpty
  | .text s => s = ""
  | v => match v.get? "length" with
    | some (.number x) => x.isZero
    | _ => false

/-- The search field of a metadata key. -/
def metaSearchField (key : Value) : Except Fault Value := do
  return .text ("meta." ++ (← textForm (some key)) ++ ".value")

/-- The fields of a selection: a list of fields, or an object that names `fields` and the keys of
metadata under `meta`. A selection that is absent or has neither takes the default fields. -/
def searchFields (selection : Param) (defaults : Value) : Except Fault (List Value) :=
  match selection with
  | none | some .null => itemsOf defaults
  | some v => do
    let named : Param := match v with
      | .list items => some (.list items)
      | v => v.get? "fields"
    let explicit : Value := match named with
      | none | some .null => .list []
      | some v => v
    let metaKeys : List Value := match v.get? "meta" with
      | none => []
      | some (.list keys) => keys
      | some key => [key]
    if hasNoLength explicit && metaKeys.isEmpty then itemsOf defaults
    else
      return (← itemsOf explicit) ++
        (← (metaKeys.filter fun key => !Param.isEmpty (some key)).mapM metaSearchField)

/-! ### The query -/

/-- The query of a search term. -/
def searchQuery (words : Value) (selection : Param) (options : SearchOptions) :
    Except Fault Query := do
  let fields ← searchFields selection options.defaultFields
  return .should
    [.multiMatch words fields (.phrase options.phraseBoost),
      .multiMatch words fields (.allWords options.matchBoost),
      .multiMatch words fields (.similar options.fuzziness)]

end CommentSearch
