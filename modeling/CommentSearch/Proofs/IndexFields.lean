import CommentSearch.Mapping.File
import CommentSearch.Shipped
import CommentSearch.Tool.Parameters
import CommentSearch.Proofs.PreparedDocuments

/-!
# The fields of the index

A name stands for something in the index if documents have a field of the name and every shipped
mapping declares it. `IndexField` tells which names do: the columns that all documents have
(`isColumn_of_mem`), their untouched copies (`hasRaw_of_mem`), the keys of metadata, and the copies
that a key has of its values (`isMetaCopy_of_mem`).
-/

namespace CommentSearch

/-! ### Shipped mappings -/

/-- The value at the end of a path of keys. -/
def Value.at? (v : Value) : List String → Param
  | [] => some v
  | key :: path => (v.get? key).bind fun w => w.at? path

namespace MappingFile

/-- The body that a mapping file holds. -/
def body : MappingFile → Value
  | beforeFive => Mapping.typed .marked
  | beforeSeven => Mapping.typed .separate
  | fromSeven => Mapping.typeless .separate

/-- Each mapping file is shipped, and its text is that of its body. -/
theorem read_shipped (file : MappingFile) :
    Shipped.files.read (joinPath "config/mappings/comment" file.name) =
      .ok (Json.write file.body) := by
  cases file <;> rfl

/-- The path to the mapping of the documents, which old backends expect under their type. -/
def documentsPath : MappingFile → List String
  | beforeFive | beforeSeven => ["mappings", "comment"]
  | fromSeven => ["mappings"]

/-- The declaration at a path in the mapping of the documents. -/
def declared? (file : MappingFile) (path : List String) : Param :=
  file.body.at? (file.documentsPath ++ path)

/-- The templates of the fields that documents bring along. -/
def templates (file : MappingFile) : List Value :=
  match file.declared? ["dynamic_templates"] with
  | some (.list templates) => templates
  | _ => []

end MappingFile

/-! ### Columns -/

/-- A field that every document of an accepted comment has, and that every shipped mapping
declares. -/
structure IsColumn (name : String) : Prop where
  prepared : ∀ {zone : TimeZone} {row : Value} {post metadata : Param} {p : MetaPolicy}
    {d : Document},
    Schema.comment.accepts row = true →
      Document.prepare zone (some row) post metadata p = .ok (some d) → (d.toValue.get? name).isSome
  declared : ∀ file : MappingFile, (file.declared? ["properties", name]).isSome

/-- A field with an untouched copy in every shipped mapping. -/
def HasRaw (name : String) : Prop :=
  ∀ file : MappingFile, (file.declared? ["properties", name, "fields", "raw"]).isSome

/-- A field that some indexed value of metadata has, and that the template of metadata declares in
every shipped mapping. -/
structure IsMetaCopy (name : String) : Prop where
  indexed : ∀ zone, ∃ v entry, MetaEntryValue.ofValue v zone = .ok entry ∧
    (entry.toValue.get? name).isSome
  declared : ∀ file : MappingFile, ∃ template ∈ file.templates,
    (template.at? ["template_meta", "mapping", "properties", name]).isSome

/-- The fields that are there in the index for some keys of metadata: a column, the untouched copy
of a column, the values of a key, or one of the copies of these. -/
inductive IndexField (isKey : String → Prop) : String → Prop
  | column {name : String} (column : IsColumn name) : IndexField isKey name
  | raw {name : String} (column : IsColumn name) (raw : HasRaw name) :
    IndexField isKey (name ++ ".raw")
  | values {key : String} (mem : isKey key) : IndexField isKey ("meta." ++ key)
  | copy {key name : String} (mem : isKey key) (copy : IsMetaCopy name) :
    IndexField isKey ("meta." ++ key ++ "." ++ name)

/-! ### The fields of documents -/

namespace Document

theorem exists_metadata_of_prepare {zone : TimeZone} {row : Value} {post metadata : Param}
    {p : MetaPolicy} {d : Document} (h : prepare zone (some row) post metadata p = .ok (some d)) :
    ∃ indexed, d = ⟨pick (withType row) commentNames, postRow post, indexed⟩ := by
  unfold prepare at h
  dsimp only at h
  split at h
  · obtain ⟨fields, -, h⟩ := bind_eq_ok_iff.1 h
    obtain ⟨indexed, -, h⟩ := bind_eq_ok_iff.1 h
    exact ⟨indexed, (Option.some.inj (Except.ok.inj h)).symm⟩
  · cases h

end Document

theorem isSome_get?_pick {row : Value} {names : List (String × String)} {name field : String}
    (hmem : (name, field) ∈ names) (h : (row.get? field).isSome) :
    (Fields.get? (pick row names) name).isSome := by
  rw [Option.isSome_iff_ne_none, ne_eq, Fields.get?_eq_none_iff]
  intro habsent
  obtain ⟨v, hv⟩ := Option.isSome_iff_exists.1 h
  refine habsent (name, v) (List.mem_filterMap.2 ⟨(name, field), hmem, ?_⟩) rfl
  dsimp only
  rw [hv, Option.map_some]

theorem isSome_get?_withType {row : Value} (h : Schema.comment.accepts row = true) {field : String}
    (hfield : field ∈ commentFields) : ((withType row).get? field).isSome := by
  have hrequired : ∀ name ∈ commentFields,
      name = "comment_type" ∨ name ∈ Schema.comment.requiredNames := by
    decide
  rw [withType, Value.get?_object, Fields.get?_set]
  split
  · rfl
  · rename_i hne
    have hneeded := (hrequired field hfield).resolve_left hne
    have hpresent := Schema.isSome_of_mem_requiredNames h hneeded
    cases row with
    | object fields => exact hpresent
    | null | bool | number | text | list => cases hpresent

/-- The names of the fields that documents have of their comments and posts. -/
def documentColumns : List String := commentNames.map (·.1) ++ postFields.map (·.1)

theorem isSome_get?_of_mem_documentColumns {zone : TimeZone} {row : Value}
    {post metadata : Param} {p : MetaPolicy} {d : Document}
    (haccepts : Schema.comment.accepts row = true)
    (h : Document.prepare zone (some row) post metadata p = .ok (some d)) {name : String}
    (hname : name ∈ documentColumns) : (d.toValue.get? name).isSome := by
  obtain ⟨indexed, rfl⟩ := Document.exists_metadata_of_prepare h
  rw [Document.get?_toValue, Option.isSome_or, Option.isSome_or]
  rcases List.mem_append.1 hname with hname | hname
  · obtain ⟨⟨_, field⟩, hmem, rfl⟩ := List.mem_map.1 hname
    have hfields : ∀ entry ∈ commentNames, entry.2 ∈ commentFields := by decide
    have hpicked := isSome_get?_pick hmem (isSome_get?_withType haccepts (hfields _ hmem))
    rw [hpicked, Bool.true_or]
  · have hlookup : ∀ name ∈ postFields.map (·.1), (postFields.lookup name).isSome := by decide
    have hpost : (Fields.get? (postRow post) name).isSome := by
      rw [get?_postRow, Option.isSome_map]
      exact hlookup name hname
    rw [hpost, Bool.true_or, Bool.or_true]

/-! ### Declarations -/

theorem isColumn_of_mem {name : String} (h : name ∈ documentColumns) : IsColumn name := by
  refine ⟨fun haccepts hprepare => isSome_get?_of_mem_documentColumns haccepts hprepare h, ?_⟩
  intro file
  revert name
  cases file <;> decide

/-- The columns of analysed texts. -/
def rawColumns : List String :=
  ["comment_author", "comment_author_email", "comment_author_url", "comment_author_IP",
    "comment_content", "comment_agent", "comment_type", "comment_approved"]

theorem hasRaw_of_mem {name : String} (h : name ∈ rawColumns) : HasRaw name := by
  intro file
  revert name
  cases file <;> decide

/-- The names of the copies that a key of metadata has of its values. -/
def metaCopies : List String :=
  ["value", "raw", "boolean", "long", "double", "date", "datetime", "time"]

theorem isMetaCopy_of_mem {name : String} (h : name ∈ metaCopies) : IsMetaCopy name := by
  refine ⟨fun zone => ?_, fun file => ?_⟩
  · -- no value has all of the copies: it is read as a number, or else as a date; neither of these
    -- two is read by the local zone
    have hcopies : ∀ name ∈ metaCopies,
        ((MetaEntryValue.ofText .universal "1").toValue.get? name).isSome ∨
          ((MetaEntryValue.ofText .universal "2024-02-03 04:05:06").toValue.get? name).isSome := by
      decide
    rcases hcopies name h with hnumber | hmoment
    · exact ⟨some (.text "1"), .ofText .universal "1", rfl, hnumber⟩
    · exact ⟨some (.text "2024-02-03 04:05:06"), .ofText .universal "2024-02-03 04:05:06", rfl,
        hmoment⟩
  · revert name
    cases file <;> decide

end CommentSearch
