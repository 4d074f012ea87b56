import CommentSearch.Proofs.MergedSettings
import CommentSearch.Proofs.Session

/-!
# The layers of the settings of queries

The settings of queries come in three layers, a text of overrides above a file of overrides above a
base file. Each layer is what its document holds, and nothing where there is no such document
(`Layers.IsOf`). What is read at a path is the value of the highest layer that does not leave the
path to those below it, each getter reads such a value by its kind (`Reading.ofValue`), and a layer
without a document changes nothing (`ofQueries_isLayered`).
-/

namespace CommentSearch

/-! ### Variables -/

namespace Environment

/-- The variables other than one. -/
def without (env : Environment) (name : String) : Environment := env.filter (·.1 != name)

theorem lookup_without_self (env : Environment) (name : String) :
    (env.without name).lookup name = none := by
  rw [without, lookup_filter_ne, if_pos rfl]

theorem lookup_without_of_ne (env : Environment) {name other : String} (h : other ≠ name) :
    (env.without name).lookup other = env.lookup other := by
  rw [without, lookup_filter_ne, if_neg h]

theorem nonBlank?_eq_some_iff {env : Environment} {name text : String} :
    env.nonBlank? name = some text ↔
      env.lookup name = some text ∧ Text.isAllBlank text = false := by
  rw [nonBlank?, Option.filter_eq_some_iff, Bool.not_eq_true']

end Environment

namespace Settings

/-- The variable that holds overrides as text. -/
def overridesTextVariable : String := "COMMENT_QUERY_OVERRIDES_JSON"

/-- The variable that names the file of overrides. -/
def overridesFileVariable : String := "COMMENT_QUERY_OVERRIDES_FILE"

variable (readYaml : YamlReader) (env : Environment) (files : Files)

/-- The file of the lowest layer. -/
def basePath : String := (env.nonEmpty? "COMMENT_QUERY_CONFIG_PATH").getD queryFile

/-! ### Documents -/

/-- The text of overrides is set, is not blank, and is the JSON of an object. -/
def TextDocument (fields : Fields) : Prop :=
  ∃ text, env.lookup overridesTextVariable = some text ∧ Text.isAllBlank text = false ∧
    Json.read? text = some (.object fields)

/-- The file of overrides is named by a path that is not blank, can be read, and holds the JSON of
an object. -/
def FileDocument (fields : Fields) : Prop :=
  ∃ path text, env.lookup overridesFileVariable = some path ∧ Text.isAllBlank path = false ∧
    files.read path = .ok text ∧ Json.read? text = some (.object fields)

/-- The base file can be read, and holds the YAML of a mapping. -/
def BaseDocument (fields : Fields) : Prop :=
  ∃ text, files.read (basePath env) = .ok text ∧ readYaml text = some (.object fields)

/-- A layer is what a document holds, and nothing if there is no such document. -/
structure IsLayerOf (layer : Fields) (document : Fields → Prop) : Prop where
  held : ∀ fields, document fields → layer = fields
  void : (∀ fields, ¬document fields) → layer = []

/-- Three layers of settings. -/
structure Layers where
  text : Fields
  file : Fields
  base : Fields

/-- The layers from the highest to the lowest. -/
def Layers.toList (l : Layers) : List Fields := [l.text, l.file, l.base]

/-- The layers are those of the three documents of the settings of queries. -/
structure Layers.IsOf (l : Layers) : Prop where
  text : IsLayerOf l.text (TextDocument env)
  file : IsLayerOf l.file (FileDocument env files)
  base : IsLayerOf l.base (BaseDocument readYaml env files)

/-! ### The layers that are read -/

/-- The layers as they are read from the environment and the files. -/
def layers : Layers where
  text := ((env.nonBlank? overridesTextVariable).map ofJson).getD []
  file := ((env.nonBlank? overridesFileVariable).map (ofJsonFile files)).getD []
  base := ofYamlFile readYaml files (basePath env)

theorem ofQueries_eq : ofQueries readYaml env files =
    overlay (overlay (layers readYaml env files).base (layers readYaml env files).file)
      (layers readYaml env files).text := by
  have hnothing (fields : Fields) : overlay fields [] = fields := overlay.eq_1 fields
  unfold ofQueries layers overridesTextVariable overridesFileVariable
  cases env.nonBlank? "COMMENT_QUERY_OVERRIDES_JSON" with
  | none =>
    rw [Option.map_none, Option.getD_none, hnothing]
    cases env.nonBlank? "COMMENT_QUERY_OVERRIDES_FILE" with
    | none => exact (hnothing _).symm
    | some path => rfl
  | some text =>
    cases env.nonBlank? "COMMENT_QUERY_OVERRIDES_FILE" with
    | none => exact congrArg (overlay · (ofJson text)) (hnothing _).symm
    | some path => rfl

section

variable {layer : Fields} {document other : Fields → Prop}

theorem isLayerOf_nil (h : ∀ fields, ¬document fields) : IsLayerOf [] document where
  held fields hfields := absurd hfields (h fields)
  void _ := rfl

theorem IsLayerOf.congr (h : IsLayerOf layer document)
    (hiff : ∀ fields, document fields ↔ other fields) : IsLayerOf layer other where
  held fields hfields := h.held fields ((hiff fields).2 hfields)
  void hvoid := h.void fun fields hfields => hvoid fields ((hiff fields).1 hfields)

/-- The fields of a value that may be absent are those of an object. -/
theorem isLayerOf_fields? (v : Option Value) :
    IsLayerOf ((v.bind Value.fields?).getD []) fun fields => v = some (.object fields) := by
  refine ⟨fun fields hfields => by rw [hfields]; rfl, fun hvoid => ?_⟩
  match v with
  | none | some .null | some (.bool _) | some (.number _) | some (.text _) | some (.list _) => rfl
  | some (.object fields) => exact absurd rfl (hvoid fields)

/-- What is read by way of something that may be missing is nothing where that is. -/
theorem isLayerOf_map {α : Type} (given : Option α) {read : α → Fields}
    {document : α → Fields → Prop} (h : ∀ a, IsLayerOf (read a) (document a)) :
    IsLayerOf ((given.map read).getD []) fun fields => ∃ a, given = some a ∧ document a fields := by
  cases given with
  | none => exact isLayerOf_nil fun fields ⟨a, ha, _⟩ => nomatch ha
  | some a =>
    exact (h a).congr fun fields =>
      ⟨fun hfields => ⟨a, rfl, hfields⟩, fun ⟨b, hb, hfields⟩ => Option.some.inj hb ▸ hfields⟩

theorem isLayerOf_ofYamlFile (path : String) :
    IsLayerOf (ofYamlFile readYaml files path) fun fields =>
      ∃ text, files.read path = .ok text ∧ readYaml text = some (.object fields) := by
  unfold ofYamlFile
  cases hread : files.read path with
  | error e => exact isLayerOf_nil fun fields ⟨text, htext, _⟩ => nomatch htext
  | ok text =>
    exact (isLayerOf_fields? (readYaml text)).congr fun fields =>
      ⟨fun h => ⟨text, rfl, h⟩, fun ⟨other, hother, h⟩ => Except.ok.inj hother ▸ h⟩

/-- A file of JSON is read as one of YAML is, by another reader. -/
theorem isLayerOf_ofJsonFile (path : String) : IsLayerOf (ofJsonFile files path) fun fields =>
    ∃ text, files.read path = .ok text ∧ Json.read? text = some (.object fields) :=
  isLayerOf_ofYamlFile Json.read? files path

end

/-- The layers that are read are those of the documents. -/
theorem isOf_layers : (layers readYaml env files).IsOf readYaml env files where
  text := (isLayerOf_map (env.nonBlank? overridesTextVariable)
    fun text => isLayerOf_fields? (Json.read? text)).congr fun fields => by
      simp only [TextDocument, Environment.nonBlank?_eq_some_iff, and_assoc]
  file := (isLayerOf_map (env.nonBlank? overridesFileVariable)
    (isLayerOf_ofJsonFile files)).congr fun fields => by
      simp only [FileDocument, Environment.nonBlank?_eq_some_iff, and_assoc, exists_and_left]
  base := isLayerOf_ofYamlFile readYaml files (basePath env)

/-! ### Layers of JSON -/

theorem isDistinct_of_read? {text : String} {fields : Fields}
    (h : Json.read? text = some (.object fields)) : fields.IsDistinct :=
  Json.isDistinct_of_read? h

theorem IsLayerOf.isDistinct {layer : Fields} {document : Fields → Prop}
    (h : IsLayerOf layer document) (hdocument : ∀ fields, document fields → fields.IsDistinct) :
    layer.IsDistinct := by
  by_cases hvoid : ∀ fields, ¬document fields
  · rw [h.void hvoid]
    exact .nil
  · obtain ⟨fields, hfields⟩ := not_forall_not.1 hvoid
    rw [h.held fields hfields]
    exact hdocument fields hfields

theorem isDistinct_text : (layers readYaml env files).text.IsDistinct :=
  (isOf_layers readYaml env files).text.isDistinct fun _ ⟨_, _, _, hread⟩ =>
    isDistinct_of_read? hread

theorem isDistinct_file : (layers readYaml env files).file.IsDistinct :=
  (isOf_layers readYaml env files).file.isDistinct fun _ ⟨_, _, _, _, _, hread⟩ =>
    isDistinct_of_read? hread

/-! ### Without a layer -/

theorem basePath_without {name : String} (h : name ≠ "COMMENT_QUERY_CONFIG_PATH") :
    basePath (env.without name) = basePath env := by
  unfold basePath Environment.nonEmpty?
  rw [Environment.lookup_without_of_ne env h.symm]

/-- Without the text of overrides, the settings are those of the two layers below it. -/
theorem ofQueries_without_text : ofQueries readYaml (env.without overridesTextVariable) files =
    overlay (layers readYaml env files).base (layers readYaml env files).file := by
  rw [ofQueries_eq]
  unfold layers Environment.nonBlank?
  dsimp only
  rw [Environment.lookup_without_self, Environment.lookup_without_of_ne env (by decide),
    basePath_without env (by decide)]
  exact overlay.eq_1 _

/-- Without the file of overrides, the settings are those of the two layers around it. -/
theorem ofQueries_without_file : ofQueries readYaml (env.without overridesFileVariable) files =
    overlay (layers readYaml env files).base (layers readYaml env files).text := by
  rw [ofQueries_eq]
  unfold layers Environment.nonBlank?
  dsimp only
  rw [Environment.lookup_without_self, Environment.lookup_without_of_ne env (by decide),
    basePath_without env (by decide)]
  exact congrArg (overlay · _) (overlay.eq_1 _)

/-- Where no YAML can be read, the settings are those of the two layers of overrides. -/
theorem ofQueries_without_base : ofQueries (fun _ => none) env files =
    overlay (overlay [] (layers readYaml env files).file) (layers readYaml env files).text := by
  have hbase : (layers (fun _ => none) env files).base = [] :=
    (isOf_layers _ env files).base.void fun _ ⟨_, _, hread⟩ => by cases hread
  rw [ofQueries_eq, hbase]
  rfl

/-! ### What is read -/

/-- What the getters read at a path, each of its own type. -/
structure Reading where
  number : Option Number := none
  numberOrText : Option Value := none
  texts : Option (List String) := none
  text : Option String := none

/-- What the getters read of settings at a path. -/
def readingAt (settings : Fields) (path : String) : Reading where
  number := number? settings path
  numberOrText := numberOrText? settings path
  texts := texts? settings path
  text := text? settings path

/-- What the getters read where a value stands. A number and a text that spells one are numbers, any
other text that is not blank counts without the blanks around it, and of a list the texts count. -/
def Reading.ofValue : Value → Reading
  | .number x => if x.isNaN then {} else { number := x, numberOrText := some (.number x) }
  | .text s =>
    let x := Number.ofText s
    if Text.isAllBlank s then { text := s }
    else if x.isNaN then { numberOrText := some (.text (Text.trim s)), text := s }
    else { number := x, numberOrText := some (.number x), text := s }
  | .list items => { texts := items.filterMap Value.text? }
  | .null | .bool _ | .object _ => {}

section

variable {settings : Fields} {path : String}

theorem readingAt_eq_ofValue {v : Value} (h : at? settings path = some v) :
    readingAt settings path = .ofValue v := by
  unfold readingAt number? numberOrText? texts? text?
  rw [h]
  cases v with
  | null | bool | list | object => rfl
  | number x => cases hnan : x.isNaN <;> simp [Reading.ofValue, asNumber?, hnan, Value.text?]
  | text s =>
    cases hblank : Text.isAllBlank s <;> cases hnan : (Number.ofText s).isNaN <;>
      simp [Reading.ofValue, asNumber?, hblank, hnan, Value.text?]

theorem readingAt_eq_empty (h : at? settings path = none) : readingAt settings path = {} := by
  unfold readingAt number? numberOrText? texts? text?
  rw [h]
  rfl

end

variable {readYaml env files}

/-- The layers above one of three, and which one it is. -/
theorem eq_of_toList_eq {l : Layers} {higher lower : List Fields} {layer : Fields}
    (h : l.toList = higher ++ layer :: lower) :
    (higher = [] ∧ layer = l.text) ∨ (higher = [l.text] ∧ layer = l.file) ∨
      (higher = [l.text, l.file] ∧ layer = l.base) := by
  unfold Layers.toList at h
  match higher with
  | [] => simp_all
  | [_] => simp_all
  | [_, _] => simp_all
  | _ :: _ :: _ :: _ => simp at h

/-- The settings have at a path what a layer has there, if the higher ones leave the path to it and
it decides what is there: by a value that is no object, or by one before the end of the path. -/
theorem at?_ofQueries {higher lower : List Fields} {layer : Fields} {path : String}
    (hlayer : (layers readYaml env files).toList = higher ++ layer :: lower)
    (hpath : Fields.reservedKey ∉ Text.splitAt '.' path)
    (hleaves : ∀ upper ∈ higher, Leaves upper (Text.splitAt '.' path)) {result : Option Value}
    (hdecides : layer.IsDistinct → ∀ below,
      follow (Text.splitAt '.' path) (.object (overlay below layer)) = result)
    (hbase : at? layer path = result) : at? (ofQueries readYaml env files) path = result := by
  have htext := isDistinct_text readYaml env files
  have hfile := isDistinct_file readYaml env files
  rw [ofQueries_eq]
  unfold at?
  rcases eq_of_toList_eq hlayer with ⟨-, rfl⟩ | ⟨rfl, rfl⟩ | ⟨rfl, rfl⟩
  · exact hdecides htext _
  · rw [follow_overlay_of_leaves htext hpath (hleaves _ (by simp))]
    exact hdecides hfile _
  · rw [follow_overlay_of_leaves htext hpath (hleaves _ (by simp)),
      follow_overlay_of_leaves hfile hpath (hleaves _ (by simp))]
    exact hbase

/-- The settings have nothing at a path that every layer leaves to those below it. -/
theorem at?_ofQueries_eq_none {path : String} (hpath : Fields.reservedKey ∉ Text.splitAt '.' path)
    (hleaves : ∀ layer ∈ (layers readYaml env files).toList,
      Leaves layer (Text.splitAt '.' path)) :
    at? (ofQueries readYaml env files) path = none := by
  simp only [Layers.toList, List.forall_mem_cons] at hleaves
  obtain ⟨htext, hfile, hbase, -⟩ := hleaves
  rw [ofQueries_eq]
  unfold at?
  rw [follow_overlay_of_leaves (isDistinct_text ..) hpath htext,
    follow_overlay_of_leaves (isDistinct_file ..) hpath hfile, hbase.1]

/-- The settings of queries are read layer by layer. -/
structure IsLayered (readYaml : YamlReader) (env : Environment) (files : Files) (l : Layers) :
    Prop where
  /-- Each layer is what its document holds. -/
  isOf : l.IsOf readYaml env files
  /-- A value that is no object is read of the highest layer that has one at the path, if each layer
  above has nothing there and only objects on the way. Lists and null are such values. -/
  reads : ∀ (higher lower : List Fields) (layer : Fields) (path : String) (v : Value),
    l.toList = higher ++ layer :: lower → Fields.reservedKey ∉ Text.splitAt '.' path →
    (∀ upper ∈ higher, Leaves upper (Text.splitAt '.' path)) →
    at? layer path = some v → v.fields? = none →
      at? (ofQueries readYaml env files) path = some v ∧
        readingAt (ofQueries readYaml env files) path = .ofValue v
  /-- Nothing is read at a path below a value that is no object, whatever lower layers have
  there. -/
  hides : ∀ (higher lower : List Fields) (layer : Fields) (path : String),
    l.toList = higher ++ layer :: lower → Fields.reservedKey ∉ Text.splitAt '.' path →
    (∀ upper ∈ higher, Leaves upper (Text.splitAt '.' path)) →
    Hides layer (Text.splitAt '.' path) →
      at? (ofQueries readYaml env files) path = none ∧
        readingAt (ofQueries readYaml env files) path = {}
  /-- Nothing is read at a path that every layer leaves to those below it. -/
  absent : ∀ path : String, Fields.reservedKey ∉ Text.splitAt '.' path →
    (∀ layer ∈ l.toList, Leaves layer (Text.splitAt '.' path)) →
      at? (ofQueries readYaml env files) path = none ∧
        readingAt (ofQueries readYaml env files) path = {}
  /-- A text of overrides that is unset, blank, malformed or no object changes nothing. -/
  text_void : (∀ fields, ¬TextDocument env fields) →
    ofQueries readYaml env files = ofQueries readYaml (env.without overridesTextVariable) files
  /-- A file of overrides that is unset, blank, not readable, malformed or no object changes
  nothing. -/
  file_void : (∀ fields, ¬FileDocument env files fields) →
    ofQueries readYaml env files = ofQueries readYaml (env.without overridesFileVariable) files
  /-- A base that is not readable, malformed or no mapping changes nothing: the settings are those
  of a reader that reads no base at all. -/
  base_void : (∀ fields, ¬BaseDocument readYaml env files fields) →
    ofQueries readYaml env files = ofQueries (fun _ => none) env files
  /-- Overrides that are applied twice count once. -/
  once : ∀ settings text fields, Json.read? text = some (.object fields) →
    overlay (overlay settings fields) fields = overlay settings fields
  /-- Overrides that are given both as a file and as text count once. -/
  same : l.text = l.file →
    ofQueries readYaml env files = ofQueries readYaml (env.without overridesTextVariable) files
  /-- The settings are read without a fault. -/
  answers : ∀ s : Session, s.environment = env → s.files = files →
    s.platform.readYaml = readYaml → s.settings = none →
      Work.querySettings.run.run s = (.ok (ofQueries readYaml env files),
        { s with settings := ofQueries readYaml env files })

theorem ofQueries_isLayered (readYaml : YamlReader) (env : Environment) (files : Files) :
    ∃ l : Layers, IsLayered readYaml env files l := by
  have hisOf := isOf_layers readYaml env files
  refine ⟨layers readYaml env files, hisOf, ?reads, ?hides, ?absent, ?text_void, ?file_void,
    ?base_void, ?once, ?same, ?answers⟩
  case reads =>
    intro higher lower layer path v hlayer hpath hleaves hv hobject
    have hread : at? (ofQueries readYaml env files) path = some v :=
      at?_ofQueries hlayer hpath hleaves
        (fun hdistinct below => follow_overlay_of_found hdistinct hpath hv hobject below) hv
    exact ⟨hread, readingAt_eq_ofValue hread⟩
  case hides =>
    intro higher lower layer path hlayer hpath hleaves hhides
    have hread : at? (ofQueries readYaml env files) path = none :=
      at?_ofQueries hlayer hpath hleaves
        (fun hdistinct below => follow_overlay_of_hides hdistinct hpath hhides below)
        (follow_of_hides hhides)
    exact ⟨hread, readingAt_eq_empty hread⟩
  case absent =>
    intro path hpath hleaves
    have hread : at? (ofQueries readYaml env files) path = none :=
      at?_ofQueries_eq_none hpath hleaves
    exact ⟨hread, readingAt_eq_empty hread⟩
  case text_void =>
    intro h
    rw [ofQueries_eq, hisOf.text.void h, overlay, ofQueries_without_text]
  case file_void =>
    intro h
    rw [ofQueries_eq, hisOf.file.void h, overlay, ofQueries_without_file]
  case base_void =>
    intro h
    rw [ofQueries_eq, hisOf.base.void h, ofQueries_without_base readYaml]
  case once => exact fun settings text fields h => overlay_overlay (isDistinct_of_read? h) settings
  case same =>
    intro h
    rw [ofQueries_without_text, ofQueries_eq, h, overlay_overlay (isDistinct_file ..)]
  case answers =>
    intro s henv hfiles hreadYaml hsettings
    rw [Work.run_querySettings, Session.querySettings, hsettings, henv, hfiles, hreadYaml]
    rfl

/-- Null in the text of overrides replaces a list of the file, what the text leaves alone is read of
the file, and what both leave alone is read of the base. The base is named by a path from the root,
the file by one from the current directory. -/
theorem ofQueries_isLayered_overridden :
    let readYaml : YamlReader := fun text =>
      if text = "search:\n  boost: 4\n  fields: [title]\n" then
        some (.object [("search", .object [("boost", .number (.finite 4)),
          ("fields", .list [.text "title"])])])
      else none
    let env : Environment := [("COMMENT_QUERY_CONFIG_PATH", "/etc/comments/../query.yaml"),
      ("COMMENT_QUERY_OVERRIDES_FILE", "over.json"),
      ("COMMENT_QUERY_OVERRIDES_JSON", "\x7b\"search\": \x7b\"fields\": null\x7d\x7d")]
    let files : Files := {
      current := ["srv", "comments"]
      texts := [(["etc", "comments", "notes"], ""),
        (["etc", "query.yaml"], "search:\n  boost: 4\n  fields: [title]\n"),
        (["srv", "comments", "over.json"],
          "\x7b\"search\": \x7b\"fields\": [\"author\"], \"fuzziness\": \" AUTO\"\x7d\x7d")] }
    let settings := ofQueries readYaml env files
    ∃ l, IsLayered readYaml env files l ∧
      at? settings "search.fields" = some .null ∧ readingAt settings "search.fields" = {} ∧
      readingAt settings "search.fuzziness" =
        { numberOrText := some (.text "AUTO"), text := " AUTO" } ∧
      readingAt settings "search.boost" =
        { number := some (.finite 4), numberOrText := some (.number (.finite 4)) } := by
  intro readYaml env files settings
  obtain ⟨l, hlayered⟩ := ofQueries_isLayered readYaml env files
  have htext : l.text = [("search", .object [("fields", .null)])] :=
    hlayered.isOf.text.held _ ⟨_, rfl, rfl, rfl⟩
  have hfile : l.file = [("search", .object [("fields", .list [.text "author"]),
      ("fuzziness", .text " AUTO")])] :=
    hlayered.isOf.file.held _ ⟨_, _, rfl, rfl, rfl, rfl⟩
  have hpath : basePath env = "/etc/comments/../query.yaml" := rfl
  have hbase : l.base = [("search", .object [("boost", .number (.finite 4)),
      ("fields", .list [.text "title"])])] :=
    hlayered.isOf.base.held _ ⟨_, by rw [hpath]; rfl, if_pos rfl⟩
  have hfields : Text.splitAt '.' "search.fields" = ["search", "fields"] := by decide
  have hfuzziness : Text.splitAt '.' "search.fuzziness" = ["search", "fuzziness"] := by decide
  have hboost : Text.splitAt '.' "search.boost" = ["search", "boost"] := by decide
  obtain ⟨hnull, hread⟩ := hlayered.reads [] [l.file, l.base] l.text "search.fields" .null rfl
    (by rw [hfields]; decide) nofun (by rw [at?, hfields, htext]; rfl) rfl
  have hauto := hlayered.reads [l.text] [l.base] l.file "search.fuzziness" (.text " AUTO") rfl
    (by rw [hfuzziness]; decide)
    (by simp only [List.forall_mem_singleton, leaves_iff_find, hfuzziness, htext]; rfl)
    (by rw [at?, hfuzziness, hfile]; rfl) rfl
  have hfour := hlayered.reads [l.text, l.file] [] l.base "search.boost" (.number (.finite 4)) rfl
    (by rw [hboost]; decide)
    (by
      simp only [List.forall_mem_cons, leaves_iff_find, hboost, htext, hfile]
      exact ⟨rfl, rfl, nofun⟩)
    (by rw [at?, hboost, hbase]; rfl) rfl
  exact ⟨l, hlayered, hnull, hread, hauto.2, hfour.2⟩

end Settings

end CommentSearch
