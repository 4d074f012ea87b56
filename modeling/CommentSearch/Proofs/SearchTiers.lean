import CommentSearch.Proofs.Decomposition

/-!
# The fields of a search

A search term is scored in three tiers, which all run on the same fields. `Request.SearchesOn` tells
which fields and which keys of metadata an accepted request names for them. The default fields are
taken where it names neither, before the keys that are empty are left out. So there is one case in
which a search has no fields at all: the request names no field, and empty keys only
(`compile_searches`, `search_of_empty_keys`).
-/

namespace CommentSearch

/-! ### Named fields -/

/-- A request names fields and keys of metadata to search on: those of its selection, or none where
the selection is empty. -/
inductive Request.SearchesOn (r : Request) : List String → List String → Prop where
  | nothing (empty : Param.isEmpty (r.get? "search_fields") = true) : SearchesOn r [] []
  | selection {v : Value} {names keys : List String} (get : r.get? "search_fields" = some v)
    (nonempty : Param.isEmpty (some v) = false) (selects : Selects v names keys) :
    SearchesOn r names keys

/-- The fields of a search that names fields and keys: the default fields if it names neither. -/
def fieldsToSearch (names keys defaults : List String) : List String :=
  if names = [] ∧ keys = [] then defaults else names ++ metaSearchFields keys

/-- There is no search field of keys exactly where all of them are empty. -/
theorem metaSearchFields_eq_nil_iff {keys : List String} :
    metaSearchFields keys = [] ↔ ∀ key ∈ keys, Param.isEmpty (some (.text key)) = true := by
  unfold metaSearchFields
  rw [List.map_eq_nil_iff, List.filter_eq_nil_iff]
  simp only [Bool.not_eq_true', Bool.not_eq_false]

/-- With default fields, a search is left without fields by empty keys only. -/
theorem fieldsToSearch_eq_nil_iff {names keys defaults : List String} (hne : defaults ≠ []) :
    fieldsToSearch names keys defaults = [] ↔
      names = [] ∧ keys ≠ [] ∧ ∀ key ∈ keys, Param.isEmpty (some (.text key)) = true := by
  unfold fieldsToSearch
  split
  · rename_i hnothing
    exact iff_of_false hne fun h => h.2.1 hnothing.2
  · rename_i hsomething
    rw [List.append_eq_nil_iff, metaSearchFields_eq_nil_iff]
    constructor
    · intro h
      have hkeys : keys ≠ [] := fun hnil => hsomething ⟨h.1, hnil⟩
      exact ⟨h.1, hkeys, h.2⟩
    · intro h
      exact ⟨h.1, h.2.2⟩

namespace Request

variable {r : Request}

/-- An accepted request names fields and keys. -/
theorem Accepted.exists_searchesOn (h : r.Accepted) : ∃ names keys, r.SearchesOn names keys := by
  cases hempty : Param.isEmpty (r.get? "search_fields") with
  | true => exact ⟨[], [], .nothing hempty⟩
  | false =>
    cases hget : r.get? "search_fields" with
    | none =>
      rw [hget] at hempty
      cases hempty
    | some v =>
      rw [hget] at hempty
      have hparam : requestShape.lookup "search_fields" =
          some (true, .nullable .searchSelection) := rfl
      obtain ⟨names, keys, hselects⟩ :=
        exists_selects_of_accepts (h.accepts_of_not_isEmpty hparam hget (by simp [hempty]))
      exact ⟨names, keys, .selection hget hempty hselects⟩

/-- The search runs on the fields and the keys that the request names. -/
theorem SearchesOn.searchFields_eq {names keys : List String} (h : r.SearchesOn names keys)
    (defaults : List String) :
    searchFields
        (if Param.isEmpty (r.get? "search_fields") then none else r.get? "search_fields")
        (.texts defaults) = .ok ((fieldsToSearch names keys defaults).map .text) := by
  cases h with
  | nothing empty =>
    rw [if_pos empty]
    rfl
  | selection get nonempty selects =>
    rw [get, if_neg (by simp [nonempty]), searchFields_of_selects selects]
    unfold fieldsToSearch
    split
    · rfl
    · rfl

end Request

/-! ### The tiers -/

/-- The scoring query of a search term: three tiers, all on the same fields. -/
def searchTiers (words : String) (fields : List String) (o : SearchOptions) : Query :=
  .should
    [.multiMatch (.text words) (fields.map .text) (.phrase o.phraseBoost),
      .multiMatch (.text words) (fields.map .text) (.allWords o.matchBoost),
      .multiMatch (.text words) (fields.map .text) (.similar o.fuzziness)]

namespace Request

variable {r : Request}

/-- The scoring query of an accepted request with a search term is that of the fields and the keys
that it names. -/
theorem Accepted.query_eq_searchTiers (h : r.Accepted)
    (hsearch : Param.isEmpty (r.get? "search") = false) {names keys : List String}
    (hnames : r.SearchesOn names keys) {o : SearchOptions} {defaults : List String}
    (hdefaults : o.defaultFields = .texts defaults) :
    ∃ words, r.get? "search" = some (.text words) ∧
      r.normalize.query o = .ok (searchTiers words (fieldsToSearch names keys defaults) o) := by
  have htextual : Param.IsTextual (r.get? "search") := h.isTextual rfl
  obtain ⟨words, hwords⟩ := htextual.eq_text hsearch
  rw [hwords] at hsearch
  refine ⟨words, hwords, ?_⟩
  unfold query
  rw [get?_normalize r (by decide) (by decide), get?_normalize r (by decide) (by decide), hwords]
  dsimp only
  rw [if_neg (by simp [hsearch])]
  show searchQuery (.text words) _ o = _
  unfold searchQuery
  rw [hdefaults, hnames.searchFields_eq]
  rfl

/-- The scoring query of a compiled request is the one of the request. -/
theorem query_of_compile {o : CompileOptions} {c : Compilation} (h : r.compile o = .ok c) :
    r.normalize.query o.search = .ok c.compiled.query := by
  rw [compile_eq] at h
  obtain ⟨_, -, h⟩ := bind_eq_ok_iff.1 h
  obtain ⟨_, -, h⟩ := bind_eq_ok_iff.1 h
  obtain ⟨query, hquery, h⟩ := bind_eq_ok_iff.1 h
  obtain rfl := Except.ok.inj h
  exact hquery

/-- The three tiers of the search of an accepted request run on the same fields. These are the
default fields where the request names neither a field nor a key, and else the fields that it names
and those of its keys that are not empty. There are none exactly where it names no field, and keys
that are all empty. -/
theorem compile_searches (h : r.Accepted) (hsearch : Param.isEmpty (r.get? "search") = false)
    {o : CompileOptions} {defaults : List String}
    (hdefaults : o.search.defaultFields = .texts defaults) (hne : defaults ≠ []) :
    ∃ words names keys fields, r.get? "search" = some (.text words) ∧ r.SearchesOn names keys ∧
      r.normalize.query o.search = .ok (searchTiers words fields o.search) ∧
      (∀ c, r.compile o = .ok c → c.compiled.query = searchTiers words fields o.search) ∧
      (names = [] ∧ keys = [] → fields = defaults) ∧
      (¬(names = [] ∧ keys = []) → fields = names ++ metaSearchFields keys) ∧
      (fields = [] ↔
        names = [] ∧ keys ≠ [] ∧ ∀ key ∈ keys, Param.isEmpty (some (.text key)) = true) := by
  obtain ⟨names, keys, hnames⟩ := h.exists_searchesOn
  obtain ⟨words, hwords, hquery⟩ := h.query_eq_searchTiers hsearch hnames hdefaults
  refine ⟨words, names, keys, fieldsToSearch names keys defaults, hwords, hnames, hquery,
    fun c hc => ?_, fun hnothing => if_pos hnothing, fun hsomething => if_neg hsomething,
    fieldsToSearch_eq_nil_iff hne⟩
  have hcompiled := query_of_compile hc
  rw [hquery] at hcompiled
  exact (Except.ok.inj hcompiled).symm

/-- A search on the key `mood`, beside which an empty key is named. -/
theorem compile_searches_mood :
    let r : Request := [("search", .text "calm"),
      ("search_fields", .object [("meta", .texts ["", "mood"])])]
    let o := CompileOptions.ofSettings []
    r.Accepted ∧ Param.isEmpty (r.get? "search") = false ∧
      o.search.defaultFields = .texts commonSearchFields ∧ commonSearchFields ≠ [] ∧
      r.normalize.query o.search = .ok (searchTiers "calm" ["meta.mood.value"] o.search) ∧
      ∃ fields, r.normalize.query o.search = .ok (searchTiers "calm" fields o.search) ∧
        fields ≠ [] := by
  intro r o
  have haccepted : r.Accepted := by
    unfold Accepted
    decide
  have hne : commonSearchFields ≠ [] := by decide
  have hquery : r.normalize.query o.search =
      .ok (searchTiers "calm" ["meta.mood.value"] o.search) := rfl
  refine ⟨haccepted, by decide, rfl, hne, hquery, ?_⟩
  obtain ⟨words, names, keys, fields, hwords, hnames, htiers, -, -, -, hnil⟩ :=
    compile_searches haccepted (by decide) (o := o) rfl hne
  obtain rfl : "calm" = words := Value.text.inj (Option.some.inj hwords)
  refine ⟨fields, htiers, fun hfields => ?_⟩
  have htiers := Except.ok.inj (hquery.symm.trans htiers)
  subst hfields
  cases htiers

/-- A request that names an empty key only is scored on no fields, though there are default
fields. -/
theorem search_of_empty_keys :
    let r : Request := [("search", .text "hello"),
      ("search_fields", .object [("meta", .texts [""])])]
    let o := CompileOptions.ofSettings []
    r.Accepted ∧ o.search.defaultFields = .texts commonSearchFields ∧
      (r.compile o).map (·.compiled.query) = .ok (searchTiers "hello" [] o.search) := by
  intro r o
  have haccepted : r.Accepted := by
    unfold Accepted
    decide
  exact ⟨haccepted, rfl, rfl⟩

end Request

end CommentSearch
