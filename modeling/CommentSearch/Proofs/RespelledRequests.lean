import CommentSearch.Proofs.ResultWindows
import CommentSearch.Proofs.SpelledIntegers
import CommentSearch.Proofs.Validation

/-!
# Requests with respelled integers

Some parameters of a request are read as integers (`integerParameters`), and so are the parts of the
dates in its date query. What reads them takes the integer only, and whether there is one: the
window of results, the dimensions of integers, and the periods of dates. So a request compiles alike
if integers in it are respelled, any number of them (`compile_respelled`).
-/

namespace CommentSearch

/-! ### Fields -/

/-- A field that is respelled, in front of others that are. -/
theorem Param.Respelled.get?_cons {v w : Value} {fields others : Fields} (key : String)
    (hv : Respelled (some v) (some w))
    (h : ∀ name, Respelled (fields.get? name) (others.get? name)) (name : String) :
    Respelled (Fields.get? ((key, v) :: fields) name) (Fields.get? ((key, w) :: others) name) := by
  rw [Fields.get?_cons, Fields.get?_cons]
  split
  · exact hv
  · exact h name

/-! ### Periods -/

/-- A period depends on the integers of its parts only. -/
theorem Period.ofParts_congr {year month day year' month' day' : Param}
    (hyear : Param.SameInteger year year') (hmonth : Param.SameInteger month month')
    (hday : Param.SameInteger day day') : ofParts year month day = ofParts year' month' day' := by
  unfold ofParts
  rw [hyear.toInt_eq, hmonth.toInt_eq, hday.toInt_eq, hmonth.isEmpty_eq, hday.isEmpty_eq]

/-! ### Date queries -/

namespace DateClause

/-- An end of a clause is respelled: it is left as it is, or parts of a date that it is made of
are. -/
inductive EndRespelled : Value → Value → Prop where
  | same (v : Value) : EndRespelled v v
  | parts {parts others : Fields} (named : ∀ name ∈ ["year", "month", "day"],
      Param.Respelled (parts.get? name) (others.get? name))
    (same : ∀ name ∉ ["year", "month", "day"], parts.get? name = others.get? name) :
    EndRespelled (.object parts) (.object others)

/-- A clause is respelled: the parts of the dates at its ends, or those that limit it. -/
structure Respelled (clause other : Fields) : Prop where
  named : ∀ name ∈ ["year", "month", "monthnum", "day"],
    Param.Respelled (clause.get? name) (other.get? name)
  ends : ∀ name ∈ ["after", "before"],
    Option.Rel EndRespelled (clause.get? name) (other.get? name)
  same : ∀ name ∉ ["year", "month", "monthnum", "day", "after", "before"],
    clause.get? name = other.get? name

/-- An end that is respelled gives the same bound. -/
theorem endBound_respelled (zone : TimeZone) {p p' : Param} (h : Option.Rel EndRespelled p p')
    (atEnd : Bool) : endBound zone p atEnd = endBound zone p' atEnd := by
  cases h with
  | none => rfl
  | some h =>
    cases h with
    | same => rfl
    | @parts parts others named same =>
      have hyear := (named "year" (by decide)).sameInteger
      have hperiod := Period.ofParts_congr hyear (named "month" (by decide)).sameInteger
        (named "day" (by decide)).sameInteger
      rw [endBound, endBound, bound_object, bound_object, hyear.isEmpty_eq, hperiod]

/-- A clause that is respelled is limited to the same period. -/
theorem limits_respelled {clause other : Fields} (h : Respelled clause other) :
    limits clause = limits other := by
  have hyear := (h.named "year" (by decide)).sameInteger
  have hmonth := (h.named "month" (by decide)).sameInteger
  have hsecond := (h.named "monthnum" (by decide)).sameInteger
  have hday := (h.named "day" (by decide)).sameInteger
  unfold limits
  dsimp only
  rw [hyear.isEmpty_eq, hmonth.isSet_eq]
  split
  · rfl
  -- the month is read under one of two names, and is respelled under both
  · split
    · rw [Period.ofParts_congr hyear hmonth hday]
    · rw [Period.ofParts_congr hyear hsecond hday]

theorem node_respelled (zone : TimeZone) {clause other : Fields} (h : Respelled clause other)
    (column : Value) : node zone clause column = node zone other column := by
  refine node_congr (fun name hname => h.same name ?_) (limits_respelled h)
    (fun name hname => endBound_respelled zone (h.ends name hname)) column
  revert name
  decide

end DateClause

namespace DateFilter

/-- An entry of a date query is respelled, if it is a clause. -/
inductive EntryRespelled : Value → Value → Prop where
  | same (v : Value) : EntryRespelled v v
  | clause {clause other : Fields} (respelled : DateClause.Respelled clause other) :
    EntryRespelled (.object clause) (.object other)

/-- A date query is respelled: the entries of a list, or those that an object has as its clauses. -/
inductive Respelled : Value → Value → Prop where
  | same (v : Value) : Respelled v v
  | list {entries others : List Value} (each : List.Forall₂ EntryRespelled entries others) :
    Respelled (.list entries) (.list others)
  | object {fields fields' : Fields} {entries others : List Value}
    (clauses : fields.get? "clauses" = some (.list entries))
    (clauses' : fields'.get? "clauses" = some (.list others))
    (each : List.Forall₂ EntryRespelled entries others)
    (same : ∀ name, name ≠ "clauses" → fields.get? name = fields'.get? name) :
    Respelled (.object fields) (.object fields')

variable (zone : TimeZone) {entries others : List Value} {query query' : Value}

theorem nodes_respelled (h : List.Forall₂ EntryRespelled entries others) (column : Value) :
    nodes zone column entries = nodes zone column others := by
  induction h with
  | nil => rfl
  | @cons v w entries others hentry _ ih =>
    cases hentry with
    | same =>
      cases v with
      | object clause => rw [nodes_cons_object, nodes_cons_object, ih]
      | null | bool | number | text | list => exact ih
    | clause respelled =>
      rw [nodes_cons_object, nodes_cons_object, DateClause.node_respelled zone respelled, ih]

theorem ofClauses_respelled (h : List.Forall₂ EntryRespelled entries others) (relation : Param)
    (column : Value) :
    ofClauses zone relation column entries = ofClauses zone relation column others := by
  unfold ofClauses
  rw [nodes_respelled zone h]

/-- A date query that is respelled compiles to the same filter. -/
theorem compile_respelled_query (h : Respelled query query') :
    compile (some query) zone = compile (some query') zone := by
  cases h with
  | same => rfl
  | list each => exact ofClauses_respelled zone each none _
  | object clauses clauses' each same =>
    rw [compile_object zone clauses, compile_object zone clauses', same "relation" (by decide),
      same "column" (by decide), ofClauses_respelled zone each]

theorem Respelled.isEmpty_eq (h : Respelled query query') :
    Param.isEmpty (some query) = Param.isEmpty (some query') := by
  cases h with
  | same => rfl
  | list each => cases each <;> rfl
  | object => rfl

end DateFilter

/-! ### Dimensions -/

/-- Whether a dimension reads its parameter as an integer. -/
def Dimension.readsInteger (d : Dimension) : Bool :=
  d.shape = .one && d.integer && d.disabledBy.isNone

/-- A dimension that reads an integer has the same node for the same integer. -/
theorem Dimension.node_of_sameInteger {d : Dimension} (hd : d.readsInteger = true) {p p' : Param}
    (h : Param.SameInteger p p') : d.node p = d.node p' := by
  obtain ⟨⟨hshape, hinteger⟩, hword⟩ : (d.shape = .one ∧ d.integer = true) ∧ d.disabledBy = none :=
    by simpa [readsInteger] using hd
  have hactive {v : Value} (hv : Param.isEmpty (some v) = false) : d.isActive v = true := by
    simp [isActive, hv, hword]
  have hclause (v : Value) :
      d.clause v = .ok (.term d.field (.number (Param.toInt (some v)))) := by
    simp [clause, hshape, hinteger]
  rcases h with rfl | ⟨hp, hp', hint⟩
  · rfl
  · cases p with
    | none => cases hp
    | some v =>
      cases p' with
      | none => cases hp'
      | some w => simp only [node, hactive hp, hactive hp', hclause, hint]

namespace Request

/-- The parameters that are read as integers. -/
def integerParameters : List String :=
  ["number", "offset", "paged", "page", "user_id", "parent", "post_author", "post_id",
    "post_parent"]

/-- A request is respelled: parameters that are read as integers, and parts of dates in its date
query. -/
structure Respelled (r r' : Request) : Prop where
  integers : ∀ name ∈ integerParameters, Param.Respelled (r.get? name) (r'.get? name)
  dates : Option.Rel DateFilter.Respelled (r.get? "date_query") (r'.get? "date_query")
  same : ∀ name ∉ "date_query" :: integerParameters, r.get? name = r'.get? name

end Request

/-- Whether a filter reads no more than integers from the parameters that are respelled as such. -/
def Filter.readsIntegers : Filter → Bool
  | dimension d =>
    if d.param ∈ Request.integerParameters then d.readsInteger else d.param ≠ "date_query"
  | parent d => d.readsInteger
  | status | date | metadata => true

theorem readsIntegers_of_mem : ∀ f ∈ filters, f.readsIntegers = true := by
  rw [← List.all_eq_true]
  decide

namespace Request

section

variable {r r' : Request} (h : Respelled r r')

include h

theorem Respelled.sameInteger (name : String) (hname : name ∈ integerParameters) :
    Param.SameInteger (r.get? name) (r'.get? name) :=
  (h.integers name hname).sameInteger

theorem Respelled.agreeOn (names : List String)
    (hnames : ∀ name ∈ names, name ∉ "date_query" :: integerParameters) :
    Fields.AgreeOn names r r' :=
  fun name hname => h.same name (hnames name hname)

/-! ### The window -/

theorem Respelled.toInt_page_eq : r.page.toInt = r'.page.toInt := by
  unfold page
  rw [(h.sameInteger "paged" (by decide)).isSet_eq]
  split
  · exact (h.sameInteger "paged" (by decide)).toInt_eq
  · exact (h.sameInteger "page" (by decide)).toInt_eq

theorem Respelled.window_eq (maxSize : Number) :
    r.normalize.window maxSize = r'.normalize.window maxSize := by
  have hnumber := h.sameInteger "number" (by decide)
  have hoffset := h.sameInteger "offset" (by decide)
  have hsize : r.askedSize maxSize = r'.askedSize maxSize := by
    unfold askedSize
    rw [hnumber.isEmpty_eq, hnumber.toInt_eq]
  have hpage : r.startsAtPage = r'.startsAtPage := by
    unfold startsAtPage
    rw [hoffset.isEmpty_eq, h.toInt_page_eq]
  have hbefore : r.resultsBefore maxSize = r'.resultsBefore maxSize := by
    unfold resultsBefore pagesBefore
    rw [hsize, h.toInt_page_eq]
  rw [window_normalize_eq, window_normalize_eq, hsize, hpage, hbefore, hoffset.toInt_eq]

/-! ### The filters -/

theorem Respelled.sameInteger_effectiveParent :
    Param.SameInteger (effectiveParent r) (effectiveParent r') := by
  have hparent := h.sameInteger "parent" (by decide)
  unfold effectiveParent
  rw [h.same "hierarchical" (by decide), hparent.isEmpty_eq]
  split
  · exact .inl rfl
  · exact hparent

/-- The date filter has the same node for a respelled date query, if it is compiled by this
library. -/
theorem Respelled.map_node_dateContribution {c : Collaborators}
    (hdates : r.get? "date_query" = r'.get? "date_query" ∨
      ∃ zone, c.dateFilter = (Collaborators.standard zone).dateFilter) :
    (dateContribution r c).map Contribution.node =
      (dateContribution r' c).map Contribution.node := by
  rcases hdates with hsame | ⟨zone, hstandard⟩
  -- another compiler may tell the spellings apart, so it has to be given the same query
  · unfold dateContribution
    rw [hsame]
  · have hfilter (query : Value) : c.dateFilter query = DateFilter.compile (some query) zone := by
      rw [hstandard]
      rfl
    have hrelated := h.dates
    unfold dateContribution
    generalize r.get? "date_query" = p at hrelated
    generalize r'.get? "date_query" = p' at hrelated
    cases hrelated with
    | none => rfl
    | @some query query' hrespelled =>
      dsimp only
      rw [hrespelled.isEmpty_eq]
      split
      · rfl
      · have hcompile := DateFilter.compile_respelled_query zone hrespelled
        rw [Collaborators.map_node_ask, Collaborators.map_node_ask, Collaborators.answer,
          Collaborators.answer, hfilter, hfilter, hcompile]

/-- A filter has the same node for a respelled request. -/
theorem Respelled.map_node_contribution {c : Collaborators}
    (hdates : r.get? "date_query" = r'.get? "date_query" ∨
      ∃ zone, c.dateFilter = (Collaborators.standard zone).dateFilter)
    {f : Filter} (hf : f ∈ filters) :
    (f.contribution r c).map Contribution.node = (f.contribution r' c).map Contribution.node := by
  have hreads := readsIntegers_of_mem f hf
  cases f with
  | dimension d =>
    have hnode : d.node (r.get? d.param) = d.node (r'.get? d.param) := by
      by_cases hname : d.param ∈ integerParameters
      · have hinteger : d.readsInteger = true := by simpa [Filter.readsIntegers, hname] using hreads
        exact Dimension.node_of_sameInteger hinteger (h.sameInteger _ hname)
      · have hother : d.param ∉ "date_query" :: integerParameters := by
          simpa [Filter.readsIntegers, hname] using hreads
        rw [h.same _ hother]
    simp only [Filter.contribution, hnode]
  | parent d =>
    have hnode := Dimension.node_of_sameInteger hreads h.sameInteger_effectiveParent
    simp only [Filter.contribution, hnode]
  | date => exact h.map_node_dateContribution hdates
  | status | metadata => rw [Filter.contribution_congr _ c (h.agreeOn _ (by decide))]

end

/-! ### Compilation -/

/-- A request compiles alike if integers in it are respelled: parameters that are read as integers,
with all options and collaborators, and parts of dates, where this library compiles the date
query. -/
theorem compile_respelled {r r' : Request} (h : Respelled r r') {o : CompileOptions}
    (hdates : r.get? "date_query" = r'.get? "date_query" ∨
      ∃ zone, o.collaborators.dateFilter = (Collaborators.standard zone).dateFilter) :
    (r.compile o).map (·.compiled) = (r'.compile o).map (·.compiled) := by
  have hsort := sort_congr (h.agreeOn sortParameters (by decide))
  have hquery := query_congr (h.agreeOn queryParameters (by decide)) o.search
  have hprojection := idsOnly_congr (h.agreeOn projectionParameters (by decide))
  have hnodes : (filters.mapM fun f => (f.contribution r o.collaborators).map Contribution.node) =
      filters.mapM fun f => (f.contribution r' o.collaborators).map Contribution.node :=
    mapM_congr_of_forall fun f hf => h.map_node_contribution hdates hf
  rw [map_compiled, map_compiled, hsort, hnodes, hquery, hprojection, h.window_eq]

/-- A number of results with a sign, a zero in front and a unit behind, and a month with a zero. -/
theorem compile_respelled_february :
    let numbers : Request := [("number", .number (.finite (10 : Int))),
      ("date_query", .list [.object [("after", .object
        [("year", .number (.finite (2024 : Int))), ("month", .number (.finite (2 : Int)))])]])]
    let texts : Request := [("number", .text " +010 each"),
      ("date_query", .list [.object [("after", .object
        [("year", .number (.finite (2024 : Int))), ("month", .text "02")])]])]
    Respelled numbers texts ∧
      (numbers.compile (.ofSettings [])).map (·.compiled) =
        (texts.compile (.ofSettings [])).map (·.compiled) := by
  intro numbers texts
  have hended : ∀ c, [' ', 'e', 'a', 'c', 'h'].head? = some c → c.isDigit = false := by
    rintro c ⟨⟩
    rfl
  have hten : Spells " +010 each" 10 :=
    spells_toDigits 10 [' '] ['+'] 1 _ (List.forall_mem_singleton.2 rfl) (.inr rfl) hended
  have htwo : Spells "02" 2 :=
    spells_toDigits 2 [] [] 1 [] nofun (.inl rfl) nofun
  have hend : DateClause.EndRespelled
      (.object [("year", .number (.finite (2024 : Int))), ("month", .number (.finite (2 : Int)))])
      (.object [("year", .number (.finite (2024 : Int))), ("month", .text "02")]) := by
    refine .parts (fun name _ => ?_) fun name hname => ?_
    · exact .get?_cons _ (.same _)
        (.get?_cons _ (.spelled (by decide) (by decide) htwo) fun _ => .same _) name
    · have hmonth : name ≠ "month" := (ne_of_mem_of_not_mem (by decide) hname).symm
      simp only [Fields.get?_cons, hmonth, if_false]
  have hclause : DateClause.Respelled
      [("after", .object
        [("year", .number (.finite (2024 : Int))), ("month", .number (.finite (2 : Int)))])]
      [("after", .object [("year", .number (.finite (2024 : Int))), ("month", .text "02")])] := by
    refine ⟨fun name hname => ?_, fun name _ => ?_, fun name hname => ?_⟩
    · have hafter : name ≠ "after" := ne_of_mem_of_not_mem hname (by decide)
      simp only [Fields.get?_cons, hafter, if_false]
      exact .same _
    · rw [Fields.get?_cons, Fields.get?_cons]
      split
      · exact .some hend
      · exact .none
    · have hafter : name ≠ "after" := (ne_of_mem_of_not_mem (by decide) hname).symm
      simp only [Fields.get?_cons, hafter, if_false]
  have hrespelled : Respelled numbers texts := by
    refine ⟨fun name hname => ?_, .some (.list (.cons (.clause hclause) .nil)),
      fun name hname => ?_⟩
    · have hquery : name ≠ "date_query" := ne_of_mem_of_not_mem hname (by decide)
      simp only [numbers, texts, Fields.get?_cons, hquery, if_false]
      split
      · exact .spelled (by decide) (by decide) hten
      · exact .same _
    · have hnumber : name ≠ "number" := (ne_of_mem_of_not_mem (by decide) hname).symm
      have hquery : name ≠ "date_query" := (ne_of_mem_of_not_mem (by decide) hname).symm
      simp only [numbers, texts, Fields.get?_cons, hnumber, hquery, if_false]
  exact ⟨hrespelled, compile_respelled hrespelled (.inr ⟨.universal, rfl⟩)⟩

end Request

end CommentSearch
