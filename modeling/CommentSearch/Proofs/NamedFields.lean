import CommentSearch.Proofs.IndexFields
import CommentSearch.Proofs.WellFormed

/-!
# The fields that compiled requests name

The nodes of an accepted request without a date column of its own name fields of the index only, and
so does its sort, unless that is by a name which is no alias (`compileTool_names`). The keys of
metadata are those that the request asks about (`Request.IsMetaKey`).

The columns come from the tables of filters and of sort aliases, the fields of metadata from the
types of clauses.
-/

namespace CommentSearch

/-- A node that names only fields of a kind, at any depth. -/
inductive Query.NamesOnly (kind : String → Prop) : Query → Prop
  | term {field : String} (named : kind field) (v : Value) : NamesOnly kind (.term field v)
  | terms {field : String} (named : kind field) (xs : List Scalar) :
    NamesOnly kind (.terms field xs)
  | range {field : String} (named : kind field) (b : Bounds) : NamesOnly kind (.range field b)
  | exists {field : String} (named : kind field) : NamesOnly kind (.exists field)
  | matchPhrase {field : String} (named : kind field) (text : String) :
    NamesOnly kind (.matchPhrase field text)
  | must {nodes : List Query} (all : ∀ q ∈ nodes, NamesOnly kind q) : NamesOnly kind (.must nodes)
  | mustOne {q : Query} (one : NamesOnly kind q) : NamesOnly kind (.mustOne q)
  | mustNot {q : Query} (one : NamesOnly kind q) : NamesOnly kind (.mustNot q)
  | should {nodes : List Query} (all : ∀ q ∈ nodes, NamesOnly kind q) :
    NamesOnly kind (.should nodes)

variable {kind isKey : String → Prop} {q : Query}

/-! ### Columns -/

/-- The columns and their untouched copies. -/
def columnFields : List String := documentColumns ++ rawColumns.map (· ++ ".raw")

theorem indexField_of_mem {name : String} (h : name ∈ columnFields) : IndexField isKey name := by
  rcases List.mem_append.1 h with h | h
  · exact .column (isColumn_of_mem h)
  · obtain ⟨column, hcolumn, rfl⟩ := List.mem_map.1 h
    have hcolumns : ∀ name ∈ rawColumns, name ∈ documentColumns := by decide
    exact .raw (isColumn_of_mem (hcolumns column hcolumn)) (hasRaw_of_mem hcolumn)

theorem namesOnly_of_comparesField {field : String} (h : q.ComparesField field)
    (hkind : kind field) : q.NamesOnly kind := by
  rcases h with ⟨x, rfl⟩ | ⟨xs, rfl⟩
  · exact .term hkind x.toValue
  · exact .terms hkind xs

theorem namesOnly_place (placement : Placement) (h : q.NamesOnly kind) :
    (placement.place q).NamesOnly kind := by
  cases placement with
  | root => exact h
  | must => exact .mustOne h
  | mustNot => exact .mustNot h

/-- Whether a filter that compares a field compares a column. -/
def Filter.comparesColumn : Filter → Bool
  | dimension d | parent d => d.field ∈ columnFields
  | status | date | metadata => true

theorem comparesColumn_of_mem : ∀ f ∈ filters, f.comparesColumn = true := by
  rw [← List.all_eq_true]
  decide

theorem indexField_of_dimension {d : Dimension} (h : .dimension d ∈ filters ∨ .parent d ∈ filters) :
    IndexField isKey d.field := by
  have hcolumn : d.field ∈ columnFields := by
    rcases h with h | h
    · simpa [Filter.comparesColumn] using comparesColumn_of_mem _ h
    · simpa [Filter.comparesColumn] using comparesColumn_of_mem _ h
  exact indexField_of_mem hcolumn

theorem namesOnly_of_statusNode {r : Request} (h : statusNode r = some q) :
    q.NamesOnly (IndexField isKey) := by
  have hstatus : IndexField isKey "comment_approved" := indexField_of_mem (by decide)
  rcases comparesField_or_should_of_statusNode h with h | ⟨node, ids, emails, hnode, rfl⟩
  · exact namesOnly_of_comparesField h hstatus
  · refine .should fun q hq => ?_
    simp only [List.mem_cons, List.not_mem_nil, or_false] at hq
    rcases hq with rfl | rfl | rfl
    · exact namesOnly_of_comparesField hnode hstatus
    · exact .terms (indexField_of_mem (by decide)) ids
    · exact .terms (indexField_of_mem (by decide)) emails

/-! ### Dates -/

namespace DateFilter

/-- A date query that names no column, neither for all of its clauses nor in one of them. -/
structure NamesNoColumn (query : Value) : Prop where
  column : ∀ v, query.get? "column" = some v → v.isTruthy = false
  clauses : ∀ clause : Fields, .object clause ∈ clausesOf query →
    ∀ v, clause.get? "column" = some v → v.isTruthy = false

end DateFilter

theorem DateClause.columnOr_of_not_isTruthy {p : Param}
    (h : ∀ v, p = some v → v.isTruthy = false) (other : Value) : columnOr p other = other := by
  cases p with
  | none => rfl
  | some v => rw [columnOr, h v rfl, if_neg Bool.false_ne_true]

theorem namesOnly_of_dateClause {zone : TimeZone} {clause : Fields} {column : Value}
    (h : DateClause.node zone clause column = .ok (some q))
    (hkind : ∀ field, textForm (some (DateClause.columnOr (clause.get? "column") column)) =
      .ok field → kind field) : q.NamesOnly kind := by
  obtain ⟨field, between, hfield, -, hq⟩ := DateClause.exists_ranges_of_node h
  rcases hq with ⟨b, -, rfl⟩ | ⟨-, rfl⟩
  · exact .range (hkind field hfield) b
  · refine .must fun node hnode => ?_
    obtain ⟨b, -, rfl⟩ := List.mem_map.1 hnode
    exact .range (hkind field hfield) b

theorem namesOnly_of_dateFilter {zone : TimeZone} {query : Value} (hnull : query ≠ .null)
    (hcolumn : DateFilter.NamesNoColumn query) {filter : DateFilter}
    (h : DateFilter.compile (some query) zone = .ok filter) (hq : filter.all = some q) :
    q.NamesOnly (IndexField isKey) := by
  obtain ⟨nodes, rfl, -, hnodes⟩ := DateFilter.exists_nodes_of_compile hnull h hq
  refine .must fun node hnode => ?_
  obtain ⟨clause, hmem, hclause⟩ := hnodes node hnode
  refine namesOnly_of_dateClause hclause fun field hfield => ?_
  rw [DateClause.columnOr_of_not_isTruthy (hcolumn.clauses clause hmem), DateFilter.columnOf,
    DateClause.columnOr_of_not_isTruthy hcolumn.column] at hfield
  obtain rfl := Except.ok.inj hfield
  exact indexField_of_mem (by decide)

/-! ### Metadata -/

theorem exists_copy_of_metaField {key field : String} {type : Param}
    (h : metaField key type = .ok field) :
    ∃ name ∈ metaCopies, field = "meta." ++ key ++ "." ++ name := by
  have htyped : ∀ entry ∈ metaTypes, entry.2 ∈ metaCopies := by decide
  unfold metaField at h
  split at h
  · obtain rfl := Except.ok.inj h
    exact ⟨"raw", by decide, rfl⟩
  · split at h
    · split at h
      · rename_i s _
        obtain rfl := Except.ok.inj h
        cases hlookup : metaTypes.lookup (Text.toSmall s) with
        | none => exact ⟨"raw", by decide, by rw [Option.getD_none]⟩
        | some name => exact ⟨name, htyped _ (mem_of_lookup hlookup), by rw [Option.getD_some]⟩
      · cases h
    · obtain rfl := Except.ok.inj h
      exact ⟨"raw", by decide, rfl⟩

theorem namesOnly_of_makes {key field : String} {value : Param}
    (h : MetaTest.Makes key field value q) (hkey : kind ("meta." ++ key)) (hfield : kind field)
    (hvalue : kind ("meta." ++ key ++ ".value")) : q.NamesOnly kind := by
  cases h with
  | hasAny => exact .exists hkey
  | isOneOf => exact .terms hfield _
  | isBetween => exact .range hfield _
  | contains form => exact .matchPhrase hvalue form
  | isAbove | isAtLeast | isBelow | isAtMost => exact .range hfield _
  | isEqual => exact .term hfield _

theorem namesOnly_of_metaClause {clause : Fields} (typed : IsMetaClause clause)
    (h : metaClauseNode clause = .ok (some q))
    (hkeys : ∀ key, clause.get? "key" = some (.text key) → isKey key) :
    q.NamesOnly (IndexField isKey) := by
  obtain ⟨key, field, plain, hempty, hkey, hfield, hplain, hq⟩ := exists_made_of_metaClauseNode h
  have htextual : Param.IsTextual (clause.get? "key") := fun v hv => .inr (typed.key v hv)
  obtain ⟨s, hget, hform⟩ := htextual.textForm_eq hempty
  obtain rfl : s = key := Except.ok.inj (hform.symm.trans hkey)
  have hmem : isKey s := hkeys s hget
  obtain ⟨name, hname, rfl⟩ := exists_copy_of_metaField hfield
  have hvalue : IndexField isKey ("meta." ++ s ++ ".value") := by
    have hcopy : IndexField isKey ("meta." ++ s ++ "." ++ "value") :=
      .copy hmem (isMetaCopy_of_mem (by decide))
    rw [String.append_assoc] at hcopy
    exact hcopy
  have hnames : plain.NamesOnly (IndexField isKey) :=
    namesOnly_of_makes hplain (.values hmem) (.copy hmem (isMetaCopy_of_mem hname)) hvalue
  rcases hq with rfl | rfl
  · exact hnames
  · exact .mustNot hnames

/-- The tree that a typed entry is pruned to names the keys of its clauses. -/
theorem namesOnly_of_prunes {entry : MetaEntry} (typed : entry.IsTyped) (h : entry.Prunes q)
    (hkeys : ∀ clause ∈ entry.clauses, ∀ key, clause.get? "key" = some (.text key) → isKey key) :
    q.NamesOnly (IndexField isKey) := by
  -- on the entry: what the keys of a group's clauses are holds for each of its entries
  induction typed generalizing q with
  | clause typed =>
    cases h with
    | clause usable =>
      exact namesOnly_of_metaClause typed usable (hkeys _ (List.mem_singleton_self _))
  | @group relation entries _ _ ih =>
    rw [MetaEntry.clauses_group] at hkeys
    cases h with
    | @group _ _ nodes pruned nonempty =>
      have hnodes {node : Query} (hnode : node ∈ nodes) : node.NamesOnly (IndexField isKey) := by
        obtain ⟨entry, hentry, himage⟩ := pruned.exists_of_mem hnode
        exact ih entry hentry himage fun clause hclause =>
          hkeys clause (List.mem_flatMap.2 ⟨entry, hentry, hclause⟩)
      cases relation.isOr with
      | true => exact .should fun _ hnode => hnodes hnode
      | false => exact .must fun _ hnode => hnodes hnode

namespace Request

variable {r : Request}

/-- A key of metadata that a request asks about: its own, or that of a clause of its metadata query,
at any depth. -/
def IsMetaKey (r : Request) (key : String) : Prop :=
  r.get? "meta_key" = some (.text key) ∨ ∃ v ∈ r.metaGroup.clauses,
    ∃ clause ∈ (MetaEntry.ofValue v).clauses, clause.get? "key" = some (.text key)

theorem exists_key_of_mem_metaShorthand {v : Value} (h : v ∈ r.metaShorthand) :
    ∃ key value, r.get? "meta_key" = some (.text key) ∧
      (MetaEntry.ofValue v).clauses = [("key", .text key) :: value] := by
  unfold metaShorthand at h
  split at h
  · rename_i key hget
    split at h
    · cases h
    · obtain rfl := List.mem_singleton.1 h
      split <;> exact ⟨key, _, hget, rfl⟩
  · cases h

/-- The keys in the metadata query that is put together from the parameters of a request. -/
theorem Accepted.isMetaKey_of_collected (h : r.Accepted) {g : MetaGroup}
    (hg : collectMetaQuery r = .ok (some g)) : ∀ clause ∈ g.entry.clauses, ∀ key,
      clause.get? "key" = some (.text key) → r.IsMetaKey key := by
  have hkey : Param.IsTextual (r.get? "meta_key") := h.isTextual rfl
  rw [collectMetaQuery_eq hkey] at hg
  obtain ⟨-, hg⟩ := Option.ite_none_left_eq_some.1 (Except.ok.inj hg)
  obtain rfl := Option.some.inj hg
  intro clause hclause key hget
  rw [MetaGroup.entry, MetaEntry.clauses_group, List.flatMap_map] at hclause
  obtain ⟨v, hv, hclause⟩ := List.mem_flatMap.1 hclause
  -- the clause is that of `meta_key`, or stands in an entry of `meta_query`
  rcases List.mem_append.1 hv with hv | hv
  · obtain ⟨own, value, hown, hclauses⟩ := exists_key_of_mem_metaShorthand hv
    rw [hclauses, List.mem_singleton] at hclause
    rw [hclause, Fields.get?_cons_self] at hget
    exact .inl (hown.trans hget)
  · exact .inr ⟨v, hv, clause, hclause, hget⟩

/-! ### The answer of the tool -/

/-- The nodes that the filters of an accepted request give. -/
theorem Accepted.namesOnly_of_gives (h : r.Accepted) {zone : TimeZone}
    (hquery : ∀ v, r.get? "meta_query" = some v → v = .null ∨ IsMetaQuery v)
    (hcolumn : ∀ query, r.get? "date_query" = some query → DateFilter.NamesNoColumn query)
    (hq : r.Gives zone q) : q.NamesOnly (IndexField r.IsMetaKey) := by
  cases hq with
  | dimension hmem hfield =>
    exact namesOnly_place _ (namesOnly_of_comparesField hfield (indexField_of_dimension hmem))
  | status hstatus => exact namesOnly_of_statusNode hstatus
  | date hget hempty hfilter hall =>
    have hnull := Param.ne_null_of_not_isEmpty hempty
    exact namesOnly_of_dateFilter hnull (hcolumn _ hget) hfilter hall
  | metadata hcollected hcompiled =>
    rw [MetaGroup.compile_eq] at hcompiled
    exact namesOnly_of_prunes (h.isTyped_collected hquery hcollected)
      ((MetaEntry.prunes_of_node hcompiled).2 q rfl).2 (h.isMetaKey_of_collected hcollected)

/-- The names that requests are sorted by, apart from those of fields. -/
def sortAliases : List String := SortClause.aliases.map (·.1) ++ SortClause.metaAliases.map (·.1)

/-- A request whose sort names nothing, or an alias. -/
def SortsByAlias (r : Request) : Prop :=
  Param.isEmpty (r.normalize.get? "orderby") = true ∨
    ∃ sortKey ∈ sortAliases, r.normalize.get? "orderby" = some (.text sortKey)

theorem exists_alias_of_sort (hsorts : r.SortsByAlias) {clauses : List SortClause}
    (h : r.normalize.sort = .ok clauses) : ∃ sortKey ∈ sortAliases, ∃ order,
      SortClause.resolve sortKey order (some (.object r.normalize)) = .ok clauses := by
  rw [sort_eq] at h
  rcases hsorts with hempty | ⟨sortKey, hmem, hget⟩
  · rw [if_pos hempty] at h
    exact ⟨defaultSortAlias, by decide, _, h⟩
  · have hnonempty : ∀ name ∈ sortAliases, Param.isEmpty (some (.text name)) = false := by
      decide
    rw [hget, hnonempty sortKey hmem, if_neg Bool.false_ne_true] at h
    exact ⟨sortKey, hmem, _, h⟩

/-- The sort of an accepted request by an alias is by a field of the index. -/
theorem Accepted.indexField_of_sort (h : r.Accepted) (hsorts : r.SortsByAlias)
    {clauses : List SortClause} (hsort : r.normalize.sort = .ok clauses) :
    ∀ clause ∈ clauses, IndexField r.IsMetaKey clause.field := by
  obtain ⟨sortKey, hmem, order, hresolve⟩ := exists_alias_of_sort hsorts hsort
  have hcolumns : ∀ entry ∈ SortClause.aliases, entry.2 ∈ columnFields := by decide
  have hcopies : ∀ entry ∈ SortClause.metaAliases, entry.2 ∈ metaCopies := by decide
  have hknown : ∀ name ∈ sortAliases, SortClause.aliases.lookup name = none →
      (SortClause.metaAliases.lookup name).isSome := by
    decide
  unfold SortClause.resolve at hresolve
  split at hresolve
  · obtain rfl := Except.ok.inj hresolve
    exact List.forall_mem_nil _
  · split at hresolve
    · rename_i field hlookup
      obtain rfl := Except.ok.inj hresolve
      exact List.forall_mem_singleton.2 (indexField_of_mem (hcolumns _ (mem_of_lookup hlookup)))
    · -- an alias that is none of a column is one of metadata, which reads the key of the request
      rename_i hlookup
      have hmeta := hknown sortKey hmem hlookup
      split at hresolve
      · rename_i habsent
        rw [habsent] at hmeta
        cases hmeta
      · rename_i copy hcopy
        obtain ⟨key, hkey, hresolve⟩ := bind_eq_ok_iff.1 hresolve
        obtain rfl : r.normalize.get? "meta_key" = key := Except.ok.inj hkey
        rw [get?_normalize r (by decide) (by decide)] at hresolve
        split at hresolve
        · obtain rfl := Except.ok.inj hresolve
          exact List.forall_mem_nil _
        · rename_i hempty
          obtain ⟨form, hform, hresolve⟩ := bind_eq_ok_iff.1 hresolve
          obtain rfl := Except.ok.inj hresolve
          have htextual : Param.IsTextual (r.get? "meta_key") := h.isTextual rfl
          obtain ⟨s, hget, htext⟩ := htextual.textForm_eq (by simpa using hempty)
          obtain rfl : s = form := Except.ok.inj (htext.symm.trans hform)
          refine List.forall_mem_singleton.2 (.copy (.inl hget) (isMetaCopy_of_mem ?_))
          exact hcopies _ (mem_of_lookup hcopy)

end Request

/-- The compiling tool answers whatever it accepts, in any session. Without a date column of the
request, the nodes of its answer name fields of the index only, and so does its sort, if the request
has an alias for it or none. -/
theorem compileTool_names {args : Param} {r : Request}
    (h : Tool.compileQuery.accept args = .ok r)
    (hcolumn : ∀ query, r.get? "date_query" = some query → DateFilter.NamesNoColumn query)
    (s : Session) :
    ∃ compiled, ((Work.compileTool args).run.run s).1 = .ok compiled ∧
      (∀ q ∈ compiled.filters, q.NamesOnly (IndexField r.IsMetaKey)) ∧
      (r.SortsByAlias → ∀ clause ∈ compiled.sort, IndexField r.IsMetaKey clause.field) := by
  have haccepted := accepted_of_accept h
  have hquery : ∀ v, r.get? "meta_query" = some v → v = .null ∨ IsMetaQuery v :=
    fun _ hv => isMetaQuery_of_accept h hv
  obtain ⟨c, hc⟩ := haccepted.exists_compile hquery s.querySettings s.platform.zone
  refine ⟨c.compiled, by rw [Work.run_compileTool h, hc]; rfl, ?_, ?_⟩
  · intro q hq
    exact haccepted.namesOnly_of_gives hquery hcolumn (haccepted.gives_of_compile hc q hq)
  · intro hsorts
    exact haccepted.indexField_of_sort hsorts (Request.normalize_sort_of_compile r _ hc)

theorem compileTool_names_nested :
    let args : Param := some (.object
      [("orderby", .text "meta_value_num"), ("type", .text "review"), ("meta_key", .text "rating"),
        ("meta_query", .list [.object [("clauses", .list [.object
          [("key", .text "color"), ("value", .text "red"), ("compare", .text "not like")]])]]),
        ("date_query", .list [.object [("after", .text "2020")]])])
    ∃ r : Request, Tool.compileQuery.accept args = .ok r ∧
      (∀ query, r.get? "date_query" = some query → DateFilter.NamesNoColumn query) ∧
      r.SortsByAlias ∧ ∃ compiled, ((Work.compileTool args).run.run {}).1 = .ok compiled ∧
        (∀ q ∈ compiled.filters, q.NamesOnly (IndexField r.IsMetaKey)) ∧
        (r.SortsByAlias → ∀ clause ∈ compiled.sort, IndexField r.IsMetaKey clause.field) := by
  intro args
  let r : Request :=
    [("orderby", .text "meta_value_num"), ("type", .text "review"), ("meta_key", .text "rating"),
      ("meta_query", .list [.object [("clauses", .list [.object
        [("key", .text "color"), ("value", .text "red"), ("compare", .text "not like")]])]]),
      ("date_query", .list [.object [("after", .text "2020")]])]
  have haccept : Tool.compileQuery.accept args = .ok r := rfl
  have hcolumn : ∀ query, r.get? "date_query" = some query → DateFilter.NamesNoColumn query := by
    intro query hget
    obtain rfl : Value.list [.object [("after", .text "2020")]] = query := Option.some.inj hget
    refine ⟨nofun, fun clause hmem => ?_⟩
    obtain rfl := Value.object.inj (List.mem_singleton.1 hmem)
    exact nofun
  have hsorts : r.SortsByAlias := .inr ⟨"meta_value_num", by decide, rfl⟩
  exact ⟨r, haccept, hcolumn, hsorts, compileTool_names haccept hcolumn {}⟩

end CommentSearch
