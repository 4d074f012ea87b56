import CommentSearch.Proofs.DateClauses
import CommentSearch.Proofs.SearchFields

/-!
# What validation removes

Validation keeps the named fields of objects and drops all others. A schema without objects keeps
everything (`Schema.strip_of_isFlat`), and of the objects in a request no compiler reads another
field than those that are kept: a selection of search fields gives the same fields
(`searchFields_strip`), a date query the same filter (`DateFilter.compile_strip`).

An entry of a metadata query is kept as a clause where it is no group by validation. If all entries
with a list of `clauses` are groups (`KeepsGroups`), what is kept of an entry has the same node
(`node_of_isKeptAs`).
-/

namespace CommentSearch

/-! ### Flat schemas -/

namespace Schema

mutual

/-- Whether no object occurs in a schema. -/
def isFlat : Schema → Bool
  | text | number | bool => true
  | anyOf forms => allFlat forms
  | list item => item.isFlat
  | nullable form => form.isFlat
  | record _ | object _ | metaQuery => false

/-- Whether no object occurs in several schemas. -/
def allFlat : List Schema → Bool
  | [] => true
  | form :: forms => form.isFlat && allFlat forms

end

mutual

theorem strip_of_isFlat : ∀ {s : Schema}, s.isFlat = true → ∀ v, s.strip v = v
  | text, _, v | number, _, v | bool, _, v => by rw [strip]
  | anyOf forms, h, v => by
    rw [strip]
    exact stripAny_of_allFlat (by simpa [isFlat] using h) v
  | list item, h, v => by
    have hitem : ∀ w, item.strip w = w := strip_of_isFlat (by simpa [isFlat] using h)
    cases v with
    | list items => simp [strip, hitem]
    | null | bool | number | text | object => simp [strip]
  | nullable form, h, v => by
    have hform : ∀ w, form.strip w = w := strip_of_isFlat (by simpa [isFlat] using h)
    cases v <;> simp [strip, hform]

theorem stripAny_of_allFlat : ∀ {forms : List Schema}, allFlat forms = true →
    ∀ v, stripAny forms v = v
  | [], _, v => by rw [stripAny]
  | form :: forms, h, v => by
    rw [allFlat, Bool.and_eq_true] at h
    rw [stripAny]
    split
    · exact strip_of_isFlat h.1 v
    · exact stripAny_of_allFlat h.2 v

end

/-- The names of the fields with flat schemas. -/
def flatNames (shape : List (String × Bool × Schema)) : List String :=
  (shape.filter fun part => part.2.2.isFlat).map (·.1)

/-- The fields with flat schemas are kept as they are. -/
theorem agreeOn_flatNames {shape : List (String × Bool × Schema)}
    (distinct : (shape.map (·.1)).Nodup) (fields : Fields) :
    Fields.AgreeOn (flatNames shape) (stripFields shape fields) fields := by
  intro name hname
  obtain ⟨⟨name, optional, schema⟩, hpart, rfl⟩ := List.mem_map.1 hname
  obtain ⟨hmem, hflat⟩ := List.mem_filter.1 hpart
  rw [get?_stripFields distinct hmem, funext (strip_of_isFlat hflat)]
  exact Option.map_id'

/-- What is kept of a value that one of several forms accepts is what such a form keeps. -/
theorem exists_form_of_strip {forms : List Schema} {v : Value}
    (h : (anyOf forms).accepts v = true) :
    ∃ form ∈ forms, form.accepts v = true ∧ (anyOf forms).strip v = form.strip v := by
  rw [strip]
  exact exists_form_of_stripAny (anyAccepts_iff.2 (accepts_anyOf_iff.1 h))

theorem strip_object (shape : List (String × Bool × Schema)) (fields : Fields) :
    (object shape).strip (.object fields) = .object (stripFields shape fields) := by
  rw [strip]

theorem strip_list (item : Schema) (items : List Value) :
    (list item).strip (.list items) = .list (items.map item.strip) := by
  rw [strip]

theorem strip_nullable {form : Schema} {v : Value} (h : v ≠ .null) :
    (nullable form).strip v = form.strip v := by
  cases v <;> simp [strip] at h ⊢

end Schema

/-! ### What counts as empty -/

theorem length_of_metaEntries? {items kept : List Value} (h : metaEntries? items = some kept) :
    kept.length = items.length := by
  induction items generalizing kept with
  | nil =>
    obtain rfl : [] = kept := by simpa [metaEntries?] using h
    rfl
  | cons item items ih =>
    obtain ⟨entry, entries, rfl, hentries, -⟩ := metaEntries?_cons_eq_some_iff.1 h
    rw [List.length_cons, List.length_cons, ih hentries]

theorem isEmpty_of_metaQuery? {v kept : Value} (h : metaQuery? v = some kept) :
    Param.isEmpty (some kept) = Param.isEmpty (some v) := by
  unfold metaQuery? at h
  split at h
  · rename_i items
    obtain ⟨entries, hentries, rfl⟩ := Option.map_eq_some_iff.1 h
    have hlength := length_of_metaEntries? hentries
    cases entries <;> cases items <;> simp [Param.isEmpty] at hlength ⊢
  · obtain ⟨fields, _, _, _, rfl, -, -, -, rfl⟩ := metaGroup?_eq_some_iff.1 h
    rfl

namespace Schema

mutual

/-- What is kept of a value is empty exactly where the value is. -/
theorem isEmpty_strip : ∀ (s : Schema) (v : Value),
    Param.isEmpty (some (s.strip v)) = Param.isEmpty (some v)
  | text, v | number, v | bool, v => by rw [strip]
  | anyOf forms, v => by
    rw [strip]
    exact isEmpty_stripAny forms v
  | list item, v => by
    cases v <;> simp [strip, Param.isEmpty]
  | record item, v => by
    cases v <;> simp [strip, Param.isEmpty]
  | object shape, v => by
    cases v <;> simp [strip, Param.isEmpty]
  | nullable form, v => by
    have hform := isEmpty_strip form v
    cases v <;> simp [strip, hform]
  | metaQuery, v => by
    rw [strip]
    cases h : metaQuery? v with
    | none => rfl
    | some kept => exact isEmpty_of_metaQuery? h

theorem isEmpty_stripAny : ∀ (forms : List Schema) (v : Value),
    Param.isEmpty (some (stripAny forms v)) = Param.isEmpty (some v)
  | [], v => by rw [stripAny]
  | form :: forms, v => by
    rw [stripAny]
    split
    · exact isEmpty_strip form v
    · exact isEmpty_stripAny forms v

end

end Schema

/-! ### Selections of search fields -/

/-- The shape of a selection that is an object. -/
def selectionShape : List (String × Bool × Schema) :=
  [("fields", true, .list .text), ("meta", true, .textOrTexts)]

theorem searchFields_congr {fields others : Fields}
    (h : Fields.AgreeOn ["fields", "meta"] fields others) (defaults : Value) :
    searchFields (some (.object fields)) defaults =
      searchFields (some (.object others)) defaults := by
  have hfields := h "fields" (by decide)
  have hmeta := h "meta" (by decide)
  simp only [searchFields, Value.get?_object, hfields, hmeta]
  rfl

/-- What is kept of a selection gives the same search fields. -/
theorem searchFields_strip {v : Value} (h : Schema.searchSelection.accepts v = true)
    (defaults : Value) :
    searchFields (some (Schema.searchSelection.strip v)) defaults =
      searchFields (some v) defaults := by
  obtain ⟨form, hform, haccepts, hstrip⟩ := Schema.exists_form_of_strip h
  rw [Schema.searchSelection, hstrip]
  simp only [List.mem_cons, List.not_mem_nil, or_false] at hform
  rcases hform with rfl | rfl
  · rw [Schema.strip_of_isFlat rfl]
  · obtain ⟨fields, rfl, -⟩ := Schema.accepts_object_iff.1 haccepts
    have hdistinct : (selectionShape.map (·.1)).Nodup := by decide
    have hagree := Schema.agreeOn_flatNames hdistinct fields
    rw [Schema.optionalFields, Schema.strip_object]
    exact searchFields_congr (hagree.mono (by decide)) defaults

/-! ### Date queries -/

namespace DateClause

/-- The shape of the parts of a date. -/
def partsShape : List (String × Bool × Schema) :=
  [("year", true, .scalar), ("month", true, .scalar), ("day", true, .scalar)]

/-- The shape of a clause. -/
def shape : List (String × Bool × Schema) :=
  [("after", true, .anyOf [.text, .dateParts]), ("before", true, .anyOf [.text, .dateParts]),
    ("inclusive", true, .bool), ("column", true, .text), ("year", true, .scalar),
    ("month", true, .scalar), ("monthnum", true, .scalar), ("day", true, .scalar)]

theorem nodup_shape : (shape.map (·.1)).Nodup := by
  decide

/-- The parameters of a clause besides its ends. -/
def plainNames : List String := ["inclusive", "column", "year", "month", "monthnum", "day"]

theorem bound_congr (zone : TimeZone) {parts others : Fields}
    (h : Fields.AgreeOn ["year", "month", "day"] parts others) (atEnd : Bool) :
    bound zone (.object parts) atEnd = bound zone (.object others) atEnd := by
  rw [bound_object, bound_object, h "year" (by decide), h "month" (by decide), h "day" (by decide)]

/-- What is kept of an end of a clause gives the same bound. -/
theorem bound_strip (zone : TimeZone) {v : Value}
    (h : (Schema.anyOf [.text, .dateParts]).accepts v = true) (atEnd : Bool) :
    bound zone ((Schema.anyOf [.text, .dateParts]).strip v) atEnd = bound zone v atEnd := by
  obtain ⟨form, hform, haccepts, hstrip⟩ := Schema.exists_form_of_strip h
  rw [hstrip]
  simp only [List.mem_cons, List.not_mem_nil, or_false] at hform
  rcases hform with rfl | rfl
  · rw [Schema.strip_of_isFlat rfl]
  · obtain ⟨parts, rfl, -⟩ := Schema.accepts_object_iff.1 haccepts
    have hdistinct : (partsShape.map (·.1)).Nodup := by decide
    have hagree := Schema.agreeOn_flatNames hdistinct parts
    rw [Schema.dateParts, Schema.optionalFields, Schema.strip_object]
    exact bound_congr zone (hagree.mono (by decide)) atEnd

theorem limits_congr {clause other : Fields}
    (h : Fields.AgreeOn ["year", "month", "monthnum", "day"] clause other) :
    limits clause = limits other := by
  unfold limits
  rw [h "year" (by decide), h "month" (by decide), h "monthnum" (by decide), h "day" (by decide)]

/-- A clause has the same node as another one that has the same bounds at its ends, is limited to
the same period and agrees with it on all else. -/
theorem node_congr {zone : TimeZone} {clause other : Fields}
    (hplain : Fields.AgreeOn ["inclusive", "column"] clause other)
    (hlimits : limits clause = limits other)
    (hends : ∀ name ∈ ["after", "before"], ∀ atEnd,
      endBound zone (clause.get? name) atEnd = endBound zone (other.get? name) atEnd)
    (column : Value) : node zone clause column = node zone other column := by
  have hinclusive : isInclusive clause = isInclusive other := by
    unfold isInclusive
    rw [hplain "inclusive" (by decide)]
  have hranges : ranges clause = ranges other := by
    unfold ranges
    rw [hlimits]
  rw [node_eq, node_eq, bounds_eq, bounds_eq, hplain "column" (by decide), hinclusive,
    hends "after" (by decide), hends "before" (by decide), hranges]

/-- What is kept of a clause has the same node. -/
theorem node_stripFields (zone : TimeZone) {clause : Fields}
    (h : Schema.AcceptsFields shape clause) (column : Value) :
    node zone (Schema.stripFields shape clause) column = node zone clause column := by
  have hends : ∀ name ∈ ["after", "before"],
      (name, true, Schema.anyOf [.text, .dateParts]) ∈ shape := by
    simp [shape]
  have hplain : Fields.AgreeOn plainNames (Schema.stripFields shape clause) clause :=
    (Schema.agreeOn_flatNames nodup_shape clause).mono (by decide)
  refine node_congr (hplain.mono (by decide)) (limits_congr (hplain.mono (by decide)))
    (fun name hname atEnd => ?_) column
  rw [Schema.get?_stripFields nodup_shape (hends name hname)]
  cases hget : clause.get? name with
  | none => rfl
  | some v => exact bound_strip zone ((h name true _ (hends name hname)).1 v hget) atEnd

end DateClause

namespace DateFilter

variable (zone : TimeZone)

/-- The shape of a date query that is an object. -/
def shape : List (String × Bool × Schema) :=
  [("relation", true, .text), ("column", true, .text), ("clauses", false, .list .dateClause)]

theorem nodup_shape : (shape.map (·.1)).Nodup := by
  decide

theorem nodes_strip {clauses : List Value}
    (h : ∀ v ∈ clauses, Schema.dateClause.accepts v = true) (column : Value) :
    nodes zone column (clauses.map Schema.dateClause.strip) = nodes zone column clauses := by
  induction clauses with
  | nil => rfl
  | cons v clauses ih =>
    obtain ⟨clause, rfl, hfields⟩ := Schema.accepts_object_iff.1 (h v List.mem_cons_self)
    have hkept : Schema.dateClause.strip (.object clause) =
        .object (Schema.stripFields DateClause.shape clause) := by
      rw [Schema.dateClause, Schema.optionalFields, Schema.strip_object]
      rfl
    rw [List.map_cons, hkept, nodes_cons_object, nodes_cons_object,
      DateClause.node_stripFields zone hfields, ih fun w hw => h w (List.mem_cons_of_mem _ hw)]

theorem ofClauses_strip {clauses : List Value}
    (h : ∀ v ∈ clauses, Schema.dateClause.accepts v = true) (relation : Param) (column : Value) :
    ofClauses zone relation column (clauses.map Schema.dateClause.strip) =
      ofClauses zone relation column clauses := by
  unfold ofClauses
  rw [nodes_strip zone h]

theorem compile_object {fields : Fields} {clauses : List Value}
    (h : fields.get? "clauses" = some (.list clauses)) : compile (some (.object fields)) zone =
      ofClauses zone (fields.get? "relation")
        (DateClause.columnOr (fields.get? "column") (.text defaultDateColumn)) clauses := by
  have hclauses : clausesOf (.object fields) = clauses := by
    simp only [clausesOf, Value.get?_object, h]
  have hnull : Value.object fields ≠ .null := by
    intro h
    cases h
  rw [compile_eq hnull, hclauses, columnOf, Value.get?_object, Value.get?_object]

/-- What is kept of a date query compiles to the same filter. -/
theorem compile_strip {v : Value} (h : Schema.dateQuery.accepts v = true) :
    compile (some (Schema.dateQuery.strip v)) zone = compile (some v) zone := by
  obtain ⟨form, hform, haccepts, hstrip⟩ := Schema.exists_form_of_strip h
  rw [Schema.dateQuery, hstrip]
  simp only [List.mem_cons, List.not_mem_nil, or_false] at hform
  rcases hform with rfl | rfl
  · obtain ⟨clauses, rfl, hclauses⟩ := Schema.accepts_list_iff.1 haccepts
    rw [Schema.strip_list]
    exact ofClauses_strip zone hclauses none _
  · obtain ⟨fields, rfl, hfields⟩ := Schema.accepts_object_iff.1 haccepts
    have hmem : ("clauses", false, Schema.list .dateClause) ∈ shape := by simp [shape]
    obtain ⟨clauses, hget, hclauses⟩ : ∃ clauses, fields.get? "clauses" = some (.list clauses) ∧
        ∀ v ∈ clauses, Schema.dateClause.accepts v = true := by
      have hentries := hfields "clauses" false _ hmem
      obtain ⟨w, hw⟩ : ∃ w, fields.get? "clauses" = some w := by
        rw [← Option.ne_none_iff_exists']
        exact fun hnone => Bool.false_ne_true (hentries.2 hnone)
      obtain ⟨clauses, rfl, hclauses⟩ := Schema.accepts_list_iff.1 (hentries.1 w hw)
      exact ⟨clauses, hw, hclauses⟩
    have hkept : Fields.get? (Schema.stripFields shape fields) "clauses" =
        some (.list (clauses.map Schema.dateClause.strip)) := by
      rw [Schema.get?_stripFields nodup_shape hmem, hget, Option.map_some, Schema.strip_list]
    have hagree := Schema.agreeOn_flatNames nodup_shape fields
    rw [Schema.strip_object]
    change compile (some (.object (Schema.stripFields shape fields))) zone = _
    rw [compile_object zone hkept, compile_object zone hget, ofClauses_strip zone hclauses,
      hagree "relation" (by decide), hagree "column" (by decide)]

end DateFilter

/-! ### Metadata queries -/

theorem metaClauseNode_congr {clause other : Fields}
    (h : Fields.AgreeOn ["key", "value", "compare", "type"] clause other) :
    metaClauseNode clause = metaClauseNode other := by
  unfold metaClauseNode
  rw [h "key" (by decide), h "value" (by decide), h "compare" (by decide), h "type" (by decide)]

/-- An entry of a metadata query in which no group is taken for a clause: at any depth, what has a
list of `clauses` is a group by validation. -/
inductive KeepsGroups : Value → Prop
  | clause {fields : Fields} (single : ∀ items, fields.get? "clauses" ≠ some (.list items)) :
    KeepsGroups (.object fields)
  | group {fields : Fields} {items : List Value}
    (entries : fields.get? "clauses" = some (.list items))
    (accepted : (metaGroup? (.object fields)).isSome) (keeps : ∀ item ∈ items, KeepsGroups item) :
    KeepsGroups (.object fields)

/-- What is kept of an entry of a metadata query: a group where it is one, or else a clause. -/
def IsKeptAs (v entry : Value) : Prop :=
  metaGroup? v = some entry ∨
    metaGroup? v = none ∧ ∃ fields, v = .object fields ∧ metaClause? fields = some entry

namespace MetaEntry

theorem ofValue_of_entries {fields : Fields} {items : List Value}
    (h : fields.get? "clauses" = some (.list items)) :
    ofValue (.object fields) = .group (fields.get? "relation") (items.map ofValue) := by
  rw [ofValue_object, h]

theorem ofValue_of_single {fields : Fields}
    (h : ∀ items, fields.get? "clauses" ≠ some (.list items)) :
    ofValue (.object fields) = .clause fields := by
  rw [ofValue_object]
  split
  · rename_i items hitems
    exact absurd hitems (h items)
  · rfl

theorem nodes_congr {entries others : List MetaEntry}
    (h : entries.map MetaEntry.node = others.map MetaEntry.node) :
    MetaEntry.nodes entries = MetaEntry.nodes others := by
  induction entries generalizing others with
  | nil =>
    obtain rfl := List.map_eq_nil_iff.1 h.symm
    rfl
  | cons entry entries ih =>
    cases others with
    | nil => cases h
    | cons other others =>
      obtain ⟨hhead, htail⟩ := List.cons.inj h
      rw [MetaEntry.nodes, MetaEntry.nodes, ih htail]
      exact congrArg (· >>= _) hhead

/-- What is kept of entries has the nodes of these, as soon as this holds of each entry. -/
theorem map_node_of_metaEntries? {items kept : List Value} (h : metaEntries? items = some kept)
    (hitems : ∀ item ∈ items, ∀ entry, IsKeptAs item entry →
      (ofValue entry).node = (ofValue item).node) :
    (kept.map ofValue).map MetaEntry.node = (items.map ofValue).map MetaEntry.node := by
  induction items generalizing kept with
  | nil =>
    obtain rfl : [] = kept := by simpa [metaEntries?] using h
    rfl
  | cons item items ih =>
    obtain ⟨entry, entries, rfl, hentries, hentry⟩ := metaEntries?_cons_eq_some_iff.1 h
    have htail := ih hentries fun w hw => hitems w (List.mem_cons_of_mem _ hw)
    simp only [List.map_cons]
    rw [hitems item List.mem_cons_self entry hentry, htail]

/-- What is kept of an entry has the node of the entry. -/
theorem node_of_isKeptAs {v : Value} (h : KeepsGroups v) :
    ∀ entry, IsKeptAs v entry → (ofValue entry).node = (ofValue v).node := by
  induction h with
  | @clause fields single =>
    intro entry hentry
    rcases hentry with hgroup | ⟨-, _, heq, hclause⟩
    · obtain ⟨_, _, items, _, heq, hitems, -⟩ := metaGroup?_eq_some_iff.1 hgroup
      obtain rfl := Value.object.inj heq
      exact absurd hitems (single items)
    · obtain rfl := Value.object.inj heq
      obtain ⟨kept, hkept, rfl⟩ := metaClause?_eq_some_iff.1 hclause
      have hsingle : ∀ items, kept.get? "clauses" ≠ some (.list items) := by
        rw [get?_clauses_of_acceptedFields hkept]
        exact nofun
      rw [ofValue_of_single hsingle, ofValue_of_single single, MetaEntry.node, MetaEntry.node]
      refine metaClauseNode_congr fun name hname => ?_
      rw [get?_acceptedFields hkept]
      exact if_pos hname
  | @group fields items entries accepted _ ih =>
    intro entry hentry
    have hgroup : metaGroup? (.object fields) = some entry := by
      rcases hentry with hgroup | ⟨hnone, -⟩
      · exact hgroup
      · rw [hnone] at accepted
        cases accepted
    obtain ⟨_, relation, items', kept, heq, hitems, hkept, hrelation, rfl⟩ :=
      metaGroup?_eq_some_iff.1 hgroup
    obtain rfl := Value.object.inj heq
    obtain rfl : items = items' := Value.list.inj (Option.some.inj (entries.symm.trans hitems))
    have hnodes := nodes_congr (map_node_of_metaEntries? hkept ih)
    rw [ofValue_of_entries (get?_clauses_group hrelation kept), ofValue_of_entries entries,
      get?_relation_group, get?_acceptedFields hrelation, if_pos (by simp), MetaEntry.node,
      MetaEntry.node, hnodes]

end MetaEntry

namespace MetaGroup

/-- The nodes of the entries of a group, each with its fault or without one. -/
def nodes (g : MetaGroup) : List (Except Fault (Option Query)) :=
  g.clauses.map fun v => (MetaEntry.ofValue v).node

/-- What is kept of a metadata query has the relation and the nodes of the query. -/
theorem nodes_ofQuery {v kept : Value} (h : metaQuery? v = some kept)
    (hkeeps : ∀ entry ∈ (ofQuery (some v)).clauses, KeepsGroups entry) :
    (ofQuery (some kept)).relation = (ofQuery (some v)).relation ∧
      (ofQuery (some kept)).nodes = (ofQuery (some v)).nodes := by
  have hnodes {items entries : List Value} (hentries : metaEntries? items = some entries)
      (hitems : ∀ item ∈ items, KeepsGroups item) :
      entries.map (fun v => (MetaEntry.ofValue v).node) =
        items.map fun v => (MetaEntry.ofValue v).node := by
    have hmap := MetaEntry.map_node_of_metaEntries? hentries fun item hitem =>
      MetaEntry.node_of_isKeptAs (hitems item hitem)
    rwa [List.map_map, List.map_map] at hmap
  unfold metaQuery? at h
  split at h
  · obtain ⟨entries, hentries, rfl⟩ := Option.map_eq_some_iff.1 h
    exact ⟨rfl, hnodes hentries hkeeps⟩
  · obtain ⟨fields, relation, items, entries, rfl, hitems, hentries, hrelation, rfl⟩ :=
      metaGroup?_eq_some_iff.1 h
    simp only [ofQuery, nodes, hitems, get?_clauses_group hrelation,
      get?_relation_group] at hkeeps ⊢
    rw [get?_acceptedFields hrelation]
    exact ⟨if_pos (List.mem_singleton_self _), hnodes hentries hkeeps⟩

end MetaGroup

end CommentSearch
