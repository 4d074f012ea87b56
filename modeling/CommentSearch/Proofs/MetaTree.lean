import Mathlib.Data.List.Forall2
import Mathlib.Logic.ExistsUnique
import CommentSearch.Proofs.MetaGrammar
import CommentSearch.Proofs.MetaMeaning

/-!
# Compiled metadata queries

A metadata query compiles to the tree that it is pruned to, and to nothing exactly where no clause
of it can be used (`prunes_of_node`). By the facts about pruned trees, the document then keeps the
clauses and the meaning of the query, at any depth (`MetaEntry.Yields`). Which tree a query is
follows from the shape of its values alone (`MetaEntry.IsTreeOf`).

A query whose fields are of their types always compiles (`exists_node_of_isTyped`).
-/

namespace CommentSearch

/-! ### Relations -/

/-- A keyword is `OR` exactly where the relation joins by OR. -/
theorem keyword_eq_or_iff {relation : Param} {keyword : Option String}
    (h : relation.keyword = .ok keyword) : keyword = some "OR" ↔ relation.isOr = true := by
  cases relation with
  | none =>
    obtain rfl := Except.ok.inj h
    simp [Param.isOr]
  | some v =>
    unfold Param.keyword at h
    dsimp only at h
    split at h
    · split at h
      · obtain rfl := Except.ok.inj h
        simp [Param.isOr]
      · cases h
    · rename_i hfalse
      obtain rfl := Except.ok.inj h
      cases v with
      | text s =>
        have hs : s = "" := by simpa [Value.isTruthy] using hfalse
        subst hs
        simp only [reduceCtorEq, false_iff]
        decide
      | null | bool | number | list | object => simp [Param.isOr]

/-- A relation that is a text, or absent, has a keyword. -/
theorem exists_keyword {p : Param} (h : ∀ v, p = some v → ∃ s, v = .text s) :
    ∃ keyword, p.keyword = .ok keyword := by
  cases p with
  | none => exact ⟨none, rfl⟩
  | some v =>
    obtain ⟨s, rfl⟩ := h v rfl
    unfold Param.keyword
    dsimp only
    split
    · exact ⟨_, rfl⟩
    · exact ⟨_, rfl⟩

/-- Nodes are joined by their relation; without any there is nothing to join. -/
theorem eq_of_joinNodes {relation : Param} {nodes : List Query} {result : Option Query}
    (h : joinNodes relation nodes = .ok result) :
    result = if nodes = [] then none else some (.join relation.isOr nodes) := by
  unfold joinNodes at h
  cases nodes with
  | nil => exact (Except.ok.inj h).symm
  | cons node nodes =>
    obtain ⟨keyword, hkeyword, h⟩ := bind_eq_ok_iff.1 h
    rw [← Except.ok.inj h, if_neg (List.cons_ne_nil _ _), Query.join]
    simp only [keyword_eq_or_iff hkeyword]

/-! ### Compilation prunes -/

namespace MetaEntry

/-- The nodes of entries are those that the entries that survive are pruned to, as soon as this
holds of each entry. -/
theorem pruned_of_nodes {entries : List MetaEntry} {nodes : List Query}
    (h : MetaEntry.nodes entries = .ok nodes)
    (hentries : ∀ entry ∈ entries, ∀ result, entry.node = .ok result →
      (result = none → ¬entry.Survives) ∧ ∀ q, result = some q → entry.Survives ∧ entry.Prunes q) :
    Pruned Survives Prunes entries nodes := by
  induction entries generalizing nodes with
  | nil =>
    obtain rfl := Except.ok.inj h
    exact .nil
  | cons entry entries ih =>
    rw [MetaEntry.nodes] at h
    obtain ⟨result, hresult, h⟩ := bind_eq_ok_iff.1 h
    obtain ⟨rest, hrest, h⟩ := bind_eq_ok_iff.1 h
    obtain rfl := Except.ok.inj h
    have hpruned := ih hrest fun entry hentry => hentries entry (List.mem_cons_of_mem _ hentry)
    obtain ⟨hlost, hkept⟩ := hentries entry List.mem_cons_self result hresult
    cases result with
    | none => exact .drop (hlost rfl) hpruned
    | some q => exact .keep (hkept q rfl).1 (hkept q rfl).2 hpruned

/-- An entry that compiles to nothing does not survive; one that compiles to a node survives, and is
pruned to that node. -/
theorem prunes_of_node {entry : MetaEntry} {result : Option Query} (h : entry.node = .ok result) :
    (result = none → ¬entry.Survives) ∧ ∀ q, result = some q → entry.Survives ∧ entry.Prunes q := by
  induction entry using MetaEntry.induction generalizing result with
  | clause fields =>
    rw [MetaEntry.node] at h
    rw [survives_clause_iff]
    refine ⟨?_, ?_⟩
    · rintro rfl ⟨node, hnode⟩
      rw [h] at hnode
      cases hnode
    · rintro q rfl
      exact ⟨⟨q, h⟩, .clause h⟩
  | group relation entries ih =>
    rw [MetaEntry.node] at h
    obtain ⟨nodes, hnodes, h⟩ := bind_eq_ok_iff.1 h
    -- a group survives as soon as its pruned list has a node, that is, unless it is left empty
    have hpruned := pruned_of_nodes hnodes fun entry hentry _ => ih entry hentry
    have hresult := eq_of_joinNodes h
    rw [survives_group_iff, ← hpruned.ne_nil_iff]
    by_cases hnil : nodes = []
    · rw [if_pos hnil] at hresult
      subst hresult
      exact ⟨fun _ hne => hne hnil, nofun⟩
    · rw [if_neg hnil] at hresult
      subst hresult
      refine ⟨nofun, fun q hq => ?_⟩
      obtain rfl := Option.some.inj hq
      exact ⟨hnil, .group hpruned hnil⟩
  | unusable =>
    obtain rfl := Except.ok.inj h
    refine ⟨fun _ => ?_, nofun⟩
    simp [Survives, clauses]

/-! ### Typed entries -/

/-- An entry whose clauses and relations are of their types, at any depth. -/
inductive IsTyped : MetaEntry → Prop
  | clause {fields : Fields} (typed : IsMetaClause fields) : IsTyped (.clause fields)
  | group {relation : Param} {entries : List MetaEntry}
    (textual : ∀ v, relation = some v → ∃ s, v = .text s)
    (typed : ∀ entry ∈ entries, IsTyped entry) : IsTyped (.group relation entries)

theorem isTyped_ofValue {v : Value} (h : IsMetaEntry v) : (ofValue v).IsTyped := by
  induction h with
  | @clause fields single typed =>
    rw [ofValue_object]
    split
    · rename_i items hitems
      exact absurd hitems (single items)
    · exact .clause typed
  | @group fields items hitems textual _ ih =>
    rw [ofValue_object, hitems]
    refine .group textual fun entry hentry => ?_
    obtain ⟨item, hitem, rfl⟩ := List.mem_map.1 hentry
    exact ih item hitem

end MetaEntry

theorem exists_textForm_of_scalar {v : Value} (h : v.scalar?.isSome) :
    ∃ s, textForm (some v) = .ok s := by
  cases v with
  | null | list | object => cases h
  | bool b => exact ⟨_, rfl⟩
  | number x => exact ⟨_, rfl⟩
  | text s => exact ⟨_, rfl⟩

theorem isSome_scalar?_of_singleValue {fields : Fields} (h : IsMetaClause fields) {v : Value}
    (hv : singleValue (fields.get? "value") = some v) : v.scalar?.isSome := by
  cases hvalue : fields.get? "value" with
  | none =>
    rw [hvalue] at hv
    cases hv
  | some w =>
    rw [hvalue] at hv
    rcases h.value w hvalue with rfl | hscalar | ⟨items, rfl, hitems⟩
    · cases hv
    · cases w with
      | null | list | object => cases hscalar
      | bool | number | text =>
        obtain rfl := Option.some.inj hv
        rfl
    · exact hitems v (List.mem_of_head? hv)

/-- A typed clause either has a node or cannot be used. -/
theorem exists_metaClauseNode {fields : Fields} (h : IsMetaClause fields) :
    ∃ result, metaClauseNode fields = .ok result := by
  have hcomparison (c : Comparison) (key field : String) :
      ∃ result, c.node key field (fields.get? "value") = .ok result := by
    obtain ⟨result, hresult⟩ :
        ∃ result, c.test.node key field (fields.get? "value") = .ok result := by
      cases c.test with
      | isBetween =>
        unfold MetaTest.node
        dsimp only
        split <;> exact ⟨_, rfl⟩
      | contains =>
        unfold MetaTest.node
        dsimp only
        split
        · rename_i v hv
          obtain ⟨s, hs⟩ := exists_textForm_of_scalar (isSome_scalar?_of_singleValue h hv)
          rw [hs]
          exact ⟨_, rfl⟩
        · exact ⟨_, rfl⟩
      | hasAny | isOneOf | isAbove | isAtLeast | isBelow | isAtMost | isEqual => exact ⟨_, rfl⟩
    refine ⟨if c.negated then result.map .mustNot else result, ?_⟩
    rw [Comparison.node, hresult]
    rfl
  have hfield (key : String) : ∃ field, metaField key (fields.get? "type") = .ok field := by
    cases htype : fields.get? "type" with
    | none => exact ⟨_, rfl⟩
    | some v =>
      obtain ⟨s, rfl⟩ := h.type v htype
      unfold metaField
      dsimp only
      split <;> exact ⟨_, rfl⟩
  unfold metaClauseNode
  split
  · exact ⟨none, rfl⟩
  · rename_i hempty
    obtain ⟨key, hkey⟩ : ∃ key, textForm (fields.get? "key") = .ok key := by
      cases hget : fields.get? "key" with
      | none =>
        rw [hget] at hempty
        exact absurd rfl hempty
      | some v =>
        obtain ⟨s, rfl⟩ := h.key v hget
        exact ⟨s, rfl⟩
    obtain ⟨keyword, hkeyword⟩ := exists_keyword h.compare
    obtain ⟨field, hfield⟩ := hfield key
    simp only [bind, Except.bind, hkey, hkeyword, hfield]
    exact hcomparison _ key field

namespace MetaEntry

/-- A typed entry either has a node or cannot be used. -/
theorem exists_node_of_isTyped {entry : MetaEntry} (h : entry.IsTyped) :
    ∃ result, entry.node = .ok result := by
  induction h with
  | clause typed =>
    rw [MetaEntry.node]
    exact exists_metaClauseNode typed
  | @group relation entries textual typed ih =>
    -- the induction is on a part of the entries, since `ih` speaks of all of them
    have hnodes (others : List MetaEntry) (hothers : ∀ entry ∈ others, entry ∈ entries) :
        ∃ nodes, MetaEntry.nodes others = .ok nodes := by
      induction others with
      | nil => exact ⟨[], rfl⟩
      | cons entry others ihothers =>
        obtain ⟨result, hresult⟩ := ih entry (hothers entry List.mem_cons_self)
        obtain ⟨rest, hrest⟩ := ihothers fun e he => hothers e (List.mem_cons_of_mem _ he)
        rw [MetaEntry.nodes, hresult, hrest]
        exact ⟨_, rfl⟩
    obtain ⟨nodes, hnodes⟩ := hnodes entries fun _ he => he
    obtain ⟨keyword, hkeyword⟩ := exists_keyword textual
    rw [MetaEntry.node, hnodes]
    change ∃ result, joinNodes relation nodes = .ok result
    unfold joinNodes
    cases nodes with
    | nil => exact ⟨none, rfl⟩
    | cons node nodes =>
      rw [hkeyword]
      exact ⟨_, rfl⟩

end MetaEntry

/-! ### Queries -/

/-- The filter of a metadata query in either of its forms. -/
def compileMetaQuery (query : Value) : Except Fault (Option Query) := do
  let group ← MetaGroup.ofGroupForm (MetaGroup.groupForm (some query))
  group.compile

namespace MetaGroup

/-- The tree of entries that a group is. -/
def entry (g : MetaGroup) : MetaEntry := .group g.relation (g.clauses.map MetaEntry.ofValue)

theorem compile_eq (g : MetaGroup) : g.compile = g.entry.node := by
  rw [compile, entry, MetaEntry.ofValues_eq]

theorem isTyped_entry {g : MetaGroup} (hrelation : ∀ v, g.relation = some v → ∃ s, v = .text s)
    (hclauses : ∀ v ∈ g.clauses, IsMetaEntry v) : g.entry.IsTyped := by
  refine .group hrelation fun entry hentry => ?_
  obtain ⟨v, hv, rfl⟩ := List.mem_map.1 hentry
  exact MetaEntry.isTyped_ofValue (hclauses v hv)

end MetaGroup

theorem typed_ofQuery {query : Value} (h : IsMetaQuery query) :
    (∀ v, (MetaGroup.ofQuery (some query)).relation = some v → ∃ s, v = .text s) ∧
      ∀ v ∈ (MetaGroup.ofQuery (some query)).clauses, IsMetaEntry v := by
  cases query with
  | list items => exact ⟨nofun, h⟩
  | object fields =>
    obtain ⟨htyped, _, items, heq, hclauses⟩ := h
    obtain rfl := Value.object.inj heq
    cases htyped with
    | clause single _ => exact absurd hclauses (single items)
    | group entries textual typed =>
      simp only [MetaGroup.ofQuery, entries]
      exact ⟨textual, typed⟩
  | null | bool | number | text =>
    obtain ⟨-, _, _, heq, -⟩ := h
    cases heq

namespace MetaEntry

/-- The tree of entries that a metadata query is, in either of its forms. -/
def ofQuery (query : Value) : MetaEntry := (MetaGroup.ofQuery (some query)).entry

/-- What an item of a metadata query says. An object with a list of `clauses` says the group of what
the items of the list say, any other object a clause, and any other value nothing that could be
used. -/
inductive IsReadFrom : MetaEntry → Value → Prop
  | group {fields : Fields} {items : List Value} {entries : List MetaEntry}
    (listed : fields.get? "clauses" = some (.list items))
    (each : List.Forall₂ IsReadFrom entries items) :
    IsReadFrom (.group (fields.get? "relation") entries) (.object fields)
  | clause {fields : Fields} (unlisted : ∀ items, fields.get? "clauses" ≠ some (.list items)) :
    IsReadFrom (.clause fields) (.object fields)
  | unusable {v : Value} (plain : ∀ fields, v ≠ .object fields) : IsReadFrom .unusable v

/-- What a metadata query says: a list joins what its items say by AND, an object with a list of
`clauses` joins what those say by its relation, and any other value has no entries. -/
inductive IsTreeOf : MetaEntry → Value → Prop
  | list {items : List Value} {entries : List MetaEntry}
    (each : List.Forall₂ IsReadFrom entries items) : IsTreeOf (.group none entries) (.list items)
  | group {fields : Fields} {items : List Value} {entries : List MetaEntry}
    (listed : fields.get? "clauses" = some (.list items))
    (each : List.Forall₂ IsReadFrom entries items) :
    IsTreeOf (.group (fields.get? "relation") entries) (.object fields)
  | empty {query : Value} (notList : ∀ items, query ≠ .list items)
    (unlisted : ∀ (fields : Fields) items, query = .object fields →
      fields.get? "clauses" ≠ some (.list items)) : IsTreeOf (.group none []) query

/-- A relation that is a function on each item of a list relates the list to its image only. -/
theorem forall₂_iff_eq_map {α β : Type} {r : β → α → Prop} {f : α → β} {xs : List α}
    {ys : List β} (h : ∀ x ∈ xs, ∀ y, r y x ↔ y = f x) : List.Forall₂ r ys xs ↔ ys = xs.map f := by
  induction xs generalizing ys with
  | nil => rw [List.forall₂_nil_right_iff, List.map_nil]
  | cons x xs ih =>
    have hrest (ys : List β) : List.Forall₂ r ys xs ↔ ys = xs.map f :=
      ih fun x hx => h x (List.mem_cons_of_mem _ hx)
    rw [List.forall₂_cons_right_iff, List.map_cons]
    constructor
    · rintro ⟨y, rest, hy, hforall, rfl⟩
      rw [(h x List.mem_cons_self y).1 hy, (hrest rest).1 hforall]
    · rintro rfl
      exact ⟨f x, xs.map f, (h x List.mem_cons_self _).2 rfl, (hrest _).2 rfl, rfl⟩

/-- An item says one entry, the one that it is read as. -/
theorem isReadFrom_iff {entry : MetaEntry} {v : Value} :
    entry.IsReadFrom v ↔ entry = ofValue v := by
  induction v using entries_induction generalizing entry with
  | step v ih =>
    constructor
    · intro h
      cases h with
      | @group fields items entries listed each =>
        rw [ofValue_object, listed,
          (forall₂_iff_eq_map fun item hitem _ => ih fields items rfl listed item hitem).1 each]
      | @clause fields unlisted =>
        rw [ofValue_object]
        split
        · rename_i items hitems
          exact absurd hitems (unlisted items)
        · rfl
      | unusable plain =>
        cases v with
        | object fields => exact absurd rfl (plain fields)
        | null | bool | number | text | list => rfl
    · rintro rfl
      cases v with
      | object fields =>
        rw [ofValue_object]
        split
        · rename_i items listed
          refine .group listed ((forall₂_iff_eq_map fun item hitem _ => ?_).2 rfl)
          exact ih fields items rfl listed item hitem
        · rename_i unlisted
          exact .clause unlisted
      | null | bool | number | text | list => exact .unusable nofun

theorem forall₂_isReadFrom_iff {entries : List MetaEntry} {items : List Value} :
    List.Forall₂ IsReadFrom entries items ↔ entries = items.map ofValue :=
  forall₂_iff_eq_map fun _ _ _ => isReadFrom_iff

/-- A metadata query says one tree. -/
theorem existsUnique_isTreeOf (query : Value) : ∃! entry : MetaEntry, entry.IsTreeOf query := by
  cases query with
  | list items =>
    refine ⟨_, .list (forall₂_isReadFrom_iff.2 rfl), fun entry h => ?_⟩
    cases h with
    | list each => rw [forall₂_isReadFrom_iff.1 each]
    | empty notList => exact absurd rfl (notList items)
  | object fields =>
    by_cases hlisted : ∃ items, Fields.get? fields "clauses" = some (.list items)
    · obtain ⟨items, listed⟩ := hlisted
      refine ⟨_, .group listed (forall₂_isReadFrom_iff.2 rfl), fun entry h => ?_⟩
      cases h with
      | group listed' each =>
        obtain rfl := Value.list.inj (Option.some.inj (listed.symm.trans listed'))
        rw [forall₂_isReadFrom_iff.1 each]
      | empty _ unlisted => exact absurd listed (unlisted fields items rfl)
    · refine ⟨_, .empty nofun fun fields' items h listed => ?_, fun entry h => ?_⟩
      · obtain rfl := Value.object.inj h
        exact hlisted ⟨items, listed⟩
      · cases h with
        | group listed _ => exact absurd ⟨_, listed⟩ hlisted
        | empty => rfl
  | null | bool | number | text =>
    refine ⟨_, .empty nofun nofun, fun entry h => ?_⟩
    cases h
    rfl

/-- The tree that a query says compiles like the one that it is read as. -/
theorem node_of_isTreeOf {entry : MetaEntry} {query : Value} (h : entry.IsTreeOf query) :
    entry.node = (ofQuery query).node := by
  cases h with
  | list each =>
    rw [forall₂_isReadFrom_iff.1 each]
    rfl
  | group listed each =>
    rw [forall₂_isReadFrom_iff.1 each, ofQuery, MetaGroup.entry, MetaGroup.ofQuery, listed]
  | empty notList unlisted =>
    cases query with
    | list items => exact absurd rfl (notList items)
    | object fields =>
      -- without entries the relation joins nothing
      have : (MetaGroup.ofQuery (some (.object fields))).clauses = [] := by
        rw [MetaGroup.ofQuery]
        dsimp only
        split
        · rename_i items listed
          exact absurd listed (unlisted fields items rfl)
        · rfl
      rw [ofQuery, MetaGroup.entry, this]
      rfl
    | null | bool | number | text => rfl

/-- A result has the clauses and the meaning of an entry. There is none exactly where no clause that
is reached in the entry has a node. -/
structure Yields (entry : MetaEntry) (result : Option Query) : Prop where
  eq_none_iff : result = none ↔
    ∀ clause ∈ entry.clauses, ∀ node, metaClauseNode clause ≠ .ok (some node)
  prunes : ∀ q, result = some q → entry.Prunes q
  leaves_eq : ∀ q, result = some q → q.leaves = entry.clauses.filterMap usableNode
  holds_iff : ∀ q, result = some q → ∀ given, q.Holds given ↔ entry.Holds given

theorem yields_of_node {entry : MetaEntry} {result : Option Query} (h : entry.node = .ok result) :
    entry.Yields result := by
  obtain ⟨hlost, hkept⟩ := prunes_of_node h
  constructor
  · constructor
    · intro hnone clause hclause node hnode
      exact hlost hnone ⟨clause, hclause, node, hnode⟩
    · intro hunusable
      rw [Option.eq_none_iff_forall_ne_some]
      intro q hq
      obtain ⟨clause, hclause, node, hnode⟩ := (hkept q hq).1
      exact hunusable clause hclause node hnode
  · exact fun q hq => (hkept q hq).2
  · exact fun q hq => leaves_of_prunes (hkept q hq).2
  · exact fun q hq given => holds_of_prunes (hkept q hq).2 given

theorem compileMetaQuery_eq {query : Value} (h : query ≠ .null) :
    compileMetaQuery query = (ofQuery query).node := by
  rw [compileMetaQuery, MetaGroup.ofGroupForm_groupForm h, ofQuery, ← MetaGroup.compile_eq]
  rfl

end MetaEntry

/-- Whatever a metadata query compiles to has the clauses and the meaning of the one tree that the
query says, and a query whose fields are of their types always compiles. -/
theorem compileMetaQuery_yields (query : Value) :
    (IsMetaQuery query → ∃ result, compileMetaQuery query = .ok result) ∧
      (∃! entry : MetaEntry, entry.IsTreeOf query) ∧
      ∀ entry : MetaEntry, entry.IsTreeOf query → ∀ result,
        compileMetaQuery query = .ok result → entry.Yields result := by
  by_cases hnull : query = .null
  · subst hnull
    refine ⟨?_, MetaEntry.existsUnique_isTreeOf _, ?_⟩
    · rintro ⟨-, _, _, heq, -⟩
      cases heq
    · intro entry _ result h
      cases h
  · rw [MetaEntry.compileMetaQuery_eq hnull]
    refine ⟨?_, MetaEntry.existsUnique_isTreeOf query, ?_⟩
    · intro h
      obtain ⟨hrelation, hclauses⟩ := typed_ofQuery h
      exact MetaEntry.exists_node_of_isTyped (MetaGroup.isTyped_entry hrelation hclauses)
    · intro entry htree result h
      rw [← MetaEntry.node_of_isTreeOf htree] at h
      exact MetaEntry.yields_of_node h

theorem compileMetaQuery_yields_nested :
    let color : Fields := [("key", .text "color")]
    let size : Fields := [("key", .text "size"), ("value", .number (.finite 3))]
    let either : Fields :=
      [("relation", .text "or"), ("clauses", .list [.object color, .object []])]
    let query : Value := .list [.object either, .object size]
    let entry : MetaEntry := .group none
      [.group (some (.text "or")) [.clause color, .clause []], .clause size]
    let node : Query := .must
      [.should [.exists "meta.color"], .term "meta.size.raw" (.number (.finite 3))]
    IsMetaQuery query ∧ entry.IsTreeOf query ∧ compileMetaQuery query = .ok (some node) ∧
      entry.Yields (some node) := by
  intro color size either query entry node
  have htyped : IsMetaQuery query := isMetaQuery_of_metaQuery? (v := query) rfl
  have hcolor : (MetaEntry.clause color).IsReadFrom (.object color) := .clause nofun
  have hsize : (MetaEntry.clause size).IsReadFrom (.object size) := .clause nofun
  have hnothing : (MetaEntry.clause []).IsReadFrom (.object []) := .clause nofun
  have heither : (MetaEntry.group (some (.text "or"))
      [.clause color, .clause []]).IsReadFrom (.object either) :=
    @MetaEntry.IsReadFrom.group either _ _ rfl (.cons hcolor (.cons hnothing .nil))
  have htree : entry.IsTreeOf query := .list (.cons heither (.cons hsize .nil))
  have hnode : compileMetaQuery query = .ok (some node) := rfl
  exact ⟨htyped, htree, hnode, (compileMetaQuery_yields query).2.2 entry htree (some node) hnode⟩

end CommentSearch
