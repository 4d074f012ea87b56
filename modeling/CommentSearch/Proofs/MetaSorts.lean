import Mathlib.Data.Set.List
import CommentSearch.Proofs.Consultation
import CommentSearch.Proofs.IndexedMeta
import CommentSearch.Proofs.WidenedStatus

/-!
# Sorts by metadata

The sort and the metadata filter of a request read `meta_key` each on their own. They agree on it: a
request that is sorted by the values of a key is filtered by the same key, and the clause of the key
comes first in the metadata filter, whatever `meta_query` asks for besides
(`Request.metaSort_backed`).
-/

namespace CommentSearch

/-! ### The clause of the key -/

/-- The node of the clause that `meta_key` stands for, by the value of `meta_value`. -/
inductive ShorthandNode (key : String) : Param → Query → Prop where
  | absent : ShorthandNode key none (.exists ("meta." ++ key))
  | null : ShorthandNode key (some .null) (.exists ("meta." ++ key))
  | scalar (x : Scalar) :
    ShorthandNode key (some x.toValue) (.term ("meta." ++ key ++ ".raw") x.toValue)
  | list (xs : List Scalar) : ShorthandNode key (some (.list (xs.map Scalar.toValue)))
    (.terms ("meta." ++ key ++ ".raw") xs)

/-- Values that are scalars are those of scalars. -/
theorem exists_map_toValue {items : List Value} (h : ∀ item ∈ items, item.scalar?.isSome) :
    ∃ xs : List Scalar, items = xs.map Scalar.toValue := by
  have hrange : items ∈ Set.range (List.map Scalar.toValue) := by
    rw [Set.range_list_map]
    intro item hitem
    obtain ⟨x, rfl⟩ := exists_scalar_of_isSome (h item hitem)
    exact ⟨x, rfl⟩
  obtain ⟨xs, rfl⟩ := hrange
  exact ⟨xs, rfl⟩

theorem filterMap_scalar?_map_toValue (xs : List Scalar) :
    (xs.map Scalar.toValue).filterMap Value.scalar? = xs := by
  rw [List.filterMap_map]
  refine (List.filterMap_congr fun x _ => ?_).trans List.filterMap_some
  cases x <;> rfl

section Clauses

variable {key : String}

/-- The clause of a key alone asks for any value. -/
theorem metaClauseNode_key (hkey : Param.isEmpty (some (.text key)) = false) :
    metaClauseNode [("key", .text key)] = .ok (some (.exists ("meta." ++ key))) := by
  have hnamed : Fields.get? [("key", .text key)] "key" = some (.text key) :=
    Fields.get?_cons_self ..
  have habsent {name : String} (hname : name ≠ "key") :
      Fields.get? [("key", .text key)] name = none := Fields.get?_cons_of_ne _ _ hname
  unfold metaClauseNode
  rw [hnamed, habsent (by decide), habsent (by decide), habsent (by decide), hkey,
    if_neg Bool.false_ne_true]
  change (metaField key none >>= fun field => (Comparison.ofValue none).node key field none) = _
  rw [metaField_untyped]
  rfl

/-- The clause of a key and a list asks for one of the scalars of the list. -/
theorem metaClauseNode_oneOf (hkey : Param.isEmpty (some (.text key)) = false)
    (items : List Value) : metaClauseNode [("key", .text key), ("value", .list items)] =
      .ok (some (.terms ("meta." ++ key ++ ".raw") (items.filterMap Value.scalar?))) := by
  have hnamed : Fields.get? [("key", .text key), ("value", .list items)] "key" =
      some (.text key) := Fields.get?_cons_self ..
  unfold metaClauseNode
  rw [hnamed, hkey, if_neg Bool.false_ne_true]
  change (metaField key none >>= fun field =>
    (Comparison.ofValue (some (.list items))).node key field (some (.list items))) = _
  rw [metaField_untyped]
  rfl

end Clauses

namespace Request

variable {r : Request}

/-- A request with a key of metadata has one clause for it, and the node of this clause is that of
the key and the value of the request. -/
theorem Accepted.exists_shorthandNode (h : r.Accepted) {key : String}
    (hget : r.get? "meta_key" = some (.text key))
    (hne : Param.isEmpty (some (.text key)) = false) :
    ∃ clause first, r.metaShorthand = [clause] ∧
      (MetaEntry.ofValue clause).node = .ok (some first) ∧
      ShorthandNode key (r.get? "meta_value") first := by
  have hshorthand := h.hasShorthand
  generalize r.metaShorthand = shorthand at hshorthand
  cases hshorthand with
  | absent empty =>
    rw [hget, hne] at empty
    cases empty
  | key get _ valueless =>
    obtain rfl := Value.text.inj (Option.some.inj (hget.symm.trans get))
    refine ⟨_, _, rfl, metaClauseNode_key hne, ?_⟩
    cases hvalue : r.get? "meta_value" with
    | none => exact .absent
    | some v =>
      rw [hvalue] at valueless
      cases v with
      | null => exact .null
      | bool | number | text | list | object => cases valueless
  | value get _ value set =>
    obtain rfl := Value.text.inj (Option.some.inj (hget.symm.trans get))
    rw [value]
    have hparam : requestShape.lookup "meta_value" = some (true, .nullable .scalars) := rfl
    have hforms := (h.param hparam value).imp_right typed_of_accepts_scalars
    rcases hforms with rfl | rfl | hscalar | ⟨items, rfl, hitems⟩
    · cases set
    · cases set
    · obtain ⟨x, rfl⟩ := exists_scalar_of_isSome hscalar
      exact ⟨_, _, rfl, metaClauseNode_equals hne x, .scalar x⟩
    · obtain ⟨xs, rfl⟩ := exists_map_toValue hitems
      have hnode := metaClauseNode_oneOf hne (xs.map Scalar.toValue)
      rw [filterMap_scalar?_map_toValue] at hnode
      exact ⟨_, _, rfl, hnode, .list xs⟩

end Request

/-! ### The metadata filter -/

/-- The node of a group starts with that of its first entry. -/
theorem MetaEntry.node_group_cons {relation : Param} {entry : MetaEntry}
    {entries : List MetaEntry} {first : Query} {result : Option Query}
    (hfirst : entry.node = .ok (some first))
    (h : (MetaEntry.group relation (entry :: entries)).node = .ok result) :
    ∃ rest, result = some (.join relation.isOr (first :: rest)) := by
  rw [MetaEntry.node] at h
  obtain ⟨nodes, hnodes, hjoin⟩ := bind_eq_ok_iff.1 h
  rw [MetaEntry.nodes, hfirst] at hnodes
  obtain ⟨node, hnode, hnodes⟩ := bind_eq_ok_iff.1 hnodes
  obtain ⟨rest, -, hnodes⟩ := bind_eq_ok_iff.1 hnodes
  obtain rfl := Except.ok.inj hnode
  obtain rfl := Except.ok.inj hnodes
  exact ⟨rest, eq_of_joinNodes hjoin⟩

/-- The node of the metadata filter of a request starts with that of the clause of a key: it is the
first of those that have to hold, or of those of which one has to. -/
def Request.StartsWithKey (r : Request) (c : Collaborators) (key : String) (subtree : Query) :
    Prop :=
  (metaContribution r c).map Contribution.node = .ok (some subtree) ∧
    ∃ first rest, (subtree = .must (first :: rest) ∨ subtree = .should (first :: rest)) ∧
      ShorthandNode key (r.get? "meta_value") first

namespace Request

variable {r : Request} {o : CompileOptions} {c : Compilation} {key : String}

/-- A filter of a compiled request has contributed, and its node is among those of the request. -/
theorem exists_contribution_of_compile (h : r.compile o = .ok c) {f : Filter} (hf : f ∈ filters) :
    ∃ contribution, f.contribution r o.collaborators = .ok contribution ∧
      ∀ q, contribution.node = some q → q ∈ c.compiled.filters := by
  rw [compile_eq] at h
  obtain ⟨_, -, h⟩ := bind_eq_ok_iff.1 h
  obtain ⟨contributions, hcontributions, h⟩ := bind_eq_ok_iff.1 h
  obtain ⟨_, -, h⟩ := bind_eq_ok_iff.1 h
  obtain rfl := Except.ok.inj h
  obtain ⟨contribution, hmem, hcontribution⟩ := exists_mem_of_mapM_eq_ok hcontributions f hf
  exact ⟨contribution, hcontribution, fun q hq => List.mem_filterMap.2 ⟨contribution, hmem, hq⟩⟩

/-- The metadata filter of a compiled request with a key starts with the clause of the key. -/
theorem Accepted.exists_startsWithKey (h : r.Accepted)
    (hmeta : o.collaborators.metaFilter = MetaGroup.compile) (hc : r.compile o = .ok c)
    (hget : r.get? "meta_key" = some (.text key))
    (hne : Param.isEmpty (some (.text key)) = false) :
    ∃ subtree ∈ c.compiled.filters, r.StartsWithKey o.collaborators key subtree := by
  have hmem : Filter.metadata ∈ filters := by simp [filters]
  obtain ⟨contribution, hcontribution, hnodes⟩ := exists_contribution_of_compile hc hmem
  obtain ⟨clause, first, hshorthand, hfirst, hnode⟩ := h.exists_shorthandNode hget hne
  have hasked : r.consultation.metadata =
      some ⟨r.metaGroup.relation, clause :: r.metaGroup.clauses⟩ := by
    unfold consultation
    rw [hshorthand]
    rfl
  have hall := metaContribution_eq_map (h.isTextual rfl) o.collaborators
  rw [Consultation.metaNode, hasked] at hall
  change _ = (o.collaborators.metaFilter _).map _ at hall
  rw [hmeta, MetaGroup.compile_eq] at hall
  obtain ⟨result, hresult, hcontributed⟩ := map_eq_ok_iff.1 (hall.symm.trans hcontribution)
  obtain ⟨rest, rfl⟩ := MetaEntry.node_group_cons hfirst hresult
  have hsubtree : contribution.node = some (.join r.metaGroup.relation.isOr (first :: rest)) := by
    rw [← hcontributed]
  have hcontribution : metaContribution r o.collaborators = .ok contribution := hcontribution
  refine ⟨_, hnodes _ hsubtree, ?_, first, rest, ?_, hnode⟩
  · rw [hcontribution, ← hsubtree]
    rfl
  · cases r.metaGroup.relation.isOr with
    | true => exact .inr rfl
    | false => exact .inl rfl

end Request

/-! ### The sort -/

/-- A compiled request is sorted by a typed copy of the values of a metadata key, which an alias
stands for. -/
def Request.SortsByMeta (r : Request) (c : Compiled) (key copy : String) : Prop :=
  ∃ sortKey order, r.normalize.get? "orderby" = some (.text sortKey) ∧
    SortClause.metaAliases.lookup sortKey = some copy ∧
    c.sort = [⟨"meta." ++ key ++ "." ++ copy, order⟩]

/-- The sort of a request by metadata is backed by a filter on the same key: what has to hold starts
with the clause of `meta_key`. -/
def Request.BacksSort (r : Request) (o : CompileOptions) (c : Compiled) : Prop :=
  ∀ key copy, r.SortsByMeta c key copy → r.get? "meta_key" = some (.text key) ∧
    c.toValue.get? "post_filter" = some (Query.must c.filters).toValue ∧
    ∃ subtree ∈ c.filters, r.StartsWithKey o.collaborators key subtree

namespace Request

variable {r : Request} {o : CompileOptions} {c : Compilation} {key copy : String}

/-- An alias of metadata is neither empty nor that of a field. -/
theorem of_lookup_metaAliases {sortKey : String}
    (h : SortClause.metaAliases.lookup sortKey = some copy) :
    Param.isEmpty (some (.text sortKey)) = false ∧ sortKey ≠ "" ∧
      SortClause.aliases.lookup sortKey = none := by
  have hmem : (sortKey, copy) ∈ SortClause.metaAliases := mem_of_lookup h
  simp only [SortClause.metaAliases, List.mem_cons, List.not_mem_nil, or_false,
    Prod.mk.injEq] at hmem
  rcases hmem with ⟨rfl, -⟩ | ⟨rfl, -⟩ <;> decide

/-- A request that is sorted by metadata is sorted by the key that it has under `meta_key`. -/
theorem SortsByMeta.get?_meta_key (hkey : Param.IsTextual (r.get? "meta_key"))
    (hc : r.compile o = .ok c) (h : r.SortsByMeta c.compiled key copy) :
    r.get? "meta_key" = some (.text key) ∧ Param.isEmpty (some (.text key)) = false := by
  obtain ⟨sortKey, order, horderby, hlookup, hclauses⟩ := h
  obtain ⟨hnonempty, hne, hnofield⟩ := of_lookup_metaAliases hlookup
  have hsort := normalize_sort_of_compile r o hc
  rw [sort_eq, horderby, if_neg (by simp [hnonempty])] at hsort
  obtain ⟨_, hform, hsort⟩ := bind_eq_ok_iff.1 hsort
  obtain rfl := Except.ok.inj hform
  unfold SortClause.resolve at hsort
  rw [if_neg hne, hnofield, hlookup] at hsort
  have hfield : fieldOf (some (.object r.normalize)) "meta_key" = .ok (r.get? "meta_key") :=
    congrArg Except.ok (get?_normalize r (by decide) (by decide))
  rw [hfield] at hsort
  obtain ⟨_, hread, hsort⟩ := bind_eq_ok_iff.1 hsort
  obtain rfl := Except.ok.inj hread
  split at hsort
  · -- without a key there is nothing to sort by
    have hnil := Except.ok.inj hsort
    rw [hclauses] at hnil
    cases hnil
  · rename_i hpresent
    rw [Bool.not_eq_true] at hpresent
    obtain ⟨own, hown, hform⟩ := hkey.textForm_eq hpresent
    rw [hform] at hsort
    have hone := Except.ok.inj hsort
    rw [hclauses] at hone
    have hfields : "meta." ++ own ++ "." ++ copy = "meta." ++ key ++ "." ++ copy :=
      congrArg SortClause.field (List.cons.inj hone).1
    rw [String.append_left_inj, String.append_left_inj, String.append_right_inj] at hfields
    subst hfields
    exact ⟨hown, hown ▸ hpresent⟩

/-- A sort by metadata is backed by the filter of the metadata compiler of this library. -/
theorem Accepted.backsSort (h : r.Accepted)
    (hmeta : o.collaborators.metaFilter = MetaGroup.compile) (hc : r.compile o = .ok c) :
    r.BacksSort o c.compiled := by
  intro key copy hsorts
  obtain ⟨hget, hne⟩ := hsorts.get?_meta_key (h.isTextual rfl) hc
  obtain ⟨subtree, hmem, hstarts⟩ := h.exists_startsWithKey hmeta hc hget hne
  refine ⟨hget, ?_, subtree, hmem, hstarts⟩
  rw [Compiled.get?_postFilter_eq_map, Compiled.postFilter?, if_neg]
  · rfl
  · rw [List.isEmpty_iff]
    exact List.ne_nil_of_mem hmem

/-- Whatever else an accepted request asks for, its sort by metadata is backed by a filter on the
same key: where it is compiled with the metadata compiler of this library, and where the compiling
tool answers it. -/
theorem metaSort_backed (h : r.Accepted) :
    (∀ o c, o.collaborators.metaFilter = MetaGroup.compile → r.compile o = .ok c →
      r.BacksSort o c.compiled) ∧
    ∀ s, ∃ compiled, ((Work.compileTool (some (.object r))).run.run s).1 = .ok compiled ∧
      r.kept.BacksSort (.ofSettings s.querySettings s.platform.zone) compiled := by
  refine ⟨fun o c hmeta hc => h.backsSort hmeta hc, fun s => ?_⟩
  have haccept := accept_of_accepted h
  have hkept : r.kept.Accepted := accepted_of_accept haccept
  obtain ⟨c, hc⟩ := hkept.exists_compile (fun _ hv => isMetaQuery_of_accept haccept hv)
    s.querySettings s.platform.zone
  refine ⟨c.compiled, ?_, hkept.backsSort rfl hc⟩
  rw [Work.run_compileTool haccept, hc]
  rfl

/-- A request sorted by ratings, of which a list is given besides alternatives. -/
theorem metaSort_backed_rating :
    let r : Request := [("order_by", .text "meta_value_num"), ("meta_key", .text "rating"),
      ("meta_value", .list [.text "4", .number (.finite 5)]),
      ("meta_query", .object [("relation", .text "or"),
        ("clauses", .list [.object [("key", .text "color")]])])]
    let o := CompileOptions.ofSettings []
    r.Accepted ∧ o.collaborators.metaFilter = MetaGroup.compile ∧
      ∃ c, r.compile o = .ok c ∧ r.SortsByMeta c.compiled "rating" "long" ∧
        ∃ subtree ∈ c.compiled.filters, r.StartsWithKey o.collaborators "rating" subtree := by
  intro r o
  have haccepted : r.Accepted := by
    unfold Accepted
    decide
  obtain ⟨c, hc⟩ : ∃ c, r.compile o = .ok c := ⟨_, rfl⟩
  have hsort : r.normalize.sort =
      .ok [⟨"meta." ++ "rating" ++ "." ++ "long", .text Order.descending.name⟩] := rfl
  have hsorts : r.SortsByMeta c.compiled "rating" "long" := by
    refine ⟨"meta_value_num", .text Order.descending.name, rfl, rfl, ?_⟩
    exact Except.ok.inj ((normalize_sort_of_compile r o hc).symm.trans hsort)
  obtain ⟨-, -, hstarts⟩ := (metaSort_backed haccepted).1 o c rfl hc "rating" "long" hsorts
  exact ⟨haccepted, rfl, c, hc, hsorts, hstarts⟩

end Request

end CommentSearch
