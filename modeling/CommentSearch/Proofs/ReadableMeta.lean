import CommentSearch.Proofs.MetaTree
import CommentSearch.Proofs.Readable

/-!
# Metadata queries that can be read

A clause with a key is read by the text form of the key and by the keywords that it has for its
comparison and its type (`IsReadableMetaClause`). A group is read by its relation only if something
of it is left, so that the entries that compile are those that are readable at any depth
(`MetaEntry.exists_node_iff`).
-/

namespace CommentSearch

/-! ### Clauses -/

/-- A clause of a metadata query that can be read: its key has a text form, its comparison and its
type are keywords, and so is a text form what it is to contain. -/
structure IsReadableMetaClause (clause : Fields) : Prop where
  key : Param.HasForm (clause.get? "key")
  compare : Param.IsKeyword (clause.get? "compare")
  type : Param.IsKeyword (clause.get? "type")
  contained : ∀ s, clause.get? "compare" = some (.text s) →
    Text.toCapitals s ∈ ["LIKE", "NOT LIKE"] → Param.HasForm (singleValue (clause.get? "value"))

theorem test_ofKeyword_eq_contains_iff {keyword : String} :
    (Comparison.ofKeyword keyword).test = .contains ↔ keyword ∈ ["LIKE", "NOT LIKE"] := by
  constructor
  · intro h
    unfold Comparison.ofKeyword at h
    cases hlookup : Comparison.keywords.lookup keyword with
    | none =>
      rw [hlookup] at h
      cases h
    | some c =>
      rw [hlookup, Option.getD_some] at h
      have hall : ∀ entry ∈ Comparison.keywords, entry.2.test = .contains →
          entry.1 ∈ ["LIKE", "NOT LIKE"] := by
        decide
      exact hall _ (mem_of_lookup hlookup) h
  · intro h
    simp only [List.mem_cons, List.not_mem_nil, or_false] at h
    rcases h with rfl | rfl <;> rfl

/-- The comparison of a clause, by its keyword or else by its value. -/
def Comparison.ofClause (keyword : Option String) (value : Param) : Comparison :=
  match keyword with
  | some keyword => .ofKeyword keyword
  | none => .ofValue value

theorem test_ofValue_ne_contains (value : Param) : (Comparison.ofValue value).test ≠ .contains := by
  unfold Comparison.ofValue
  split
  · exact nofun
  · split <;> exact nofun

theorem test_ofClause_eq_contains_iff {compare value : Param} {keyword : Option String}
    (h : compare.keyword = .ok keyword) : (Comparison.ofClause keyword value).test = .contains ↔
      ∃ s, compare = some (.text s) ∧ Text.toCapitals s ∈ ["LIKE", "NOT LIKE"] := by
  have hnone (hother : ¬∃ s, compare = some (.text s) ∧ Text.toCapitals s ∈ ["LIKE", "NOT LIKE"])
      (hkeyword : keyword = none) : (Comparison.ofClause keyword value).test = .contains ↔
        ∃ s, compare = some (.text s) ∧ Text.toCapitals s ∈ ["LIKE", "NOT LIKE"] := by
    subst hkeyword
    exact iff_of_false (test_ofValue_ne_contains value) hother
  unfold Param.keyword at h
  split at h
  · exact hnone (by simp) (Except.ok.inj h).symm
  · rename_i v
    split at h
    · split at h
      · rename_i s
        obtain rfl := Except.ok.inj h
        simp only [Option.some.injEq, Value.text.injEq, exists_eq_left']
        exact test_ofKeyword_eq_contains_iff
      · cases h
    · rename_i hfalse
      refine hnone ?_ (Except.ok.inj h).symm
      rintro ⟨s, heq, hlike⟩
      -- the only text that does not count as true is empty
      obtain rfl := Option.some.inj heq
      obtain rfl : s = "" := by simpa [Value.isTruthy] using hfalse
      revert hlike
      decide

theorem exists_test_node_iff {test : MetaTest} {key field : String} {value : Param} :
    (∃ node, test.node key field value = .ok node) ↔
      (test = .contains → Param.HasForm (singleValue value)) := by
  cases test with
  | contains =>
    unfold MetaTest.node
    dsimp only
    split
    · rename_i v hv
      rw [exists_bind_pure_eq_ok_iff, Param.exists_textForm_iff, hv]
      exact ⟨fun h _ => h, fun h => h rfl⟩
    · rename_i hnone
      refine iff_of_true ⟨none, rfl⟩ fun _ v hv => ?_
      rw [hnone] at hv
      cases hv
  | isBetween =>
    have hbetween : ∃ node, MetaTest.isBetween.node key field value = .ok node := by
      unfold MetaTest.node
      dsimp only
      split <;> exact ⟨_, rfl⟩
    refine iff_of_true hbetween fun h => ?_
    cases h
  | hasAny | isOneOf | isAbove | isAtLeast | isBelow | isAtMost | isEqual =>
    refine iff_of_true ⟨_, rfl⟩ fun h => ?_
    cases h

theorem exists_metaField_iff (key : String) {type : Param} :
    (∃ field, metaField key type = .ok field) ↔ type.IsKeyword := by
  rw [← Param.exists_keyword_iff]
  unfold metaField Param.keyword
  cases type with
  | none => exact ⟨fun _ => ⟨none, rfl⟩, fun _ => ⟨_, rfl⟩⟩
  | some v =>
    dsimp only
    split
    · cases v with
      | text s => exact ⟨fun _ => ⟨_, rfl⟩, fun _ => ⟨_, rfl⟩⟩
      | null | bool | number | list | object => exact ⟨nofun, nofun⟩
    · exact ⟨fun _ => ⟨none, rfl⟩, fun _ => ⟨_, rfl⟩⟩

theorem exists_comparison_node_iff {c : Comparison} {key field : String} {value : Param} :
    (∃ node, c.node key field value = .ok node) ↔
      (c.test = .contains → Param.HasForm (singleValue value)) := by
  unfold Comparison.node
  rw [exists_bind_pure_eq_ok_iff]
  exact exists_test_node_iff

/-- A clause without a key is passed over; every other one has to be readable. -/
theorem exists_metaClauseNode_iff {clause : Fields} :
    (∃ node, metaClauseNode clause = .ok node) ↔
      Param.isEmpty (clause.get? "key") = true ∨ IsReadableMetaClause clause := by
  unfold metaClauseNode
  split
  · rename_i hempty
    exact ⟨fun _ => .inl hempty, fun _ => ⟨none, rfl⟩⟩
  · rename_i hempty
    have hnode : (∃ node, (textForm (clause.get? "key") >>= fun key =>
        (Param.keyword (clause.get? "compare")) >>= fun keyword =>
        metaField key (clause.get? "type") >>= fun field =>
          (Comparison.ofClause keyword (clause.get? "value")).node key field
            (clause.get? "value")) = .ok node) ↔ IsReadableMetaClause clause := by
      simp only [exists_bind_eq_ok_iff, exists_comparison_node_iff]
      constructor
      · rintro ⟨key, hkey, keyword, hkeyword, field, hfield, hcontained⟩
        refine ⟨Param.exists_textForm_iff.1 ⟨key, hkey⟩,
          Param.exists_keyword_iff.1 ⟨keyword, hkeyword⟩,
          (exists_metaField_iff key).1 ⟨field, hfield⟩, ?_⟩
        intro s hcompare hlike
        exact hcontained ((test_ofClause_eq_contains_iff hkeyword).2 ⟨s, hcompare, hlike⟩)
      · intro h
        obtain ⟨key, hkey⟩ := Param.exists_textForm_iff.2 h.key
        obtain ⟨keyword, hkeyword⟩ := Param.exists_keyword_iff.2 h.compare
        obtain ⟨field, hfield⟩ := (exists_metaField_iff key).2 h.type
        refine ⟨key, hkey, keyword, hkeyword, field, hfield, fun htest => ?_⟩
        obtain ⟨s, hcompare, hlike⟩ := (test_ofClause_eq_contains_iff hkeyword).1 htest
        exact h.contained s hcompare hlike
    exact hnode.trans ⟨.inr, fun h => h.resolve_left hempty⟩

/-! ### Entries -/

namespace MetaEntry

/-- An entry of a metadata query that can be read, at any depth: the clauses with a key are
readable, and the relation of a group that is not left empty is a keyword. -/
inductive IsReadable : MetaEntry → Prop
  | unusable : IsReadable .unusable
  | keyless {fields : Fields} (empty : Param.isEmpty (fields.get? "key") = true) :
    IsReadable (.clause fields)
  | clause {fields : Fields} (readable : IsReadableMetaClause fields) : IsReadable (.clause fields)
  | group {relation : Param} {entries : List MetaEntry}
    (readable : ∀ entry ∈ entries, IsReadable entry)
    (keyword : (∃ entry ∈ entries, entry.Survives) → relation.IsKeyword) :
    IsReadable (.group relation entries)

theorem exists_nodes_iff {entries : List MetaEntry} :
    (∃ nodes, MetaEntry.nodes entries = .ok nodes) ↔
      ∀ entry ∈ entries, ∃ node, entry.node = .ok node := by
  induction entries with
  | nil => exact ⟨fun _ => by simp, fun _ => ⟨[], rfl⟩⟩
  | cons entry entries ih =>
    rw [MetaEntry.nodes, List.forall_mem_cons, ← ih]
    exact exists_bind_bind_eq_ok_iff

theorem exists_joinNodes_iff {relation : Param} {nodes : List Query} :
    (∃ node, joinNodes relation nodes = .ok node) ↔ (nodes ≠ [] → relation.IsKeyword) := by
  unfold joinNodes
  cases nodes with
  | nil => exact ⟨fun _ hne => absurd rfl hne, fun _ => ⟨none, rfl⟩⟩
  | cons node nodes =>
    rw [if_neg (by simp), ← Param.exists_keyword_iff]
    have hjoin : (∃ q, (relation.keyword >>= fun keyword => pure (some (if keyword = some "OR" then
        Query.should (node :: nodes) else .must (node :: nodes)))) =
          (.ok q : Except Fault (Option Query))) ↔ ∃ keyword, relation.keyword = .ok keyword :=
      exists_bind_pure_eq_ok_iff
    exact hjoin.trans ⟨fun h _ => h, fun h => h (List.cons_ne_nil node nodes)⟩

/-- The entries that compile are those that can be read. -/
theorem exists_node_iff {entry : MetaEntry} :
    (∃ node, entry.node = .ok node) ↔ entry.IsReadable := by
  induction entry using MetaEntry.induction with
  | clause fields =>
    rw [MetaEntry.node, exists_metaClauseNode_iff]
    constructor
    · rintro (hempty | hreadable)
      · exact .keyless hempty
      · exact .clause hreadable
    · intro h
      cases h with
      | keyless empty => exact .inl empty
      | clause readable => exact .inr readable
  | group relation entries ih =>
    have hentries : (∃ nodes, MetaEntry.nodes entries = .ok nodes) ↔
        ∀ entry ∈ entries, entry.IsReadable := by
      rw [exists_nodes_iff]
      exact forall₂_congr ih
    -- whether the relation is read depends on the entries that survive
    have hne {nodes : List Query} (hnodes : MetaEntry.nodes entries = .ok nodes) :
        nodes ≠ [] ↔ ∃ entry ∈ entries, entry.Survives :=
      (pruned_of_nodes hnodes fun entry _ _ hresult => prunes_of_node hresult).ne_nil_iff
    rw [MetaEntry.node, exists_bind_eq_ok_iff]
    constructor
    · rintro ⟨nodes, hnodes, hjoin⟩
      refine .group (hentries.1 ⟨nodes, hnodes⟩) fun hsurvives => ?_
      exact exists_joinNodes_iff.1 hjoin ((hne hnodes).2 hsurvives)
    · intro h
      cases h with
      | group readable keyword =>
        obtain ⟨nodes, hnodes⟩ := hentries.2 readable
        exact ⟨nodes, hnodes, exists_joinNodes_iff.2 fun h => keyword ((hne hnodes).1 h)⟩
  | unusable => exact ⟨fun _ => .unusable, fun _ => ⟨none, rfl⟩⟩

end MetaEntry

end CommentSearch
