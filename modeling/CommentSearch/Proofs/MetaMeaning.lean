import CommentSearch.MetaQuery
import CommentSearch.Proofs.Fields
import CommentSearch.Proofs.Outcome

/-!
# The meaning of metadata queries

What a metadata query and a query document stand for, each by its own structure.

`Query.Holds` says when a node holds if it is given which of the plain nodes do: all nodes under
`must`, some node under `should`, and not the node under a negation. `MetaEntry.Holds` says the same
of an entry of a metadata query, and `MetaEntry.Prunes` which tree an entry becomes once the
clauses that cannot be used, and the groups that are left empty, are taken out.

An entry and the tree that it is pruned to have the same clauses (`leaves_of_prunes`) and the same
meaning (`holds_of_prunes`).
-/

namespace CommentSearch

/-! ### Pruned lists -/

/-- The second list has an image of each item of the first that is kept, in order, and nothing
else. -/
inductive Pruned {α β : Type} (keeps : α → Prop) (image : α → β → Prop) : List α → List β → Prop
  | nil : Pruned keeps image [] []
  | drop {x : α} {xs : List α} {ys : List β} (lost : ¬keeps x) (rest : Pruned keeps image xs ys) :
    Pruned keeps image (x :: xs) ys
  | keep {x : α} {y : β} {xs : List α} {ys : List β} (kept : keeps x) (made : image x y)
    (rest : Pruned keeps image xs ys) : Pruned keeps image (x :: xs) (y :: ys)

namespace Pruned

variable {α β : Type} {keeps : α → Prop} {image : α → β → Prop} {xs : List α} {ys : List β}

/-- Something is left exactly where something is kept. -/
theorem ne_nil_iff (h : Pruned keeps image xs ys) : ys ≠ [] ↔ ∃ x ∈ xs, keeps x := by
  induction h with
  | nil => simp
  | drop lost _ ih => simpa [lost] using ih
  | keep kept _ _ _ => simp [kept]

/-- Everything that is left is the image of an item. -/
theorem exists_of_mem (h : Pruned keeps image xs ys) {y : β} (hy : y ∈ ys) :
    ∃ x ∈ xs, image x y := by
  induction h with
  | nil => cases hy
  | drop _ _ ih =>
    obtain ⟨x, hx, himage⟩ := ih hy
    exact ⟨x, List.mem_cons_of_mem _ hx, himage⟩
  | keep _ made _ ih =>
    rcases List.mem_cons.1 hy with rfl | hy
    · exact ⟨_, List.mem_cons_self, made⟩
    · obtain ⟨x, hx, himage⟩ := ih hy
      exact ⟨x, List.mem_cons_of_mem _ hx, himage⟩

/-- What holds of all images holds of all items that are kept. -/
theorem forall_iff {p : β → Prop} {q : α → Prop} (h : Pruned keeps image xs ys)
    (hiff : ∀ x ∈ xs, ∀ y, image x y → (p y ↔ q x)) :
    (∀ y ∈ ys, p y) ↔ ∀ x ∈ xs, keeps x → q x := by
  induction h with
  | nil => simp
  | drop lost _ ih =>
    rw [ih fun x hx => hiff x (List.mem_cons_of_mem _ hx)]
    simp [lost]
  | keep kept made _ ih =>
    rw [List.forall_mem_cons, List.forall_mem_cons, hiff _ List.mem_cons_self _ made,
      ih fun x hx => hiff x (List.mem_cons_of_mem _ hx)]
    simp [kept]

/-- What holds of some image holds of some item that is kept. -/
theorem exists_iff {p : β → Prop} {q : α → Prop} (h : Pruned keeps image xs ys)
    (hiff : ∀ x ∈ xs, ∀ y, image x y → (p y ↔ q x)) :
    (∃ y ∈ ys, p y) ↔ ∃ x ∈ xs, keeps x ∧ q x := by
  induction h with
  | nil => simp
  | drop lost _ ih =>
    rw [ih fun x hx => hiff x (List.mem_cons_of_mem _ hx)]
    simp [lost]
  | keep kept made _ ih =>
    simp only [List.mem_cons, exists_eq_or_imp, hiff _ List.mem_cons_self _ made, kept, true_and,
      ih fun x hx => hiff x (List.mem_cons_of_mem _ hx)]

/-- Lists that images and items give alike, and that lost items give nothing to, are the same for
all images and all items together. -/
theorem flatMap_eq {γ : Type} {f : β → List γ} {g : α → List γ} (h : Pruned keeps image xs ys)
    (heq : ∀ x ∈ xs, ∀ y, image x y → f y = g x) (hlost : ∀ x ∈ xs, ¬keeps x → g x = []) :
    ys.flatMap f = xs.flatMap g := by
  induction h with
  | nil => rfl
  | drop lost _ ih =>
    rw [List.flatMap_cons, hlost _ List.mem_cons_self lost, List.nil_append]
    exact ih (fun x hx => heq x (List.mem_cons_of_mem _ hx))
      fun x hx => hlost x (List.mem_cons_of_mem _ hx)
  | keep kept made _ ih =>
    rw [List.flatMap_cons, List.flatMap_cons, heq _ List.mem_cons_self _ made]
    exact congrArg _ (ih (fun x hx => heq x (List.mem_cons_of_mem _ hx))
      fun x hx => hlost x (List.mem_cons_of_mem _ hx))

end Pruned

/-! ### Query documents -/

namespace Query

mutual

/-- The nodes in which a tree of joined nodes ends, from the first to the last. A negation ends the
tree. -/
def leaves : Query → List Query
  | must nodes => leavesOf nodes
  | should nodes => leavesOf nodes
  | node => [node]

/-- The leaves of nodes, one after the other. -/
def leavesOf : List Query → List Query
  | [] => []
  | node :: nodes => leaves node ++ leavesOf nodes

end

theorem leavesOf_eq (nodes : List Query) : leavesOf nodes = nodes.flatMap leaves := by
  induction nodes with
  | nil => rfl
  | cons node nodes ih => rw [leavesOf, ih, List.flatMap_cons]

mutual

/-- Whether a node holds, if it is given which of the nodes that are not Boolean do. -/
def Holds (given : Query → Prop) : Query → Prop
  | must nodes => AllHold given nodes
  | should nodes => AnyHolds given nodes
  | mustOne node => Holds given node
  | mustNot node => ¬Holds given node
  | node => given node

/-- Whether all nodes hold. -/
def AllHold (given : Query → Prop) : List Query → Prop
  | [] => True
  | node :: nodes => Holds given node ∧ AllHold given nodes

/-- Whether at least one node holds. -/
def AnyHolds (given : Query → Prop) : List Query → Prop
  | [] => False
  | node :: nodes => Holds given node ∨ AnyHolds given nodes

end

theorem holds_must_iff {given : Query → Prop} {nodes : List Query} :
    (must nodes).Holds given ↔ ∀ node ∈ nodes, node.Holds given := by
  rw [Holds]
  induction nodes with
  | nil => simp [AllHold]
  | cons node nodes ih => rw [AllHold, ih, List.forall_mem_cons]

theorem holds_should_iff {given : Query → Prop} {nodes : List Query} :
    (should nodes).Holds given ↔ ∃ node ∈ nodes, node.Holds given := by
  rw [Holds]
  induction nodes with
  | nil => simp [AnyHolds]
  | cons node nodes ih => simp only [AnyHolds, ih, List.mem_cons, exists_eq_or_imp]

/-- Nodes joined by OR or by AND. -/
def join (any : Bool) (nodes : List Query) : Query := if any then should nodes else must nodes

theorem leaves_join (any : Bool) (nodes : List Query) :
    (join any nodes).leaves = nodes.flatMap leaves := by
  cases any <;> exact leavesOf_eq nodes

end Query

/-! ### Entries -/

/-- Whether a relation joins by OR: it is the word `or`, in any case. All else joins by AND. -/
def Param.isOr : Param → Bool
  | some (.text s) => Text.toCapitals s = "OR"
  | _ => false

/-- The node of a comparison is that of its test, or the negation of it. -/
theorem exists_test_of_comparison {c : Comparison} {key field : String} {value : Param} {q : Query}
    (h : c.node key field value = .ok (some q)) : ∃ plain,
      c.test.node key field value = .ok (some plain) ∧ (q = plain ∨ q = .mustNot plain) := by
  unfold Comparison.node at h
  obtain ⟨result, hresult, h⟩ := bind_eq_ok_iff.1 h
  cases hnegated : c.negated with
  | true =>
    rw [hnegated, if_pos rfl] at h
    obtain ⟨plain, rfl, rfl⟩ := Option.map_eq_some_iff.1 (Except.ok.inj h)
    exact ⟨plain, hresult, .inr rfl⟩
  | false =>
    rw [hnegated, if_neg Bool.false_ne_true] at h
    obtain rfl := Except.ok.inj h
    exact ⟨q, hresult, .inl rfl⟩

/-- The nodes that tests of the values of a key have. -/
inductive MetaTest.Makes (key field : String) (value : Param) : Query → Prop
  | hasAny : Makes key field value (.exists ("meta." ++ key))
  | isOneOf : Makes key field value (.terms field value.toList)
  | isBetween (low high : Scalar) :
    Makes key field value (.range field { gte := some low.toValue, lte := some high.toValue })
  | contains (form : String) :
    Makes key field value (.matchPhrase ("meta." ++ key ++ ".value") form)
  | isAbove {v : Value} (single : singleValue value = some v) :
    Makes key field value (.range field { gt := some v })
  | isAtLeast {v : Value} (single : singleValue value = some v) :
    Makes key field value (.range field { gte := some v })
  | isBelow {v : Value} (single : singleValue value = some v) :
    Makes key field value (.range field { lt := some v })
  | isAtMost {v : Value} (single : singleValue value = some v) :
    Makes key field value (.range field { lte := some v })
  | isEqual {v : Value} (single : singleValue value = some v) :
    Makes key field value (.term field v)

theorem MetaTest.makes_of_node {test : MetaTest} {key field : String} {value : Param} {q : Query}
    (h : test.node key field value = .ok (some q)) : Makes key field value q := by
  -- five of the tests compare the single value of the clause, each by a node of its own
  have hcompared {node : Value → Query}
      (hnode : ∀ v, singleValue value = some v → Makes key field value (node v))
      (h : (.ok ((singleValue value).map node) : Except Fault (Option Query)) = .ok (some q)) :
      Makes key field value q := by
    obtain ⟨v, hv, rfl⟩ := Option.map_eq_some_iff.1 (Except.ok.inj h)
    exact hnode v hv
  cases test with
  | hasAny =>
    obtain rfl := Option.some.inj (Except.ok.inj h)
    exact .hasAny
  | isOneOf =>
    obtain rfl := Option.some.inj (Except.ok.inj h)
    exact .isOneOf
  | isBetween =>
    unfold MetaTest.node at h
    dsimp only at h
    split at h
    · obtain rfl := Option.some.inj (Except.ok.inj h)
      exact .isBetween _ _
    · cases h
  | contains =>
    unfold MetaTest.node at h
    dsimp only at h
    split at h
    · obtain ⟨form, -, h⟩ := bind_eq_ok_iff.1 h
      obtain rfl := Option.some.inj (Except.ok.inj h)
      exact .contains form
    · cases h
  | isAbove => exact hcompared (fun _ hv => .isAbove hv) h
  | isAtLeast => exact hcompared (fun _ hv => .isAtLeast hv) h
  | isBelow => exact hcompared (fun _ hv => .isBelow hv) h
  | isAtMost => exact hcompared (fun _ hv => .isAtMost hv) h
  | isEqual => exact hcompared (fun _ hv => .isEqual hv) h

/-- The node of a clause is that of a test of the values of its key, or the negation of it. -/
theorem exists_made_of_metaClauseNode {clause : Fields} {q : Query}
    (h : metaClauseNode clause = .ok (some q)) : ∃ key field plain,
      Param.isEmpty (clause.get? "key") = false ∧ textForm (clause.get? "key") = .ok key ∧
      metaField key (clause.get? "type") = .ok field ∧
      MetaTest.Makes key field (clause.get? "value") plain ∧ (q = plain ∨ q = .mustNot plain) := by
  unfold metaClauseNode at h
  split at h
  · cases h
  · rename_i hempty
    obtain ⟨key, hkey, h⟩ := bind_eq_ok_iff.1 h
    obtain ⟨keyword, -, h⟩ := bind_eq_ok_iff.1 h
    obtain ⟨field, hfield, h⟩ := bind_eq_ok_iff.1 h
    obtain ⟨plain, hplain, hq⟩ := exists_test_of_comparison h
    have hmade := MetaTest.makes_of_node hplain
    exact ⟨key, field, plain, by simpa using hempty, hkey, hfield, hmade, hq⟩

theorem leaves_of_metaClauseNode {clause : Fields} {q : Query}
    (h : metaClauseNode clause = .ok (some q)) : q.leaves = [q] := by
  obtain ⟨key, field, plain, -, -, -, hplain, rfl | rfl⟩ := exists_made_of_metaClauseNode h
  · cases hplain <;> rfl
  · rfl

/-- The node of a clause, if the clause can be used. -/
def usableNode (clause : Fields) : Option Query := (metaClauseNode clause).toOption.join

theorem usableNode_eq_some_iff {clause : Fields} {node : Query} :
    usableNode clause = some node ↔ metaClauseNode clause = .ok (some node) := by
  unfold usableNode
  rcases metaClauseNode clause with e | (- | q) <;> simp [Except.toOption]

namespace MetaEntry

/-- What holds of clauses, of what cannot be used, and of each group of entries of which it holds,
holds of all entries. -/
@[elab_as_elim]
theorem induction {P : MetaEntry → Prop} (clause : ∀ fields, P (.clause fields))
    (group : ∀ relation entries, (∀ entry ∈ entries, P entry) → P (.group relation entries))
    (unusable : P .unusable) (entry : MetaEntry) : P entry :=
  match entry with
  | .clause fields => clause fields
  | .group relation entries => group relation entries fun entry hentry => by
    have := List.sizeOf_lt_of_mem hentry
    exact induction clause group unusable entry
  | .unusable => unusable
termination_by sizeOf entry

theorem ofValues_eq (vs : List Value) : ofValues vs = vs.map ofValue := by
  induction vs with
  | nil => rfl
  | cons v vs ih => rw [ofValues, ih, List.map_cons]

/-- An object with a list of `clauses` is a group of the entries in the list; every other object is
a clause. -/
theorem ofValue_object (fields : Fields) :
    ofValue (.object fields) = match fields.get? "clauses" with
      | some (.list items) => .group (fields.get? "relation") (items.map ofValue)
      | _ => .clause fields := by
  -- the fields are searched up to the first one named `clauses`, which is the one that is read
  have hclauses (others : Fields) : clausesIn others = match others.get? "clauses" with
      | some (.list items) => some (items.map ofValue)
      | _ => none := by
    induction others with
    | nil => simp [clausesIn]
    | cons field others ih =>
      obtain ⟨name, v⟩ := field
      by_cases hname : name = "clauses"
      · subst hname
        cases v <;> simp [clausesIn, ofValues_eq]
      · rw [clausesIn.eq_def, Fields.get?_cons_of_ne v others (Ne.symm hname)]
        simp only [hname, if_false, ih]
  rw [ofValue, hclauses]
  cases Fields.get? fields "clauses" with
  | none => rfl
  | some v => cases v <;> rfl

mutual

/-- The clauses that are reached through the groups of an entry, depth first. -/
def clauses : MetaEntry → List Fields
  | .clause fields => [fields]
  | .group _ entries => clausesOf entries
  | .unusable => []

/-- The clauses that are reached from entries, one after the other. -/
def clausesOf : List MetaEntry → List Fields
  | [] => []
  | entry :: entries => clauses entry ++ clausesOf entries

end

theorem clauses_group (relation : Param) (entries : List MetaEntry) :
    (group relation entries).clauses = entries.flatMap clauses := by
  rw [clauses]
  induction entries with
  | nil => rfl
  | cons entry entries ih => rw [clausesOf, ih, List.flatMap_cons]

/-- An entry survives if a clause is reached from it that can be used. -/
def Survives (entry : MetaEntry) : Prop :=
  ∃ clause ∈ entry.clauses, ∃ node, metaClauseNode clause = .ok (some node)

theorem survives_clause_iff {fields : Fields} :
    (clause fields).Survives ↔ ∃ node, metaClauseNode fields = .ok (some node) := by
  simp [Survives, clauses]

theorem survives_group_iff {relation : Param} {entries : List MetaEntry} :
    (group relation entries).Survives ↔ ∃ entry ∈ entries, entry.Survives := by
  simp only [Survives, clauses_group, List.mem_flatMap]
  constructor
  · rintro ⟨fields, ⟨entry, hentry, hfields⟩, hnode⟩
    exact ⟨entry, hentry, fields, hfields, hnode⟩
  · rintro ⟨entry, hentry, fields, hfields, hnode⟩
    exact ⟨fields, ⟨entry, hentry, hfields⟩, hnode⟩

theorem filterMap_usableNode_of_not_survives {entry : MetaEntry} (h : ¬entry.Survives) :
    entry.clauses.filterMap usableNode = [] := by
  rw [List.filterMap_eq_nil_iff]
  intro fields hfields
  rw [Option.eq_none_iff_forall_ne_some]
  intro node hnode
  exact h ⟨fields, hfields, node, usableNode_eq_some_iff.1 hnode⟩

/-- An entry is pruned to a tree: a clause to its node, and a group to what its entries that survive
are pruned to, joined by its relation. -/
inductive Prunes : MetaEntry → Query → Prop
  | clause {fields : Fields} {node : Query} (usable : metaClauseNode fields = .ok (some node)) :
    Prunes (.clause fields) node
  | group {relation : Param} {entries : List MetaEntry} {nodes : List Query}
    (pruned : Pruned Survives Prunes entries nodes) (nonempty : nodes ≠ []) :
    Prunes (.group relation entries) (.join relation.isOr nodes)

/-- Whether an entry holds, if it is given which of the nodes that are not Boolean do: a clause if
its node does, a group if one or if each of its entries does, of those that survive. -/
inductive Holds (given : Query → Prop) : MetaEntry → Prop
  | clause {fields : Fields} {node : Query} (usable : metaClauseNode fields = .ok (some node))
    (holds : node.Holds given) : Holds given (.clause fields)
  | any {relation : Param} {entries : List MetaEntry} {entry : MetaEntry}
    (isOr : relation.isOr = true) (mem : entry ∈ entries) (survives : entry.Survives)
    (holds : Holds given entry) : Holds given (.group relation entries)
  | all {relation : Param} {entries : List MetaEntry} (isAnd : relation.isOr = false)
    (holds : ∀ entry ∈ entries, entry.Survives → Holds given entry) :
    Holds given (.group relation entries)

variable {entry : MetaEntry} {q : Query}

/-- The leaves of a pruned tree are the nodes of the clauses that can be used: none is lost, doubled
or moved. -/
theorem leaves_of_prunes (h : entry.Prunes q) :
    q.leaves = entry.clauses.filterMap usableNode := by
  induction entry using MetaEntry.induction generalizing q with
  | clause fields =>
    cases h with
    | clause usable =>
      rw [leaves_of_metaClauseNode usable, clauses, List.filterMap_cons,
        usableNode_eq_some_iff.2 usable]
      rfl
  | group relation entries ih =>
    cases h with
    | group pruned nonempty =>
      rw [Query.leaves_join, clauses_group, List.filterMap_flatMap]
      exact pruned.flatMap_eq (fun entry hentry node hnode => ih entry hentry hnode)
        fun entry _ hlost => filterMap_usableNode_of_not_survives hlost
  | unusable => cases h

/-- A pruned tree holds exactly where its entry does. -/
theorem holds_of_prunes (h : entry.Prunes q) (given : Query → Prop) :
    q.Holds given ↔ entry.Holds given := by
  induction entry using MetaEntry.induction generalizing q with
  | clause fields =>
    cases h with
    | clause usable =>
      constructor
      · exact fun holds => .clause usable holds
      · intro holds
        cases holds with
        | clause usable' holds =>
          -- a clause has one node only
          obtain rfl : q = _ := Option.some.inj (Except.ok.inj (usable.symm.trans usable'))
          exact holds
  | group relation entries ih =>
    cases h with
    | group pruned nonempty =>
      have hiff : ∀ entry ∈ entries, ∀ node, entry.Prunes node →
          (node.Holds given ↔ entry.Holds given) :=
        fun entry hentry node hnode => ih entry hentry hnode
      unfold Query.join
      cases hor : relation.isOr with
      | true =>
        rw [if_pos rfl, Query.holds_should_iff, pruned.exists_iff hiff]
        constructor
        · rintro ⟨entry, hentry, survives, holds⟩
          exact .any hor hentry survives holds
        · intro holds
          cases holds with
          | any _ mem survives holds => exact ⟨_, mem, survives, holds⟩
          | all isAnd _ => rw [hor] at isAnd; cases isAnd
      | false =>
        rw [if_neg Bool.false_ne_true, Query.holds_must_iff, pruned.forall_iff hiff]
        constructor
        · exact fun holds => .all hor holds
        · intro holds
          cases holds with
          | any isOr _ _ _ => rw [hor] at isOr; cases isOr
          | all _ holds => exact holds
  | unusable => cases h

end MetaEntry

end CommentSearch
