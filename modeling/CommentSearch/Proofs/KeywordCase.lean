import Mathlib.Data.List.Forall2
import CommentSearch.Proofs.Stripping

/-!
# The case of keywords

Keywords are texts in five places: the relations of metadata queries, at any depth, and of date
queries, the comparisons and the types of clauses, and the order of a request. Each is put into
capitals, or into small letters, before it is compared. So nothing of what is read there changes
with the case of ASCII letters: the entries of metadata queries have the same nodes
(`MetaEntry.node_recased`), and date queries the same filters (`DateFilter.compile_recased`).
-/

namespace CommentSearch

/-! ### Values that may be absent -/

section Rel

variable {α β : Type} {p q : Option α}

theorem rel_same {R : α → α → Prop} (h : ∀ a, R a a) (p : Option α) : Option.Rel R p p := by
  cases p with
  | none => exact .none
  | some a => exact .some (h a)

theorem rel_imp {R S : α → α → Prop} (h : Option.Rel R p q) (himp : ∀ a b, R a b → S a b) :
    Option.Rel S p q := by
  cases h with
  | none => exact .none
  | some h => exact .some (himp _ _ h)

theorem rel_map {R : α → α → Prop} {S : β → β → Prop} {f : α → β} (h : Option.Rel R p q)
    (himp : ∀ a b, R a b → S (f a) (f b)) : Option.Rel S (p.map f) (q.map f) := by
  cases h with
  | none => exact .none
  | some h => exact .some (himp _ _ h)

end Rel

/-! ### Texts -/

namespace Text

/-- Texts that differ in the case of ASCII letters only. -/
def Recased (s t : String) : Prop := s.toList.map Char.toLower = t.toList.map Char.toLower

instance (s t : String) : Decidable (Recased s t) := inferInstanceAs (Decidable (_ = _))

/-- The capital ASCII letters are 26 codes in a row. -/
theorem exists_eq_ofNat_of_isUpper {c : Char} (h : c.isUpper = true) :
    ∃ n : Fin 26, c = Char.ofNat (65 + n) := by
  obtain ⟨hfirst, hlast⟩ : 'A'.val ≤ c.val ∧ c.val ≤ 'Z'.val := of_decide_eq_true h
  have hfirst : 65 ≤ c.toNat := UInt32.le_iff_toNat_le.1 hfirst
  have hlast : c.toNat ≤ 90 := UInt32.le_iff_toNat_le.1 hlast
  refine ⟨⟨c.toNat - 65, by omega⟩, ?_⟩
  dsimp only
  rw [Nat.add_sub_cancel' hfirst, Char.ofNat_toNat]

theorem toLower_of_not_isUpper {c : Char} (h : ¬c.isUpper = true) : c.toLower = c :=
  dif_neg fun hcapital => h (decide_eq_true hcapital)

theorem capitals_toLower (c : Char) : capitals c.toLower = capitals c := by
  by_cases h : c.isUpper = true
  · obtain ⟨n, rfl⟩ := exists_eq_ofNat_of_isUpper h
    clear h
    revert n
    decide
  · rw [toLower_of_not_isUpper h]

theorem small_toLower (c : Char) : small c.toLower = small c := by
  by_cases h : c.isUpper = true
  · obtain ⟨n, rfl⟩ := exists_eq_ofNat_of_isUpper h
    clear h
    revert n
    decide
  · rw [toLower_of_not_isUpper h]

variable {s t : String}

theorem Recased.toCapitals_eq (h : Recased s t) : toCapitals s = toCapitals t := by
  have hfold (u : String) :
      u.toList.flatMap capitals = (u.toList.map Char.toLower).flatMap capitals := by
    rw [List.flatMap_map]
    simp only [capitals_toLower]
  unfold toCapitals
  rw [hfold s, hfold t, h]

theorem Recased.toSmall_eq (h : Recased s t) : toSmall s = toSmall t := by
  have hfold (u : String) : u.toList.map small = (u.toList.map Char.toLower).map small := by
    rw [List.map_map]
    exact List.map_congr_left fun c _ => (small_toLower c).symm
  unfold toSmall
  rw [hfold s, hfold t, h]

theorem Recased.eq_empty_iff (h : Recased s t) : s = "" ↔ t = "" := by
  rw [← String.toList_eq_nil_iff, ← String.toList_eq_nil_iff, ← List.map_eq_nil_iff, h,
    List.map_eq_nil_iff]

end Text

/-! ### Values -/

/-- A value that is left as it is, or a text in another case. -/
inductive Value.Recased : Value → Value → Prop where
  | same (v : Value) : Recased v v
  | text {s t : String} (recased : Text.Recased s t) : Recased (.text s) (.text t)

theorem Value.Recased.isTruthy_eq {v w : Value} (h : Recased v w) : v.isTruthy = w.isTruthy := by
  cases h with
  | same => rfl
  | text recased =>
    unfold isTruthy
    rw [Bool.eq_iff_iff, bne_iff_ne, bne_iff_ne]
    exact not_congr recased.eq_empty_iff

namespace Param

/-- A parameter that is left as it is, or is a text in another case. -/
abbrev Recased (p p' : Param) : Prop := Option.Rel Value.Recased p p'

theorem Recased.refl (p : Param) : Recased p p := rel_same .same p

variable {p p' : Param}

theorem Recased.keyword_eq (h : Recased p p') : p.keyword = p'.keyword := by
  cases h with
  | none => rfl
  | some h =>
    have htruthy := h.isTruthy_eq
    cases h with
    | same => rfl
    | text recased =>
      unfold keyword
      dsimp only
      rw [htruthy, recased.toCapitals_eq]

theorem Recased.ofParam_eq (h : Recased p p') : Order.ofParam p = Order.ofParam p' := by
  cases h with
  | none => rfl
  | some h =>
    cases h with
    | same => rfl
    | text recased =>
      unfold Order.ofParam
      dsimp only
      rw [recased.toCapitals_eq]

theorem Recased.metaField_eq (h : Recased p p') (key : String) :
    metaField key p = metaField key p' := by
  cases h with
  | none => rfl
  | some h =>
    have htruthy := h.isTruthy_eq
    cases h with
    | same => rfl
    | text recased =>
      unfold metaField
      dsimp only
      rw [htruthy, recased.toSmall_eq]

end Param

/-! ### Fields -/

namespace Fields

/-- Fields that are the same but for the case of the keywords under some names, and for the values
under some other names. -/
structure Recased (keywords others : List String) (fields fields' : Fields) : Prop where
  recased : ∀ name ∈ keywords, Param.Recased (fields.get? name) (fields'.get? name)
  same : ∀ name, name ∉ keywords → name ∉ others → fields.get? name = fields'.get? name

variable {keywords others : List String} {fields fields' : Fields}

theorem Recased.refl (keywords others : List String) (fields : Fields) :
    Recased keywords others fields fields :=
  ⟨fun _ _ => .refl _, fun _ _ _ => rfl⟩

theorem Recased.agreeOn (h : Recased keywords others fields fields') {names : List String}
    (hnames : ∀ name ∈ names, name ∉ keywords ∧ name ∉ others) :
    AgreeOn names fields fields' :=
  fun name hname => h.same name (hnames name hname).1 (hnames name hname).2

/-- A field in front of others, recased where its name is that of a keyword. -/
theorem Recased.cons (h : Recased keywords others fields fields') {name : String} {v w : Value}
    (hkeyword : name ∈ keywords → Value.Recased v w)
    (hsame : name ∉ keywords → name ∉ others → v = w) :
    Recased keywords others ((name, v) :: fields) ((name, w) :: fields') := by
  constructor
  · intro key hkey
    rw [get?_cons, get?_cons]
    split
    · rename_i heq
      exact .some (hkeyword (heq ▸ hkey))
    · exact h.recased key hkey
  · intro key hkey hother
    rw [get?_cons, get?_cons]
    split
    · rename_i heq
      rw [hsame (heq ▸ hkey) (heq ▸ hother)]
    · exact h.same key hkey hother

theorem Recased.cons_keyword (h : Recased keywords others fields fields') {name : String}
    {s t : String} (hname : name ∈ keywords) (hrecased : Text.Recased s t) :
    Recased keywords others ((name, .text s) :: fields) ((name, .text t) :: fields') :=
  h.cons (fun _ => .text hrecased) fun hne => absurd hname hne

theorem Recased.cons_same (h : Recased keywords others fields fields') (name : String)
    (v : Value) : Recased keywords others ((name, v) :: fields) ((name, v) :: fields') :=
  h.cons (fun _ => .same v) fun _ _ => rfl

theorem Recased.cons_other (h : Recased keywords others fields fields') {name : String}
    (hname : name ∉ keywords) (hother : name ∈ others) (v w : Value) :
    Recased keywords others ((name, v) :: fields) ((name, w) :: fields') :=
  h.cons (fun hkeyword => absurd hkeyword hname) fun _ hne => absurd hother hne

end Fields

/-! ### Metadata queries -/

/-- An entry of a metadata query in another case: the keywords of an object, and those of the
entries that it has. -/
inductive MetaEntry.Recased : Value → Value → Prop where
  | same (v : Value) : Recased v v
  | clause {fields fields' : Fields}
    (keywords : Fields.Recased ["relation", "compare", "type"] [] fields fields') :
    Recased (.object fields) (.object fields')
  | group {fields fields' : Fields} {items items' : List Value}
    (clauses : fields.get? "clauses" = some (.list items))
    (clauses' : fields'.get? "clauses" = some (.list items'))
    (each : List.Forall₂ Recased items items')
    (keywords : Fields.Recased ["relation", "compare", "type"] ["clauses"] fields fields') :
    Recased (.object fields) (.object fields')

/-- Clauses have the same node in any case of their keywords. -/
theorem metaClauseNode_recased {fields fields' : Fields} {others : List String}
    (h : Fields.Recased ["relation", "compare", "type"] others fields fields')
    (hothers : ∀ name ∈ ["key", "value"], name ∉ others) :
    metaClauseNode fields = metaClauseNode fields' := by
  have hkey := h.same "key" (by decide) (hothers "key" (by decide))
  have hvalue := h.same "value" (by decide) (hothers "value" (by decide))
  have hcompare := (h.recased "compare" (by decide)).keyword_eq
  have htype := (h.recased "type" (by decide)).metaField_eq
  unfold metaClauseNode
  rw [hkey, hvalue, hcompare]
  simp only [htype]

namespace MetaEntry

variable {relation relation' : Param} {entries entries' : List MetaEntry}

/-- Groups have the same node in any case of their relations, if their entries have the same
nodes. -/
theorem node_group_congr (hrelation : Param.Recased relation relation')
    (hentries : entries.map MetaEntry.node = entries'.map MetaEntry.node) :
    (MetaEntry.group relation entries).node = (MetaEntry.group relation' entries').node := by
  rw [MetaEntry.node, MetaEntry.node, nodes_congr hentries]
  unfold joinNodes
  rw [hrelation.keyword_eq]

theorem map_node_of_forall₂ {items items' : List Value}
    (h : List.Forall₂ (fun v w => (ofValue v).node = (ofValue w).node) items items') :
    (items.map ofValue).map MetaEntry.node = (items'.map ofValue).map MetaEntry.node := by
  induction h with
  | nil => rfl
  | cons hnode _ ih => simp only [List.map_cons, hnode, ih]

/-- An entry has the same node in any case of the keywords in it. -/
theorem node_recased (v : Value) : ∀ w, Recased v w → (ofValue v).node = (ofValue w).node := by
  -- the relation nests through lists, so the induction is on the entry that it is a relation of
  induction v using entries_induction with
  | step v ih =>
    intro w h
    cases h with
    | same => rfl
    | @clause fields fields' keywords =>
      -- with clauses this is a group too, whose clauses are the same
      have hrelation := keywords.recased "relation" (by decide)
      have hclauses := keywords.same "clauses" (by decide) (by decide)
      by_cases hgroup : ∃ items, fields.get? "clauses" = some (.list items)
      · obtain ⟨items, hitems⟩ := hgroup
        rw [ofValue_of_entries hitems, ofValue_of_entries (hclauses ▸ hitems),
          node_group_congr hrelation rfl]
      · have hsingle := not_exists.1 hgroup
        rw [ofValue_of_single hsingle, ofValue_of_single (hclauses ▸ hsingle), MetaEntry.node,
          MetaEntry.node, metaClauseNode_recased keywords (by simp)]
    | @group fields fields' items items' clauses clauses' each keywords =>
      have hall := (List.forall₂_and_left items items').2 ⟨ih fields items rfl clauses, each⟩
      have hnodes := map_node_of_forall₂ (hall.imp fun v w hpair => hpair.1 w hpair.2)
      rw [ofValue_of_entries clauses, ofValue_of_entries clauses',
        node_group_congr (keywords.recased "relation" (by decide)) hnodes]

end MetaEntry

/-- A metadata query in another case: an entry that it is, or the entries of a list. -/
inductive MetaGroup.Recased : Value → Value → Prop where
  | entry {v w : Value} (recased : MetaEntry.Recased v w) : Recased v w
  | list {items items' : List Value} (each : List.Forall₂ MetaEntry.Recased items items') :
    Recased (.list items) (.list items')

namespace MetaGroup

variable {v w : Value}

theorem Recased.isEmpty_eq (h : Recased v w) :
    Param.isEmpty (some v) = Param.isEmpty (some w) := by
  cases h with
  | entry recased => cases recased <;> rfl
  | list each => cases each <;> rfl

/-- A query in another case has a relation in another case, and entries with the same nodes. -/
theorem Recased.ofQuery (h : Recased v w) :
    Param.Recased (ofQuery (some v)).relation (ofQuery (some w)).relation ∧
      (ofQuery (some v)).nodes = (ofQuery (some w)).nodes := by
  have hnodes {items items' : List Value} (each : List.Forall₂ MetaEntry.Recased items items') :
      items.map (fun v => (MetaEntry.ofValue v).node) =
        items'.map fun v => (MetaEntry.ofValue v).node := by
    have hmap := MetaEntry.map_node_of_forall₂ (each.imp fun v w => MetaEntry.node_recased v w)
    rwa [List.map_map, List.map_map] at hmap
  cases h with
  | entry recased =>
    cases recased with
    | same => exact ⟨.refl _, rfl⟩
    | clause keywords =>
      refine ⟨keywords.recased "relation" (by decide), ?_⟩
      unfold nodes MetaGroup.ofQuery
      dsimp only
      rw [keywords.same "clauses" (by decide) (by decide)]
    | group clauses clauses' each keywords =>
      refine ⟨keywords.recased "relation" (by decide), ?_⟩
      unfold nodes MetaGroup.ofQuery
      dsimp only
      rw [clauses, clauses', hnodes each]
  | list each => exact ⟨.none, hnodes each⟩

end MetaGroup

/-! ### Date queries -/

/-- A date query in another case: that of its relation. -/
inductive DateFilter.Recased : Value → Value → Prop where
  | same (v : Value) : Recased v v
  | object {fields fields' : Fields} (keywords : Fields.Recased ["relation"] [] fields fields') :
    Recased (.object fields) (.object fields')

namespace DateFilter

variable {v w : Value}

theorem Recased.isEmpty_eq (h : Recased v w) :
    Param.isEmpty (some v) = Param.isEmpty (some w) := by
  cases h <;> rfl

/-- A date query compiles to the same filter in any case of its relation. -/
theorem compile_recased (zone : TimeZone) (h : Recased v w) :
    compile (some v) zone = compile (some w) zone := by
  cases h with
  | same => rfl
  | @object fields fields' keywords =>
    have hcolumn := keywords.same "column" (by decide) (by decide)
    have hclauses := keywords.same "clauses" (by decide) (by decide)
    have hkeyword := (keywords.recased "relation" (by decide)).keyword_eq
    rw [compile_eq (by simp), compile_eq (by simp)]
    unfold ofClauses columnOf clausesOf
    dsimp only
    simp only [Value.get?_object]
    rw [hcolumn, hclauses, hkeyword]

end DateFilter

end CommentSearch
