import CommentSearch.Document
import CommentSearch.Proofs.AcceptedRequest
import CommentSearch.Proofs.Outcome

/-!
# Prepared documents

The document of a comment has a fixed set of fields besides its metadata. Metadata that can be
stored can always be indexed: it has a typed entry for each value of a key that the policy lets in,
in order (`indexedMeta_eq`).
-/

namespace CommentSearch

/-! ### Metadata -/

/-- The values that metadata has under a key: the items of a list, or the single value. -/
def metaValues : Value → List Value
  | .list values => values
  | v => [v]

theorem allowedMeta_eq (fields : Fields) (p : MetaPolicy) : allowedMeta fields p =
    (fields.filter fun field => p.allows field.1 && field.1 != Fields.reservedKey).map
      fun field => (field.1, metaValues field.2) := by
  unfold allowedMeta
  refine List.map_congr_left fun field _ => ?_
  obtain ⟨key, v⟩ := field
  cases v <;> rfl

theorem lookup_allowedMeta (fields : Fields) (p : MetaPolicy) (key : String) :
    (allowedMeta fields p).lookup key =
      if p.allows key && key != Fields.reservedKey then (fields.get? key).map metaValues
      else none := by
  rw [allowedMeta_eq, lookup_map_snd,
    lookup_filter fun name => p.allows name && name != Fields.reservedKey]
  split <;> rfl

/-- Metadata that can be stored: under each key a scalar or null, or a list of these. -/
def IsMetaMap (fields : Fields) : Prop :=
  ∀ field ∈ fields, ∀ v ∈ metaValues field.2, v = .null ∨ ∃ x : Scalar, v = x.toValue

/-- Accepted metadata can be stored. -/
theorem isMetaMap_of_accepts {fields : Fields}
    (h : Schema.metadata.accepts (.object fields) = true) : IsMetaMap fields := by
  have hscalar {v : Value} (hv : (Schema.nullable .scalar).accepts v = true) :
      v = .null ∨ ∃ x : Scalar, v = x.toValue :=
    (Schema.accepts_nullable_iff.1 hv).imp_right exists_scalar_of_accepts
  obtain ⟨_, heq, hfields⟩ := Schema.accepts_record_iff.1 h
  obtain rfl := Value.object.inj heq
  intro field hfield v hv
  obtain ⟨form, hform, haccepts⟩ := Schema.accepts_anyOf_iff.1 (hfields field hfield)
  simp only [List.mem_cons, List.not_mem_nil, or_false] at hform
  rcases hform with rfl | rfl
  · have hsingle : metaValues field.2 = [field.2] := by
      rcases hscalar haccepts with hnull | ⟨x, hx⟩
      · rw [hnull]
        rfl
      · rw [hx]
        cases x <;> rfl
    rw [hsingle, List.mem_singleton] at hv
    exact hscalar (hv ▸ haccepts)
  · obtain ⟨items, hitems, hall⟩ := Schema.accepts_list_iff.1 haccepts
    rw [hitems] at hv
    exact hscalar (hall v hv)

/-! ### Typed entries -/

/-- The text that a scalar of metadata is indexed as. -/
def Scalar.indexedText : Scalar → String
  | .bool b => if b then "1" else ""
  | x => x.toText

theorem metaText_toValue (x : Scalar) : metaText (some x.toValue) = .ok x.indexedText := by
  cases x <;> rfl

/-- The typed entry of a value that can be stored: that of the text that it is indexed as. -/
def metaEntry (zone : TimeZone) (v : Value) : MetaEntryValue :=
  .ofText zone ((v.scalar?.map Scalar.indexedText).getD "")

theorem ofValue_eq_metaEntry (zone : TimeZone) {v : Value}
    (h : v = .null ∨ ∃ x : Scalar, v = x.toValue) :
    MetaEntryValue.ofValue (some v) zone = .ok (metaEntry zone v) := by
  unfold MetaEntryValue.ofValue
  rcases h with rfl | ⟨x, rfl⟩
  · rfl
  · rw [metaText_toValue]
    cases x <;> rfl

/-- Metadata that can be stored is indexed with the typed entries of its values, in order. -/
theorem indexedMeta_eq (zone : TimeZone) {fields : Fields} (h : IsMetaMap fields) (p : MetaPolicy) :
    indexedMeta zone (allowedMeta fields p) =
      .ok ((allowedMeta fields p).map fun entry => (entry.1, entry.2.map (metaEntry zone))) := by
  refine mapM_eq_ok_of_forall fun entry hentry => ?_
  rw [allowedMeta_eq] at hentry
  obtain ⟨field, hfield, rfl⟩ := List.mem_map.1 hentry
  have hvalues := h field (List.mem_filter.1 hfield).1
  dsimp only
  rw [mapM_eq_ok_of_forall fun v hv => ofValue_eq_metaEntry zone (hvalues v hv)]
  rfl

/-! ### Documents -/

theorem get?_pick_of_notMem {row : Value} {names : List (String × String)} {key : String}
    (h : key ∉ names.map (·.1)) : Fields.get? (pick row names) key = none := by
  rw [Fields.get?_eq_none_iff]
  rintro field hfield rfl
  obtain ⟨entry, hentry, hfield⟩ := List.mem_filterMap.1 hfield
  obtain ⟨v, -, rfl⟩ := Option.map_eq_some_iff.1 hfield
  exact h (List.mem_map_of_mem hentry)

/-- The value that a document has of a field of its post. -/
def postValue (post : Param) (field : String) : Value :=
  match post.bind (·.get? field) with
  | some v => v
  | none => .null

theorem get?_postRow (post : Param) (key : String) :
    Fields.get? (postRow post) key = (postFields.lookup key).map (postValue post) :=
  lookup_map_snd (postValue post) postFields key

namespace Document

theorem prepare_eq {zone : TimeZone} {row : Value} {fields : Fields} {p : MetaPolicy}
    {indexed : List (String × List MetaEntryValue)} (htruthy : row.isTruthy = true)
    (h : indexedMeta zone (allowedMeta fields p) = .ok indexed) (post : Param) :
    prepare zone (some row) post (some (.object fields)) p =
      .ok (some ⟨pick (withType row) commentNames, postRow post, indexed⟩) := by
  unfold prepare
  dsimp only
  rw [if_pos htruthy]
  change (indexedMeta zone (allowedMeta fields p) >>= _) = _
  rw [h]
  rfl

theorem get?_toValue (d : Document) (key : String) : d.toValue.get? key =
    (d.comment.get? key).or ((d.post.get? key).or
      (Fields.get? [("meta", indexedMetaValue d.metadata)] key)) := by
  rw [toValue, Value.get?_object, Fields.get?_append, Fields.get?_append, Option.or_assoc]

/-- The metadata of a prepared document stands under a key of its own. -/
theorem get?_meta_prepared (row : Value) (post : Param)
    (indexed : List (String × List MetaEntryValue)) :
    (toValue ⟨pick row commentNames, postRow post, indexed⟩).get? "meta" =
      some (indexedMetaValue indexed) := by
  have hcomment : Fields.get? (pick row commentNames) "meta" = none :=
    get?_pick_of_notMem (by decide)
  have hpost : Fields.get? (postRow post) "meta" = none := by
    rw [get?_postRow]
    rfl
  rw [get?_toValue, hcomment, hpost]
  rfl

end Document

theorem get?_indexedMetaValue (indexed : List (String × List MetaEntryValue)) (key : String) :
    (indexedMetaValue indexed).get? key =
      (indexed.lookup key).map fun entries => .list (entries.map MetaEntryValue.toValue) := by
  rw [indexedMetaValue, Value.get?_object]
  exact lookup_map_snd
    (fun entries : List MetaEntryValue => Value.list (entries.map MetaEntryValue.toValue))
    indexed key

end CommentSearch
