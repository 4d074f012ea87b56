import CommentSearch.Proofs.PreparedDocuments
import CommentSearch.Proofs.Session

/-!
# The metadata that a policy lets in

`MetaPolicy.LetsIn` says which keys of metadata a policy lets into the index: the whitelisted ones,
and of the others the protected keys that are allowed and the public ones that are not excluded. A
prepared document has exactly these of the keys of its metadata, each with one typed entry for each
value (`IsLetIn`), and nothing under the other keys has an influence on it
(`prepare_lets_in`).
-/

namespace CommentSearch

/-! ### Which keys are let in -/

/-- A set of keys has a key: it has all, or lists it. -/
inductive KeySet.Covers : KeySet → String → Prop
  | all (key : String) : Covers .all key
  | only {keys : List String} {key : String} (listed : key ∈ keys) : Covers (.only keys) key

/-- A policy lets the values of a key into the index. -/
inductive MetaPolicy.LetsIn (p : MetaPolicy) : String → Prop
  | whitelisted {key : String} (listed : key ∈ p.whitelist) : LetsIn p key
  | «protected» {rest : String} (allowed : p.allowedProtected.Covers ("_" ++ rest)) :
    LetsIn p ("_" ++ rest)
  | «public» {key : String} (unmarked : ∀ rest, key ≠ "_" ++ rest)
    (kept : ¬p.excludedPublic.Covers key) : LetsIn p key

theorem KeySet.has_iff_covers {set : KeySet} {key : String} :
    set.has key = true ↔ set.Covers key := by
  cases set with
  | all => exact iff_of_true rfl (.all key)
  | only keys =>
    refine List.contains_iff_mem.trans ⟨.only, fun h => ?_⟩
    cases h with
    | only listed => exact listed

theorem isProtectedKey_iff {key : String} :
    isProtectedKey key = true ↔ ∃ rest, key = "_" ++ rest := by
  unfold isProtectedKey
  rw [decide_eq_true_iff, List.head?_eq_some_iff]
  constructor
  · rintro ⟨cs, hcs⟩
    refine ⟨String.ofList cs, String.ext ?_⟩
    simp [hcs]
  · rintro ⟨rest, rfl⟩
    exact ⟨rest.toList, String.toList_append ..⟩

/-- The test of a policy decides which keys it lets in. -/
theorem MetaPolicy.allows_iff_letsIn {p : MetaPolicy} {key : String} :
    p.allows key = true ↔ p.LetsIn key := by
  unfold allows
  rw [Bool.or_eq_true, List.contains_iff_mem]
  constructor
  · rintro (hlisted | hset)
    · exact .whitelisted hlisted
    · split at hset
      · rename_i hprotected
        obtain ⟨rest, rfl⟩ := isProtectedKey_iff.1 hprotected
        exact .protected (KeySet.has_iff_covers.1 hset)
      · rename_i hpublic
        have hunmarked : ∀ rest, key ≠ "_" ++ rest := fun rest heq =>
          hpublic (isProtectedKey_iff.2 ⟨rest, heq⟩)
        refine .public hunmarked fun hcovers => ?_
        rw [KeySet.has_iff_covers.2 hcovers] at hset
        cases hset
  · intro h
    cases h with
    | whitelisted hlisted => exact .inl hlisted
    | @«protected» rest hallowed =>
      rw [if_pos (isProtectedKey_iff.2 ⟨rest, rfl⟩)]
      exact .inr (KeySet.has_iff_covers.2 hallowed)
    | «public» hunmarked hkept =>
      have hpublic : ¬isProtectedKey key = true := fun hprotected => by
        obtain ⟨rest, heq⟩ := isProtectedKey_iff.1 hprotected
        exact hunmarked rest heq
      rw [if_neg hpublic, Bool.not_eq_true', Bool.eq_false_iff]
      exact .inr (mt KeySet.has_iff_covers.1 hkept)

/-! ### The metadata of a document -/

/-- A policy lets a key of metadata into a document. -/
def MetaPolicy.Indexes (p : MetaPolicy) (key : String) : Prop :=
  key ≠ Fields.reservedKey ∧ p.LetsIn key

theorem MetaPolicy.keeps_iff {p : MetaPolicy} {key : String} :
    (p.allows key && key != Fields.reservedKey) = true ↔ p.Indexes key := by
  rw [Bool.and_eq_true, allows_iff_letsIn, bne_iff_ne]
  exact and_comm

instance (p : MetaPolicy) (key : String) : Decidable (p.Indexes key) :=
  decidable_of_iff _ MetaPolicy.keeps_iff

/-- What a document has of the metadata that a policy lets in: the keys that are let in, each with
the typed entries of its values in order. -/
structure IsLetIn (zone : TimeZone) (indexed fields : Fields) (p : MetaPolicy) : Prop where
  mem_keys_iff : ∀ key, key ∈ indexed.keys ↔ key ∈ fields.keys ∧ p.Indexes key
  get?_eq : ∀ key ∈ indexed.keys, indexed.get? key = (fields.get? key).map fun v =>
    .list ((metaValues v).map fun item => (metaEntry zone item).toValue)

/-- The metadata of a document as the fields of a value. -/
def indexedFields (zone : TimeZone) (fields : Fields) (p : MetaPolicy) : Fields :=
  (allowedMeta fields p).map fun entry =>
    (entry.1, .list (entry.2.map fun item => (metaEntry zone item).toValue))

theorem indexedMetaValue_allowedMeta (zone : TimeZone) (fields : Fields) (p : MetaPolicy) :
    indexedMetaValue
        ((allowedMeta fields p).map fun entry => (entry.1, entry.2.map (metaEntry zone))) =
      .object (indexedFields zone fields p) := by
  unfold indexedMetaValue indexedFields
  rw [List.map_map]
  refine congrArg Value.object (List.map_congr_left fun entry _ => ?_)
  dsimp only [Function.comp]
  rw [List.map_map]
  rfl

theorem keys_indexedFields (zone : TimeZone) (fields : Fields) (p : MetaPolicy) :
    (indexedFields zone fields p).keys =
      fields.keys.filter fun key => p.allows key && key != Fields.reservedKey := by
  unfold indexedFields Fields.keys
  rw [allowedMeta_eq, List.map_map, List.map_map, List.filter_map]
  rfl

theorem get?_indexedFields (zone : TimeZone) (fields : Fields) (p : MetaPolicy) (key : String) :
    Fields.get? (indexedFields zone fields p) key =
      if p.Indexes key then (fields.get? key).map fun v =>
        .list ((metaValues v).map fun item => (metaEntry zone item).toValue)
      else none := by
  unfold indexedFields
  have hlookup := lookup_map_snd
    (fun values : List Value => Value.list (values.map fun item => (metaEntry zone item).toValue))
    (allowedMeta fields p) key
  rw [Fields.get?, hlookup, lookup_allowedMeta]
  by_cases hkey : p.Indexes key
  · rw [if_pos hkey, if_pos (MetaPolicy.keeps_iff.2 hkey), Option.map_map]
    rfl
  · rw [if_neg hkey, if_neg (mt MetaPolicy.keeps_iff.1 hkey)]
    rfl

theorem isLetIn_indexedFields (zone : TimeZone) (fields : Fields) (p : MetaPolicy) :
    IsLetIn zone (indexedFields zone fields p) fields p := by
  have hkeys key :
      key ∈ (indexedFields zone fields p).keys ↔ key ∈ fields.keys ∧ p.Indexes key := by
    rw [keys_indexedFields, List.mem_filter, MetaPolicy.keeps_iff]
  refine ⟨hkeys, fun key hkey => ?_⟩
  rw [get?_indexedFields, if_pos ((hkeys key).1 hkey).2]

/-! ### Documents -/

namespace Document

/-- Two documents have the same fields, and the same fields of metadata, in any order. -/
structure SameContent (d other : Document) : Prop where
  field : ∀ key, key ≠ "meta" → d.toValue.get? key = other.toValue.get? key
  metadata : ∀ key, (d.toValue.get? "meta").bind (·.get? key) =
    (other.toValue.get? "meta").bind (·.get? key)

/-- The document of a comment with metadata under a policy. -/
def indexing (zone : TimeZone) (row : Value) (post : Param) (fields : Fields) (p : MetaPolicy) :
    Document :=
  ⟨pick (withType row) commentNames, postRow post,
    (allowedMeta fields p).map fun entry => (entry.1, entry.2.map (metaEntry zone))⟩

theorem get?_meta_indexing (zone : TimeZone) (row : Value) (post : Param) (fields : Fields)
    (p : MetaPolicy) : (indexing zone row post fields p).toValue.get? "meta" =
      some (.object (indexedFields zone fields p)) := by
  rw [indexing, get?_meta_prepared, indexedMetaValue_allowedMeta]

/-- The document of a comment depends only on the metadata that the policy lets in. -/
theorem sameContent_indexing {fields others : Fields} {p : MetaPolicy}
    (h : ∀ key, p.Indexes key → fields.get? key = others.get? key) (zone : TimeZone)
    (row : Value) (post : Param) :
    (indexing zone row post fields p).SameContent (indexing zone row post others p) := by
  constructor
  · intro key hkey
    have hmeta (v : Value) : Fields.get? [("meta", v)] key = none :=
      Fields.get?_cons_of_ne v [] hkey
    rw [get?_toValue, get?_toValue, hmeta, hmeta]
    rfl
  · intro key
    rw [get?_meta_indexing, get?_meta_indexing, Option.bind_some, Option.bind_some,
      Value.get?_object, Value.get?_object, get?_indexedFields, get?_indexedFields]
    split
    · rename_i hkey
      rw [h key hkey]
    · rfl

/-- Preparation gives a document exactly where there is a comment. -/
theorem prepare_eq_ite (zone : TimeZone) {fields : Fields} (h : IsMetaMap fields)
    (comment post : Param) (p : MetaPolicy) : prepare zone comment post (some (.object fields)) p =
      .ok ((comment.filter Value.isTruthy).map fun row => indexing zone row post fields p) := by
  cases comment with
  | none => rfl
  | some row =>
    cases htruthy : row.isTruthy with
    | true =>
      rw [prepare_eq htruthy (indexedMeta_eq zone h p), Option.filter_some_pos htruthy]
      rfl
    | false =>
      rw [Option.filter_some_neg htruthy]
      unfold prepare
      dsimp only
      rw [htruthy]
      rfl

end Document

/-- Preparation gives a document exactly where there is a comment. The document has the metadata
that the policy lets in, and is the same for all metadata that agrees on that. -/
theorem prepare_lets_in {fields : Fields} (hmeta : IsMetaMap fields) (comment post : Param)
    (given : Option MetaPolicy) (s : Session) :
    ∃ result, ((Work.prepare comment post (some (.object fields)) given).run.run s).1 =
        .ok result ∧
      (result.isSome = true ↔ ∃ row, comment = some row ∧ row.isTruthy = true) ∧
      (∀ d, result = some d → ∃ indexed, d.toValue.get? "meta" = some (.object indexed) ∧
        IsLetIn s.platform.zone indexed fields (s.policy given)) ∧
      ∀ others, IsMetaMap others →
        (∀ key, (s.policy given).Indexes key → fields.get? key = others.get? key) →
        ∃ other, ((Work.prepare comment post (some (.object others)) given).run.run s).1 =
            .ok other ∧
          Option.Rel Document.SameContent result other := by
  refine ⟨_, (Work.run_prepare ..).trans (Document.prepare_eq_ite _ hmeta ..), ?_, ?_, ?_⟩
  · cases comment <;> simp
  · intro d hd
    obtain ⟨row, -, rfl⟩ := Option.map_eq_some_iff.1 hd
    exact ⟨_, Document.get?_meta_indexing .., isLetIn_indexedFields ..⟩
  · intro others hothers hagree
    refine ⟨_, (Work.run_prepare ..).trans (Document.prepare_eq_ite _ hothers ..), ?_⟩
    cases comment.filter Value.isTruthy with
    | none => exact .none
    | some row => exact .some (Document.sameContent_indexing hagree _ row post)

theorem prepare_lets_in_secret :
    let row : Value := .object [("comment_ID", .text "7")]
    let fields : Fields := [("mood", .list [.text "calm", .null]), ("_secret", .text "one"),
      ("_size", .text "3"), ("draft", .bool true), ("_note", .text "kept")]
    let others : Fields := [("_note", .text "kept"), ("_secret", .text "two"),
      ("_size", .text "3"), ("mood", .list [.text "calm", .null])]
    let p : MetaPolicy := ⟨.only ["_size"], .only ["draft"], ["_note"]⟩
    IsMetaMap fields ∧ IsMetaMap others ∧
      (∀ key, p.Indexes key → fields.get? key = others.get? key) ∧
      ∃ (d other : Document) (indexed : Fields),
        ((Work.prepare (some row) none (some (.object fields)) (some p)).run.run {}).1 =
          .ok (some d) ∧
        ((Work.prepare (some row) none (some (.object others)) (some p)).run.run {}).1 =
          .ok (some other) ∧
        d.SameContent other ∧ d.toValue.get? "meta" = some (.object indexed) ∧
        IsLetIn .universal indexed fields p := by
  intro row fields others p
  have hfields : IsMetaMap fields :=
    isMetaMap_of_accepts (Schema.accepts_record_iff.2 ⟨_, rfl, by decide⟩)
  have hothers : IsMetaMap others :=
    isMetaMap_of_accepts (Schema.accepts_record_iff.2 ⟨_, rfl, by decide⟩)
  have hagree (key : String) (hkey : p.Indexes key) : fields.get? key = others.get? key := by
    have hsecret : key ≠ "_secret" := by
      rintro rfl
      exact absurd hkey (by decide)
    have hdraft : key ≠ "draft" := by
      rintro rfl
      exact absurd hkey (by decide)
    simp only [fields, others, Fields.get?_cons, hsecret, hdraft, if_false]
    grind
  obtain ⟨result, hresult, hsome, hindexed, hsame⟩ :=
    prepare_lets_in hfields (some row) none (some p) {}
  obtain ⟨d, rfl⟩ := Option.isSome_iff_exists.1 (hsome.2 ⟨row, rfl, rfl⟩)
  obtain ⟨indexed, hvalue, hletIn⟩ := hindexed d rfl
  obtain ⟨other, hother, hrel⟩ := hsame others hothers hagree
  cases hrel with
  | @some _ other hcontent =>
    exact ⟨hfields, hothers, hagree, d, other, indexed, hresult, hother, hcontent, hvalue, hletIn⟩

end CommentSearch
