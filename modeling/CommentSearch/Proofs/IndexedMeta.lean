import CommentSearch.Proofs.MetaTree
import CommentSearch.Proofs.PreparedDocuments

/-!
# Metadata that is found again

A scalar under a key of metadata is indexed as one entry, and a metadata query for the key and the
scalar compares the untouched text of such entries. The two agree for texts and numbers
(`indexed_value_found`): the query holds for the document. Truth values are indexed under texts of
their own, by which alone they are found (`indexed_bool_lost`).
-/

namespace CommentSearch

/-- The text of a scalar is the one that it is indexed as, unless it is a truth value. -/
theorem toText_eq_indexedText_iff (x : Scalar) :
    x.toText = x.indexedText ↔ ∀ b, x ≠ .bool b := by
  cases x with
  | text s => exact iff_of_true rfl nofun
  | number y => exact iff_of_true rfl nofun
  | bool b =>
    refine iff_of_false ?_ fun h => h b rfl
    cases b <;> decide

/-- A metadata query for a key and a value. -/
def metaEquals (key : String) (x : Scalar) : Value :=
  .list [.object [("key", .text key), ("value", x.toValue)]]

theorem metaField_untyped (key : String) :
    metaField key none = .ok ("meta." ++ key ++ ".raw") := by
  have hraw : "meta." ++ key ++ "." ++ "raw" = "meta." ++ key ++ ".raw" := by
    rw [String.append_assoc]
    rfl
  exact congrArg Except.ok hraw

theorem metaClauseNode_equals {key : String} (hkey : Param.isEmpty (some (.text key)) = false)
    (x : Scalar) : metaClauseNode [("key", .text key), ("value", x.toValue)] =
      .ok (some (.term ("meta." ++ key ++ ".raw") x.toValue)) := by
  have hnamed : Fields.get? [("key", .text key), ("value", x.toValue)] "key" =
      some (.text key) := Fields.get?_cons_self ..
  have hvalue : Fields.get? [("key", .text key), ("value", x.toValue)] "value" =
      some x.toValue := rfl
  have hcompare : Fields.get? [("key", .text key), ("value", x.toValue)] "compare" = none := rfl
  have htype : Fields.get? [("key", .text key), ("value", x.toValue)] "type" = none := rfl
  unfold metaClauseNode
  rw [hnamed, hvalue, hcompare, htype, hkey, if_neg Bool.false_ne_true]
  change (metaField key none >>= fun field =>
    (Comparison.ofValue (some x.toValue)).node key field (some x.toValue)) = _
  rw [metaField_untyped]
  cases x <;> rfl

/-- The query for a key and a scalar is one term on the untouched texts of the key. -/
theorem compileMetaQuery_equals {key : String}
    (hkey : Param.isEmpty (some (.text key)) = false) (x : Scalar) :
    compileMetaQuery (metaEquals key x) =
      .ok (some (.must [.term ("meta." ++ key ++ ".raw") x.toValue])) := by
  have hentry : MetaEntry.ofQuery (metaEquals key x) =
      .group none [.clause [("key", .text key), ("value", x.toValue)]] := rfl
  have hnull : metaEquals key x ≠ .null := nofun
  rw [MetaEntry.compileMetaQuery_eq hnull, hentry, MetaEntry.node, MetaEntry.nodes,
    MetaEntry.node, metaClauseNode_equals hkey]
  rfl

/-- A document holds under a key of metadata one entry only, indexed as some text. -/
def Document.HasMetaText (d : Document) (key raw : String) : Prop :=
  ∃ entry, (d.toValue.get? "meta").bind (·.get? key) = some (.list [entry]) ∧
    entry.get? "raw" = some (.text raw)

/-- The document of a comment with a scalar under a key of its metadata holds the indexed text of
the scalar. -/
theorem exists_prepare_hasMetaText (zone : TimeZone) {row : Value} {fields : Fields}
    {p : MetaPolicy} {key : String} {x : Scalar} (htruthy : row.isTruthy = true)
    (hmeta : Schema.metadata.accepts (.object fields) = true)
    (hvalue : fields.get? key = some x.toValue) (hreserved : key ≠ Fields.reservedKey)
    (hallowed : p.allows key = true) (post : Param) :
    ∃ d, Document.prepare zone (some row) post (some (.object fields)) p = .ok (some d) ∧
      d.HasMetaText key x.indexedText := by
  have hindexed := indexedMeta_eq zone (isMetaMap_of_accepts hmeta) p
  have hentries : ((allowedMeta fields p).map fun entry =>
      (entry.1, entry.2.map (metaEntry zone))).lookup key = some [.ofText zone x.indexedText] := by
    rw [lookup_map_snd, lookup_allowedMeta, hallowed, bne_iff_ne.2 hreserved, hvalue]
    cases x <;> rfl
  refine ⟨_, Document.prepare_eq htruthy hindexed post,
    (MetaEntryValue.ofText zone x.indexedText).toValue, ?_, rfl⟩
  rw [Document.get?_meta_prepared, Option.bind_some, get?_indexedMetaValue, hentries]
  rfl

/-- The document of a comment with a scalar under a key of its metadata holds one entry for it, and
the query for the key and the scalar is a term on the text of such entries. The text is that of the
scalar exactly where the scalar is no truth value, and it is always found by the query for the text
itself. -/
theorem indexed_value_found (zone : TimeZone) {row : Value} {fields : Fields} {p : MetaPolicy}
    {key : String} {x : Scalar} (htruthy : row.isTruthy = true)
    (hmeta : Schema.metadata.accepts (.object fields) = true)
    (hvalue : fields.get? key = some x.toValue)
    (hkey : Param.isEmpty (some (.text key)) = false) (hreserved : key ≠ Fields.reservedKey)
    (hallowed : p.allows key = true) (post : Param) :
    ∃ d raw, Document.prepare zone (some row) post (some (.object fields)) p = .ok (some d) ∧
      d.HasMetaText key raw ∧
      compileMetaQuery (metaEquals key x) =
        .ok (some (.must [.term ("meta." ++ key ++ ".raw") x.toValue])) ∧
      compileMetaQuery (metaEquals key (.text raw)) =
        .ok (some (.must [.term ("meta." ++ key ++ ".raw") (.text raw)])) ∧
      (x.toText = raw ↔ ∀ b, x ≠ .bool b) := by
  obtain ⟨d, hd, htext⟩ :=
    exists_prepare_hasMetaText zone htruthy hmeta hvalue hreserved hallowed post
  exact ⟨d, x.indexedText, hd, htext, compileMetaQuery_equals hkey x,
    compileMetaQuery_equals hkey (.text x.indexedText), toText_eq_indexedText_iff x⟩

theorem indexed_value_found_protected :
    let row : Value := .object [("comment_ID", .number (.finite 11))]
    let fields : Fields := [("mood", .list [.text "calm", .null]), ("_size", .number (.finite 3))]
    let p : MetaPolicy := ⟨.only ["_size"], .all, []⟩
    let x : Scalar := .number (.finite 3)
    row.isTruthy = true ∧ Schema.metadata.accepts (.object fields) = true ∧
      fields.get? "_size" = some x.toValue ∧ Param.isEmpty (some (.text "_size")) = false ∧
      "_size" ≠ Fields.reservedKey ∧ p.allows "_size" = true ∧
      ∃ d raw,
        Document.prepare .universal (some row) none (some (.object fields)) p = .ok (some d) ∧
        d.HasMetaText "_size" raw ∧
        compileMetaQuery (metaEquals "_size" x) =
          .ok (some (.must [.term ("meta." ++ "_size" ++ ".raw") x.toValue])) ∧
        compileMetaQuery (metaEquals "_size" (.text raw)) =
          .ok (some (.must [.term ("meta." ++ "_size" ++ ".raw") (.text raw)])) ∧
        (x.toText = raw ↔ ∀ b, x ≠ .bool b) := by
  intro row fields p x
  have hmeta : Schema.metadata.accepts (.object fields) = true :=
    Schema.accepts_record_iff.2 ⟨fields, rfl, by decide⟩
  have hallowed : p.allows "_size" = true := by decide
  exact ⟨rfl, hmeta, rfl, by decide, by decide, hallowed,
    indexed_value_found .universal rfl hmeta rfl (by decide) (by decide) hallowed none⟩

/-- What is indexed for the value `true` is not what the query for `true` compares with. -/
theorem indexed_bool_lost :
    ∃ d raw, Document.prepare .universal (some (.object [("comment_ID", .number (.finite 11))]))
        none (some (.object [("flag", .bool true)])) ⟨.only [], .only [], []⟩ = .ok (some d) ∧
      d.HasMetaText "flag" raw ∧
      compileMetaQuery (metaEquals "flag" (.bool true)) =
        .ok (some (.must [.term "meta.flag.raw" (.bool true)])) ∧
      (Scalar.bool true).toText ≠ raw := by
  have hmeta : Schema.metadata.accepts (.object [("flag", .bool true)]) = true :=
    Schema.accepts_record_iff.2 ⟨_, rfl, by decide⟩
  obtain ⟨d, hd, htext⟩ := @exists_prepare_hasMetaText .universal
    (.object [("comment_ID", .number (.finite 11))]) _ ⟨.only [], .only [], []⟩ "flag" (.bool true)
    rfl hmeta rfl (by decide) (by decide) none
  have hflag : Param.isEmpty (some (.text "flag")) = false := by decide
  exact ⟨d, "1", hd, htext, compileMetaQuery_equals hflag (.bool true), by decide⟩

end CommentSearch
