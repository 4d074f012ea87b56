import CommentSearch.Proofs.PeriodBounds

/-!
# Limits to whole periods

A clause of a date query can be limited to a span by naming the parts of the span, the month under
either of two names (`DateClause.IsLimitedTo`). It then asks for one range, from the first second of
the span to its last (`node_of_isLimitedTo`).

Among the stored dates, compared as texts, such a range admits those in the span and no others
(`admits_whole_iff`), also where the end of the span is found by going over the end of a month or of
a year.
-/

namespace CommentSearch

/-! ### The range of a span -/

/-- The dates of a span, from its first second to its last. -/
def DateSpan.whole (P : DateSpan) : Bounds :=
  { gte := some (.text P.first.stored), lte := some (.text P.last.stored) }

theorem Bounds.admits_between_iff {low high t : String} :
    Admits { gte := some (.text low), lte := some (.text high) } t ↔
      ¬t.toList < low.toList ∧ ¬high.toList < t.toList := by
  constructor
  · intro h
    exact ⟨exists_text_eq_and.1 h.gte, exists_text_eq_and.1 h.lte⟩
  · rintro ⟨hlow, hhigh⟩
    exact ⟨nofun, exists_text_eq_and.2 hlow, nofun, exists_text_eq_and.2 hhigh⟩

/-- The range of a real span admits the stored dates in it. -/
theorem DateSpan.admits_whole_iff {P : DateSpan} (real : P.IsReal) {t : DateTime}
    (ht : t.Storable) : P.whole.Admits t.stored ↔ P.Contains t := by
  rw [whole, Bounds.admits_between_iff, DateTime.stored_lt_stored_iff ht (storable_first real),
    DateTime.stored_lt_stored_iff (storable_last real) ht, contains_iff ht.valid]

/-! ### Clauses with a limit -/

namespace DateClause

/-- The month that a clause is limited to: `monthnum` counts where `month` is not set. -/
def monthOf (clause : Fields) : Param :=
  if Param.isSet (clause.get? "month") then clause.get? "month" else clause.get? "monthnum"

/-- A clause is limited to a span, of which it names the parts, and is not bounded otherwise. -/
structure IsLimitedTo (clause : Fields) (P : DateSpan) : Prop where
  parts : P.Parts (clause.get? "year") (monthOf clause) (clause.get? "day")
  after : clause.get? "after" = none
  before : clause.get? "before" = none

variable {P : DateSpan} {clause : Fields}

/-- The limits of a clause are the edges of the span that it names. -/
theorem limits_of_isLimitedTo (real : P.IsReal) (h : IsLimitedTo clause P) :
    limits clause = some P.whole := by
  -- no year of a real span is zero, which would count as none
  have hyear : Param.isEmpty (clause.get? "year") = false := by
    have hparts := h.parts
    unfold DateSpan.IsReal at real
    cases P <;> exact hparts.1.isEmpty_eq (by omega)
  have hedge (atEnd : Bool) :
      edge (Period.ofParts (clause.get? "year") (monthOf clause) (clause.get? "day")) atEnd =
        (if atEnd then P.last else P.first).stored :=
    DateSpan.edge_ofParts real h.parts atEnd
  unfold limits
  rw [if_neg (by rw [hyear]; exact Bool.false_ne_true)]
  change some (Bounds.mk none
    (some (.text (edge (Period.ofParts _ (monthOf clause) _) false))) none
    (some (.text (edge (Period.ofParts _ (monthOf clause) _) true)))) = _
  rw [hedge, hedge]
  rfl

/-- A clause that is limited to a span is a range of its column. -/
theorem node_of_isLimitedTo (zone : TimeZone) (real : P.IsReal) (h : IsLimitedTo clause P)
    {column : Value} {field : String}
    (hcolumn : columnOr (clause.get? "column") column = .text field) :
    node zone clause column = .ok (some (.range field P.whole)) := by
  have hbounds : bounds zone clause = .ok {} := by
    rw [bounds_eq, h.after, h.before]
    cases isInclusive clause <;> rfl
  have hranges : ranges clause {} = [P.whole] := by
    unfold ranges
    rw [limits_of_isLimitedTo real h]
    rfl
  rw [node_eq, hbounds, hcolumn]
  change (if ranges clause {} = [] then _ else _) = _
  rw [hranges, if_neg (List.cons_ne_nil _ _)]
  rfl

end DateClause

/-- A query of one clause that is limited to a span asks for a range of the column of the clause. -/
theorem DateFilter.compile_of_isLimitedTo (zone : TimeZone) {P : DateSpan} (real : P.IsReal)
    {clause : Fields} (h : DateClause.IsLimitedTo clause P) {field : String}
    (hcolumn : DateClause.columnOr (clause.get? "column") (.text defaultDateColumn) =
      .text field) :
    compile (some (.list [.object clause])) zone =
      .ok { all := some (.must [.range field P.whole]) } := by
  unfold compile ofClauses
  dsimp only
  rw [nodes_cons_object, DateClause.node_of_isLimitedTo zone real h hcolumn]
  rfl

/-- A clause that is limited to a span asks for one range with both ends, and of the stored dates
this range admits exactly those whose parts are the ones that the span names. -/
theorem limitedTo_span_selects (zone : TimeZone) {P : DateSpan} (real : P.IsReal) :
    (∀ clause, DateClause.IsLimitedTo clause P →
      (∀ column field, DateClause.columnOr (clause.get? "column") column = .text field →
        DateClause.node zone clause column = .ok (some (.range field P.whole))) ∧
      ∀ field,
        DateClause.columnOr (clause.get? "column") (.text defaultDateColumn) = .text field →
          DateFilter.compile (some (.list [.object clause])) zone =
            .ok { all := some (.must [.range field P.whole]) }) ∧
    ∀ t : DateTime, t.Storable → (P.whole.Admits t.stored ↔ P.Contains t) := by
  refine ⟨fun clause h => ⟨fun column field hcolumn => ?_, fun field hcolumn => ?_⟩, ?_⟩
  · exact DateClause.node_of_isLimitedTo zone real h hcolumn
  · exact DateFilter.compile_of_isLimitedTo zone real h hcolumn
  · intro t ht
    exact DateSpan.admits_whole_iff real ht

/-- February of a century year that is no leap year ends on its 28th day. -/
theorem limitedTo_span_selects_february :
    let clause : Fields := [("year", .number (.finite 1900)), ("monthnum", .text "02")]
    let range : Bounds :=
      { gte := some (.text "1900-02-01 00:00:00"), lte := some (.text "1900-02-28 23:59:59") }
    (DateSpan.month 1900 2).IsReal ∧ DateClause.IsLimitedTo clause (.month 1900 2) ∧
      DateFilter.compile (some (.list [.object clause])) =
        .ok { all := some (.must [.range "comment_date_gmt" range]) } ∧
      (range.Admits "1900-03-01 00:00:00" ↔
        (DateSpan.month 1900 2).Contains ⟨1900, 3, 1, 0, 0, 0⟩) := by
  intro clause range
  have real : (DateSpan.month 1900 2).IsReal := by
    unfold DateSpan.IsReal
    decide
  have hrange : (DateSpan.month 1900 2).whole = range := rfl
  have hdigits : IsDigits "02".toList := List.all_eq_true.1 rfl
  have hlimited : DateClause.IsLimitedTo clause (.month 1900 2) := by
    refine ⟨⟨.inl ?_, .inr ⟨"02", rfl, by decide, hdigits, by decide⟩, rfl⟩, rfl, rfl⟩
    norm_num [clause, Fields.get?]
  have hstorable : DateTime.Storable ⟨1900, 3, 1, 0, 0, 0⟩ :=
    ⟨⟨by decide, by decide, by decide, by decide, by decide⟩, by decide⟩
  have hstored : DateTime.stored ⟨1900, 3, 1, 0, 0, 0⟩ = "1900-03-01 00:00:00" := rfl
  obtain ⟨hcompile, hmeaning⟩ := limitedTo_span_selects .universal real
  rw [← hrange, ← hstored]
  exact ⟨real, hlimited, (hcompile clause hlimited).2 _ rfl, hmeaning _ hstorable⟩

end CommentSearch
