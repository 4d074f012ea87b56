import CommentSearch.Proofs.SearchFields

/-!
# The parts of a compilation besides the filters

The window of results, the sort, the scoring query and the projection each depend on a few
parameters of the request (`window_congr`, `sort_congr`, `query_congr`, `idsOnly_congr`). Of those
that may be missing, only what is not missing counts (`window_of_countsLike`, `sort_of_countsLike`).

An accepted request always has a sort, of one clause at most (`exists_sort`), and its scoring query
fails only where the default search fields are no list (`fault_of_query`).
-/

namespace CommentSearch

/-- Two parameters count alike: they are the same, or both are missing. -/
def Param.CountsLike (missing : Param → Bool) (p p' : Param) : Prop :=
  p = p' ∨ missing p = true ∧ missing p' = true

namespace Request

variable {r r' : Request}

/-! ### Resolved requests -/

/-- Requests that agree on some parameters agree on them once second names are resolved, if they
agree on the second names of these as well. -/
theorem agreeOn_normalize {names fewer : List String} (h : Fields.AgreeOn names r r')
    (hfewer : ∀ name ∈ fewer, name ∈ names) (hpaged : "paged" ∈ fewer → "page" ∈ names)
    (horderby : "orderby" ∈ fewer → "order_by" ∈ names) :
    Fields.AgreeOn fewer r.normalize r'.normalize := by
  intro name hname
  have hsame := h name (hfewer name hname)
  by_cases hfirst : name = "paged"
  · subst hfirst
    rw [get?_normalize_paged, get?_normalize_paged, hsame, h "page" (hpaged hname)]
  by_cases hsecond : name = "orderby"
  · subst hsecond
    rw [get?_normalize_orderby, get?_normalize_orderby, hsame, h "order_by" (horderby hname)]
  · rw [get?_normalize r hfirst hsecond, get?_normalize r' hfirst hsecond, hsame]

/-! ### The window -/

/-- A page that is not set does not count for the window. -/
theorem window_of_countsLike (h : Fields.AgreeOn ["number", "offset"] r r')
    (hpaged : Param.CountsLike (fun p => !p.isSet) (r.get? "paged") (r'.get? "paged"))
    (maxSize : Number) : r.window maxSize = r'.window maxSize := by
  have hnumber := h "number" (by decide)
  have hoffset := h "offset" (by decide)
  unfold window
  rw [hnumber, hoffset]
  rcases hpaged with hsame | ⟨hunset, hunset'⟩
  · rw [hsame]
  · rw [Bool.not_eq_true'] at hunset hunset'
    simp only [hunset, hunset', Bool.false_and, if_neg Bool.false_ne_true]

/-- The parameters that the window of results depends on. -/
def windowParameters : List String := ["number", "offset", "paged", "page"]

theorem window_congr (h : Fields.AgreeOn windowParameters r r') (maxSize : Number) :
    r.normalize.window maxSize = r'.normalize.window maxSize := by
  have hagree : Fields.AgreeOn ["number", "offset", "paged"] r.normalize r'.normalize :=
    agreeOn_normalize h (by decide) (by decide) (by decide)
  exact window_of_countsLike (hagree.mono (by decide)) (.inl (hagree "paged" (by decide))) maxSize

/-! ### The sort -/

/-- The parameters that the sort depends on. -/
def sortParameters : List String := ["order", "orderby", "order_by", "meta_key"]

/-- The sort of a request by its alias, its direction and its key of metadata. -/
theorem sort_eq (r : Request) : r.sort =
    (if Param.isEmpty (r.get? "orderby") then pure defaultSortAlias
      else textForm (r.get? "orderby")) >>= fun sortKey =>
    SortClause.resolve sortKey (.text (Order.ofParam (r.get? "order")).name)
      (some (.object r)) := by
  unfold sort
  dsimp only
  split <;> rfl

/-- An alias that is empty does not count for the sort. -/
theorem sort_of_countsLike (h : Fields.AgreeOn ["order", "meta_key"] r r')
    (horderby : Param.CountsLike Param.isEmpty (r.get? "orderby") (r'.get? "orderby")) :
    r.sort = r'.sort := by
  have horder := h "order" (by decide)
  have hkey := h "meta_key" (by decide)
  rw [sort_eq, sort_eq]
  unfold SortClause.resolve
  -- the key of metadata is read again where the sort is by it
  simp only [fieldOf, Value.get?_object]
  rw [horder, hkey]
  rcases horderby with hsame | ⟨hempty, hempty'⟩
  · rw [hsame]
  · rw [if_pos hempty, if_pos hempty']

theorem sort_congr (h : Fields.AgreeOn sortParameters r r') :
    r.normalize.sort = r'.normalize.sort := by
  have hagree : Fields.AgreeOn ["order", "orderby", "meta_key"] r.normalize r'.normalize :=
    agreeOn_normalize h (by decide) (by decide) (by decide)
  exact sort_of_countsLike (hagree.mono (by decide)) (.inl (hagree "orderby" (by decide)))

/-- A sort has one clause at most, in the direction of the request. -/
theorem eq_of_sort {clauses : List SortClause} (h : r.sort = .ok clauses) : clauses = [] ∨
    ∃ field, clauses = [⟨field, .text (Order.ofParam (r.get? "order")).name⟩] := by
  rw [sort_eq] at h
  obtain ⟨sortKey, -, h⟩ := bind_eq_ok_iff.1 h
  unfold SortClause.resolve at h
  split at h
  · exact .inl (Except.ok.inj h).symm
  · split at h
    · exact .inr ⟨_, (Except.ok.inj h).symm⟩
    · split at h
      · exact .inr ⟨_, (Except.ok.inj h).symm⟩
      · obtain ⟨key, -, h⟩ := bind_eq_ok_iff.1 h
        split at h
        · exact .inl (Except.ok.inj h).symm
        · obtain ⟨form, -, h⟩ := bind_eq_ok_iff.1 h
          exact .inr ⟨_, (Except.ok.inj h).symm⟩

theorem exists_sort_of_isTextual (horderby : Param.IsTextual (r.get? "orderby"))
    (hkey : Param.IsTextual (r.get? "meta_key")) : ∃ clauses, r.sort = .ok clauses := by
  have hsortKey : ∃ sortKey, (if Param.isEmpty (r.get? "orderby") then pure defaultSortAlias
      else textForm (r.get? "orderby")) = (.ok sortKey : Except Fault String) := by
    split
    · exact ⟨_, rfl⟩
    · rename_i hempty
      obtain ⟨s, -, hform⟩ := horderby.textForm_eq (by simpa using hempty)
      exact ⟨s, hform⟩
  obtain ⟨sortKey, hsortKey⟩ := hsortKey
  rw [sort_eq, hsortKey]
  change ∃ clauses, SortClause.resolve sortKey _ _ = .ok clauses
  unfold SortClause.resolve
  split
  · exact ⟨_, rfl⟩
  · split
    · exact ⟨_, rfl⟩
    · split
      · exact ⟨_, rfl⟩
      · have hfield : fieldOf (some (.object r)) "meta_key" = .ok (r.get? "meta_key") := rfl
        rw [hfield]
        by_cases hempty : Param.isEmpty (r.get? "meta_key") = true
        · exact ⟨[], by simp [bind, Except.bind, hempty, pure, Except.pure]⟩
        · obtain ⟨s, -, hform⟩ := hkey.textForm_eq (by simpa using hempty)
          simp [bind, Except.bind, hempty, hform, pure, Except.pure]

theorem exists_sort_of_absent (h : r.get? "orderby" = none) : ∃ clauses, r.sort = .ok clauses := by
  rw [sort_eq, h]
  exact ⟨_, rfl⟩

theorem Accepted.exists_sort (h : r.Accepted) : ∃ clauses, r.normalize.sort = .ok clauses := by
  refine exists_sort_of_isTextual ?_ ?_
  · rw [get?_normalize_orderby]
    split
    · exact h.isTextual rfl
    · exact h.isTextual rfl
  · rw [get?_normalize r (by decide) (by decide)]
    exact h.isTextual rfl

/-! ### The scoring query -/

/-- The parameters that the scoring query depends on. -/
def queryParameters : List String := ["search", "search_fields"]

theorem query_of_agreeOn (h : Fields.AgreeOn queryParameters r r') (options : SearchOptions) :
    r.query options = r'.query options := by
  have hsearch := h "search" (by decide)
  have hfields := h "search_fields" (by decide)
  unfold query
  rw [hsearch, hfields]

theorem query_congr (h : Fields.AgreeOn queryParameters r r') (options : SearchOptions) :
    r.normalize.query options = r'.normalize.query options :=
  query_of_agreeOn (agreeOn_normalize h (by decide) (by decide) (by decide)) options

theorem query_of_absent (options : SearchOptions) (h : r.get? "search" = none) :
    r.query options = .ok .matchAll := by
  unfold query
  rw [h]
  rfl

/-- The selection of an accepted request only ever fails for the default fields. -/
theorem fault_of_searchFields {selection : Param} {defaults : Value} {e : Fault}
    (h : ∀ v, selection = some v → v = .null ∨ Schema.searchSelection.accepts v = true)
    (he : searchFields selection defaults = .error e) : itemsOf defaults = .error e := by
  cases selection with
  | none => exact he
  | some v =>
    rcases h v rfl with rfl | haccepts
    · exact he
    · obtain ⟨names, keys, hselects⟩ := exists_selects_of_accepts haccepts
      rw [searchFields_of_selects hselects] at he
      split at he
      · exact he
      · cases he

/-- The scoring query of an accepted request fails only where the default search fields are no
list. -/
theorem Accepted.fault_of_query (h : r.Accepted) {options : SearchOptions} {e : Fault}
    (he : r.normalize.query options = .error e) : itemsOf options.defaultFields = .error e := by
  unfold query at he
  rw [get?_normalize r (by decide) (by decide), get?_normalize r (by decide) (by decide)] at he
  dsimp only at he
  split at he
  · cases he
  · rename_i hempty
    have hwords : Param.IsTextual (r.get? "search") := h.isTextual rfl
    obtain ⟨s, -, hform⟩ := hwords.textForm_eq (by simpa using hempty)
    rw [hform] at he
    change searchQuery _ _ _ = .error e at he
    rcases bind_eq_error_iff.1 he with he | ⟨fields, -, he⟩
    · refine fault_of_searchFields (fun v hv => ?_) he
      split at hv
      · cases hv
      · have hparam : requestShape.lookup "search_fields" =
            some (true, .nullable .searchSelection) := rfl
        exact h.param hparam hv
    · cases he

/-! ### The projection -/

/-- The parameters that the projection depends on. -/
def projectionParameters : List String := ["fields"]

theorem idsOnly_of_agreeOn (h : Fields.AgreeOn projectionParameters r r') :
    r.idsOnly = r'.idsOnly := by
  have hfields := h "fields" (by decide)
  unfold idsOnly
  rw [hfields]

theorem idsOnly_congr (h : Fields.AgreeOn projectionParameters r r') :
    r.normalize.idsOnly = r'.normalize.idsOnly :=
  idsOnly_of_agreeOn (agreeOn_normalize h (by decide) (by decide) (by decide))

end Request

end CommentSearch
