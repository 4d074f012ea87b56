import CommentSearch.Proofs.Session
import CommentSearch.Proofs.WidenedStatus

/-!
# Second names

Two parameters of a request have a second name: `page` stands for `paged` where that is not set, and
`order_by` for `orderby` where that is empty. Resolving them changes nothing in a resolved request
(`normalize_of_isResolved`), and a request compiles to what its resolved parameters compile to: what
stands under the second names does not count any more (`SameResolved.compilesLike`).

So a second name is another name and no more (`second_names_rename`). The two tests for a missing
parameter are told apart by nothing but `missing`, the test itself.
-/

namespace CommentSearch

/-- Two objects have the same values under all keys but one. -/
def Fields.AgreeOff (name : String) (fields others : Fields) : Prop :=
  ∀ other, other ≠ name → fields.get? other = others.get? other

/-! ### What counts -/

namespace Param

/-- The parameter that counts of one under its first name and one under its second. -/
def counted (missing : Param → Bool) (p second : Param) : Param :=
  if missing p = true ∧ missing second = false then second else p

section

variable {missing : Param → Bool} {p : Param}

theorem counted_of_not_missing (h : missing p = false) (second : Param) :
    counted missing p second = p := by
  apply if_neg
  simp [h]

theorem counted_of_missing {second : Param} (h : missing p = true)
    (hsecond : missing second = false) : counted missing p second = second :=
  if_pos ⟨h, hsecond⟩

/-- A parameter counts under its second name as it does under the first. -/
theorem countsLike_counted (h : missing p = true) (hnone : missing none = true) (second : Param) :
    CountsLike missing (counted missing p second) (counted missing second none) := by
  have hlast : counted missing second none = second := by
    apply if_neg
    simp [hnone]
  rw [hlast]
  cases hsecond : missing second with
  | false => exact .inl (counted_of_missing h hsecond)
  | true =>
    have hfirst : counted missing p second = p := by
      apply if_neg
      simp [hsecond]
    rw [hfirst]
    exact .inr ⟨h, hsecond⟩

end

end Param

namespace Request

variable {r r' : Request}

theorem get?_normalize_paged_eq (r : Request) : r.normalize.get? "paged" =
    Param.counted (fun p => !p.isSet) (r.get? "paged") (r.get? "page") := by
  rw [get?_normalize_paged, Param.counted]
  simp

theorem get?_normalize_orderby_eq (r : Request) : r.normalize.get? "orderby" =
    Param.counted Param.isEmpty (r.get? "orderby") (r.get? "order_by") :=
  get?_normalize_orderby r

/-! ### Resolved requests -/

/-- A request in which no second name stands for a name that is missing. -/
structure IsResolved (r : Request) : Prop where
  paged : Param.isSet (r.get? "page") = true → Param.isSet (r.get? "paged") = true
  orderby : Param.isEmpty (r.get? "orderby") = true → Param.isEmpty (r.get? "order_by") = true

theorem resolve_eq_self {name second : String} {missing : Param → Bool}
    (h : missing (r.get? name) = true → missing (r.get? second) = true) :
    r.resolve name second missing = r := by
  unfold resolve
  cases hsecond : Fields.get? r second with
  | none => rfl
  | some v =>
    rw [hsecond] at h
    apply if_neg
    simpa using h

theorem normalize_of_isResolved (h : r.IsResolved) : r.normalize = r := by
  have hpaged : (r.resolve "paged" "page" fun p => !p.isSet) = r := by
    apply resolve_eq_self
    simpa using mt h.paged
  rw [normalize_eq, hpaged, resolve_eq_self h.orderby]

theorem isResolved_normalize (r : Request) : r.normalize.IsResolved where
  paged := by
    rw [get?_normalize r (by decide) (by decide), get?_normalize_paged]
    intro hpage
    split
    · exact hpage
    · rename_i hset
      simpa [hpage] using hset
  orderby := by
    have hsecond : r.normalize.get? "order_by" = r.get? "order_by" :=
      get?_normalize r (by decide) (by decide)
    rw [hsecond, get?_normalize_orderby]
    split
    · rename_i hboth
      simp [hboth.2]
    · rename_i hempty
      intro horderby
      simpa [horderby] using hempty

/-- Second names are resolved once. -/
theorem normalize_normalize (r : Request) : r.normalize.normalize = r.normalize :=
  normalize_of_isResolved (isResolved_normalize r)

/-! ### Requests that compile alike -/

/-- Two requests compile alike: with any options, in any session, with the same result and with the
same session left. -/
def CompilesLike (r r' : Request) : Prop :=
  ∀ options : Fields → CompileOptions, Work.compile r options = Work.compile r' options

/-- Two requests are the same once second names are resolved: the same counts under each of the two
names that have a second one, and all other parameters are the same. -/
structure SameResolved (r r' : Request) : Prop where
  paged :
    Param.CountsLike (fun p => !p.isSet) (r.normalize.get? "paged") (r'.normalize.get? "paged")
  orderby :
    Param.CountsLike Param.isEmpty (r.normalize.get? "orderby") (r'.normalize.get? "orderby")
  others : ∀ name ∉ ["paged", "page", "orderby", "order_by"], r.get? name = r'.get? name

namespace SameResolved

theorem agreeOn (h : SameResolved r r') {names : List String}
    (hnames : ∀ name ∈ names, name ∉ ["paged", "page", "orderby", "order_by"]) :
    Fields.AgreeOn names r r' :=
  fun name hname => h.others name (hnames name hname)

theorem agreeOn_normalize (h : SameResolved r r') {names : List String}
    (hnames : ∀ name ∈ names, name ∉ ["paged", "page", "orderby", "order_by"]) :
    Fields.AgreeOn names r.normalize r'.normalize := by
  refine Request.agreeOn_normalize (h.agreeOn hnames) (fun _ => id) ?_ ?_
  · intro hmem
    exact absurd (hnames _ hmem) (by decide)
  · intro hmem
    exact absurd (hnames _ hmem) (by decide)

/-- No filter reads a parameter that has a second name. -/
theorem contributions_eq (h : SameResolved r r') (c : Collaborators) :
    r.contributions c = r'.contributions c := by
  refine mapM_congr_of_forall fun f hf => f.contribution_congr c (h.agreeOn fun name hname => ?_)
  have hnone : ∀ other ∈ parameterGroups.flatten,
      other ∉ ["paged", "page", "orderby", "order_by"] := by
    decide
  exact hnone name (mem_flatten_parameterGroups hf hname)

theorem compile_eq (h : SameResolved r r') (o : CompileOptions) : r.compile o = r'.compile o := by
  rw [Request.compile_eq, Request.compile_eq, h.contributions_eq,
    window_of_countsLike (h.agreeOn_normalize (by decide)) h.paged,
    sort_of_countsLike (h.agreeOn_normalize (by decide)) h.orderby,
    query_of_agreeOn (h.agreeOn_normalize (by decide)),
    idsOnly_of_agreeOn (h.agreeOn_normalize (by decide))]

theorem compilesLike (h : SameResolved r r') : r.CompilesLike r' := by
  intro options
  have hsearch := h.others "search" (by decide)
  unfold Work.compile
  simp only [h.compile_eq, hsearch]

end SameResolved

/-! ### The names and their second names -/

theorem sameResolved_normalize (r : Request) : SameResolved r.normalize r where
  paged := by
    rw [normalize_normalize]
    exact .inl rfl
  orderby := by
    rw [normalize_normalize]
    exact .inl rfl
  others := by
    intro name hname
    simp only [List.mem_cons, List.not_mem_nil, or_false, not_or] at hname
    exact get?_normalize r hname.1 hname.2.2.1

/-- Requests that differ in the page only, under one name or the other. -/
theorem sameResolved_of_pages
    (h : ∀ name, name ≠ "paged" → name ≠ "page" → r.get? name = r'.get? name)
    (hpaged : Param.CountsLike (fun p => !p.isSet)
      (Param.counted (fun p => !p.isSet) (r.get? "paged") (r.get? "page"))
      (Param.counted (fun p => !p.isSet) (r'.get? "paged") (r'.get? "page"))) :
    SameResolved r r' where
  paged := by
    rw [get?_normalize_paged_eq, get?_normalize_paged_eq]
    exact hpaged
  orderby := by
    have hfirst := h "orderby" (by decide) (by decide)
    have hsecond := h "order_by" (by decide) (by decide)
    rw [get?_normalize_orderby_eq, get?_normalize_orderby_eq, hfirst, hsecond]
    exact .inl rfl
  others := by
    intro name hname
    simp only [List.mem_cons, List.not_mem_nil, or_false, not_or] at hname
    exact h name hname.1 hname.2.1

/-- Requests that differ in the sort alias only, under one name or the other. -/
theorem sameResolved_of_aliases
    (h : ∀ name, name ≠ "orderby" → name ≠ "order_by" → r.get? name = r'.get? name)
    (horderby : Param.CountsLike Param.isEmpty
      (Param.counted Param.isEmpty (r.get? "orderby") (r.get? "order_by"))
      (Param.counted Param.isEmpty (r'.get? "orderby") (r'.get? "order_by"))) :
    SameResolved r r' where
  paged := by
    have hfirst := h "paged" (by decide) (by decide)
    have hsecond := h "page" (by decide) (by decide)
    rw [get?_normalize_paged_eq, get?_normalize_paged_eq, hfirst, hsecond]
    exact .inl rfl
  orderby := by
    rw [get?_normalize_orderby_eq, get?_normalize_orderby_eq]
    exact horderby
  others := by
    intro name hname
    simp only [List.mem_cons, List.not_mem_nil, or_false, not_or] at hname
    exact h name hname.2.2.1 hname.2.2.2

/-- A second name is another name for a parameter that is missing, and counts for nothing where the
parameter is not missing: a value that is moved from the one name to the other compiles alike, as
does one that is not missing itself if it is given under the one or the other. -/
structure IsSecondName (name second : String) (missing : Param → Bool) : Prop where
  moved : ∀ (r : Request) (v : Value), missing (r.get? name) = true →
    CompilesLike (r.set second v) ((Fields.without r second).set name v)
  given : ∀ (r : Request) (v : Value), missing (r.get? name) = true → missing (some v) = false →
    CompilesLike (r.set second v) (r.set name v)
  ignored : ∀ r r' : Request, missing (r.get? name) = false → Fields.AgreeOff second r r' →
    r.CompilesLike r'

/-- A name is a second one if what counts of the two is all that a compilation reads of them. -/
theorem isSecondName_of_sameResolved {name second : String} {missing : Param → Bool}
    (hne : name ≠ second) (hnone : missing none = true)
    (hsame : ∀ {r r' : Request},
      (∀ other, other ≠ name → other ≠ second → r.get? other = r'.get? other) →
      Param.CountsLike missing (Param.counted missing (r.get? name) (r.get? second))
        (Param.counted missing (r'.get? name) (r'.get? second)) → SameResolved r r') :
    IsSecondName name second missing where
  moved := by
    intro r v hmissing
    apply SameResolved.compilesLike
    apply hsame
    · intro other hname hsecond
      rw [Fields.get?_set, Fields.get?_set, Fields.get?_without, if_neg hsecond, if_neg hname,
        if_neg hsecond]
    · have hcounts := Param.countsLike_counted hmissing hnone (some v)
      simpa [Fields.get?_set, Fields.get?_without, hne, hne.symm] using hcounts
  given := by
    intro r v hmissing hv
    apply SameResolved.compilesLike
    apply hsame
    · intro other hname hsecond
      rw [Fields.get?_set, Fields.get?_set, if_neg hsecond, if_neg hname]
    · have hsecond : Param.counted missing (r.get? name) (some v) = some v :=
        Param.counted_of_missing hmissing hv
      have hfirst : Param.counted missing (some v) (r.get? second) = some v :=
        Param.counted_of_not_missing hv _
      simp [Fields.get?_set, hne, hne.symm, hsecond, hfirst, Param.CountsLike]
  ignored := by
    intro r r' hmissing hoff
    apply SameResolved.compilesLike
    apply hsame
    · intro other _ hsecond
      exact hoff other hsecond
    · rw [← hoff name hne, Param.counted_of_not_missing hmissing,
        Param.counted_of_not_missing hmissing]
      exact .inl rfl

/-- Second names are no more than other names. Resolving them a second time changes nothing, a
request compiles like the one in which they are resolved, and `page` is a second name of `paged`, as
`order_by` is of `orderby`: the one counts where the other is not set, and where it is empty. -/
theorem second_names_rename :
    (∀ r : Request, r.normalize.normalize = r.normalize ∧ r.normalize.CompilesLike r) ∧
      IsSecondName "paged" "page" (fun p => !p.isSet) ∧
      IsSecondName "orderby" "order_by" Param.isEmpty := by
  refine ⟨fun r => ⟨normalize_normalize r, (sameResolved_normalize r).compilesLike⟩, ?_, ?_⟩
  · exact isSecondName_of_sameResolved (by decide) rfl sameResolved_of_pages
  · exact isSecondName_of_sameResolved (by decide) rfl sameResolved_of_aliases

/-- The third page and a sort by the identifier under both names, and a page that does not count. -/
theorem second_names_rename_thirdPage :
    let r : Request := [("number", .number (.finite 10))]
    let third : Value := .number (.finite 3)
    let key : Value := .text "comment_ID"
    Param.isSet (r.get? "paged") = false ∧ Param.isSet (some third) = true ∧
      CompilesLike (r.set "page" third) (r.set "paged" third) ∧
      CompilesLike (r.set "paged" third) ((r.set "paged" third).set "page" .null) ∧
      Param.isEmpty (r.get? "orderby") = true ∧ Param.isEmpty (some key) = false ∧
      CompilesLike (r.set "order_by" key) (r.set "orderby" key) := by
  intro r third key
  obtain ⟨-, hpaged, horderby⟩ := second_names_rename
  have hset : Param.isSet (Fields.get? (r.set "paged" third) "paged") = true := by decide
  refine ⟨by decide, by decide, hpaged.given r third (by decide) (by decide), ?_, by decide,
    by decide, horderby.given r key (by decide) (by decide)⟩
  apply hpaged.ignored
  · simp [hset]
  · intro other hother
    rw [Fields.get?_set _ "page", if_neg hother]

end Request

end CommentSearch
