import CommentSearch.Proofs.Fields
import CommentSearch.Proofs.ResultWindows

/-!
# Pages of results

The windows of the pages of a request. As long as the results before them stay below `2 ^ 53`, the
pages are behind each other with no gap and no overlap: page `k + 1` starts behind `k` windows of
the size (`window_of_isPage`), so that each position is on one page and on one only
(`existsUnique_shows`). A page before the first is the first (`window_of_lt_two`), and no page
matters where there is an offset (`start_of_offset`). `pages_tile` has it all.
-/

namespace CommentSearch

/-- The positions of a window of natural numbers. -/
def Window.Shows (w : Window) (i : Nat) : Prop :=
  ∃ start size : Nat, w = ⟨.finite start, .finite size⟩ ∧ start ≤ i ∧ i < start + size

theorem Window.shows_iff {start size i : Nat} :
    Window.Shows ⟨.finite start, .finite size⟩ i ↔ start ≤ i ∧ i < start + size := by
  constructor
  · rintro ⟨start', size', heq, hlow, hhigh⟩
    obtain ⟨hstart, hsize⟩ := Window.mk.inj heq
    obtain rfl : start = start' := by simpa using hstart
    obtain rfl : size = size' := by simpa using hsize
    exact ⟨hlow, hhigh⟩
  · rintro ⟨hlow, hhigh⟩
    exact ⟨start, size, rfl, hlow, hhigh⟩

namespace Request

/-! ### Pages -/

/-- The size that a request asks for, as an exact integer. -/
def exactSize (r : Request) (maxSize : Number) : Int :=
  if Param.isEmpty (r.get? "number") then maxSize.toInt?.getD 0
  else Param.exactInt (r.get? "number")

/-- The size of the window of a request, zero where that is no natural number. -/
def pageSize (r : Request) (maxSize : Number) : Nat :=
  match (r.askedSize maxSize).atLeastZero with
  | .finite q => q.num.toNat
  | _ => 0

/-- The results before the page of a request are less than `2 ^ 53`, as an exact product and as the
number that is computed. The two differ where the page is a text that is rounded: up to an infinity,
which times a size of zero is not a number. -/
structure FewBefore (r : Request) (maxSize : Number) : Prop where
  exact_lt : r.exactSize maxSize * (r.page.exactInt - 1) < 2 ^ 53
  computed_lt : Number.lt (r.resultsBefore maxSize) (.finite ((2 ^ 53 : Int) : Rat)) = true

/-- A request for a page of another request: one for as many results and the same offset. -/
structure IsPage (base : Request) (p : Nat) (r : Request) : Prop where
  agree : Fields.AgreeOn ["number", "offset"] base r
  page : r.page.exactInt = p

variable {base r r' : Request} {maxSize : Number}

theorem pageSize_eq {size : Nat} (h : (r.askedSize maxSize).atLeastZero = .finite size) :
    r.pageSize maxSize = size := by
  unfold pageSize
  rw [h]
  simp

theorem askedSize_congr (h : Fields.AgreeOn ["number", "offset"] r r') :
    r.askedSize maxSize = r'.askedSize maxSize := by
  unfold askedSize
  rw [h "number" (by decide)]

/-- The size is rounded where a text asks for it. -/
theorem askedSize_eq (hmax : Param.isEmpty (r.get? "number") = true → maxSize.IsCount) :
    r.askedSize maxSize = .finite (r.exactSize maxSize) ∨
      r.askedSize maxSize = .ofInt (r.exactSize maxSize) := by
  unfold askedSize exactSize
  split
  · rename_i hempty
    obtain ⟨n, rfl⟩ := hmax hempty
    exact .inl (by simp [Number.toInt?])
  · rcases Param.toInt_eq (r.get? "number") with ⟨-, heq⟩ | ⟨-, heq⟩
    · exact .inl heq
    · exact .inr heq

theorem askedSize_neg (hmax : Param.isEmpty (r.get? "number") = true → maxSize.IsCount)
    (hneg : r.exactSize maxSize < 0) : (r.askedSize maxSize).lt (.finite 0) = true := by
  rcases askedSize_eq hmax with heq | heq
  · rw [heq]
    simpa [Number.lt] using hneg
  · rw [heq]
    exact (Number.ofInt_lt_iff (a := 0) (by decide)).2 hneg

theorem not_startsAtPage_of_lt_two (h : r.page.exactInt < 2) : ¬r.startsAtPage = true := by
  rw [startsAtPage_iff]
  omega

/-- The window of a page before the second one starts at the first result. -/
theorem start_of_lt_two (hoffset : Param.isEmpty (r.get? "offset") = true)
    (hpage : r.page.exactInt < 2) : (r.normalize.window maxSize).start = .finite 0 := by
  rw [window_normalize_eq, if_neg (not_startsAtPage_of_lt_two hpage),
    Param.toInt_of_isEmpty hoffset]
  rfl

/-- The pages before one are counted exactly where there are not too many. -/
theorem pagesBefore_eq (hpos : 0 < r.page.exactInt) (hle : r.page.exactInt ≤ 2 ^ 53) :
    r.pagesBefore = .finite ((r.page.exactInt - 1 : Int) : Rat) := by
  have hsum := Number.add_finite_intCast_eq r.page.exactInt (-1)
  rw [Int.cast_neg, Int.cast_one, Number.ofInt_of_natAbs_le (by omega)] at hsum
  unfold pagesBefore
  rw [Param.toInt_of_natAbs_le (by omega), hsum, Int.sub_eq_add_neg]

/-- The size is no infinity where it is multiplied by zero. -/
theorem exists_size_of_first (hmax : Param.isEmpty (r.get? "number") = true → maxSize.IsCount)
    (hpage : r.page.exactInt = 1) (hfew : r.FewBefore maxSize) :
    ∃ size : Nat, (r.askedSize maxSize).atLeastZero = .finite size := by
  rcases isWhole_askedSize hmax with ⟨n, hn⟩ | ⟨negative, hinfinite⟩
  · exact ⟨n.toNat, by rw [hn, Number.atLeastZero_finite_intCast]⟩
  · cases negative with
    | true => exact ⟨0, by rw [hinfinite, Nat.cast_zero]; rfl⟩
    | false =>
      have hcomputed := hfew.computed_lt
      have hnone : r.pagesBefore = .finite 0 := by
        rw [pagesBefore_eq (by omega) (by omega), hpage]
        rfl
      unfold resultsBefore at hcomputed
      rw [hinfinite, hnone] at hcomputed
      cases hcomputed

/-- The results before a page are computed exactly, where the size is not negative. -/
theorem resultsBefore_eq (hmax : Param.isEmpty (r.get? "number") = true → maxSize.IsCount)
    (hpage : r.startsAtPage = true) (hsize : 0 ≤ r.exactSize maxSize)
    (hfew : r.FewBefore maxSize) :
    r.askedSize maxSize = .finite (r.exactSize maxSize) ∧ r.resultsBefore maxSize =
      .finite ((r.exactSize maxSize * (r.page.exactInt - 1) : Int) : Rat) := by
  have hafter := (startsAtPage_iff.1 hpage).2
  have hexact := hfew.exact_lt
  have hsmall : r.exactSize maxSize < 2 ^ 53 :=
    (le_mul_of_one_le_right hsize (by omega)).trans_lt hexact
  have hasked : r.askedSize maxSize = .finite (r.exactSize maxSize) := by
    rcases askedSize_eq hmax with heq | heq
    · exact heq
    · rw [heq, Number.ofInt_of_natAbs_le (by omega)]
  refine ⟨hasked, ?_⟩
  rcases hsize.eq_or_lt with hzero | hpos
  · -- nothing is before a page of size zero, unless there are infinitely many pages
    have hcomputed := hfew.computed_lt
    unfold resultsBefore at hcomputed ⊢
    rw [← hzero] at hasked ⊢
    rw [hasked] at hcomputed ⊢
    rcases r.isWhole_pagesBefore.pos_cases (pagesBefore_pos hpage) with ⟨n, -, heq⟩ | heq
    · rw [heq, Number.mul_finite_intCast_eq, zero_mul, zero_mul, Number.ofInt_of_natAbs_le]
      decide
    · rw [heq] at hcomputed
      cases hcomputed
  · have hpages : r.page.exactInt - 1 < 2 ^ 53 :=
      (le_mul_of_one_le_left (by omega) hpos).trans_lt hexact
    have hproduct : 0 ≤ r.exactSize maxSize * (r.page.exactInt - 1) :=
      mul_nonneg hsize (by omega)
    unfold resultsBefore
    rw [hasked, pagesBefore_eq (by omega) (by omega), Number.mul_finite_intCast_eq,
      Number.ofInt_of_natAbs_le (by omega)]

/-- A page after the first starts behind as many windows of the size as there are pages before
it. -/
theorem atLeastZero_resultsBefore
    (hmax : Param.isEmpty (r.get? "number") = true → maxSize.IsCount)
    (hstarts : r.startsAtPage = true) (hfew : r.FewBefore maxSize) {k : Nat}
    (hpage : r.page.exactInt = k + 1) : ∃ size : Nat,
      (r.askedSize maxSize).atLeastZero = .finite size ∧
      (r.resultsBefore maxSize).atLeastZero = .finite (k * size : Nat) := by
  rcases lt_or_ge (r.exactSize maxSize) 0 with hneg | hnonneg
  · have hasked : (r.askedSize maxSize).lt (.finite 0) = true := askedSize_neg hmax hneg
    have hbefore : (r.resultsBefore maxSize).lt (.finite 0) = true :=
      Number.mul_lt_zero (isWhole_askedSize hmax) hasked r.isWhole_pagesBefore
        (pagesBefore_pos hstarts)
    refine ⟨0, ?_, ?_⟩
    · rw [Number.atLeastZero_of_lt hasked, Nat.cast_zero]
    · rw [Number.atLeastZero_of_lt hbefore, Nat.mul_zero, Nat.cast_zero]
  · obtain ⟨hasked, hbefore⟩ := resultsBefore_eq hmax hstarts hnonneg hfew
    have hproduct : (r.exactSize maxSize * (r.page.exactInt - 1)).toNat =
        k * (r.exactSize maxSize).toNat := by
      rw [hpage, add_sub_cancel_right, Int.toNat_mul hnonneg (by omega), mul_comm]
      rfl
    refine ⟨(r.exactSize maxSize).toNat, ?_, ?_⟩
    · rw [hasked, Number.atLeastZero_finite_intCast]
    · rw [hbefore, Number.atLeastZero_finite_intCast, hproduct]

/-- A page of a request starts behind as many windows of the size as there are pages before it. -/
theorem window_of_isPage (hmax : Param.isEmpty (base.get? "number") = true → maxSize.IsCount)
    (hoffset : Param.isEmpty (base.get? "offset") = true) {k : Nat} (hr : base.IsPage (k + 1) r)
    (hfew : r.FewBefore maxSize) : r.normalize.window maxSize =
      ⟨.finite (k * base.pageSize maxSize : Nat), .finite (base.pageSize maxSize)⟩ := by
  rw [hr.agree "number" (by decide)] at hmax
  rw [hr.agree "offset" (by decide)] at hoffset
  have hpage : r.page.exactInt = k + 1 := by exact_mod_cast hr.page
  have hsizes {size : Nat} (h : (r.askedSize maxSize).atLeastZero = .finite size) :
      base.pageSize maxSize = size := by
    rw [← askedSize_congr hr.agree] at h
    exact pageSize_eq h
  cases k with
  | zero =>
    obtain ⟨size, hsize⟩ := exists_size_of_first hmax (by omega) hfew
    have hstart : (r.normalize.window maxSize).start = .finite 0 :=
      start_of_lt_two hoffset (by omega)
    rw [window_normalize_eq] at hstart ⊢
    rw [hsizes hsize, Nat.zero_mul, Nat.cast_zero]
    exact congrArg₂ Window.mk hstart hsize
  | succ k =>
    have hstarts : r.startsAtPage = true := startsAtPage_iff.2 ⟨hoffset, by omega⟩
    obtain ⟨size, hsize, hbefore⟩ := atLeastZero_resultsBefore hmax hstarts hfew hpage
    rw [window_normalize_eq, if_pos hstarts, hbefore, hsize, hsizes hsize]

/-- A page before the first is the first. -/
theorem window_of_lt_two (h : Fields.AgreeOn ["number", "offset"] r r')
    (hr : r.page.exactInt < 2) (hr' : r'.page.exactInt < 2) :
    r.normalize.window maxSize = r'.normalize.window maxSize := by
  rw [window_normalize_eq, window_normalize_eq, if_neg (not_startsAtPage_of_lt_two hr),
    if_neg (not_startsAtPage_of_lt_two hr'), askedSize_congr h, h "offset" (by decide)]

/-- A window starts at its offset where there is one. -/
theorem start_of_offset (h : Param.isEmpty (r.get? "offset") = false) :
    (r.normalize.window maxSize).start = (Param.toInt (r.get? "offset")).atLeastZero := by
  have hpage : ¬r.startsAtPage = true := fun hpage => by
    rw [(startsAtPage_iff.1 hpage).1] at h
    cases h
  rw [window_normalize_eq, if_neg hpage]

/-! ### Tiling -/

/-- Windows of one size, each behind those before it, show every position up to their end, and show
it once. -/
theorem existsUnique_shows {windows : Nat → Window} {count size : Nat}
    (h : ∀ k < count, windows k = ⟨.finite (k * size : Nat), .finite size⟩) (i : Nat) :
    i < count * size ↔ ∃! k, k < count ∧ (windows k).Shows i := by
  constructor
  · intro hi
    have hsize : 0 < size := Nat.pos_of_mul_pos_left (Nat.zero_lt_of_lt hi)
    refine ⟨i / size, ⟨(Nat.div_lt_iff_lt_mul hsize).2 hi, ?_⟩, ?_⟩
    · rw [h _ ((Nat.div_lt_iff_lt_mul hsize).2 hi), Window.shows_iff]
      exact ⟨Nat.div_mul_le_self i size, Nat.lt_div_mul_add hsize⟩
    · rintro k ⟨hk, hshows⟩
      rw [h k hk, Window.shows_iff, ← Nat.succ_mul] at hshows
      exact (Nat.div_eq_of_lt_le hshows.1 hshows.2).symm
  · rintro ⟨k, ⟨hk, hshows⟩, -⟩
    rw [h k hk, Window.shows_iff] at hshows
    calc
      i < k * size + size := hshows.2
      _ = (k + 1) * size := (Nat.succ_mul k size).symm
      _ ≤ count * size := Nat.mul_le_mul_right size hk

/-- The pages of a request, for a natural number of results where the request names none: without an
offset, page one starts at the first result, and with `k` pages before it a page starts behind `k`
windows of the one size. So the pages neither overlap nor leave a gap: each position up to the end
of the last is on one page, and on one only. An offset is the start whatever the page is, and a page
below two is the first. -/
theorem pages_tile (base : Request) (maxSize : Number)
    (hmax : Param.isEmpty (base.get? "number") = true → maxSize.IsCount) :
    (Param.isEmpty (base.get? "offset") = true →
      (∀ r, base.IsPage 1 r → (r.normalize.window maxSize).start = .finite 0) ∧
      ∃ size : Nat,
        (∀ k r, base.IsPage (k + 1) r → r.FewBefore maxSize →
          r.normalize.window maxSize = ⟨.finite (k * size : Nat), .finite size⟩) ∧
        ∀ (pages : Nat → Request) (count : Nat),
          (∀ k < count, base.IsPage (k + 1) (pages k) ∧ (pages k).FewBefore maxSize) →
          ∀ i, i < count * size ↔
            ∃! k, k < count ∧ ((pages k).normalize.window maxSize).Shows i) ∧
    (Param.isEmpty (base.get? "offset") = false →
      ∀ r : Request, Fields.AgreeOn ["offset"] base r →
        (r.normalize.window maxSize).start = (Param.toInt (base.get? "offset")).atLeastZero) ∧
    ∀ r r' : Request, base.IsPage 1 r → Fields.AgreeOn ["number", "offset"] base r' →
      r'.page.exactInt < 2 → r'.normalize.window maxSize = r.normalize.window maxSize := by
  refine ⟨fun hoffset => ⟨?_, ?_⟩, ?_, ?_⟩
  · intro r hr
    have hpage : r.page.exactInt = 1 := hr.page
    rw [hr.agree "offset" (by decide)] at hoffset
    exact start_of_lt_two hoffset (by omega)
  · have hwindow : ∀ k r, base.IsPage (k + 1) r → r.FewBefore maxSize →
        r.normalize.window maxSize =
          ⟨.finite (k * base.pageSize maxSize : Nat), .finite (base.pageSize maxSize)⟩ :=
      fun k r hr hfew => window_of_isPage hmax hoffset hr hfew
    refine ⟨base.pageSize maxSize, hwindow, fun pages count hpages => existsUnique_shows ?_⟩
    exact fun k hk => hwindow k _ (hpages k hk).1 (hpages k hk).2
  · intro hoffset r hr
    have hagree := hr "offset" (by decide)
    rw [hagree] at hoffset ⊢
    exact start_of_offset hoffset
  · intro r r' hr hr' hpage
    have hfirst : r.page.exactInt = 1 := hr.page
    exact window_of_lt_two
      (fun name hname => (hr' name hname).symm.trans (hr.agree name hname)) hpage (by omega)

/-- A request for twenty comments. -/
def twentyComments : Request := [("number", .number (.finite 20))]

/-- The request for the third page of them, under the second name of pages. -/
def thirdPage : Request := twentyComments ++ [("page", .text "3")]

/-- The third page of twenty comments starts at position forty. -/
theorem pages_tile_thirdPage : twentyComments.IsPage 3 thirdPage ∧
    thirdPage.FewBefore (.finite 0) ∧ thirdPage.normalize.window (.finite 0) =
      ⟨.finite (40 : Nat), .finite (20 : Nat)⟩ := by
  have hpage : twentyComments.IsPage 3 thirdPage := by
    refine ⟨?_, by decide⟩
    intro name hname
    simp only [List.mem_cons, List.not_mem_nil, or_false] at hname
    rcases hname with rfl | rfl <;> rfl
  have hfew : thirdPage.FewBefore (.finite 0) := ⟨by decide, by decide +kernel⟩
  obtain ⟨-, size, hwindow, -⟩ :=
    (pages_tile twentyComments (.finite 0) fun h => absurd h (by decide)).1 (by decide)
  have hthird := hwindow 2 thirdPage hpage hfew
  have hsize : (thirdPage.normalize.window (.finite 0)).size = .finite (20 : Nat) := by
    decide +kernel
  refine ⟨hpage, hfew, ?_⟩
  rw [hthird] at hsize ⊢
  obtain rfl : size = 20 := Nat.cast_injective (Number.finite.inj hsize)
  rfl

end Request

end CommentSearch
