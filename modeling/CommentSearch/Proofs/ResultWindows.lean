import CommentSearch.Proofs.AcceptedRequest
import CommentSearch.Proofs.Digits
import CommentSearch.Proofs.RoundedIntegers

/-!
# Windows of results

The window of a request in closed form (`window_normalize_eq`): its size is the number that is asked
for, and it starts behind the pages before the one that is asked for, or else at the offset.

A text of many digits is read as an infinity, and the size is multiplied by the pages, so that a
window can have a size or a start that is no natural number. `window_isCount_iff` says exactly where
it has: the size is one unless a text beyond the range of numbers asks for it, and the start is one
unless such a text is the offset, or too many results are before the page. The start is not a number
at all where a window of size zero is behind infinitely many pages (`window_start_nan`).
-/

namespace CommentSearch

open Number (rangeEnd two_zpow_pos)

/-! ### Integers of parameters -/

namespace Param

/-- The integer that a parameter stands for before it is rounded: the integer part of a number, the
integer at the start of a text, however many digits it has, one for `true` and for a list with
items, and zero for all else. -/
def exactInt : Param → Int
  | some (.number x) => x.toInt?.getD 0
  | some (.bool b) => if b then 1 else 0
  | some (.text s) => (Number.leadingInt? s).getD 0
  | some (.list items) => if items.isEmpty then 0 else 1
  | _ => 0

/-- A text that starts with an integer beyond the range of numbers. -/
def IsBeyondNumbers (p : Param) : Prop := (∃ s, p = some (.text s)) ∧ rangeEnd ≤ p.exactInt

/-- Only the integers of texts are rounded. -/
theorem toInt_eq (p : Param) : (¬∃ s, p = some (.text s)) ∧ p.toInt = .finite p.exactInt ∨
    (∃ s, p = some (.text s)) ∧ p.toInt = .ofInt p.exactInt := by
  by_cases htext : ∃ s, p = some (.text s)
  · obtain ⟨s, rfl⟩ := htext
    exact .inr ⟨⟨s, rfl⟩, rfl⟩
  · refine .inl ⟨htext, ?_⟩
    cases p with
    | none => simp [toInt, exactInt]
    | some v =>
      cases v with
      | null | object => simp [toInt, exactInt]
      | bool b => cases b <;> simp [toInt, exactInt]
      | list items => cases items <;> simp [toInt, exactInt]
      | number x =>
        cases x with
        | finite q => rfl
        | nan | infinite => simp [toInt, exactInt, Number.isFinite, Number.toInt?]
      | text s => exact absurd ⟨s, rfl⟩ htext

theorem isWhole_toInt (p : Param) : p.toInt.IsWhole := by
  rcases p.toInt_eq with ⟨-, heq⟩ | ⟨-, heq⟩
  · exact .inl ⟨_, heq⟩
  · rw [heq]
    exact Number.isWhole_ofInt _

/-- Integers up to the first one of 54 binary digits are exact in every form. -/
theorem toInt_of_natAbs_le {p : Param} (h : p.exactInt.natAbs ≤ 2 ^ 53) :
    p.toInt = .finite p.exactInt := by
  rcases p.toInt_eq with ⟨-, heq⟩ | ⟨-, heq⟩
  · exact heq
  · rw [heq, Number.ofInt_of_natAbs_le h]

/-- The integer of a parameter is on its side of every small integer. -/
theorem lt_toInt_iff {a : Int} (ha : a.natAbs < 2 ^ 53) (p : Param) :
    Number.lt (.finite a) p.toInt = true ↔ a < p.exactInt := by
  rcases p.toInt_eq with ⟨-, heq⟩ | ⟨-, heq⟩
  · rw [heq]
    simp [Number.lt]
  · rw [heq, Number.lt_ofInt_iff ha]

/-- The integer of a parameter, raised to zero, is a natural number unless it is too large. -/
theorem isCount_toInt_iff (p : Param) : p.toInt.atLeastZero.IsCount ↔ ¬p.IsBeyondNumbers := by
  unfold IsBeyondNumbers
  rcases p.toInt_eq with ⟨hform, heq⟩ | ⟨hform, heq⟩
  · rw [heq, Number.atLeastZero_finite_intCast]
    exact iff_of_true ⟨_, rfl⟩ fun h => hform h.1
  · rw [heq, Number.isCount_atLeastZero_ofInt_iff, not_and, not_le]
    exact ⟨fun h _ => h, fun h => h hform⟩

/-- Texts beyond the range of numbers are read as the positive infinity. -/
theorem toInt_of_isBeyondNumbers {p : Param} (h : p.IsBeyondNumbers) :
    p.toInt = .infinite false := by
  have hbeyond : ¬p.toInt.atLeastZero.IsCount := fun hcount => (isCount_toInt_iff p).1 hcount h
  rcases p.isWhole_toInt with ⟨n, hn⟩ | ⟨negative, hinfinite⟩
  · rw [hn, Number.atLeastZero_finite_intCast] at hbeyond
    exact absurd ⟨_, rfl⟩ hbeyond
  · cases negative with
    | false => exact hinfinite
    | true =>
      rw [hinfinite] at hbeyond
      exact absurd Number.isCount_zero hbeyond

/-- A text of digits is beyond the range of numbers where there are 310 of them, the first of which
is not zero. -/
theorem isBeyondNumbers_of_isDigits {s : String} {c : Char} {cs : List Char}
    (hs : s.toList = c :: cs) (hdigits : IsDigits (c :: cs)) (hc : c ≠ '0')
    (hlength : 309 ≤ cs.length) : IsBeyondNumbers (some (.text s)) := by
  have hvalue : exactInt (some (.text s)) = Decimal.digitsValue (c :: cs) := by
    rw [exactInt, leadingInt?_of_isDigits (by simp [hs]) (hs ▸ hdigits), Option.getD_some, hs]
  have hfirst : 1 ≤ c.toNat - 48 := by
    obtain ⟨⟨hlow, -⟩, -⟩ := isDigits_cons_iff.1 hdigits
    have hzero : c.toNat ≠ 48 := fun h => hc (Char.toNat_inj.1 h)
    omega
  have hlarge : 2 ^ 1024 ≤ Decimal.digitsValue (c :: cs) := calc
    2 ^ 1024 ≤ 10 ^ 309 := by decide +kernel
    _ ≤ 10 ^ cs.length := Nat.pow_le_pow_right (by decide) hlength
    _ ≤ 10 ^ cs.length * (c.toNat - 48) := Nat.le_mul_of_pos_right _ hfirst
    _ ≤ Decimal.digitsValue (c :: cs) := by
      rw [digitsValue_cons]
      exact Nat.le_add_right _ _
  have hcast : (2 : Rat) ^ (1024 : Int) ≤ Decimal.digitsValue (c :: cs) := by
    rw [zpow_ofNat]
    exact_mod_cast hlarge
  refine ⟨⟨s, rfl⟩, ?_⟩
  rw [hvalue, Int.cast_natCast]
  exact (sub_le_self _ (two_zpow_pos 970).le).trans hcast

/-- An empty parameter stands for zero. -/
theorem exactInt_of_isEmpty {p : Param} (h : p.isEmpty = true) : p.exactInt = 0 := by
  cases p with
  | none => rfl
  | some v =>
    cases v with
    | null | object => rfl
    | bool b => simp_all [isEmpty, exactInt]
    | list items => simp_all [isEmpty, exactInt]
    | number x =>
      cases x with
      | finite q =>
        have hzero : q = 0 := by simpa [isEmpty, Number.isZero, Number.isNaN] using h
        rw [hzero]
        rfl
      | nan | infinite => rfl
    | text s =>
      have hs : s = "" ∨ s = "0" := by simpa [isEmpty] using h
      rcases hs with rfl | rfl
      · rfl
      · decide

theorem toInt_of_isEmpty {p : Param} (h : p.isEmpty = true) : p.toInt = .finite 0 := by
  have hzero := exactInt_of_isEmpty h
  rw [toInt_of_natAbs_le (by rw [hzero]; decide), hzero, Int.cast_zero]

/-- A parameter that is not set stands for zero. -/
theorem toInt_of_isSet_eq_false {p : Param} (h : p.isSet = false) : p.toInt = .finite 0 := by
  cases p with
  | none => rfl
  | some v =>
    cases v with
    | null => rfl
    | bool | number | text | list | object => cases h

end Param

/-! ### Sizes and pages -/

namespace Request

/-- The page that a request asks for: `page` stands for `paged` where that is not set. -/
def page (r : Request) : Param :=
  if Param.isSet (r.get? "paged") then r.get? "paged" else r.get? "page"

/-- The size that a request asks for, before it is raised to zero. -/
def askedSize (r : Request) (maxSize : Number) : Number :=
  if Param.isEmpty (r.get? "number") then maxSize else Param.toInt (r.get? "number")

/-- How many pages are before the one that a request asks for. -/
def pagesBefore (r : Request) : Number := r.page.toInt.add (.finite (-1))

/-- How many results are before the page that a request asks for. -/
def resultsBefore (r : Request) (maxSize : Number) : Number :=
  (r.askedSize maxSize).mul r.pagesBefore

/-- Whether a request asks for a page after the first, and for no offset. -/
def startsAtPage (r : Request) : Bool :=
  Param.isEmpty (r.get? "offset") && Number.lt (.finite 1) r.page.toInt

variable {r : Request}

/-- A request reads its page under the name `paged` once its second names are resolved. -/
theorem toInt_normalize_paged (r : Request) :
    Param.toInt (r.normalize.get? "paged") = r.page.toInt := by
  rw [get?_normalize_paged]
  unfold page
  by_cases hpaged : Param.isSet (r.get? "paged") = true
  · rw [if_pos hpaged, if_neg fun h => absurd hpaged (by rw [h.1]; decide)]
  rw [Bool.not_eq_true] at hpaged
  by_cases hpage : Param.isSet (r.get? "page") = true
  · rw [if_pos ⟨hpaged, hpage⟩, if_neg (by rw [hpaged]; decide)]
  · -- neither is set, and both stand for zero
    rw [Bool.not_eq_true] at hpage
    rw [if_neg fun h => absurd h.2 (by rw [hpage]; decide), if_neg (by rw [hpaged]; decide),
      Param.toInt_of_isSet_eq_false hpaged, Param.toInt_of_isSet_eq_false hpage]

/-- The window of a request in closed form. -/
theorem window_normalize_eq (r : Request) (maxSize : Number) : r.normalize.window maxSize =
    ⟨(if r.startsAtPage then r.resultsBefore maxSize
      else Param.toInt (r.get? "offset")).atLeastZero, (r.askedSize maxSize).atLeastZero⟩ := by
  have hnumber : r.normalize.get? "number" = r.get? "number" :=
    get?_normalize r (by decide) (by decide)
  have hoffset : r.normalize.get? "offset" = r.get? "offset" :=
    get?_normalize r (by decide) (by decide)
  have hunset : (if Param.isSet (r.get? "offset") then Param.toInt (r.get? "offset")
      else .finite 0) = Param.toInt (r.get? "offset") := by
    split
    · rfl
    · rename_i h
      rw [Bool.not_eq_true] at h
      rw [Param.toInt_of_isSet_eq_false h]
  have hpaged : (Param.isSet (r.normalize.get? "paged") && Param.isEmpty (r.get? "offset") &&
      Number.lt (.finite 1) r.page.toInt) = r.startsAtPage := by
    unfold startsAtPage
    cases hset : Param.isSet (r.normalize.get? "paged") with
    | true => rw [Bool.true_and]
    | false =>
      -- a page that is not set stands for zero, and is not after the first
      have hzero : r.page.toInt = .finite 0 := by
        rw [← toInt_normalize_paged, Param.toInt_of_isSet_eq_false hset]
      have hfirst : Number.lt (.finite 1) (.finite 0) = false := by decide
      rw [hzero, hfirst, Bool.and_false, Bool.and_false]
  unfold window
  dsimp only
  rw [hnumber, hoffset, toInt_normalize_paged, hunset, hpaged]
  rfl

theorem isWhole_askedSize {maxSize : Number}
    (hmax : Param.isEmpty (r.get? "number") = true → maxSize.IsCount) :
    (r.askedSize maxSize).IsWhole := by
  unfold askedSize
  split
  · rename_i hempty
    exact (hmax hempty).isWhole
  · exact Param.isWhole_toInt _

theorem startsAtPage_iff : r.startsAtPage = true ↔
    Param.isEmpty (r.get? "offset") = true ∧ 1 < r.page.exactInt := by
  unfold startsAtPage
  rw [Bool.and_eq_true_iff]
  exact and_congr_right fun _ => Param.lt_toInt_iff (a := 1) (by decide) r.page

/-- The pages before one are the integer before that of the page, rounded, or an infinity. -/
theorem pagesBefore_cases (r : Request) :
    (∃ n : Int, r.page.toInt = .finite n ∧ r.pagesBefore = .ofInt (n - 1)) ∨
      ∃ negative, r.page.toInt = .infinite negative ∧ r.pagesBefore = .infinite negative := by
  unfold pagesBefore
  rcases r.page.isWhole_toInt with ⟨n, hn⟩ | ⟨negative, hinfinite⟩
  · have hsum := Number.add_finite_intCast_eq n (-1)
    rw [Int.cast_neg, Int.cast_one] at hsum
    exact .inl ⟨n, hn, by rw [hn, hsum, Int.sub_eq_add_neg]⟩
  · exact .inr ⟨negative, hinfinite, by rw [hinfinite]; rfl⟩

theorem isWhole_pagesBefore (r : Request) : r.pagesBefore.IsWhole := by
  rcases r.pagesBefore_cases with ⟨n, -, heq⟩ | ⟨negative, -, heq⟩
  · rw [heq]
    exact Number.isWhole_ofInt _
  · exact .inr ⟨negative, heq⟩

/-- There are pages before one that is after the first. -/
theorem pagesBefore_pos (h : r.startsAtPage = true) :
    Number.lt (.finite 0) r.pagesBefore = true := by
  have hafter : Number.lt (.finite 1) r.page.toInt = true := (Bool.and_eq_true_iff.1 h).2
  rcases r.pagesBefore_cases with ⟨n, hn, heq⟩ | ⟨negative, hinfinite, heq⟩
  · have hpage : 1 < n := by
      rw [hn] at hafter
      have hcast : (1 : Rat) < n := by simpa [Number.lt] using hafter
      exact_mod_cast hcast
    rw [heq]
    exact (Number.lt_ofInt_iff (a := 0) (by decide)).2 (by omega)
  · rw [hinfinite] at hafter
    rw [heq]
    exact hafter

/-- A window starts at a natural number or at the positive infinity, unless it has size zero and is
behind infinitely many pages. -/
theorem start_cases {maxSize : Number} (hmax : maxSize.IsCount) (r : Request) :
    (r.normalize.window maxSize).start.IsCount ∨
      (r.normalize.window maxSize).start = .infinite false ∨
      r.startsAtPage = true ∧ r.askedSize maxSize = .finite 0 ∧ r.pagesBefore = .infinite false ∧
        (r.normalize.window maxSize).start = .nan := by
  rw [window_normalize_eq]
  dsimp only
  cases hpage : r.startsAtPage with
  | false =>
    rw [if_neg (by decide)]
    exact (Param.isWhole_toInt _).atLeastZero_cases.imp_right .inl
  | true =>
    rw [if_pos rfl]
    unfold resultsBefore
    rcases Number.isWhole_mul (isWhole_askedSize fun _ => hmax) r.isWhole_pagesBefore
      (pagesBefore_pos hpage) with hwhole | ⟨hsize, hpages, hnan⟩
    · exact hwhole.atLeastZero_cases.imp_right .inl
    · exact .inr (.inr ⟨rfl, hsize, hpages, by rw [hnan]; rfl⟩)

/-- A window of size zero behind infinitely many pages starts at what is not a number. -/
theorem start_eq_nan {maxSize : Number} (hpage : r.startsAtPage = true)
    (hsize : r.askedSize maxSize = .finite 0) (hpages : r.pagesBefore = .infinite false) :
    (r.normalize.window maxSize).start = .nan := by
  rw [window_normalize_eq, if_pos hpage]
  unfold resultsBefore
  rw [hsize, hpages]
  rfl

/-- Where the window of a request is one of natural numbers: its size is one unless a text beyond
the range of numbers asks for it. Its start is one where no page is asked for and the offset is no
such text, or where the size is negative, or where size and page are in range and so are the
results before the page. A start that is no natural number is the positive infinity, or not a number
at all where a window of size zero is behind infinitely many pages. -/
theorem window_isCount_iff (r : Request) (n : Nat) :
    ((r.normalize.window (.finite n)).size.IsCount ↔ ¬Param.IsBeyondNumbers (r.get? "number")) ∧
    ((r.normalize.window (.finite n)).size.IsCount ∨
      (r.normalize.window (.finite n)).size = .infinite false) ∧
    ((r.normalize.window (.finite n)).start.IsCount ↔
      if r.startsAtPage then
        Number.lt (r.askedSize (.finite n)) (.finite 0) = true ∨
          ∃ size pages : Int, r.askedSize (.finite n) = .finite size ∧
            r.pagesBefore = .finite pages ∧ ((size * pages : Int) : Rat) < rangeEnd
      else ¬Param.IsBeyondNumbers (r.get? "offset")) ∧
    ((r.normalize.window (.finite n)).start.IsCount ∨
      (r.normalize.window (.finite n)).start = .infinite false ∨
      (r.normalize.window (.finite n)).start = .nan) ∧
    ((r.normalize.window (.finite n)).start = .nan ↔ r.startsAtPage = true ∧
      r.askedSize (.finite n) = .finite 0 ∧ r.pagesBefore = .infinite false) := by
  have hmax : (Number.finite n).IsCount := ⟨n, rfl⟩
  have hwindow := window_normalize_eq r (.finite n)
  refine ⟨?_, ?_, ?_, ?_, ?_⟩
  · rw [hwindow]
    dsimp only
    unfold askedSize
    split
    · rename_i hempty
      have hzero := Param.exactInt_of_isEmpty hempty
      refine iff_of_true ?_ fun h => absurd h.2 ?_
      · rw [← Int.cast_natCast, Number.atLeastZero_finite_intCast]
        exact ⟨_, rfl⟩
      · rw [hzero, Int.cast_zero]
        exact Number.rangeEnd_pos.not_ge
    · exact Param.isCount_toInt_iff _
  · rw [hwindow]
    exact (isWhole_askedSize fun _ => hmax).atLeastZero_cases
  · rw [hwindow]
    dsimp only
    cases hpage : r.startsAtPage with
    | false =>
      rw [if_neg (by decide), if_neg (by decide)]
      exact Param.isCount_toInt_iff _
    | true =>
      rw [if_pos rfl, if_pos rfl]
      exact Number.isCount_atLeastZero_mul_iff (isWhole_askedSize fun _ => hmax)
        r.isWhole_pagesBefore (pagesBefore_pos hpage)
  · exact (start_cases hmax r).imp_right (Or.imp_right fun h => h.2.2.2)
  · constructor
    · intro hnan
      rcases start_cases hmax r with hcount | hinfinite | ⟨hpage, hsize, hpages, -⟩
      · rw [hnan] at hcount
        exact absurd hcount Number.not_isCount_nan
      · rw [hnan] at hinfinite
        cases hinfinite
      · exact ⟨hpage, hsize, hpages⟩
    · rintro ⟨hpage, hsize, hpages⟩
      exact start_eq_nan hpage hsize hpages

/-- A request for a window of size zero, whose page is a text of four hundred digits. -/
def farEmptyPage : Request :=
  [("number", .text "00"), ("paged", .text (String.ofList (List.replicate 400 '9')))]

/-- The window of an accepted request can start at what is not a number. -/
theorem window_start_nan : farEmptyPage.Accepted ∧
    (farEmptyPage.normalize.window (.finite 10000)).start = .nan := by
  constructor
  · change Tool.compileQuery.schema.accepts (.object farEmptyPage) = true
    decide +kernel
  · have hbeyond : farEmptyPage.page.IsBeyondNumbers := by
      have hlist : (String.ofList (List.replicate 400 '9')).toList =
          '9' :: List.replicate 399 '9' := by
        rw [String.toList_ofList, List.replicate_succ]
      have hdigits : IsDigits ('9' :: List.replicate 399 '9') := by
        intro c hc
        rw [List.eq_of_mem_replicate (n := 400) hc]
        decide
      refine Param.isBeyondNumbers_of_isDigits hlist hdigits (by decide) ?_
      rw [List.length_replicate]
      decide
    have hinfinite := Param.toInt_of_isBeyondNumbers hbeyond
    have hsize : farEmptyPage.askedSize (.finite 10000) = .finite 0 := by
      have hnumber : farEmptyPage.get? "number" = some (.text "00") := rfl
      have hzero : Param.exactInt (some (.text "00")) = 0 := by decide
      unfold askedSize
      rw [hnumber, if_neg (by decide), Param.toInt_of_natAbs_le (by rw [hzero]; decide), hzero,
        Int.cast_zero]
    refine start_eq_nan ?_ hsize ?_
    · unfold startsAtPage
      rw [hinfinite]
      rfl
    · unfold pagesBefore
      rw [hinfinite]
      rfl

end Request

end CommentSearch
