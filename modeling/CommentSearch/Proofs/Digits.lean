import Mathlib.Algebra.Ring.Int.Defs
import Mathlib.Algebra.Ring.Nat
import Mathlib.Data.List.DropRight
import Mathlib.Data.List.TakeWhile
import CommentSearch.Calendar
import CommentSearch.Number.Literal

/-!
# Runs of decimal digits

The value of a run of digits, and the order of runs as texts. Runs of one length are in the order of
their values (`lt_iff_digitsValue_lt`), so numbers filled up to a common width are in the order of
the numbers (`padded_lt_padded_iff`).
-/

namespace CommentSearch

open Decimal (digitsValue)

/-! ### Blanks -/

/-- A text without blanks is what is left of it between blanks. -/
theorem trimChars_append {before cs after : List Char} (hne : cs ≠ [])
    (hbefore : ∀ c ∈ before, Text.isBlank c = true) (hcs : ∀ c ∈ cs, Text.isBlank c = false)
    (hafter : ∀ c ∈ after, Text.isBlank c = true) :
    Text.trimChars (before ++ (cs ++ after)) = cs := by
  have hdrop {ds rest : List Char} (hds : ds ≠ []) (hplain : ∀ c ∈ ds, Text.isBlank c = false) :
      (ds ++ rest).dropWhile Text.isBlank = ds ++ rest := by
    cases ds with
    | nil => exact absurd rfl hds
    | cons d ds =>
      exact List.dropWhile_cons_of_neg (by simp [hplain d List.mem_cons_self])
  unfold Text.trimChars Text.trimEndChars
  rw [List.dropWhile_append_of_pos hbefore, hdrop hne hcs, List.reverse_append,
    List.dropWhile_append_of_pos fun c hc => hafter c (List.mem_reverse.1 hc),
    ← List.append_nil cs.reverse,
    hdrop (by simpa using hne) fun c hc => hcs c (List.mem_reverse.1 hc), List.append_nil,
    List.reverse_reverse]

/-- A text without blanks stays as it is. -/
theorem trimChars_eq_self {cs : List Char} (hne : cs ≠ [])
    (hcs : ∀ c ∈ cs, Text.isBlank c = false) : Text.trimChars cs = cs := by
  have hbetween : Text.trimChars ([] ++ (cs ++ [])) = cs := trimChars_append hne nofun hcs nofun
  rwa [List.nil_append, List.append_nil] at hbetween

/-- A text is what is left of it between blanks, with the blanks. -/
theorem exists_blanks_trimChars (cs : List Char) : ∃ before after,
    (∀ c ∈ before, Text.isBlank c = true) ∧ (∀ c ∈ after, Text.isBlank c = true) ∧
      cs = before ++ (Text.trimChars cs ++ after) := by
  have blank {c : Char} {ds : List Char} (h : c ∈ ds.takeWhile Text.isBlank) :
      Text.isBlank c = true :=
    List.mem_takeWhile_imp h
  refine ⟨cs.takeWhile Text.isBlank,
    ((cs.dropWhile Text.isBlank).reverse.takeWhile Text.isBlank).reverse,
    fun c hc => blank hc, fun c hc => blank (List.mem_reverse.1 hc), ?_⟩
  unfold Text.trimChars Text.trimEndChars
  rw [← List.reverse_append, List.takeWhile_append_dropWhile, List.reverse_reverse,
    List.takeWhile_append_dropWhile]

/-- A text that is trimmed has no blanks at its ends. -/
theorem trimChars_trimChars (cs : List Char) :
    Text.trimChars (Text.trimChars cs) = Text.trimChars cs := by
  have htrim (ds : List Char) :
      Text.trimChars ds = (ds.dropWhile Text.isBlank).rdropWhile Text.isBlank := rfl
  have hstart : (Text.trimChars cs).dropWhile Text.isBlank = Text.trimChars cs := by
    cases hkept : Text.trimChars cs with
    | nil => rfl
    | cons c rest =>
      -- the first character that is kept is the first that is no blank
      obtain ⟨after, hafter⟩ : c :: rest <+: cs.dropWhile Text.isBlank := by
        rw [← hkept, htrim]
        exact List.rdropWhile_prefix Text.isBlank _
      have hhead := List.head?_dropWhile_not Text.isBlank cs
      rw [← hafter] at hhead
      exact List.dropWhile_cons_of_neg (by simpa using hhead)
  rw [htrim (Text.trimChars cs), hstart, htrim, List.rdropWhile_idempotent]

theorem isBlank_of_isDigit {c : Char} (h : 48 ≤ c.toNat ∧ c.toNat ≤ 57) :
    Text.isBlank c = false := by
  unfold Text.isBlank
  grind

/-! ### Values -/

/-- A text of decimal digits only. -/
def IsDigits (cs : List Char) : Prop := ∀ c ∈ cs, c.isDigit = true

theorem isDigits_cons_iff {c : Char} {cs : List Char} :
    IsDigits (c :: cs) ↔ (48 ≤ c.toNat ∧ c.toNat ≤ 57) ∧ IsDigits cs := by
  unfold IsDigits
  rw [List.forall_mem_cons, Char.isDigit_iff_toNat]
  rfl

theorem digitsValue_cons (c : Char) (cs : List Char) :
    digitsValue (c :: cs) = 10 ^ cs.length * (c.toNat - 48) + digitsValue cs := by
  unfold digitsValue
  rw [Nat.ofDigitChars_cons, Nat.ofDigitChars_eq_ofDigitChars_zero]
  simp

theorem digitsValue_lt {cs : List Char} (h : IsDigits cs) : digitsValue cs < 10 ^ cs.length := by
  induction cs with
  | nil => decide
  | cons c cs ih =>
    obtain ⟨hc, hcs⟩ := isDigits_cons_iff.1 h
    have hrest := ih hcs
    have hdigit : 10 ^ cs.length * (c.toNat - 48) ≤ 10 ^ cs.length * 9 :=
      Nat.mul_le_mul_left _ (by omega)
    rw [digitsValue_cons, List.length_cons, Nat.pow_succ]
    omega

/-- Zeros in front add nothing to the value. -/
theorem digitsValue_zeros_append (k : Nat) (cs : List Char) :
    digitsValue (List.replicate k '0' ++ cs) = digitsValue cs := by
  induction k with
  | zero => rfl
  | succ k ih =>
    rw [List.replicate_succ, List.cons_append, digitsValue_cons, ih]
    exact Nat.zero_add _

theorem digitsValue_toDigits (n : Nat) : digitsValue (Nat.toDigits 10 n) = n :=
  Nat.ofDigitChars_ten_toDigits

/-- A digit is neither sign. -/
theorem scanSign_cons_of_isDigit {c : Char} (h : 48 ≤ c.toNat ∧ c.toNat ≤ 57) (cs : List Char) :
    Decimal.scanSign (c :: cs) = (false, c :: cs) := by
  unfold Decimal.scanSign
  split
  · rename_i heq
    obtain ⟨rfl, -⟩ := List.cons.inj heq
    exact absurd h (by decide)
  · rename_i heq
    obtain ⟨rfl, -⟩ := List.cons.inj heq
    exact absurd h (by decide)
  · rfl

/-- The integer at the start of a text of digits is their value. -/
theorem leadingInt?_of_isDigits {s : String} (hne : s.toList ≠ []) (h : IsDigits s.toList) :
    Number.leadingInt? s = some (digitsValue s.toList : Int) := by
  unfold Number.leadingInt?
  generalize s.toList = cs at hne h
  cases cs with
  | nil => exact absurd rfl hne
  | cons c cs =>
    obtain ⟨hc, -⟩ := isDigits_cons_iff.1 h
    have hblank := isBlank_of_isDigit hc
    have htake : (c :: cs).takeWhile Char.isDigit = c :: cs :=
      List.takeWhile_eq_self_iff.2 h
    rw [List.dropWhile_cons_of_neg (by simp [hblank]), scanSign_cons_of_isDigit hc]
    simp [htake]

/-! ### Order -/

/-- Runs of digits of one length are in the order of their values. -/
theorem lt_iff_digitsValue_lt {cs ds : List Char} (hcs : IsDigits cs) (hds : IsDigits ds)
    (hlength : cs.length = ds.length) : cs < ds ↔ digitsValue cs < digitsValue ds := by
  induction cs generalizing ds with
  | nil =>
    obtain rfl := List.length_eq_zero_iff.1 hlength.symm
    simp
  | cons c cs ih =>
    cases ds with
    | nil => cases hlength
    | cons d ds =>
      obtain ⟨hc, hcs⟩ := isDigits_cons_iff.1 hcs
      obtain ⟨hd, hds⟩ := isDigits_cons_iff.1 hds
      have hlength := Nat.succ.inj hlength
      have hcslt := digitsValue_lt hcs
      have hdslt := digitsValue_lt hds
      rw [List.cons_lt_cons_iff, ih hcs hds hlength, digitsValue_cons, digitsValue_cons, hlength]
      rw [hlength] at hcslt
      -- the first digits decide unless they are the same: the rest is worth less than one of them
      rcases Nat.lt_trichotomy c.toNat d.toNat with hlt | heq | hgt
      · have hstep : 10 ^ ds.length * (c.toNat - 48 + 1) ≤ 10 ^ ds.length * (d.toNat - 48) :=
          Nat.mul_le_mul_left _ (by omega)
        rw [Nat.mul_add] at hstep
        have hchar : c < d := hlt
        simp only [hchar, true_or, true_iff]
        omega
      · obtain rfl : c = d := Char.toNat_inj.1 heq
        simp
      · have hstep : 10 ^ ds.length * (d.toNat - 48 + 1) ≤ 10 ^ ds.length * (c.toNat - 48) :=
          Nat.mul_le_mul_left _ (by omega)
        rw [Nat.mul_add] at hstep
        have hnot : ¬c < d := fun hlt => Nat.lt_asymm hgt hlt
        have hne : c ≠ d := by
          rintro rfl
          exact Nat.lt_irrefl _ hgt
        simp only [hnot, hne, false_and, or_self, false_iff]
        omega

/-- Texts with parts of one length in front are in the order of these parts, or else of the rest. -/
theorem append_lt_append_iff {as bs cs ds : List Char} (hlength : as.length = bs.length) :
    as ++ cs < bs ++ ds ↔ as < bs ∨ as = bs ∧ cs < ds := by
  induction as generalizing bs with
  | nil =>
    obtain rfl := List.length_eq_zero_iff.1 hlength.symm
    simp
  | cons a as ih =>
    cases bs with
    | nil => cases hlength
    | cons b bs =>
      rw [List.cons_append, List.cons_append, List.cons_lt_cons_iff, List.cons_lt_cons_iff,
        ih (Nat.succ.inj hlength), List.cons.injEq]
      by_cases hab : a = b
      · simp [hab]
      · simp [hab]

/-! ### Numbers of a fixed width -/

/-- The decimal text of a number, filled up to a width. -/
def padded (width : Nat) (n : Int) : List Char := padText width (intChars n)

variable {width : Nat} {n : Int}

theorem intChars_of_nonneg (h : 0 ≤ n) : intChars n = Nat.toDigits 10 n.toNat := by
  unfold intChars
  rw [if_neg (by omega)]
  congr 1
  omega

theorem isDigits_padded (h : 0 ≤ n) : IsDigits (padded width n) := by
  unfold padded padText
  rw [intChars_of_nonneg h]
  intro c hc
  rcases List.mem_append.1 hc with hc | hc
  · rw [List.eq_of_mem_replicate hc]
    rfl
  · exact Nat.isDigit_of_mem_toDigits (by decide) (by decide) hc

theorem length_padded (hwidth : 0 < width) (h : 0 ≤ n) (hlt : n < 10 ^ width) :
    (padded width n).length = width := by
  have hle : (Nat.toDigits 10 n.toNat).length ≤ width := by
    rw [Nat.length_toDigits_le_iff (by decide) hwidth]
    exact_mod_cast (Int.toNat_lt h).2 (by exact_mod_cast hlt)
  unfold padded padText
  rw [intChars_of_nonneg h, List.length_append, List.length_replicate]
  omega

theorem digitsValue_padded (h : 0 ≤ n) : digitsValue (padded width n) = n.toNat := by
  unfold padded padText
  rw [intChars_of_nonneg h, digitsValue_zeros_append, digitsValue_toDigits]

/-- Numbers of one width are in the order of their texts. -/
theorem padded_lt_padded_iff {m : Int} (hwidth : 0 < width) (hm : 0 ≤ m ∧ m < 10 ^ width)
    (hn : 0 ≤ n ∧ n < 10 ^ width) : padded width m < padded width n ↔ m < n := by
  rw [lt_iff_digitsValue_lt (isDigits_padded hm.1) (isDigits_padded hn.1)
    ((length_padded hwidth hm.1 hm.2).trans (length_padded hwidth hn.1 hn.2).symm),
    digitsValue_padded hm.1, digitsValue_padded hn.1]
  omega

theorem padded_inj {m : Int} (hm : 0 ≤ m) (hn : 0 ≤ n) :
    padded width m = padded width n ↔ m = n := by
  constructor
  · intro h
    have hvalue := congrArg digitsValue h
    rw [digitsValue_padded hm, digitsValue_padded hn] at hvalue
    omega
  · exact congrArg _

end CommentSearch
