import CommentSearch.Proofs.DateSpans

/-!
# Integers that are spelled

A text spells an integer (`Spells`) by a run of decimal digits with an optional sign. There may be
blanks in front, and anything behind that does not go on with digits. The integer at the start of
such a text is the one that is spelled (`leadingInt?_of_spells`), and among the texts that spell an
integer are its decimal digits with zeros in front (`spells_toDigits`).

A parameter that is an integer other than zero, given as a number, can be respelled
(`Param.Respelled`): a text that spells it is no more empty, and is read as the same integer
(`Param.SameInteger`).
-/

namespace CommentSearch

open Decimal (digitsValue)

/-! ### Signed digits -/

/-- An optional sign. -/
def IsSign (sign : List Char) : Prop := sign = [] ∨ sign = ['+'] ∨ sign = ['-']

/-- The integer that digits with an optional sign make. -/
def signedValue (sign digits : List Char) : Int :=
  if sign = ['-'] then -(digitsValue digits : Int) else digitsValue digits

section

variable {sign digits : List Char} (hsign : IsSign sign) (hne : digits ≠ [])
  (hdigits : IsDigits digits) (rest : List Char)

include hsign hne hdigits

theorem scanSign_append : Decimal.scanSign (sign ++ (digits ++ rest)) =
    (decide (sign = ['-']), digits ++ rest) := by
  rcases hsign with rfl | rfl | rfl
  · obtain ⟨c, cs, rfl⟩ := List.exists_cons_of_ne_nil hne
    exact scanSign_cons_of_isDigit (isDigits_cons_iff.1 hdigits).1 (cs ++ rest)
  · rfl
  · rfl

/-- Neither a sign nor a digit is a blank. -/
theorem dropWhile_isBlank_append :
    (sign ++ (digits ++ rest)).dropWhile Text.isBlank = sign ++ (digits ++ rest) := by
  rcases hsign with rfl | rfl | rfl
  · obtain ⟨c, cs, rfl⟩ := List.exists_cons_of_ne_nil hne
    have hblank := isBlank_of_isDigit (isDigits_cons_iff.1 hdigits).1
    exact List.dropWhile_cons_of_neg (by simp [hblank])
  · exact List.dropWhile_cons_of_neg (by decide)
  · exact List.dropWhile_cons_of_neg (by decide)

end

/-! ### Spelled integers -/

/-- A text spells an integer: blanks, an optional sign, digits that make the integer with it, and
then anything that does not start with a digit. -/
inductive Spells : String → Int → Prop where
  | intro {blanks sign digits rest : List Char} (blank : ∀ c ∈ blanks, Text.isBlank c = true)
    (signed : IsSign sign) (ne_nil : digits ≠ []) (isDigits : IsDigits digits)
    (ended : ∀ c, rest.head? = some c → c.isDigit = false) :
    Spells (String.ofList (blanks ++ (sign ++ (digits ++ rest)))) (signedValue sign digits)

/-- The integer at the start of a text is the one that it spells. -/
theorem leadingInt?_of_spells {s : String} {n : Int} (h : Spells s n) :
    Number.leadingInt? s = some n := by
  obtain @⟨blanks, sign, digits, rest, blank, signed, ne_nil, isDigits, ended⟩ := h
  have hend : rest.takeWhile Char.isDigit = [] := by
    cases rest with
    | nil => rfl
    | cons c cs => exact List.takeWhile_cons_of_neg (by simp [ended c rfl])
  have hrun : (digits ++ rest).takeWhile Char.isDigit = digits := by
    rw [List.takeWhile_append_of_pos isDigits, hend, List.append_nil]
  unfold Number.leadingInt?
  rw [String.toList_ofList, List.dropWhile_append_of_pos blank,
    dropWhile_isBlank_append signed ne_nil isDigits, scanSign_append signed ne_nil isDigits]
  dsimp only
  rw [hrun, if_neg (by simpa using ne_nil)]
  simp only [signedValue, decide_eq_true_eq]

/-- The decimal digits of an integer spell it, with its sign and zeros in front. -/
theorem spells_toDigits (n : Int) (blanks sign : List Char) (zeros : Nat) (rest : List Char)
    (blank : ∀ c ∈ blanks, Text.isBlank c = true)
    (signed : if n < 0 then sign = ['-'] else sign = [] ∨ sign = ['+'])
    (ended : ∀ c, rest.head? = some c → c.isDigit = false) :
    Spells (String.ofList (blanks ++ (sign ++
      (List.replicate zeros '0' ++ Nat.toDigits 10 n.natAbs ++ rest)))) n := by
  have hvalue : digitsValue (List.replicate zeros '0' ++ Nat.toDigits 10 n.natAbs) = n.natAbs := by
    rw [digitsValue_zeros_append, digitsValue_toDigits]
  have hdigits : IsDigits (List.replicate zeros '0' ++ Nat.toDigits 10 n.natAbs) := by
    intro c hc
    rcases List.mem_append.1 hc with hzero | hdigit
    · rw [List.eq_of_mem_replicate hzero]
      rfl
    · exact Nat.isDigit_of_mem_toDigits (by decide) (by decide) hdigit
  have hne : List.replicate zeros '0' ++ Nat.toDigits 10 n.natAbs ≠ [] :=
    List.append_ne_nil_of_right_ne_nil _ Nat.toDigits_ne_nil
  have hsign : IsSign sign ∧
      signedValue sign (List.replicate zeros '0' ++ Nat.toDigits 10 n.natAbs) = n := by
    unfold IsSign signedValue
    rw [hvalue]
    split at signed
    · rw [if_pos signed]
      exact ⟨.inr (.inr signed), by omega⟩
    · have hplus : sign ≠ ['-'] := by
        rcases signed with rfl | rfl <;> decide
      rw [if_neg hplus]
      exact ⟨signed.imp_right .inl, by omega⟩
  have hspells := Spells.intro blank hsign.1 hne hdigits ended
  rwa [hsign.2] at hspells

/-! ### Parameters -/

namespace Param

/-- Two parameters are the same, or neither is empty and both stand for the same integer. -/
def SameInteger (p p' : Param) : Prop :=
  p = p' ∨ p.isEmpty = false ∧ p'.isEmpty = false ∧ p.toInt = p'.toInt

/-- A parameter is respelled: it is left as it is, or a text that spells it takes the place of an
integer other than zero, of up to 53 binary digits. -/
inductive Respelled : Param → Param → Prop where
  | same (p : Param) : Respelled p p
  | spelled {n : Int} {s : String} (ne_zero : n ≠ 0) (natAbs_lt : n.natAbs < 2 ^ 53)
    (spells : Spells s n) : Respelled (some (.number (.finite n))) (some (.text s))

variable {p p' : Param}

/-- A parameter that is respelled stands for the same integer. -/
theorem Respelled.sameInteger (h : Respelled p p') : SameInteger p p' := by
  cases h with
  | same => exact .inl rfl
  | @spelled n s ne_zero natAbs_lt spells =>
    have hleading := leadingInt?_of_spells spells
    have hcast : (n : Rat) ≠ 0 := by exact_mod_cast ne_zero
    refine .inr ⟨by simp [isEmpty, Number.isZero, Number.isNaN, hcast], ?_, ?_⟩
    · -- the empty texts spell no integer but zero
      have hempty : s ≠ "" := by
        rintro rfl
        cases hleading
      have hzero : s ≠ "0" := by
        rintro rfl
        exact ne_zero (Option.some.inj hleading).symm
      simp [isEmpty, hempty, hzero]
    · simp only [toInt, Number.isFinite, if_true, Number.leading, hleading, Option.getD_some]
      rw [Number.ofInt_eq natAbs_lt, Number.trunc_finite_intCast]

namespace SameInteger

theorem isEmpty_eq (h : SameInteger p p') : p.isEmpty = p'.isEmpty := by
  rcases h with rfl | ⟨hp, hp', -⟩
  · rfl
  · rw [hp, hp']

theorem toInt_eq (h : SameInteger p p') : p.toInt = p'.toInt := by
  rcases h with rfl | ⟨-, -, heq⟩
  · rfl
  · exact heq

theorem isSet_eq (h : SameInteger p p') : p.isSet = p'.isSet := by
  have hset {q : Param} (hq : q.isEmpty = false) : q.isSet = true := by
    cases q with
    | none => cases hq
    | some v =>
      cases v with
      | null => cases hq
      | bool | number | text | list | object => rfl
  rcases h with rfl | ⟨hp, hp', -⟩
  · rfl
  · rw [hset hp, hset hp']

end SameInteger

end Param

end CommentSearch
