import CommentSearch.Proofs.Identifiers
import CommentSearch.Proofs.TypedValues

/-!
# Numerals

A numeral is an optional sign, digits with or without a point, and an optional exponent
(`IsNumeral`). The numeric texts are the numerals between blanks, and all of them are read as
numbers. So are a few other texts (`IsOtherLiteral`): the blank ones, the infinities, and unsigned
literals in base 2, 8 and 16. None of these is numeric (`isNumeric_iff_isNumeral`).

Each part of the grammar has a lemma that says where the reader for that part succeeds.
-/

namespace CommentSearch

/-! ### The grammar -/

/-- The digits of a numeral: digits with an optional point and optional further digits, or a point
followed by digits. -/
inductive IsMantissa : List Char → Prop where
  | whole {digits : List Char} (ne_nil : digits ≠ []) (isDigits : IsDigits digits) :
    IsMantissa digits
  | pointed {digits places : List Char} (ne_nil : digits ≠ []) (isDigits : IsDigits digits)
    (further : IsDigits places) : IsMantissa (digits ++ '.' :: places)
  | places {places : List Char} (ne_nil : places ≠ []) (isDigits : IsDigits places) :
    IsMantissa ('.' :: places)

/-- An optional exponent: its letter, an optional sign and at least one digit. -/
inductive IsExponent : List Char → Prop where
  | absent : IsExponent []
  | present {letter : Char} {sign digits : List Char} (isLetter : letter = 'e' ∨ letter = 'E')
    (signed : IsSign sign) (ne_nil : digits ≠ []) (isDigits : IsDigits digits) :
    IsExponent (letter :: (sign ++ digits))

/-- A numeral: an optional sign, digits with or without a point, and an optional exponent. -/
inductive IsNumeral : List Char → Prop where
  | intro {sign mantissa exponent : List Char} (signed : IsSign sign)
    (isMantissa : IsMantissa mantissa) (isExponent : IsExponent exponent) :
    IsNumeral (sign ++ (mantissa ++ exponent))

/-- The name of an infinity with an optional sign. -/
def IsInfinity (cs : List Char) : Prop := ∃ sign, IsSign sign ∧ cs = sign ++ "Infinity".toList

/-- The bases of unsigned literals, each with the two letters that stand for it. -/
def literalBases : List (Char × Nat) :=
  [('x', 16), ('X', 16), ('o', 8), ('O', 8), ('b', 2), ('B', 2)]

/-- A digit in a base, in small or capital letters. -/
def IsDigitIn (base : Nat) (c : Char) : Prop :=
  c ∈ "0123456789abcdef".toList.take base ∨ c ∈ "0123456789ABCDEF".toList.take base

/-- An unsigned literal in base 2, 8 or 16: a zero, the letter of the base and digits in it. -/
inductive IsRadixLiteral : List Char → Prop where
  | intro {letter : Char} {base : Nat} {digits : List Char} (isBase : (letter, base) ∈ literalBases)
    (ne_nil : digits ≠ []) (isDigits : ∀ c ∈ digits, IsDigitIn base c) :
    IsRadixLiteral ('0' :: letter :: digits)

/-- A text that is read as a number, but is no numeral. -/
def IsOtherLiteral (cs : List Char) : Prop := cs = [] ∨ IsInfinity cs ∨ IsRadixLiteral cs

/-! ### Numerals are what is read -/

/-- What is left of a text after its sign, with the sign. -/
theorem exists_sign_append (cs : List Char) :
    ∃ sign, IsSign sign ∧ cs = sign ++ (Decimal.scanSign cs).2 := by
  unfold Decimal.scanSign
  split
  · exact ⟨['-'], .inr (.inr rfl), rfl⟩
  · exact ⟨['+'], .inr (.inl rfl), rfl⟩
  · exact ⟨[], .inl rfl, rfl⟩

/-- A sign is followed by what does not start with another. -/
theorem scanSign_sign_append {sign cs : List Char} (hsign : IsSign sign)
    (h : Decimal.scanSign cs = (false, cs)) : (Decimal.scanSign (sign ++ cs)).2 = cs := by
  rcases hsign with rfl | rfl | rfl
  · rw [List.nil_append, h]
  · rfl
  · rfl

theorem exists_exponentOf?_iff {cs : List Char} :
    (∃ e, Decimal.exponentOf? cs = some e) ↔ IsExponent cs := by
  constructor
  · rintro ⟨e, he⟩
    obtain rfl | ⟨letter, rest, rfl, hletter⟩ := Decimal.head_of_exponentOf? he
    · exact .absent
    · obtain ⟨sign, hsign, heq⟩ := exists_sign_append rest
      simp only [Decimal.exponentOf?, if_pos hletter] at he
      split at he
      · rename_i hdigits
        rw [Bool.and_eq_true, Bool.not_eq_true', List.isEmpty_eq_false_iff] at hdigits
        rw [heq]
        exact .present hletter hsign hdigits.1 (List.all_eq_true.1 hdigits.2)
      · cases he
  · intro h
    cases h with
    | absent => exact ⟨0, rfl⟩
    | present isLetter signed ne_nil isDigits =>
      have hscan := scanSign_append signed ne_nil isDigits []
      rw [List.append_nil] at hscan
      simp only [Decimal.exponentOf?, if_pos isLetter, hscan]
      have hall := List.all_eq_true.2 isDigits
      rw [if_pos (by simp [ne_nil, hall])]
      exact ⟨_, rfl⟩

theorem exists_mantissa_of_scanDigits {cs rest : List Char} {d : Decimal}
    (h : Decimal.scanDigits cs = some (d, rest)) :
    ∃ mantissa, IsMantissa mantissa ∧ cs = mantissa ++ rest := by
  have hrun (ds : List Char) : IsDigits (ds.takeWhile Char.isDigit) :=
    fun _ hc => List.mem_takeWhile_imp hc
  have hsplit : cs = cs.takeWhile Char.isDigit ++ cs.dropWhile Char.isDigit :=
    List.takeWhile_append_dropWhile.symm
  unfold Decimal.scanDigits at h
  split at h
  · -- digits, a point and further digits, but not none on both sides of it
    rename_i after hafter
    rw [hafter] at hsplit
    dsimp only at h
    split at h
    · cases h
    · rename_i hsome
      obtain ⟨-, rfl⟩ := Prod.mk.inj (Option.some.inj h)
      have hplaces : after = after.takeWhile Char.isDigit ++ after.dropWhile Char.isDigit :=
        List.takeWhile_append_dropWhile.symm
      by_cases hwhole : cs.takeWhile Char.isDigit = []
      · have hne : after.takeWhile Char.isDigit ≠ [] := by simpa [hwhole] using hsome
        refine ⟨'.' :: after.takeWhile Char.isDigit, .places hne (hrun after), ?_⟩
        rw [List.cons_append, ← hplaces]
        rwa [hwhole] at hsplit
      · refine ⟨_, .pointed hwhole (hrun cs) (hrun after), ?_⟩
        rw [List.append_assoc, List.cons_append, ← hplaces]
        exact hsplit
  · dsimp only at h
    split at h
    · cases h
    · rename_i hwhole
      obtain ⟨-, rfl⟩ := Prod.mk.inj (Option.some.inj h)
      exact ⟨_, .whole (by simpa using hwhole) (hrun cs), hsplit⟩

/-- An unsigned literal is read where it is digits, with or without a point, and an exponent. -/
theorem exists_ofChars?_iff {cs : List Char} : (∃ d, Decimal.ofChars? cs = some d) ↔
    ∃ mantissa exponent, IsMantissa mantissa ∧ IsExponent exponent ∧ cs = mantissa ++ exponent := by
  constructor
  · rintro ⟨d, hd⟩
    obtain ⟨⟨found, rest⟩, hscan, hd⟩ := Option.bind_eq_some_iff.1 hd
    obtain ⟨e, he, -⟩ := Option.bind_eq_some_iff.1 hd
    obtain ⟨mantissa, hmantissa, rfl⟩ := exists_mantissa_of_scanDigits hscan
    exact ⟨mantissa, rest, hmantissa, exists_exponentOf?_iff.1 ⟨e, he⟩, rfl⟩
  · rintro ⟨mantissa, exponent, hmantissa, hexponent, rfl⟩
    obtain ⟨e, he⟩ := exists_exponentOf?_iff.2 hexponent
    cases hmantissa with
    | whole ne_nil isDigits => exact ⟨_, Decimal.ofChars?_whole ne_nil isDigits he⟩
    | pointed ne_nil isDigits further =>
      rw [List.append_assoc, List.cons_append]
      exact ⟨_, Decimal.ofChars?_point (.inl ne_nil) isDigits further he⟩
    | places ne_nil isDigits =>
      have hnone : IsDigits [] := nofun
      exact ⟨_, Decimal.ofChars?_point (.inr ne_nil) hnone isDigits he⟩

theorem isSome_ofDecimalLiteral?_iff {cs : List Char} :
    (Number.ofDecimalLiteral? cs).isSome = true ↔ IsNumeral cs := by
  have hread : (Number.ofDecimalLiteral? cs).isSome = true ↔
      ∃ d, Decimal.ofChars? (Decimal.scanSign cs).2 = some d := by
    rw [Number.ofDecimalLiteral?, Option.isSome_map, Option.isSome_iff_exists]
  rw [hread]
  constructor
  · intro h
    obtain ⟨sign, hsign, heq⟩ := exists_sign_append cs
    obtain ⟨mantissa, exponent, hmantissa, hexponent, hrest⟩ := exists_ofChars?_iff.1 h
    rw [heq, hrest]
    exact .intro hsign hmantissa hexponent
  · rintro ⟨hsign, hmantissa, hexponent⟩
    obtain ⟨d, hd⟩ := exists_ofChars?_iff.2 ⟨_, _, hmantissa, hexponent, rfl⟩
    rw [scanSign_sign_append hsign (Decimal.scanSign_of_ofChars? hd)]
    exact ⟨d, hd⟩

/-! ### Other literals -/

theorem exists_ofInfinityLiteral?_iff {cs : List Char} :
    (∃ x, Number.ofInfinityLiteral? cs = some x) ↔ IsInfinity cs := by
  constructor
  · rintro ⟨x, hx⟩
    obtain ⟨sign, hsign, heq⟩ := exists_sign_append cs
    simp only [Number.ofInfinityLiteral?] at hx
    split at hx
    · rename_i hname
      rw [hname] at heq
      exact ⟨sign, hsign, heq⟩
    · cases hx
  · rintro ⟨sign, rfl | rfl | rfl, rfl⟩
    · exact ⟨_, rfl⟩
    · exact ⟨_, rfl⟩
    · exact ⟨_, rfl⟩

/-- The letters of the bases, with the bases. -/
theorem radixOf?_eq_some_iff {letter : Char} {base : Nat} :
    Number.radixOf? letter = some base ↔ (letter, base) ∈ literalBases := by
  unfold Number.radixOf? literalBases
  grind

/-- The digits are found among the first 128 characters, and there are none beyond. -/
theorem exists_digitIn?_iff {base : Nat} (hbase : base ∈ [2, 8, 16]) (c : Char) :
    (∃ n, Number.digitIn? base c = some n) ↔ IsDigitIn base c := by
  have hplain : ∀ n < 128, ∀ base ∈ [2, 8, 16],
      (Number.digitIn? base (Char.ofNat n)).isSome = true ↔
        Char.ofNat n ∈ "0123456789abcdef".toList.take base ∨
          Char.ofNat n ∈ "0123456789ABCDEF".toList.take base := by
    decide +kernel
  rw [← Option.isSome_iff_exists]
  by_cases hc : c.toNat < 128
  · have hread := hplain c.toNat hc base hbase
    rwa [Char.ofNat_toNat] at hread
  · have hnone : Number.digitIn? base c = none := by
      have hdigit : ¬c.isDigit = true := by
        intro h
        have hle : c.toNat ≤ 57 := (Char.isDigit_iff_toNat.1 h).2
        omega
      have hsmall : ¬('a' ≤ c ∧ c ≤ 'f') := fun h => hc (lt_of_le_of_lt h.2 (by decide))
      have hcapital : ¬('A' ≤ c ∧ c ≤ 'F') := fun h => hc (lt_of_le_of_lt h.2 (by decide))
      simp only [Number.digitIn?, if_neg hdigit, if_neg hsmall, if_neg hcapital]
      rfl
    have hsmall : ∀ d ∈ "0123456789abcdef".toList, d.toNat < 128 := by simp
    have hcapital : ∀ d ∈ "0123456789ABCDEF".toList, d.toNat < 128 := by simp
    rw [hnone]
    refine iff_of_false Bool.false_ne_true ?_
    rintro (hmem | hmem)
    · exact hc (hsmall c (List.mem_of_mem_take hmem))
    · exact hc (hcapital c (List.mem_of_mem_take hmem))

/-- The value of digits is read where each of them is one, whatever has been read before. -/
theorem exists_foldlM_digitIn?_iff {base : Nat} (hbase : base ∈ [2, 8, 16]) (digits : List Char)
    (start : Nat) : (∃ n, digits.foldlM (fun n c =>
        (Number.digitIn? base c).map (base * n + ·)) start = some n) ↔
      ∀ c ∈ digits, IsDigitIn base c := by
  induction digits generalizing start with
  | nil => exact iff_of_true ⟨start, rfl⟩ (List.forall_mem_nil _)
  | cons c digits ih =>
    rw [List.foldlM_cons, List.forall_mem_cons, ← exists_digitIn?_iff hbase c]
    cases hread : Number.digitIn? base c with
    | none => simp
    | some value => simpa using ih (base * start + value)

/-- Letters of bases stand for no other base. -/
theorem mem_bases_of_mem {letter : Char} {base : Nat} (h : (letter, base) ∈ literalBases) :
    base ∈ [2, 8, 16] := by
  have hall : ∀ pair ∈ literalBases, pair.2 ∈ [2, 8, 16] := by decide
  exact hall _ h

theorem exists_radixValue?_iff {letter : Char} {base : Nat} (h : (letter, base) ∈ literalBases)
    (digits : List Char) : (∃ n, Number.radixValue? base digits = some n) ↔
      digits ≠ [] ∧ ∀ c ∈ digits, IsDigitIn base c := by
  rw [← exists_foldlM_digitIn?_iff (mem_bases_of_mem h) digits 0, Number.radixValue?]
  by_cases hempty : digits = []
  · simp [hempty]
  · simp [hempty]

/-- A literal in base 2, 8 or 16 is read as an integer. -/
theorem exists_ofRadixLiteral?_iff {cs : List Char} :
    (∃ x, Number.ofRadixLiteral? cs = some x) ↔ IsRadixLiteral cs := by
  constructor
  · rintro ⟨x, hx⟩
    unfold Number.ofRadixLiteral? at hx
    split at hx
    · rename_i letter digits
      obtain ⟨base, hbase, hx⟩ := Option.bind_eq_some_iff.1 hx
      obtain ⟨n, hn, -⟩ := Option.bind_eq_some_iff.1 hx
      have hmem := radixOf?_eq_some_iff.1 hbase
      obtain ⟨hne, hdigits⟩ := (exists_radixValue?_iff hmem digits).1 ⟨n, hn⟩
      exact .intro hmem hne hdigits
    · cases hx
  · rintro ⟨hmem, hne, hdigits⟩
    obtain ⟨n, hn⟩ := (exists_radixValue?_iff hmem _).2 ⟨hne, hdigits⟩
    refine ⟨.ofInt n, ?_⟩
    simp [Number.ofRadixLiteral?, radixOf?_eq_some_iff.2 hmem, hn]

/-- No other literal is a numeral: the letter of a base neither goes on with the digits before it
nor starts an exponent. -/
theorem not_isNumeral_of_isOtherLiteral {cs : List Char} (h : IsOtherLiteral cs) :
    ¬IsNumeral cs := by
  rw [← isSome_ofDecimalLiteral?_iff]
  rcases h with rfl | ⟨sign, rfl | rfl | rfl, rfl⟩ | ⟨hmem, -, -⟩
  · decide
  · decide
  · decide
  · decide
  · simp only [literalBases, List.mem_cons, Prod.mk.injEq, List.not_mem_nil, or_false] at hmem
    rcases hmem with ⟨rfl, -⟩ | ⟨rfl, -⟩ | ⟨rfl, -⟩ | ⟨rfl, -⟩ | ⟨rfl, -⟩ | ⟨rfl, -⟩ <;>
      exact Bool.false_ne_true

/-! ### Texts that are read as numbers -/

/-- What is read of a text, if anything, is a number. -/
theorem isNaN_of_reading {cs : List Char} {x : Number} (h : Number.ofDecimalLiteral? cs = some x ∨
    Number.ofInfinityLiteral? cs = some x ∨ Number.ofRadixLiteral? cs = some x) :
    x.isNaN = false := by
  rcases h with h | h | h
  · rw [Number.ofDecimalLiteral?_eq, Option.map_eq_some_iff] at h
    obtain ⟨q, -, rfl⟩ := h
    exact Number.isNaN_ofRat q
  · simp only [Number.ofInfinityLiteral?] at h
    split at h
    · rw [← Option.some.inj h]
      rfl
    · cases h
  · unfold Number.ofRadixLiteral? at h
    split at h
    · obtain ⟨base, -, h⟩ := Option.bind_eq_some_iff.1 h
      obtain ⟨n, -, h⟩ := Option.bind_eq_some_iff.1 h
      rw [← Option.some.inj h]
      exact Number.isNaN_ofRat n
    · cases h

/-- A text between blanks is read as a number where it is a numeral or one of the other literals. -/
theorem isNaN_ofText_eq_false_iff (s : String) : (Number.ofText s).isNaN = false ↔
    IsNumeral (Text.trimChars s.toList) ∨ IsOtherLiteral (Text.trimChars s.toList) := by
  unfold Number.ofText IsOtherLiteral
  generalize Text.trimChars s.toList = cs
  dsimp only
  by_cases hempty : cs = []
  · simp [hempty, Number.isNaN]
  rw [if_neg (by simpa using hempty), ← isSome_ofDecimalLiteral?_iff, Option.isSome_iff_exists,
    ← exists_ofInfinityLiteral?_iff, ← exists_ofRadixLiteral?_iff]
  have hread := @isNaN_of_reading cs
  cases hdecimal : Number.ofDecimalLiteral? cs with
  | some x => simp [hread (.inl hdecimal)]
  | none =>
    cases hinfinity : Number.ofInfinityLiteral? cs with
    | some x => simp [hread (.inr (.inl hinfinity))]
    | none =>
      cases hradix : Number.ofRadixLiteral? cs with
      | some x => simp [hread (.inr (.inr hradix))]
      | none => simp [hempty, Number.isNaN]

/-! ### Numeric texts -/

theorem IsMantissa.isBlank {cs : List Char} (h : IsMantissa cs) :
    cs ≠ [] ∧ ∀ c ∈ cs, Text.isBlank c = false := by
  cases h with
  | whole ne_nil isDigits => exact ⟨ne_nil, isBlank_of_isDigits isDigits⟩
  | pointed ne_nil isDigits further =>
    refine ⟨by simp, ?_⟩
    rw [List.forall_mem_append, List.forall_mem_cons]
    exact ⟨isBlank_of_isDigits isDigits, by decide, isBlank_of_isDigits further⟩
  | places ne_nil isDigits =>
    refine ⟨by simp, ?_⟩
    rw [List.forall_mem_cons]
    exact ⟨by decide, isBlank_of_isDigits isDigits⟩

theorem IsExponent.isBlank {cs : List Char} (h : IsExponent cs) :
    ∀ c ∈ cs, Text.isBlank c = false := by
  cases h with
  | absent => exact List.forall_mem_nil _
  | present isLetter signed ne_nil isDigits =>
    rw [List.forall_mem_cons, List.forall_mem_append]
    refine ⟨?_, isBlank_of_isSign signed, isBlank_of_isDigits isDigits⟩
    rcases isLetter with rfl | rfl <;> decide

/-- A numeral is some text without blanks. -/
theorem IsNumeral.isBlank {cs : List Char} (h : IsNumeral cs) :
    cs ≠ [] ∧ ∀ c ∈ cs, Text.isBlank c = false := by
  obtain ⟨signed, isMantissa, isExponent⟩ := h
  obtain ⟨hne, hplain⟩ := isMantissa.isBlank
  refine ⟨by simp [hne], ?_⟩
  rw [List.forall_mem_append, List.forall_mem_append]
  exact ⟨isBlank_of_isSign signed, hplain, isExponent.isBlank⟩

/-- What is left of a text without the blanks at its ends is a numeral where the text is one between
blanks. -/
theorem isNumeral_trimChars_iff {cs : List Char} : IsNumeral (Text.trimChars cs) ↔
    ∃ before numeral after, cs = before ++ (numeral ++ after) ∧ IsNumeral numeral ∧
      (∀ c ∈ before, Text.isBlank c = true) ∧ ∀ c ∈ after, Text.isBlank c = true := by
  constructor
  · intro h
    obtain ⟨before, after, hbefore, hafter, heq⟩ := exists_blanks_trimChars cs
    exact ⟨before, _, after, heq, h, hbefore, hafter⟩
  · rintro ⟨before, numeral, after, rfl, h, hbefore, hafter⟩
    rwa [trimChars_append h.isBlank.1 hbefore h.isBlank.2 hafter]

/-- A text is numeric exactly where it is a numeral, but for blanks at its ends. The texts that are
read as numbers are these and the blank ones, infinities and unsigned literals in base 2, 8 or 16,
none of which is numeric. The identifier that a text is read as is always a natural number. -/
theorem isNumeric_iff_isNumeral (s : String) :
    (Param.isNumeric (some (.text s)) = true ↔ IsNumeral (Text.trim s).toList) ∧
    (IsNumeral (Text.trim s).toList ↔ ∃ before numeral after,
      s.toList = before ++ (numeral ++ after) ∧ IsNumeral numeral ∧
        (∀ c ∈ before, Text.isBlank c = true) ∧ ∀ c ∈ after, Text.isBlank c = true) ∧
    ((Number.ofText (Text.trim s)).isNaN = false ↔
      IsNumeral (Text.trim s).toList ∨ IsOtherLiteral (Text.trim s).toList) ∧
    (IsOtherLiteral (Text.trim s).toList → Param.isNumeric (some (.text s)) = false) ∧
    ∃ x, Param.absInt (some (.text s)) = .ok x ∧ x.IsCount := by
  have htrim : (Text.trim s).toList = Text.trimChars s.toList := String.toList_ofList
  have hnumeric : Param.isNumeric (some (.text s)) = true ↔ IsNumeral (Text.trim s).toList := by
    rw [htrim]
    exact isSome_ofDecimalLiteral?_iff
  refine ⟨hnumeric, ?_, ?_, fun hother => ?_, ?_⟩
  · rw [htrim, isNumeral_trimChars_iff]
  · rw [isNaN_ofText_eq_false_iff, htrim, trimChars_trimChars]
  · rw [Bool.eq_false_iff, Ne, hnumeric]
    exact not_isNumeral_of_isOtherLiteral hother
  · exact ⟨_, rfl, Param.isCount_absTrunc _⟩

/-- A hexadecimal literal is read as a number, and is not numeric. -/
theorem isNumeric_iff_isNumeral_hexadecimal :
    IsOtherLiteral (Text.trim " 0x1F").toList ∧ Param.isNumeric (some (.text " 0x1F")) = false ∧
      (Number.ofText (Text.trim " 0x1F")).isNaN = false := by
  have hdigits : ∀ c ∈ ['1', 'F'], IsDigitIn 16 c := by
    simp [IsDigitIn]
  have hbase : ('x', 16) ∈ literalBases := by decide
  have hliteral : IsOtherLiteral (Text.trim " 0x1F").toList :=
    .inr (.inr (.intro hbase (by decide) hdigits))
  obtain ⟨-, -, hreads, hother, -⟩ := isNumeric_iff_isNumeral " 0x1F"
  exact ⟨hliteral, hother hliteral, hreads.2 (.inr hliteral)⟩

end CommentSearch
