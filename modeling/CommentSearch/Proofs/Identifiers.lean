import CommentSearch.Filter
import CommentSearch.Proofs.MetaNumbers
import CommentSearch.Proofs.RoundedIntegers
import CommentSearch.Proofs.SpelledIntegers

/-!
# Identifiers

The entries of a parameter are identifiers, users where they are numeric and addresses where they
are not. None is lost (`Identifiers.Splits`): the addresses are the other entries as they stand, and
there is one natural number for each numeric entry. The entries of a text are its maximal runs of
characters that are neither blanks nor commas (`runs_eq_iff_cutsInto`), so a comma between two texts
leaves the identifiers of both (`Identifiers.ofParam_lossless`).
-/

namespace CommentSearch

/-! ### Maximal runs -/

namespace Text

/-- A text is cut into its maximal runs of characters that are no separators. Each run starts after
separators, if any, and ends before a separator or with the text. -/
inductive CutsInto (isSeparator : Char → Bool) : List Char → List (List Char) → Prop where
  | gap {gap : List Char} (separators : ∀ c ∈ gap, isSeparator c = true) :
    CutsInto isSeparator gap []
  | run {gap run rest : List Char} {runs : List (List Char)}
    (separators : ∀ c ∈ gap, isSeparator c = true) (ne_nil : run ≠ [])
    (plain : ∀ c ∈ run, isSeparator c = false)
    (ended : ∀ c, rest.head? = some c → isSeparator c = true)
    (more : CutsInto isSeparator rest runs) :
    CutsInto isSeparator (gap ++ (run ++ rest)) (run :: runs)

variable {isSeparator : Char → Bool} {cs ds : List Char} {xs ys : List (List Char)}

namespace CutsInto

/-- Separators in front of a text are in none of its runs. -/
theorem gap_append (gap : List Char) (separators : ∀ c ∈ gap, isSeparator c = true)
    (h : CutsInto isSeparator cs xs) : CutsInto isSeparator (gap ++ cs) xs := by
  have hgaps {gap' : List Char} (separators' : ∀ c ∈ gap', isSeparator c = true) :
      ∀ c ∈ gap ++ gap', isSeparator c = true :=
    List.forall_mem_append.2 ⟨separators, separators'⟩
  cases h with
  | gap separators' => exact .gap (hgaps separators')
  | run separators' ne_nil plain ended more =>
    rw [← List.append_assoc]
    exact .run (hgaps separators') ne_nil plain ended more

theorem cons {c : Char} (hc : isSeparator c = true) (h : CutsInto isSeparator cs xs) :
    CutsInto isSeparator (c :: cs) xs :=
  gap_append [c] (by simpa using hc) h

/-- A text starts with a run. -/
theorem run_append {run rest : List Char} {runs : List (List Char)} (ne_nil : run ≠ [])
    (plain : ∀ c ∈ run, isSeparator c = false)
    (ended : ∀ c, rest.head? = some c → isSeparator c = true)
    (more : CutsInto isSeparator rest runs) : CutsInto isSeparator (run ++ rest) (run :: runs) :=
  @CutsInto.run isSeparator [] _ _ _ nofun ne_nil plain ended more

/-- The runs of two texts with a separator between them are those of the one and of the other. -/
theorem append_cons {c : Char} (hc : isSeparator c = true) (hcs : CutsInto isSeparator cs xs)
    (hds : CutsInto isSeparator ds ys) : CutsInto isSeparator (cs ++ c :: ds) (xs ++ ys) := by
  induction hcs with
  | gap separators => exact gap_append _ separators (hds.cons hc)
  | @run gap run rest runs separators ne_nil plain ended _ ih =>
    have hended : ∀ d, (rest ++ c :: ds).head? = some d → isSeparator d = true := by
      intro d hd
      cases rest with
      | nil =>
        obtain rfl := Option.some.inj hd
        exact hc
      | cons e es => exact ended d hd
    rw [List.append_assoc, List.append_assoc]
    exact .run separators ne_nil plain hended ih

end CutsInto

/-- What is read is cut into runs, from the start of a run and within one. -/
theorem cutsInto_runsFrom (isSeparator : Char → Bool) (cs : List Char) :
    CutsInto isSeparator cs (runsFrom isSeparator [] cs) ∧
      ∀ run ≠ [], (∀ c ∈ run, isSeparator c = false) →
        CutsInto isSeparator (run ++ cs) (runsFrom isSeparator run cs) := by
  induction cs with
  | nil =>
    refine ⟨.gap nofun, fun run hne plain => ?_⟩
    unfold runsFrom
    rw [if_neg (by simpa using hne)]
    exact .run_append hne plain nofun (.gap nofun)
  | cons c cs ih =>
    obtain ⟨hstart, hwithin⟩ := ih
    unfold runsFrom
    -- a separator leads on to the start of a run, and any other character into one
    cases hc : isSeparator c with
    | true =>
      refine ⟨hstart.cons hc, fun run hne plain => ?_⟩
      rw [if_pos rfl, if_neg (by simpa using hne)]
      have hended : ∀ d, (c :: cs).head? = some d → isSeparator d = true := by
        rintro d ⟨⟩
        exact hc
      exact .run_append hne plain hended (hstart.cons hc)
    | false =>
      refine ⟨hwithin [c] (List.cons_ne_nil _ _) (by simpa using hc), fun run hne plain => ?_⟩
      have hplain : ∀ d ∈ run ++ [c], isSeparator d = false :=
        List.forall_mem_append.2 ⟨plain, by simpa using hc⟩
      have hrun := hwithin (run ++ [c]) (List.append_ne_nil_of_left_ne_nil hne _) hplain
      rwa [List.append_assoc] at hrun

theorem runsFrom_gap_append {gap : List Char} (h : ∀ c ∈ gap, isSeparator c = true) :
    runsFrom isSeparator [] (gap ++ cs) = runsFrom isSeparator [] cs := by
  induction gap with
  | nil => rfl
  | cons c gap ih =>
    obtain ⟨hc, hgap⟩ := List.forall_mem_cons.1 h
    rw [List.cons_append, runsFrom, if_pos hc, if_pos List.isEmpty_nil, ih hgap]

theorem runsFrom_run_append {run : List Char} (h : ∀ c ∈ run, isSeparator c = false)
    (before : List Char) :
    runsFrom isSeparator before (run ++ cs) = runsFrom isSeparator (before ++ run) cs := by
  induction run generalizing before with
  | nil => rw [List.nil_append, List.append_nil]
  | cons c run ih =>
    obtain ⟨hc, hrun⟩ := List.forall_mem_cons.1 h
    rw [List.cons_append, runsFrom, if_neg (by simp [hc]), ih hrun, List.append_assoc]
    rfl

/-- A text is cut into the runs that are read, and into no others. -/
theorem runsFrom_eq_iff_cutsInto :
    runsFrom isSeparator [] cs = xs ↔ CutsInto isSeparator cs xs := by
  constructor
  · rintro rfl
    exact (cutsInto_runsFrom isSeparator cs).1
  · intro h
    induction h with
    | @gap gap separators =>
      have hread : runsFrom isSeparator [] (gap ++ []) = [] := runsFrom_gap_append separators
      rwa [List.append_nil] at hread
    | @run gap run rest runs separators ne_nil plain ended _ ih =>
      rw [runsFrom_gap_append separators, runsFrom_run_append plain, List.nil_append, ← ih]
      cases rest with
      | nil => simp [runsFrom, ne_nil]
      | cons c rest =>
        have hc : isSeparator c = true := ended c rfl
        simp [runsFrom, hc, ne_nil]

theorem runs_eq_iff_cutsInto {s : String} {entries : List String} :
    runs isSeparator s = entries ↔ CutsInto isSeparator s.toList (entries.map String.toList) := by
  have htexts (xs : List (List Char)) : (xs.map String.ofList).map String.toList = xs := by
    simp [Function.comp_def]
  have hchars : (entries.map String.toList).map String.ofList = entries := by
    simp [Function.comp_def]
  rw [← runsFrom_eq_iff_cutsInto, runs]
  constructor
  · rintro rfl
    exact (htexts _).symm
  · intro h
    rw [h, hchars]

/-- A separator between two texts leaves the runs of both. -/
theorem runs_append_singleton {c : Char} (hc : isSeparator c = true) (a b : String) :
    runs isSeparator (a ++ String.singleton c ++ b) = runs isSeparator a ++ runs isSeparator b := by
  have ha := runs_eq_iff_cutsInto.1 (rfl : runs isSeparator a = _)
  have hb := runs_eq_iff_cutsInto.1 (rfl : runs isSeparator b = _)
  rw [runs_eq_iff_cutsInto, List.map_append]
  have hboth := ha.append_cons hc hb
  simpa using hboth

end Text

/-! ### Numeric entries -/

/-- A text is an integer: an optional sign and digits that make the integer with it. -/
inductive IsIntegerText : String → Int → Prop where
  | intro {sign digits : List Char} (signed : IsSign sign) (ne_nil : digits ≠ [])
    (isDigits : IsDigits digits) :
    IsIntegerText (String.ofList (sign ++ digits)) (signedValue sign digits)

theorem isBlank_of_isSign {sign : List Char} (h : IsSign sign) :
    ∀ c ∈ sign, Text.isBlank c = false := by
  rcases h with rfl | rfl | rfl
  · exact List.forall_mem_nil _
  · exact List.forall_mem_singleton.2 rfl
  · exact List.forall_mem_singleton.2 rfl

theorem isBlank_of_isDigits {digits : List Char} (h : IsDigits digits) :
    ∀ c ∈ digits, Text.isBlank c = false :=
  fun c hc => isBlank_of_isDigit (Char.isDigit_iff_toNat.1 (h c hc))

namespace Decimal

/-- A run of digits is the literal of its value. -/
theorem ofChars?_of_isDigits {digits : List Char} (hne : digits ≠ []) (h : IsDigits digits) :
    ofChars? digits = some ⟨digitsValue digits, 0⟩ := by
  have htake : digits.takeWhile Char.isDigit = digits := List.takeWhile_eq_self_iff.2 h
  have hdrop : digits.dropWhile Char.isDigit = [] := List.dropWhile_eq_nil_iff.2 h
  have hscan : scanDigits digits = some (⟨digitsValue digits, 0⟩, []) := by
    unfold scanDigits
    rw [hdrop, htake]
    exact if_neg (by simpa using hne)
  unfold ofChars?
  rw [hscan]
  rfl

end Decimal

/-- The exact value of an integer text is the integer. -/
theorem IsIntegerText.exactValue?_eq {s : String} {n : Int} (h : IsIntegerText s n) :
    Number.exactValue? s = some (n : Rat) := by
  obtain @⟨sign, digits, signed, ne_nil, isDigits⟩ := h
  have hplain : ∀ c ∈ sign ++ digits, Text.isBlank c = false :=
    List.forall_mem_append.2 ⟨isBlank_of_isSign signed, isBlank_of_isDigits isDigits⟩
  have htrim : Text.trimChars (sign ++ digits) = sign ++ digits :=
    trimChars_eq_self (List.append_ne_nil_of_right_ne_nil sign ne_nil) hplain
  have hscan := scanSign_append signed ne_nil isDigits []
  rw [List.append_nil] at hscan
  have hvalue : (Decimal.mk (Decimal.digitsValue digits) 0).toRat = Decimal.digitsValue digits := by
    simp [Decimal.toRat_eq]
  unfold Number.exactValue? Number.literalValue?
  rw [String.toList_ofList, htrim, hscan, Decimal.ofChars?_of_isDigits ne_nil isDigits,
    Option.map_some, hvalue]
  unfold signedValue
  by_cases hminus : sign = ['-']
  · simp [hminus]
  · simp [hminus]

theorem Number.abs_finite_intCast (n : Int) : (finite n).abs = finite n.natAbs := by
  unfold abs
  dsimp only
  by_cases hneg : n < 0
  · have hcast : (n : Rat) < 0 := by exact_mod_cast hneg
    rw [if_pos hcast, Nat.cast_natAbs, abs_of_neg hneg, Int.cast_neg]
  · have hcast : ¬(n : Rat) < 0 := by exact_mod_cast hneg
    rw [if_neg hcast, Nat.cast_natAbs, abs_of_nonneg (le_of_not_gt hneg)]

namespace Param

/-- The integer part of any value without its sign is a natural number. -/
theorem isCount_absTrunc (x : Number) : (absTrunc x).IsCount := by
  cases x with
  | nan | infinite => exact Number.isCount_zero
  | finite q => exact ⟨_, Number.abs_finite_intCast (q.num.tdiv q.den)⟩

/-- An integer text is numeric. Up to 53 binary digits it is read as the integer without its
sign. -/
theorem absInt_of_isIntegerText {s : String} {n : Int} (h : IsIntegerText s n) :
    isNumeric (some (.text s)) = true ∧
      (n.natAbs < 2 ^ 53 → absInt (some (.text s)) = .ok (.finite n.natAbs)) := by
  have hexact := h.exactValue?_eq
  refine ⟨?_, fun hlt => ?_⟩
  · rw [isNumeric, Number.isNumericText_eq, hexact, Option.isSome_some]
  · have hread : absInt (some (.text s)) = .ok (absTrunc (.ofText s)) := rfl
    rw [hread, Number.ofText_eq hexact, Number.ofRat_intCast hlt, absTrunc, Number.isFinite,
      if_pos rfl, Number.trunc_finite_intCast, Number.abs_finite_intCast]

end Param

/-! ### Users and addresses -/

namespace Identifiers

/-- Entries are split into identifiers: the numeric ones are read as users, in order, and the others
are addresses, in order. -/
structure Splits (entries : List String) (identifiers : Identifiers) : Prop where
  emails_eq : identifiers.emails = entries.filter fun s => !Param.isNumeric (some (.text s))
  users : List.Forall₂ (fun s x => Param.absInt (some (.text s)) = .ok x)
    (entries.filter fun s => Param.isNumeric (some (.text s))) identifiers.userIds
  length_add_length : identifiers.userIds.length + identifiers.emails.length = entries.length
  isCount : ∀ x ∈ identifiers.userIds, x.IsCount

theorem ofParam_eq (p : Param) :
    ofParam p = ⟨((Param.parseList p).filter Number.isNumericText).map
      fun s => Param.absTrunc (.ofText s),
      (Param.parseList p).filter fun s => !Number.isNumericText s⟩ := by
  unfold ofParam
  dsimp only
  rw [List.partition_eq_filter_filter]
  rfl

theorem splits_ofParam (p : Param) : Splits (Param.parseList p) (ofParam p) := by
  rw [ofParam_eq]
  -- nothing but the entries of the parameter is read
  generalize Param.parseList p = entries
  refine ⟨rfl, ?_, ?_, fun x hx => ?_⟩
  · exact List.forall₂_map_right_iff.2 (List.forall₂_same.2 fun s _ => rfl)
  · rw [List.length_map]
    exact (List.length_eq_length_filter_add _).symm
  · obtain ⟨s, -, rfl⟩ := List.mem_map.1 hx
    exact Param.isCount_absTrunc _

/-- A comma between two texts leaves the identifiers of both. -/
theorem ofParam_append_comma (a b : String) : ofParam (some (.text (a ++ "," ++ b))) =
    ⟨(ofParam (some (.text a))).userIds ++ (ofParam (some (.text b))).userIds,
      (ofParam (some (.text a))).emails ++ (ofParam (some (.text b))).emails⟩ := by
  have hcomma : "," = String.singleton ',' := rfl
  have hentries : Param.parseList (some (.text (a ++ "," ++ b))) =
      Param.parseList (some (.text a)) ++ Param.parseList (some (.text b)) := by
    rw [hcomma]
    exact Text.runs_append_singleton (by decide) a b
  simp only [ofParam_eq, hentries, List.filter_append, List.map_append]

/-- The identifiers of every parameter are its entries, none lost and none in two places. Integers
among them are users by their value without its sign. The entries of a text are its maximal runs
between blanks and commas, and the identifiers of two texts with a comma between them are those of
the one and of the other. -/
theorem ofParam_lossless (p : Param) (a b : String) :
    Splits (Param.parseList p) (ofParam p) ∧
      (∀ s ∈ Param.parseList p, ∀ n, IsIntegerText s n →
        Param.isNumeric (some (.text s)) = true ∧
          (n.natAbs < 2 ^ 53 → Param.absInt (some (.text s)) = .ok (.finite n.natAbs))) ∧
      (∀ entries, Param.parseList (some (.text a)) = entries ↔
        Text.CutsInto Text.isListSeparator a.toList (entries.map String.toList)) ∧
      ofParam (some (.text (a ++ "," ++ b))) =
        ⟨(ofParam (some (.text a))).userIds ++ (ofParam (some (.text b))).userIds,
          (ofParam (some (.text a))).emails ++ (ofParam (some (.text b))).emails⟩ :=
  ⟨splits_ofParam p, fun _ _ _ h => Param.absInt_of_isIntegerText h,
    fun _ => Text.runs_eq_iff_cutsInto, ofParam_append_comma a b⟩

/-- A user with a sign and zeros in front, and an address. -/
theorem ofParam_lossless_signed :
    let p : Param := some (.text "-007, author@example.org")
    ofParam p = ⟨[.finite 7], ["author@example.org"]⟩ ∧
      "-007" ∈ Param.parseList p ∧ IsIntegerText "-007" (-7) ∧
      Param.absInt (some (.text "-007")) = .ok (.finite (7 : Nat)) ∧
      Text.CutsInto Text.isListSeparator "-007".toList ["-007".toList] := by
  intro p
  have hmem : "-007" ∈ Param.parseList p := by decide +kernel
  have hsign : IsSign ['-'] := .inr (.inr rfl)
  have hdigits : IsDigits ['0', '0', '7'] := List.all_eq_true.1 rfl
  have hinteger : IsIntegerText "-007" (-7) := .intro hsign nofun hdigits
  obtain ⟨-, hintegers, hruns, hcomma⟩ := ofParam_lossless p "-007" " author@example.org"
  have hboth : ofParam p = ⟨[.finite 7], ["author@example.org"]⟩ :=
    hcomma.trans (by decide +kernel)
  exact ⟨hboth, hmem, hinteger, (hintegers _ hmem _ hinteger).2 (by decide), (hruns ["-007"]).1 rfl⟩

end Identifiers

end CommentSearch
