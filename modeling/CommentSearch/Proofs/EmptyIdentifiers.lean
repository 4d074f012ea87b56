import CommentSearch.Proofs.Identifiers
import CommentSearch.Proofs.WidenedStatus

/-!
# Empty identifiers

The text of a number is never empty (`Number.toText_ne_empty`), and neither is a run between blanks
and commas. So an identifier is empty only where an empty text is an item of a list
(`Param.ListsEmpty`), and only then are the comments without an address offered
(`empty_identifier_iff`).
-/

namespace CommentSearch

/-! ### Texts of numbers -/

namespace Number

/-- Digits that make a number other than zero have one that is significant. -/
theorem significant_ne_nil {digits : List Char} (h : Decimal.digitsValue digits ≠ 0) :
    significant digits ≠ [] := by
  intro hnil
  have hzeros : ∀ c ∈ digits, c = '0' := by
    unfold significant at hnil
    rw [List.reverse_eq_nil_iff, List.dropWhile_eq_nil_iff] at hnil
    exact fun c hc => of_decide_eq_true (hnil c (List.mem_reverse.2 hc))
  have hvalue := digitsValue_zeros_append digits.length []
  rw [List.append_nil, ← List.eq_replicate_of_mem hzeros] at hvalue
  exact h hvalue

theorem layout_ne_nil {digits : List Char} (h : digits ≠ []) (point : Int) :
    layout digits point ≠ [] := by
  unfold layout
  split
  · exact List.append_ne_nil_of_left_ne_nil h _
  split
  · exact List.append_ne_nil_of_right_ne_nil _ (List.cons_ne_nil _ _)
  split
  · exact List.cons_ne_nil _ _
  split
  · exact absurd rfl h
  · exact List.cons_ne_nil _ _
  · exact List.cons_ne_nil _ _

/-- A decimal that is found for a rational rounds to it. -/
theorem toNumber_of_decimalOf? {q : Rat} {places : Nat} {d : Decimal}
    (h : decimalOf? q places = some d) : d.toNumber = finite q := by
  unfold decimalOf? at h
  dsimp only at h
  split at h
  · rename_i hlower hupper
    have hlower := of_decide_eq_true hlower
    have hupper := of_decide_eq_true hupper
    split at h
    · exact Option.some.inj h ▸ hlower
    split at h
    · exact Option.some.inj h ▸ hupper
    · obtain rfl := Option.some.inj h
      split
      · exact hlower
      · exact hupper
  · rename_i hlower _
    exact Option.some.inj h ▸ of_decide_eq_true hlower
  · rename_i _ hupper
    exact Option.some.inj h ▸ of_decide_eq_true hupper
  · cases h

theorem two_pow_succ_le (k : Nat) : 2 ^ (k + 1) ≤ 10 ^ k + 1 := by
  induction k with
  | zero => decide
  | succ k ih =>
    have hpos : 1 ≤ 10 ^ k := Nat.one_le_pow _ _ (by decide)
    rw [Nat.pow_succ, Nat.pow_succ 10]
    omega

theorem mantissa_allPlaces_ne_zero {q : Rat} (hq : 0 < q) : (allPlaces q).mantissa ≠ 0 := by
  have hden : (q.den : Rat) ≤ 10 ^ q.den.log2 := by
    have hlog : q.den < 2 ^ (q.den.log2 + 1) := Nat.lt_log2_self
    -- as many decimal places as the denominator has binary digits after the first one do
    exact_mod_cast Nat.le_of_lt_succ (hlog.trans_le (two_pow_succ_le _))
  have hone : 1 ≤ q * 10 ^ q.den.log2 := by
    have hnum : (1 : Rat) ≤ q.num := by exact_mod_cast Rat.num_pos.2 hq
    calc (1 : Rat) ≤ q.num := hnum
      _ = q * q.den := (Rat.mul_den_eq_num q).symm
      _ ≤ q * 10 ^ q.den.log2 := mul_le_mul_of_nonneg_left hden hq.le
  have hfloor : 1 ≤ (q * 10 ^ q.den.log2).floor := Rat.le_floor_iff.2 (by exact_mod_cast hone)
  unfold allPlaces
  dsimp only
  omega

/-- The decimal of a positive rational is not zero. -/
theorem mantissa_shortest_ne_zero {q : Rat} (hq : 0 < q) : (shortest q).mantissa ≠ 0 := by
  unfold shortest
  cases hfound : (List.range 17).findSome? fun i => decimalOf? q (i + 1) with
  | none => exact mantissa_allPlaces_ne_zero hq
  | some d =>
    obtain ⟨i, -, hd⟩ := List.exists_of_findSome?_eq_some hfound
    -- a decimal that is zero rounds to zero, and not to the rational
    intro hzero
    have hrounds := toNumber_of_decimalOf? hd
    rw [Option.getD_some] at hzero
    rw [Decimal.toNumber, if_pos hzero] at hrounds
    exact hq.ne (finite.inj hrounds)

theorem positiveChars_ne_nil {q : Rat} (hq : 0 < q) : positiveChars q ≠ [] := by
  have hvalue : Decimal.digitsValue (Nat.toDigits 10 (shortest q).mantissa) ≠ 0 := by
    rw [digitsValue_toDigits]
    exact mantissa_shortest_ne_zero hq
  exact layout_ne_nil (significant_ne_nil hvalue) _

/-- The text of a number is not empty. -/
theorem toText_ne_empty (x : Number) : x.toText ≠ "" := by
  have hchars : x.toChars ≠ [] := by
    cases x with
    | nan => decide
    | infinite negative => cases negative <;> decide
    | finite q =>
      unfold toChars
      dsimp only
      split
      · exact List.cons_ne_nil _ _
      · rename_i hzero
        split
        · exact List.cons_ne_nil _ _
        · rename_i hneg
          exact positiveChars_ne_nil (lt_of_le_of_ne (le_of_not_gt hneg) (Ne.symm hzero))
  intro hempty
  exact hchars (by simpa [toText] using hempty)

end Number

/-! ### Entries -/

/-- Only the empty text has an empty text form. -/
theorem Scalar.toText_eq_empty_iff {x : Scalar} : x.toText = "" ↔ x = .text "" := by
  cases x with
  | text s => simp [toText]
  | number x => simp [toText, Number.toText_ne_empty]
  | bool b => cases b <;> simp [toText]

namespace Text

variable {isSeparator : Char → Bool}

theorem nil_notMem_of_cutsInto {cs : List Char} {runs : List (List Char)}
    (h : CutsInto isSeparator cs runs) : [] ∉ runs := by
  induction h with
  | gap => exact List.not_mem_nil
  | run _ ne_nil _ _ _ ih => exact List.not_mem_cons_of_ne_of_not_mem ne_nil.symm ih

/-- No run between separators is empty. -/
theorem empty_notMem_runs (s : String) : "" ∉ runs isSeparator s := by
  intro hmem
  have hruns := runs_eq_iff_cutsInto.1 (rfl : runs isSeparator s = _)
  exact nil_notMem_of_cutsInto hruns (List.mem_map.2 ⟨"", hmem, rfl⟩)

end Text

namespace Param

/-- A parameter that is a list with the empty text among its items. -/
def ListsEmpty (p : Param) : Prop := ∃ items, p = some (.list items) ∧ .text "" ∈ items

variable {p : Param}

/-- The entries of a list are the text forms of its scalars, empty for the empty text only. -/
theorem empty_mem_parseList_list_iff {items : List Value} :
    "" ∈ parseList (some (.list items)) ↔ .text "" ∈ items := by
  have hscalar (v : Value) : v.scalar? = some (.text "") ↔ v = .text "" := by
    cases v <;> simp [Value.scalar?]
  simp [parseList, toList, Scalar.toText_eq_empty_iff, hscalar]

/-- An entry of a parameter is empty only if it is listed. -/
theorem empty_mem_parseList_iff : "" ∈ parseList p ↔ p.ListsEmpty := by
  constructor
  · intro hmem
    cases p with
    | none => exact absurd hmem List.not_mem_nil
    | some v =>
      cases v with
      | list items => exact ⟨items, rfl, empty_mem_parseList_list_iff.1 hmem⟩
      | text | number | bool => exact absurd hmem (Text.empty_notMem_runs _)
      | null | object => exact absurd hmem List.not_mem_nil
  · rintro ⟨items, rfl, hmem⟩
    exact empty_mem_parseList_list_iff.2 hmem

/-- A list with an item is not empty. -/
theorem ListsEmpty.isEmpty_eq (h : p.ListsEmpty) : p.isEmpty = false := by
  obtain ⟨items, rfl, hmem⟩ := h
  simp [isEmpty, List.ne_nil_of_mem hmem]

end Param

theorem Identifiers.empty_mem_emails_iff {p : Param} :
    "" ∈ (ofParam p).emails ↔ p.ListsEmpty := by
  have hnumeric : Param.isNumeric (some (.text "")) = false := by decide
  rw [(splits_ofParam p).emails_eq, List.mem_filter, hnumeric, Param.empty_mem_parseList_iff]
  simp

/-! ### Comments without an address -/

/-- A clause of the status is widened by the comments of the authors with some addresses. -/
def Query.OffersEmails (q : Query) (emails : List Scalar) : Prop :=
  ∃ clause users, q = .should [clause, users, .terms "comment_author_email.raw" emails]

theorem offersEmails_widened_iff {clause : Query} {identifiers : Identifiers}
    {emails : List Scalar} : (widened clause identifiers).OffersEmails emails ↔
      emails = identifiers.emails.map .text := by
  constructor
  · rintro ⟨_, _, heq⟩
    obtain ⟨-, -, heq⟩ : _ ∧ _ ∧ _ = emails := by simpa [widened] using heq
    exact heq.symm
  · rintro rfl
    exact ⟨clause, _, rfl⟩

/-- The plain clause of the status is not widened. -/
theorem not_offersEmails_termOrTerms (field : String) (values emails : List Scalar) :
    ¬(termOrTerms field values).OffersEmails emails := by
  rintro ⟨clause, users, heq⟩
  unfold termOrTerms at heq
  split at heq <;> cases heq

/-- An entry of a parameter, and an address among its identifiers, is empty only where the parameter
is a list with the empty text as an item. The node of the status offers the comments without an
address for such identifiers, and for no others. -/
theorem empty_identifier_iff (p : Param) (r : Request) :
    ("" ∈ Param.parseList p ↔ Param.ListsEmpty p) ∧
      ("" ∈ (Identifiers.ofParam p).emails ↔ Param.ListsEmpty p) ∧
      ((∃ node emails, statusNode r = some node ∧ node.OffersEmails emails ∧ .text "" ∈ emails) ↔
        r.HasStatus ∧ Param.ListsEmpty (r.get? "include_unapproved")) := by
  refine ⟨Param.empty_mem_parseList_iff, Identifiers.empty_mem_emails_iff, ?_⟩
  have hmem_iff (emails : List String) :
      Scalar.text "" ∈ emails.map Scalar.text ↔ "" ∈ emails := by
    simp
  constructor
  · rintro ⟨node, emails, hnode, hoffers, hmem⟩
    by_cases hstatus : r.HasStatus
    · rw [Request.statusNode_of_hasStatus hstatus] at hnode
      split at hnode
      · obtain rfl := Option.some.inj hnode
        exact absurd hoffers (not_offersEmails_termOrTerms _ _ emails)
      · obtain rfl := Option.some.inj hnode
        obtain rfl := offersEmails_widened_iff.1 hoffers
        exact ⟨hstatus, Identifiers.empty_mem_emails_iff.1 ((hmem_iff _).1 hmem)⟩
    · rw [Request.statusNode_of_not_hasStatus hstatus] at hnode
      cases hnode
  · rintro ⟨hstatus, hlists⟩
    have hnode := Request.statusNode_of_hasStatus hstatus
    rw [hlists.isEmpty_eq, if_neg Bool.false_ne_true] at hnode
    exact ⟨_, _, hnode, offersEmails_widened_iff.2 rfl,
      (hmem_iff _).2 (Identifiers.empty_mem_emails_iff.2 hlists)⟩

/-- A list with the empty text as its one item gives an empty address, and a text with separators
only gives none. -/
theorem empty_identifier_listed :
    Param.parseList (some (.list [.text ""])) = [""] ∧
      (Identifiers.ofParam (some (.list [.text ""]))).emails = [""] ∧
      Param.parseList (some (.text " , ")) = [] ∧
      statusNode [("status", .text "approve"), ("include_unapproved", .list [.text ""])] =
        some (.should [.term "comment_approved" (.number (.finite 1)), .terms "user_id" [],
          .terms "comment_author_email.raw" [.text ""]]) :=
  ⟨rfl, by decide, by decide, rfl⟩

end CommentSearch
