import Mathlib.Data.List.TakeWhile
import Mathlib.Order.Compare
import Mathlib.Order.PiLex
import Mathlib.Order.WithBot
import CommentSearch.Proofs.Digits
import CommentSearch.Proofs.ProvisioningRuns
import CommentSearch.Proofs.RoundedIntegers

/-!
# The order of versions

The segments of a version are numbers, so they have ranks in a linear order (`Number.rank`), and
a version has the sequence of their ranks, with the rank of zero wherever there are no more segments
(`Version.key`). Versions are compared by these sequences, lexicographically (`compares_key`). This
order is total and transitive, and zeros at the end are without influence. The mapping files divide
it at 5.0 and at 7.0 (`Version.mapping_monotone`).
-/

namespace CommentSearch

/-! ### Ranks -/

/-- The place of a number in the order of the rationals between two infinities. What is not a number
has no place of its own. -/
def Number.rank : Number → WithBot (WithTop Rat)
  | finite q => ((q : WithTop Rat) : WithBot (WithTop Rat))
  | infinite false => ((⊤ : WithTop Rat) : WithBot (WithTop Rat))
  | infinite true | nan => ⊥

theorem Number.lt_iff_rank_lt {x y : Number} (hx : x.IsWhole) (hy : y.IsWhole) :
    x.lt y = true ↔ x.rank < y.rank := by
  rcases hx with ⟨m, rfl⟩ | ⟨negative, rfl⟩
  · rcases hy with ⟨n, rfl⟩ | ⟨negative, rfl⟩
    · simp [lt, rank]
    · cases negative with
      | false => exact iff_of_true rfl (WithBot.coe_lt_coe.2 (WithTop.coe_lt_top _))
      | true => simp [lt, rank]
  · rcases hy with ⟨n, rfl⟩ | ⟨negative', rfl⟩
    · cases negative <;> simp [lt, rank]
    · cases negative <;> cases negative' <;> simp [lt, rank]

theorem Version.compares_rank {x y : Number} (hx : x.IsWhole) (hy : y.IsWhole) :
    (order x y).Compares x.rank y.rank := by
  have hlt := Number.lt_iff_rank_lt hx hy
  have hgt := Number.lt_iff_rank_lt hy hx
  unfold order
  split
  · exact hlt.1 ‹_›
  split
  · exact hgt.1 ‹_›
  · rename_i hnlt hngt
    exact le_antisymm (not_lt.1 (mt hgt.2 hngt)) (not_lt.1 (mt hlt.2 hnlt))

/-! ### Sequences -/

/-- Sequences are in the order of their first terms, or of the rest where these are the same. -/
theorem compares_then {α : Type} [LinearOrder α] {f g : Nat → α} {o o' : Ordering}
    (hhead : o.Compares (f 0) (g 0))
    (htail : o'.Compares (toLex fun i => f (i + 1)) (toLex fun i => g (i + 1))) :
    (o.then o').Compares (toLex f) (toLex g) := by
  have of_head {f g : Nat → α} (h : f 0 < g 0) : toLex f < toLex g :=
    ⟨0, fun i hi => absurd hi (Nat.not_lt_zero i), h⟩
  -- the first difference of the rest is that of the whole, one place later
  have of_tail {f g : Nat → α} (h : f 0 = g 0)
      (ht : toLex (fun i => f (i + 1)) < toLex fun i => g (i + 1)) : toLex f < toLex g := by
    obtain ⟨i, hbefore, hi⟩ := ht
    refine ⟨i + 1, fun j hj => ?_, hi⟩
    cases j with
    | zero => exact h
    | succ j => exact hbefore j (Nat.lt_of_succ_lt_succ hj)
  cases o with
  | lt => exact of_head hhead
  | gt => exact of_head hhead
  | eq =>
    cases o' with
    | lt => exact of_tail hhead htail
    | gt => exact of_tail hhead.symm htail
    | eq =>
      refine congrArg toLex (funext fun i => ?_)
      cases i with
      | zero => exact hhead
      | succ i => exact congrFun (toLex.injective htail) i

namespace Version

/-- The ranks of segments, with that of zero behind the last one. -/
def ranks (xs : List Number) (i : Nat) : WithBot (WithTop Rat) := (xs.getD i (.finite 0)).rank

/-- Segments are compared by their ranks, lexicographically. -/
theorem compares_ranks {xs ys : List Number} (hxs : ∀ x ∈ xs, x.IsWhole)
    (hys : ∀ y ∈ ys, y.IsWhole) :
    (compareSegments xs ys).Compares (toLex (ranks xs)) (toLex (ranks ys)) := by
  have hzero : (Number.finite 0).IsWhole := Number.isCount_zero.isWhole
  induction xs generalizing ys with
  | nil =>
    induction ys with
    | nil =>
      rw [compareSegments]
      exact Eq.refl (toLex (ranks []))
    | cons y ys ih =>
      obtain ⟨hy, hys⟩ := List.forall_mem_cons.1 hys
      rw [compareSegments]
      exact compares_then (f := ranks []) (g := ranks (y :: ys)) (compares_rank hzero hy) (ih hys)
  | cons x xs ih =>
    obtain ⟨hx, hxs⟩ := List.forall_mem_cons.1 hxs
    cases ys with
    | nil =>
      have hnil : ∀ y ∈ ([] : List Number), y.IsWhole := List.forall_mem_nil _
      rw [compareSegments]
      exact compares_then (f := ranks (x :: xs)) (g := ranks []) (compares_rank hx hzero)
        (ih hxs hnil)
    | cons y ys =>
      obtain ⟨hy, hys⟩ := List.forall_mem_cons.1 hys
      rw [compareSegments]
      exact compares_then (f := ranks (x :: xs)) (g := ranks (y :: ys)) (compares_rank hx hy)
        (ih hxs hys)

/-- The sequence that a version is compared by. -/
def key (v : String) : Lex (Nat → WithBot (WithTop Rat)) := toLex (ranks (segments v))

theorem isWhole_of_mem_segments {v : String} : ∀ x ∈ segments v, x.IsWhole := by
  intro x hx
  obtain ⟨piece, -, rfl⟩ := List.mem_map.1 hx
  exact Number.isWhole_ofInt _

theorem compares_key (a b : String) : (compare a b).Compares (key a) (key b) :=
  compares_ranks isWhole_of_mem_segments isWhole_of_mem_segments

theorem isLE_iff_key_le {a b : String} : (compare a b).isLE = true ↔ key a ≤ key b := by
  rw [Ordering.isLE_iff_ne_gt]
  exact (compares_key a b).ne_gt

end Version

/-! ### Blanks around versions -/

theorem scanSign_cons_append (c : Char) (cs ds : List Char) : Decimal.scanSign (c :: cs ++ ds) =
    ((Decimal.scanSign (c :: cs)).1, (Decimal.scanSign (c :: cs)).2 ++ ds) := by
  by_cases hminus : c = '-'
  · subst hminus
    rfl
  by_cases hplus : c = '+'
  · subst hplus
    rfl
  · simp [Decimal.scanSign, hminus, hplus]

section

variable {before after : List Char} (hbefore : ∀ c ∈ before, Text.isBlank c = true)
  (hafter : ∀ c ∈ after, Text.isBlank c = true)

include hbefore hafter

/-- Blanks around a text leave the integer at its start. -/
theorem leadingInt?_between_blanks (cs : List Char) :
    Number.leadingInt? (String.ofList (before ++ (cs ++ after))) =
      Number.leadingInt? (String.ofList cs) := by
  have hdigits : after.takeWhile Char.isDigit = [] := by
    cases after with
    | nil => rfl
    | cons c after =>
      refine List.takeWhile_cons_of_neg fun hdigit => ?_
      have hplain := isBlank_of_isDigit (Char.isDigit_iff_toNat.1 hdigit)
      exact absurd (hafter c List.mem_cons_self) (by simp [hplain])
  have hdrop : after.dropWhile Text.isBlank = [] := List.dropWhile_eq_nil_iff.2 hafter
  unfold Number.leadingInt?
  rw [String.toList_ofList, String.toList_ofList, List.dropWhile_append_of_pos hbefore,
    List.dropWhile_append, hdrop]
  cases cs.dropWhile Text.isBlank with
  | nil => rfl
  | cons d ds =>
    rw [List.isEmpty_cons, if_neg Bool.false_ne_true, scanSign_cons_append]
    dsimp only
    rw [List.takeWhile_append, hdigits, List.append_nil]
    split
    · rename_i hall
      rw [(List.takeWhile_prefix _).eq_of_length hall]
    · rfl

end

namespace Version

/-- The numbers that the segments of a version stand for, by its characters. -/
def segmentsOf (cs : List Char) : List Number :=
  (cs.splitOn '.').map (Number.leading ∘ String.ofList)

theorem segments_eq (v : String) : segments v = segmentsOf v.toList := by
  unfold segments segmentsOf Text.splitAt
  rw [List.map_map]

theorem segmentsOf_append_cons (cs ds : List Char) :
    segmentsOf (cs ++ '.' :: ds) = segmentsOf cs ++ segmentsOf ds := by
  unfold segmentsOf
  rw [List.splitOn_append_cons_self, List.map_append]

theorem segmentsOf_between_blanks (cs : List Char) {before after : List Char}
    (hbefore : ∀ c ∈ before, Text.isBlank c = true)
    (hafter : ∀ c ∈ after, Text.isBlank c = true) :
    segmentsOf (before ++ (cs ++ after)) = segmentsOf cs := by
  have hdot {blanks : List Char} (h : ∀ c ∈ blanks, Text.isBlank c = true) : '.' ∉ blanks :=
    fun hmem => absurd (h _ hmem) (by decide)
  by_cases hmem : '.' ∈ cs
  · obtain ⟨xs, ys, rfl⟩ := List.append_of_mem hmem
    -- the blanks in front belong to the first part, and those behind to the second
    have hfirst : segmentsOf (before ++ (xs ++ [])) = segmentsOf xs :=
      segmentsOf_between_blanks xs hbefore nofun
    have hsecond : segmentsOf ([] ++ (ys ++ after)) = segmentsOf ys :=
      segmentsOf_between_blanks ys nofun hafter
    rw [List.append_nil] at hfirst
    rw [List.nil_append] at hsecond
    rw [segmentsOf_append_cons, ← hfirst, ← hsecond, ← segmentsOf_append_cons]
    simp only [List.append_assoc, List.cons_append]
  · have hall : '.' ∉ before ++ (cs ++ after) := by
      simp [hdot hbefore, hdot hafter, hmem]
    unfold segmentsOf
    rw [List.splitOn_eq_singleton hall, List.splitOn_eq_singleton hmem]
    simp only [List.map_cons, List.map_nil, Function.comp_apply, Number.leading,
      leadingInt?_between_blanks hbefore hafter]
termination_by cs.length

theorem segments_trim (v : String) : segments (Text.trim v) = segments v := by
  obtain ⟨before, after, hbefore, hafter, heq⟩ := exists_blanks_trimChars v.toList
  rw [segments_eq, segments_eq, Text.trim, String.toList_ofList]
  conv_rhs => rw [heq]
  exact (segmentsOf_between_blanks _ hbefore hafter).symm

/-! ### Zeros at the end -/

/-- A number of segments that are zero. -/
def zeros (k : Nat) : String := String.join (List.replicate k ".0")

theorem segments_append_zeros (v : String) (k : Nat) :
    segments (v ++ zeros k) = segments v ++ List.replicate k (.finite 0) := by
  induction k generalizing v with
  | zero => simp [zeros]
  | succ k ih =>
    have hzero : segments (v ++ ".0") = segments v ++ [.finite 0] := by
      have hlast : segmentsOf ['0'] = [.finite 0] := by decide +kernel
      have hchars : (v ++ ".0").toList = v.toList ++ '.' :: ['0'] := String.toList_append
      rw [segments_eq, segments_eq, hchars, segmentsOf_append_cons, hlast]
    have hzeros : v ++ zeros (k + 1) = v ++ ".0" ++ zeros k := by
      rw [zeros, List.replicate_succ, String.join_cons, ← String.append_assoc]
      rfl
    rw [hzeros, ih, hzero, List.append_assoc]
    rfl

theorem ranks_append_zeros (xs : List Number) (k : Nat) :
    ranks (xs ++ List.replicate k (.finite 0)) = ranks xs := by
  funext i
  unfold ranks
  rw [List.getD_eq_getElem?_getD, List.getD_eq_getElem?_getD, List.getElem?_append]
  split
  · rfl
  · rename_i hi
    rw [List.getElem?_eq_none (Nat.le_of_not_lt hi), List.getElem?_replicate]
    split <;> rfl

theorem key_append_zeros (v : String) (k : Nat) : key (v ++ zeros k) = key v := by
  rw [key, segments_append_zeros, ranks_append_zeros]
  rfl

/-! ### The order -/

variable {a b c : String}

theorem compare_congr {a' b' : String} (ha : key a = key a') (hb : key b = key b') :
    compare a b = compare a' b' := by
  have h := compares_key a b
  rw [ha, hb] at h
  exact h.inj (compares_key a' b')

theorem compare_swap (a b : String) : compare b a = (compare a b).swap :=
  (compares_key b a).inj (compares_key a b).swap

theorem isLE_trans (hab : (compare a b).isLE = true) (hbc : (compare b c).isLE = true) :
    (compare a c).isLE = true :=
  isLE_iff_key_le.2 ((isLE_iff_key_le.1 hab).trans (isLE_iff_key_le.1 hbc))

theorem lt_iff_not_isLE : compare a b = .lt ↔ ¬(compare b a).isLE = true := by
  rw [isLE_iff_key_le, not_le]
  exact (compares_key a b).eq_lt

theorem lt_of_isLE_of_lt (hab : (compare a b).isLE = true) (hbc : compare b c = .lt) :
    compare a c = .lt := by
  rw [lt_iff_not_isLE] at hbc ⊢
  exact fun hca => hbc (isLE_trans hca hab)

/-- Versions with different segments at the start are in the order of these. -/
theorem compare_of_head_lt {x y : Number} {xs ys : List Number} (ha : segments a = x :: xs)
    (hb : segments b = y :: ys) (h : order x y = .lt) : compare a b = .lt := by
  rw [compare, ha, hb, compareSegments, h]
  rfl

end Version

/-! ### Mapping files -/

namespace MappingFile

/-- The place of a mapping file in the order of the versions that it is for. -/
def position : MappingFile → Nat
  | beforeFive => 0
  | beforeSeven => 1
  | fromSeven => 2

/-- Whether a version is one of those that a mapping file is for: before 5.0, from there before 7.0,
or from there. -/
def Covers : MappingFile → String → Prop
  | beforeFive, v => Version.compare v "5.0" = .lt
  | beforeSeven, v => (Version.compare "5.0" v).isLE = true ∧ Version.compare v "7.0" = .lt
  | fromSeven, v => (Version.compare "7.0" v).isLE = true

/-- A version has the mapping file that is for it. -/
theorem ofVersion_eq_iff_covers {v : String} {file : MappingFile} :
    ofVersion v = file ↔ file.Covers v := by
  have hbounds : (Version.compare "5.0" "7.0").isLE = true := by
    have hsegments : Version.segments "5.0" = [.finite 5, .finite 0] ∧
        Version.segments "7.0" = [.finite 7, .finite 0] := by
      decide +kernel
    rw [Version.compare_of_head_lt hsegments.1 hsegments.2 (by decide)]
    rfl
  have hfive : (Version.compare "5.0" v).isLE = true ↔ ¬Version.compare v "5.0" = .lt := by
    rw [Version.lt_iff_not_isLE, not_not]
  have hseven : (Version.compare "7.0" v).isLE = true ↔ ¬Version.compare v "7.0" = .lt := by
    rw [Version.lt_iff_not_isLE, not_not]
  -- what is before the first bound is before the second one too
  have hless : Version.compare v "5.0" = .lt → Version.compare v "7.0" = .lt := by
    rw [← not_imp_not, ← hfive, ← hseven]
    exact fun h => Version.isLE_trans hbounds h
  unfold ofVersion
  by_cases hv : Version.compare v "5.0" = .lt
  · cases file <;> simp [Covers, hfive, hseven, hv, hless hv]
  · by_cases hv' : Version.compare v "7.0" = .lt
    · cases file <;> simp [Covers, hfive, hseven, hv, hv']
    · cases file <;> simp [Covers, hfive, hseven, hv, hv']

/-- A later version has no earlier mapping file. -/
theorem position_ofVersion_le {a b : String} (h : (Version.compare a b).isLE = true) :
    (ofVersion a).position ≤ (ofVersion b).position := by
  unfold ofVersion
  by_cases hfive : Version.compare b "5.0" = .lt
  · rw [if_pos hfive, if_pos (Version.lt_of_isLE_of_lt h hfive)]
  by_cases hseven : Version.compare b "7.0" = .lt
  · rw [if_neg hfive, if_pos hseven, if_pos (Version.lt_of_isLE_of_lt h hseven)]
    split <;> decide
  · rw [if_neg hfive, if_neg hseven]
    split
    · decide
    split <;> decide

end MappingFile

/-- A version that is not blank has its own mapping file, with blanks around it and without, unless
the distribution takes one for all of its versions. -/
theorem Work.run_mappingFile {version distribution : String}
    (hdistribution : Text.toSmall distribution ≠ "opensearch")
    (hversion : Text.isAllBlank version = false) (s : Session) :
    (mappingFile version distribution).run.run s = (.ok (.ofVersion version), s) := by
  have hnone : MappingFile.ofDistribution? distribution = none := if_neg hdistribution
  have htold : Version.told? version = some (Text.trim version) := by
    unfold Version.told?
    rw [hversion, if_neg Bool.false_ne_true]
  have htrim : MappingFile.ofVersion (Text.trim version) = .ofVersion version := by
    have hkey : Version.key (Text.trim version) = Version.key version := by
      rw [Version.key, Version.segments_trim]
      rfl
    unfold MappingFile.ofVersion
    rw [Version.compare_congr hkey rfl, Version.compare_congr hkey rfl]
  unfold mappingFile
  rw [hnone, htold, ← htrim]
  rfl

/-- Versions are compared in a total and transitive order, in which zeros at the end are without
influence. Where the distribution does not take one mapping file for all of its versions, a version
that is not blank has the one that is for it, and a later version has no earlier one. -/
theorem Version.mapping_monotone (a b c : String) (j k : Nat) :
    compare b a = (compare a b).swap ∧
      ((compare a b).isLE = true → (compare b c).isLE = true → (compare a c).isLE = true) ∧
      compare (a ++ zeros j) (b ++ zeros k) = compare a b ∧
      ∀ (s : Session) (distribution : String), Text.toSmall distribution ≠ "opensearch" →
        Text.isAllBlank a = false → Text.isAllBlank b = false →
        ∃ file file', (Work.mappingFile a distribution).run.run s = (.ok file, s) ∧
          (Work.mappingFile b distribution).run.run s = (.ok file', s) ∧
          ((compare a b).isLE = true → file.position ≤ file'.position) ∧
          ∀ file'', file = file'' ↔ file''.Covers a := by
  refine ⟨compare_swap a b, isLE_trans,
    compare_congr (key_append_zeros a j) (key_append_zeros b k), ?_⟩
  intro s distribution hdistribution ha hb
  exact ⟨_, _, Work.run_mappingFile hdistribution ha s, Work.run_mappingFile hdistribution hb s,
    MappingFile.position_ofVersion_le, fun _ => MappingFile.ofVersion_eq_iff_covers⟩

/-- A version with blanks around it and a suffix is before the next one, and has an earlier mapping
file. -/
theorem Version.mapping_monotone_suffix :
    compare " 6.8-rc1 " "7" = .lt ∧
      compare (" 6.8-rc1 " ++ zeros 2) ("7" ++ zeros 3) = .lt ∧
      (Work.mappingFile " 6.8-rc1 " "").run.run {} = (.ok .beforeSeven, {}) ∧
      ∃ file', (Work.mappingFile "7" "").run.run {} = (.ok file', {}) ∧
        MappingFile.position .beforeSeven ≤ file'.position := by
  have hsegments : segments " 6.8-rc1 " = [.finite 6, .finite 8] ∧ segments "7" = [.finite 7] ∧
      segments "5.0" = [.finite 5, .finite 0] ∧ segments "7.0" = [.finite 7, .finite 0] := by
    decide +kernel
  obtain ⟨hfirst, hsecond, hfive, hseven⟩ := hsegments
  have hlt : compare " 6.8-rc1 " "7" = .lt := compare_of_head_lt hfirst hsecond (by decide)
  have hcovers : MappingFile.beforeSeven.Covers " 6.8-rc1 " := by
    refine ⟨?_, compare_of_head_lt hfirst hseven (by decide)⟩
    rw [compare_of_head_lt hfive hfirst (by decide)]
    rfl
  obtain ⟨-, -, hzeros, hfiles⟩ := mapping_monotone " 6.8-rc1 " "7" "7" 2 3
  obtain ⟨file, file', hrun, hrun', hle, hiff⟩ :=
    hfiles {} "" (by decide) (by decide) (by decide)
  obtain rfl := (hiff _).2 hcovers
  exact ⟨hlt, hzeros.trans hlt, hrun, file', hrun', hle (by rw [hlt]; rfl)⟩

end CommentSearch
