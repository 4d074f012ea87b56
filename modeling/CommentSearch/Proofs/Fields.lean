import CommentSearch.Value

/-!
# The fields of objects

What is read under a key after fields are set, restricted to some keys, or replaced by others that
agree on the keys that count.

`Fields.restrict` keeps the fields under some keys only, and `Fields.AgreeOn` says that two objects
have the same values under some keys. Fields always agree with their own restriction
(`agreeOn_restrict`), and so do any two objects that agree where they are restricted to.
-/

namespace CommentSearch

/-! ### Look-ups -/

theorem mem_of_lookup {α : Type} {entries : List (String × α)} {key : String} {x : α}
    (h : entries.lookup key = some x) : (key, x) ∈ entries := by
  obtain ⟨before, after, rfl, -⟩ := List.lookup_eq_some_iff.1 h
  exact List.mem_append_right before List.mem_cons_self

theorem lookup_map_snd {α β : Type} (f : α → β) (entries : List (String × α)) (key : String) :
    (entries.map fun entry => (entry.1, f entry.2)).lookup key = (entries.lookup key).map f := by
  induction entries with
  | nil => rfl
  | cons entry entries ih =>
    obtain ⟨name, x⟩ := entry
    rw [List.map_cons, List.lookup_cons, List.lookup_cons, ih]
    dsimp only
    cases key == name <;> rfl

/-- Entries that are filtered by their keys are looked up under the keys that are kept. -/
theorem lookup_filter {α : Type} (keeps : String → Bool) (entries : List (String × α))
    (key : String) : (entries.filter fun entry => keeps entry.1).lookup key =
      if keeps key then entries.lookup key else none := by
  induction entries with
  | nil => simp
  | cons entry entries ih =>
    obtain ⟨name, x⟩ := entry
    rw [List.filter_cons, List.lookup_cons]
    by_cases hname : key = name
    · subst hname
      cases hkeeps : keeps key with
      | true => simp
      | false => simpa [hkeeps] using ih
    · have hne : (key == name) = false := by simpa using hname
      rw [hne]
      dsimp only
      rw [← ih]
      split
      · rw [List.lookup_cons, hne]
      · rfl

/-- Entries without those under a key. -/
theorem lookup_filter_ne {α : Type} (entries : List (String × α)) (key name : String) :
    (entries.filter fun entry => entry.1 != key).lookup name =
      if name = key then none else entries.lookup name := by
  rw [lookup_filter fun other => other != key]
  by_cases heq : name = key <;> simp [heq]

@[simp] theorem Value.get?_object (fields : Fields) (key : String) :
    (Value.object fields).get? key = fields.get? key := rfl

namespace Fields

/-! ### Reading -/

@[simp] theorem get?_nil (key : String) : get? [] key = none := rfl

theorem get?_cons (name : String) (v : Value) (fields : Fields) (key : String) :
    get? ((name, v) :: fields) key = if key = name then some v else get? fields key := by
  unfold get?
  rw [List.lookup_cons]
  split <;> split <;> simp_all

@[simp] theorem get?_cons_self (name : String) (v : Value) (fields : Fields) :
    get? ((name, v) :: fields) name = some v := by
  rw [get?_cons, if_pos rfl]

theorem get?_cons_of_ne {name key : String} (v : Value) (fields : Fields) (h : key ≠ name) :
    get? ((name, v) :: fields) key = get? fields key := by
  rw [get?_cons, if_neg h]

theorem get?_append (fields others : Fields) (key : String) :
    get? (fields ++ others) key = (get? fields key).or (get? others key) := by
  induction fields with
  | nil => rfl
  | cons field fields ih =>
    obtain ⟨name, v⟩ := field
    rw [List.cons_append, get?_cons, get?_cons, ih]
    split <;> rfl

theorem mem_of_get? {fields : Fields} {key : String} {v : Value} (h : get? fields key = some v) :
    (key, v) ∈ fields :=
  mem_of_lookup h

/-- No field has a key under which nothing is read. -/
theorem get?_eq_none_iff {fields : Fields} {key : String} :
    get? fields key = none ↔ ∀ field ∈ fields, field.1 ≠ key := by
  induction fields with
  | nil => simp
  | cons field fields ih =>
    obtain ⟨name, v⟩ := field
    rw [get?_cons]
    split
    · rename_i heq
      simp [heq]
    · rename_i hne
      simp only [ih, List.mem_cons, forall_eq_or_imp]
      exact ⟨fun h => ⟨Ne.symm hne, h⟩, And.right⟩

/-! ### Setting -/

theorem get?_map_set (fields : Fields) (key name : String) (v : Value) :
    get? (fields.map fun field => if field.1 == key then (key, v) else field) name =
      if name = key then (get? fields key).map fun _ => v else get? fields name := by
  induction fields with
  | nil => simp
  | cons field fields ih =>
    obtain ⟨other, w⟩ := field
    rw [List.map_cons]
    by_cases hother : other = key
    · subst hother
      rw [if_pos (beq_self_eq_true _), get?_cons, get?_cons, get?_cons, ih]
      split <;> simp
    · rw [if_neg (by simpa using hother), get?_cons, get?_cons, get?_cons, ih]
      by_cases hname : name = key
      · simp [hname, Ne.symm hother]
      · simp [hname]

/-- A field that is set is read under its key, and every other field is as before. -/
theorem get?_set (fields : Fields) (key name : String) (v : Value) :
    get? (fields.set key v) name = if name = key then some v else get? fields name := by
  unfold set
  split
  · rename_i hany
    -- some field has the key, so that setting replaces the value of every field that has it
    rw [get?_map_set]
    split
    · obtain ⟨w, hw⟩ : ∃ w, get? fields key = some w := by
        rw [← Option.ne_none_iff_exists', ne_eq, get?_eq_none_iff]
        intro hnone
        obtain ⟨field, hmem, heq⟩ := List.any_eq_true.1 hany
        exact hnone field hmem (by simpa using heq)
      rw [hw, Option.map_some]
    · rfl
  · rename_i hany
    -- no field has the key: the new field comes last
    rw [get?_append, get?_cons, get?_nil]
    split
    · rename_i heq
      have hnone : get? fields name = none := by
        rw [get?_eq_none_iff]
        intro field hmem hkey
        exact hany (List.any_eq_true.2 ⟨field, hmem, by simp [hkey, heq]⟩)
      rw [hnone, Option.none_or]
    · rw [Option.or_none]

/-! ### Restriction and agreement -/

/-- The fields under some keys, in their order. -/
def restrict (fields : Fields) (names : List String) : Fields :=
  fields.filter fun field => field.1 ∈ names

/-- Two objects have the same values under some keys. -/
def AgreeOn (names : List String) (fields others : Fields) : Prop :=
  ∀ name ∈ names, fields.get? name = others.get? name

theorem get?_restrict (fields : Fields) (names : List String) (key : String) :
    get? (fields.restrict names) key = if key ∈ names then get? fields key else none := by
  have hlookup := lookup_filter (fun name => decide (name ∈ names)) fields key
  simp only [decide_eq_true_eq] at hlookup
  exact hlookup

theorem get?_restrict_of_notMem {names : List String} {key : String} (fields : Fields)
    (h : key ∉ names) : get? (fields.restrict names) key = none := by
  rw [get?_restrict, if_neg h]

theorem AgreeOn.mono {names fewer : List String} {fields others : Fields}
    (h : AgreeOn names fields others) (hsub : ∀ name ∈ fewer, name ∈ names) :
    AgreeOn fewer fields others :=
  fun name hname => h name (hsub name hname)

/-- Fields agree with their restriction on the keys that it keeps. -/
theorem agreeOn_restrict (names : List String) (fields : Fields) :
    AgreeOn names (fields.restrict names) fields := by
  intro name hname
  rw [get?_restrict, if_pos hname]

end Fields

end CommentSearch
