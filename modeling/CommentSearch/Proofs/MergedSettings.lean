import Mathlib.Data.List.Nodup
import CommentSearch.Settings.Layers
import CommentSearch.Proofs.DistinctKeys

/-!
# Merged settings

What is read at a path of merged settings, and that a layer that is merged twice counts once
(`overlay_overlay`).

A layer finds a value at a path, or is blocked on the way by a value that is no object, or is silent
(`find`). Merged settings have the value that the upper layer finds, nothing where it is blocked,
and what the lower layer has where it is silent (`follow_overlayValue`). `Leaves` and `Hides` say
the last two by what stands on the way to the end of the path.
-/

namespace CommentSearch

namespace Fields

/-! ### Fields that are set -/

/-- A key has a field, and every field under it has the value. -/
def IsSet (fields : Fields) (key : String) (v : Value) : Prop :=
  (key, v) ∈ fields ∧ ∀ w, (key, w) ∈ fields → w = v

theorem isSet_set (fields : Fields) (key : String) (v : Value) :
    (fields.set key v).IsSet key v := by
  refine ⟨mem_of_get? (by rw [get?_set, if_pos rfl]), fun w hw => ?_⟩
  unfold set at hw
  split at hw
  · obtain ⟨⟨name, x⟩, -, heq⟩ := List.mem_map.1 hw
    by_cases hname : name = key
    · simpa [hname] using heq.symm
    · simp [hname] at heq
  · rename_i hnew
    rcases List.mem_append.1 hw with hw | hw
    · exact absurd (List.any_eq_true.2 ⟨_, hw, beq_self_eq_true key⟩) hnew
    · simpa using hw

namespace IsSet

variable {fields : Fields} {key : String} {v : Value}

theorem get?_eq (h : fields.IsSet key v) : fields.get? key = some v := by
  cases hget : Fields.get? fields key with
  | none => exact absurd rfl (get?_eq_none_iff.1 hget _ h.1)
  | some w => rw [h.2 w (mem_of_get? hget)]

theorem set_of_ne (h : fields.IsSet key v) {name : String} (hne : key ≠ name) (w : Value) :
    (fields.set name w).IsSet key v := by
  refine ⟨mem_of_get? (by rw [get?_set, if_neg hne, h.get?_eq]), fun x hx => ?_⟩
  rcases mem_set hx with heq | hx
  · exact absurd (congrArg Prod.fst heq) hne
  · exact h.2 x hx

/-- Setting what is set already changes nothing. -/
theorem set_eq (h : fields.IsSet key v) : fields.set key v = fields := by
  unfold set
  rw [if_pos (List.any_eq_true.2 ⟨_, h.1, beq_self_eq_true key⟩)]
  refine (List.map_congr_left fun field hfield => ?_).trans (List.map_id fields)
  obtain ⟨name, w⟩ := field
  by_cases hname : name = key
  · subst hname
    simp [h.2 w hfield]
  · simp [hname]

end IsSet

theorem isSet_of_nodup {fields : Fields} (h : fields.keys.Nodup) {field : String × Value}
    (hfield : field ∈ fields) : fields.IsSet field.1 field.2 := by
  refine ⟨hfield, fun w hw => ?_⟩
  exact congrArg Prod.snd (List.inj_on_of_nodup_map h hw hfield rfl)

end Fields

namespace Settings

/-! ### Merging -/

/-- A value with another above it: two objects are merged, and any other value stands alone. -/
def overlayValue (below : Param) (v : Value) : Value :=
  match below, v with
  | some (.object lower), .object upper => .object (overlay lower upper)
  | _, v => v

theorem overlayValue_of_fields?_eq_none {v : Value} (h : v.fields? = none) (below : Param) :
    overlayValue below v = v := by
  cases v with
  | object fields => cases h
  | null | bool | number | text | list => rcases below with - | (- | - | - | - | - | -) <;> rfl

theorem overlay_cons (lower : Fields) (key : String) (v : Value) (rest : Fields) :
    overlay lower ((key, v) :: rest) =
      overlay (if key = Fields.reservedKey then lower
        else lower.set key (overlayValue (lower.get? key) v)) rest := by
  cases v with
  | object upper =>
    rw [overlay]
    congr 3
    rcases lower.get? key with - | (- | - | - | - | - | -) <;> rfl
  | null | bool | number | text | list =>
    rw [overlay, overlayValue_of_fields?_eq_none rfl]
    simp

/-- Merged settings have under a key the two values that the layers have there, merged. -/
theorem get?_overlay {upper : Fields} (h : upper.keys.Nodup) (lower : Fields) {key : String}
    (hkey : key ≠ Fields.reservedKey) : (overlay lower upper).get? key =
      ((upper.get? key).map (overlayValue (lower.get? key))).or (lower.get? key) := by
  induction upper generalizing lower with
  | nil => rw [overlay]; rfl
  | cons field upper ih =>
    obtain ⟨name, v⟩ := field
    obtain ⟨hname, hupper⟩ := List.nodup_cons.1 h
    rw [overlay_cons, ih hupper, Fields.get?_cons]
    by_cases heq : key = name
    · subst heq
      have hnone : Fields.get? upper key = none :=
        Fields.get?_eq_none_iff.2 fun field hfield heq =>
          hname (List.mem_map.2 ⟨field, hfield, heq⟩)
      rw [if_neg hkey, hnone, Fields.get?_set, if_pos rfl, if_pos rfl]
      rfl
    · have hother : (if name = Fields.reservedKey then lower
          else lower.set name (overlayValue (lower.get? name) v)).get? key = lower.get? key := by
        split
        · rfl
        · rw [Fields.get?_set, if_neg heq]
      rw [hother, if_neg heq]

/-! ### Merging twice -/

theorem isSet_overlay_of_notMem {upper lower : Fields} {key : String} {w : Value}
    (h : key ∉ upper.keys) (hset : lower.IsSet key w) : (overlay lower upper).IsSet key w := by
  induction upper generalizing lower with
  | nil =>
    rw [overlay]
    exact hset
  | cons field upper ih =>
    obtain ⟨name, v⟩ := field
    obtain ⟨hne, hupper⟩ : key ≠ name ∧ key ∉ Fields.keys upper := by
      simpa [Fields.keys] using h
    rw [overlay_cons]
    refine ih hupper ?_
    split
    · exact hset
    · exact hset.set_of_ne hne _

/-- The upper layer sets the field of each of its keys. -/
theorem isSet_overlay {upper : Fields} (h : upper.keys.Nodup) (lower : Fields)
    {field : String × Value} (hfield : field ∈ upper) (hkey : field.1 ≠ Fields.reservedKey) :
    (overlay lower upper).IsSet field.1 (overlayValue (lower.get? field.1) field.2) := by
  induction upper generalizing lower with
  | nil => cases hfield
  | cons first upper ih =>
    obtain ⟨name, v⟩ := first
    obtain ⟨hname, hupper⟩ := List.nodup_cons.1 h
    rw [overlay_cons]
    rcases List.mem_cons.1 hfield with rfl | hmem
    · rw [if_neg hkey]
      exact isSet_overlay_of_notMem hname (Fields.isSet_set ..)
    · have hne : field.1 ≠ name := fun heq => hname (List.mem_map.2 ⟨field, hmem, heq⟩)
      have hother : (if name = Fields.reservedKey then lower
          else lower.set name (overlayValue (lower.get? name) v)).get? field.1 =
            lower.get? field.1 := by
        split
        · rfl
        · rw [Fields.get?_set, if_neg hne]
      rw [← hother]
      exact ih hupper _ hmem

/-- A layer that finds all of its fields set already changes nothing. -/
theorem overlay_eq_self {lower upper : Fields} (h : ∀ field ∈ upper,
    field.1 ≠ Fields.reservedKey →
      ∃ w, lower.IsSet field.1 w ∧ overlayValue (some w) field.2 = w) :
    overlay lower upper = lower := by
  induction upper with
  | nil => rw [overlay]
  | cons field upper ih =>
    obtain ⟨hfield, hupper⟩ := List.forall_mem_cons.1 h
    obtain ⟨name, v⟩ := field
    rw [overlay_cons]
    split
    · exact ih hupper
    · rename_i hkey
      obtain ⟨w, hset, heq⟩ := hfield hkey
      rw [hset.get?_eq, heq, hset.set_eq]
      exact ih hupper

/-- A value that is merged twice counts once. -/
theorem overlayValue_overlayValue {v : Value} (h : v.IsDistinct) (below : Param) :
    overlayValue (some (overlayValue below v)) v = overlayValue below v := by
  induction h generalizing below with
  | null | bool | number | text | list =>
    rw [overlayValue_of_fields?_eq_none rfl, overlayValue_of_fields?_eq_none rfl]
  | @object fields nodup each ih =>
    -- without an object below, the object is merged with itself
    have hself : overlay fields fields = fields :=
      overlay_eq_self fun field hfield _ =>
        ⟨field.2, Fields.isSet_of_nodup nodup hfield, by
          simpa [overlayValue] using ih field hfield none⟩
    have htwice (lower : Fields) : overlay (overlay lower fields) fields = overlay lower fields :=
      overlay_eq_self fun field hfield hkey =>
        ⟨_, isSet_overlay nodup lower hfield hkey, ih field hfield (lower.get? field.1)⟩
    rcases below with - | (- | - | - | - | - | lower)
    case some.object => exact congrArg Value.object (htwice lower)
    all_goals exact congrArg Value.object hself

theorem overlay_overlay {upper : Fields} (h : upper.IsDistinct) (lower : Fields) :
    overlay (overlay lower upper) upper = overlay lower upper :=
  Value.object.inj (overlayValue_overlayValue h (some (.object lower)))

/-! ### Paths -/

/-- What a value has at a path. -/
inductive Finding where
  /-- The path leads to a value. -/
  | found (v : Value)
  /-- A value that is no object stands before the end of the path. -/
  | blocked
  /-- An object on the way has no field for the next key. -/
  | silent

/-- What a path finds from a value. -/
def find : List String → Value → Finding
  | [], v => .found v
  | key :: keys, .object fields =>
    match Fields.get? fields key with
    | some v => find keys v
    | none => .silent
  | _ :: _, _ => .blocked

theorem follow_cons (key : String) (keys : List String) (v : Value) :
    follow (key :: keys) v = (v.get? key).bind (follow keys) :=
  rfl

/-- Following a path and then another from there is following the two in one. -/
theorem follow_append (start rest : List String) (v : Value) :
    follow (start ++ rest) v = (follow start v).bind (follow rest) := by
  induction start generalizing v with
  | nil => rfl
  | cons key start ih =>
    rw [List.cons_append, follow_cons, follow_cons]
    cases v.get? key with
    | none => rfl
    | some next => exact ih next

theorem find_eq_found {path : List String} {v w : Value} (h : follow path v = some w) :
    find path v = .found w := by
  induction path generalizing v with
  | nil => exact congrArg Finding.found (Option.some.inj h)
  | cons key keys ih =>
    rw [follow_cons] at h
    obtain ⟨next, hnext, hrest⟩ := Option.bind_eq_some_iff.1 h
    cases v with
    | object fields =>
      rw [Value.get?_object] at hnext
      rw [find, hnext]
      exact ih hrest
    | null | bool | number | text | list => cases hnext

/-- Nothing is found at a path from a value on which only objects stand, if it leads nowhere. -/
theorem find_eq_silent {path : List String} {v : Value} (hnone : follow path v = none)
    (hobjects : ∀ start, start <+: path → ∀ w, follow start v = some w → w.fields?.isSome) :
    find path v = .silent := by
  induction path generalizing v with
  | nil => cases hnone
  | cons key keys ih =>
    have hobject : v.fields?.isSome := hobjects [] List.nil_prefix v rfl
    cases v with
    | object fields =>
      rw [follow_cons, Value.get?_object] at hnone
      rw [find]
      cases hget : Fields.get? fields key with
      | none => rfl
      | some next =>
        rw [hget, Option.bind_some] at hnone
        refine ih hnone fun start hstart w hw => hobjects (key :: start) ?_ w ?_
        · exact List.cons_prefix_cons.2 ⟨rfl, hstart⟩
        · rw [follow_cons, Value.get?_object, hget, Option.bind_some, hw]
    | null | bool | number | text | list => cases hobject

theorem find_eq_blocked {start path : List String} {v w : Value} (hstart : start <+: path)
    (hne : start ≠ path) (hw : follow start v = some w) (hobject : w.fields? = none) :
    find path v = .blocked := by
  induction start generalizing path v with
  | nil =>
    obtain rfl := Option.some.inj hw
    cases path with
    | nil => exact absurd rfl hne
    | cons key keys =>
      cases v with
      | object fields => cases hobject
      | null | bool | number | text | list => rfl
  | cons key start ih =>
    obtain ⟨keys, rfl⟩ := hstart
    rw [follow_cons] at hw
    obtain ⟨next, hnext, hrest⟩ := Option.bind_eq_some_iff.1 hw
    cases v with
    | object fields =>
      rw [Value.get?_object] at hnext
      rw [List.cons_append, find, hnext]
      exact ih (List.prefix_append ..) (fun heq => hne (congrArg (key :: ·) heq)) hrest
    | null | bool | number | text | list => cases hnext

/-- What stands under a key of an object above a value: what both have there, merged. -/
theorem get?_overlayValue {upper : Fields} (h : upper.keys.Nodup) (below : Param) {key : String}
    (hkey : key ≠ Fields.reservedKey) : (overlayValue below (.object upper)).get? key =
      ((upper.get? key).map (overlayValue (below.bind (·.get? key)))).or
        (below.bind (·.get? key)) := by
  have halone : upper.get? key = ((upper.get? key).map (overlayValue none)).or none := by
    cases upper.get? key <;> rfl
  rcases below with - | (- | - | - | - | - | lower)
  case some.object => exact get?_overlay h lower hkey
  all_goals exact halone

/-- Merged values have at a path what the upper one finds there, merged with what stands below it,
and what the lower one has where the upper one is silent. -/
theorem follow_overlayValue {path : List String} (hpath : Fields.reservedKey ∉ path) {v : Value}
    (h : v.IsDistinct) (below : Param) : follow path (overlayValue below v) =
      match find path v with
      | .found w => some (overlayValue (below.bind (follow path)) w)
      | .blocked => none
      | .silent => below.bind (follow path) := by
  induction path generalizing v below with
  | nil =>
    have hbelow : below.bind (follow []) = below := by cases below <;> rfl
    rw [find, hbelow]
    rfl
  | cons key keys ih =>
    obtain ⟨hkey, hkeys⟩ : key ≠ Fields.reservedKey ∧ Fields.reservedKey ∉ keys := by
      rw [List.mem_cons, not_or] at hpath
      exact ⟨Ne.symm hpath.1, hpath.2⟩
    have hbelow : below.bind (follow (key :: keys)) =
        (below.bind (·.get? key)).bind (follow keys) := by
      cases below <;> rfl
    rw [follow_cons, hbelow]
    cases h with
    | null | bool | number | text | list =>
      rw [overlayValue_of_fields?_eq_none rfl]
      rfl
    | @object fields nodup each =>
      rw [get?_overlayValue nodup below hkey, find]
      cases hget : Fields.get? fields key with
      | none => rfl
      | some next => exact ih hkeys (each _ (Fields.mem_of_get? hget)) _

/-- A layer leaves a path to the layers below it: it has nothing at the path, and only objects on
the way there. -/
def Leaves (layer : Fields) (path : List String) : Prop :=
  follow path (.object layer) = none ∧
    ∀ start, start <+: path → ∀ v, follow start (.object layer) = some v → v.fields?.isSome

theorem follow_of_find_eq_silent {path : List String} {v : Value} (h : find path v = .silent) :
    follow path v = none ∧
      ∀ start, start <+: path → ∀ w, follow start v = some w → w.fields?.isSome := by
  induction path generalizing v with
  | nil => cases h
  | cons key keys ih =>
    cases v with
    | object fields =>
      rw [find] at h
      have hnil (w : Value) (hw : follow [] (.object fields) = some w) : w.fields?.isSome := by
        obtain rfl := Option.some.inj hw
        rfl
      cases hget : Fields.get? fields key with
      | none =>
        have hnone (rest : List String) : follow (key :: rest) (.object fields) = none := by
          rw [follow_cons, Value.get?_object, hget, Option.bind_none]
        refine ⟨hnone keys, fun start hstart w hw => ?_⟩
        rcases List.prefix_cons_iff.1 hstart with rfl | ⟨rest, rfl, -⟩
        · exact hnil w hw
        · rw [hnone] at hw
          cases hw
      | some next =>
        rw [hget] at h
        have hnext (rest : List String) :
            follow (key :: rest) (.object fields) = follow rest next := by
          rw [follow_cons, Value.get?_object, hget, Option.bind_some]
        obtain ⟨hnone, hobjects⟩ := ih h
        refine ⟨(hnext keys).trans hnone, fun start hstart w hw => ?_⟩
        rcases List.prefix_cons_iff.1 hstart with rfl | ⟨rest, rfl, hrest⟩
        · exact hnil w hw
        · exact hobjects rest hrest w ((hnext rest).symm.trans hw)
    | null | bool | number | text | list => cases h

theorem leaves_iff_find {layer : Fields} {path : List String} :
    Leaves layer path ↔ find path (.object layer) = .silent :=
  ⟨fun h => find_eq_silent h.1 h.2, follow_of_find_eq_silent⟩

/-- A layer hides what the layers below it have at a path: a value that is no object stands before
the end of the path. -/
def Hides (layer : Fields) (path : List String) : Prop :=
  ∃ start v, start <+: path ∧ start ≠ path ∧ follow start (.object layer) = some v ∧
    v.fields? = none

theorem follow_of_hides {layer : Fields} {path : List String} (h : Hides layer path) :
    follow path (.object layer) = none := by
  obtain ⟨start, w, ⟨rest, rfl⟩, hne, hw, hobject⟩ := h
  rw [follow_append, hw, Option.bind_some]
  cases rest with
  | nil => exact absurd (List.append_nil start).symm hne
  | cons key keys => rw [follow_cons, Value.get?, hobject]; rfl

section Overlay

variable {upper : Fields} {path : List String}

theorem follow_overlay_of_leaves (h : upper.IsDistinct) (hpath : Fields.reservedKey ∉ path)
    (hleaves : Leaves upper path) (lower : Fields) :
    follow path (.object (overlay lower upper)) = follow path (.object lower) := by
  have hfollow := follow_overlayValue hpath h (some (.object lower))
  rw [leaves_iff_find.1 hleaves] at hfollow
  exact hfollow

theorem follow_overlay_of_found (h : upper.IsDistinct) (hpath : Fields.reservedKey ∉ path)
    {v : Value} (hv : follow path (.object upper) = some v) (hobject : v.fields? = none)
    (lower : Fields) : follow path (.object (overlay lower upper)) = some v := by
  have hfollow := follow_overlayValue hpath h (some (.object lower))
  rw [find_eq_found hv] at hfollow
  exact hfollow.trans (congrArg some (overlayValue_of_fields?_eq_none hobject _))

theorem follow_overlay_of_hides (h : upper.IsDistinct) (hpath : Fields.reservedKey ∉ path)
    (hhides : Hides upper path) (lower : Fields) :
    follow path (.object (overlay lower upper)) = none := by
  obtain ⟨start, w, hstart, hne, hw, hobject⟩ := hhides
  have hfollow := follow_overlayValue hpath h (some (.object lower))
  rw [find_eq_blocked hstart hne hw hobject] at hfollow
  exact hfollow

end Overlay

end Settings

end CommentSearch
